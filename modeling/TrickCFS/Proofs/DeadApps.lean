import TrickCFS.Proofs.HostSteps

/-! For whose work the main thread waits at the end of a frame. The record of a
task outlives the task and its app, and `TrickWaitForCFSComplete` reads nothing
else, so it waits for the living as long as nobody dies with work in the record. -/

namespace TrickCFS

/-- The record that the main thread is blocked on, or comes back from with a timeout. -/
def MainPc.waitsOn : MainPc → Option Nat
  | .waiting ii _ | .timedOut ii _ => some ii
  | _ => none

/-- What the present occupant of an index has to do with the index's record:
whether it has acknowledged or been marked with anything yet, and how many
entries, at the front of the two lists, were there before it came. -/
structure Tenure where
  used : Bool
  inheritedMIDs : Nat
  inheritedStacks : Nat

namespace Tenure

/-- The entries that a completion takes off may be among those from before. -/
def complete (task : TaskIPC) (currStack : StackInfo) (tenure : Tenure) : Tenure where
  used := tenure.used
  inheritedMIDs :=
    match task.retiredMID with
    | some mid =>
      if task.triggeredMIDs.idxOf mid < tenure.inheritedMIDs then tenure.inheritedMIDs - 1
      else tenure.inheritedMIDs
    | none => tenure.inheritedMIDs
  inheritedStacks :=
    if task.stackList.findIdx currStack.foundEntry < tenure.inheritedStacks then tenure.inheritedStacks - 1
    else tenure.inheritedStacks

def use (tenure : Tenure) : Tenure := { tenure with used := true }

def clearTriggered (tenure : Tenure) : Tenure := { tenure with inheritedMIDs := 0 }

/-- All entries have come in the time of the occupant. -/
def Clean (tenure : Tenure) : Prop := tenure.inheritedMIDs = 0 ∧ tenure.inheritedStacks = 0

end Tenure

/-- Entries come at the end of the lists, so those from before a creation stay in
front. They go one by one, or with a clear of `triggeredMIDs`. -/
def tenures (config : Config) : Machine.Monitor Host HostEvent (Nat → Tenure) where
  start := fun _ => ⟨false, 0, 0⟩
  record := fun tenures state event =>
    match event with
    | .createTask taskId _ _ =>
      Function.update tenures taskId
        ⟨false, (state.task taskId).triggeredMIDs.length, (state.task taskId).stackList.length⟩
    | .thread .main =>
      match state.threads.main with
      | .timedOut ii remainingTime =>
        if state.threads.exitCmd = false ∧ Threads.remainingAfter config remainingTime ≤ 0 then
          Function.update tenures ii (tenures ii).clearTriggered
        else tenures
      | _ => tenures
    | .thread .scheduler =>
      match state.threads.scheduler with
      | .marking taskId _ =>
        if state.isRunning taskId then Function.update tenures taskId (tenures taskId).use else tenures
      | .checking taskId _ _ _ _ =>
        if state.isRunning taskId then tenures
        else Function.update tenures taskId (tenures taskId).clearTriggered
      | _ => tenures
    | .thread (.acknowledge taskId mid _) =>
      if mid ∈ (state.task taskId).triggeredMIDs then Function.update tenures taskId (tenures taskId).use
      else tenures
    | .thread (.complete taskId currStack) =>
      Function.update tenures taskId ((tenures taskId).complete (state.task taskId) currStack)
    | _ => tenures

namespace Proofs.DeadApps
open Threads

variable {config : Config} {state next : Host} {history : Nat → Tenure} {event : HostEvent} {taskId : Nat}

/-- The index has a live task of a RUNNING app that has been given work, and all
the work in the record has come in its time. -/
structure Occupied (watched : Host × (Nat → Tenure)) (taskId : Nat) : Prop where
  live : watched.1.isLive taskId
  running : watched.1.isRunning taskId
  used : (watched.2 taskId).used = true
  own : (watched.2 taskId).Clean

def WaitsForTheLiving (watched : Host × (Nat → Tenure)) : Prop :=
  ∀ taskId, watched.1.threads.main.waitsOn = some taskId → Occupied watched taskId

def Ends (state : Host) (taskId : Nat) : HostEvent → Prop
  | .stopApp appId => state.threads.es.taskTable taskId = appId
  | .deleteTask other => other = taskId
  | _ => False

/-- Tasks end with an idle record for which nobody waits, and only live tasks are
marked with a message. -/
structure Orderly (watched : Host × (Nat → Tenure)) (event : HostEvent) : Prop where
  ends : ∀ taskId, Ends watched.1 taskId event →
    (watched.1.task taskId).Idle ∧ watched.1.threads.main.waitsOn ≠ some taskId
  marks : ∀ taskId mid, event = .thread .scheduler → watched.1.threads.scheduler = .marking taskId mid →
    watched.1.isRunning taskId → watched.1.isLive taskId

private theorem main_waits {threads moved : Threads} (taken : threads.mainStep config = some moved)
    (waits : moved.main.waitsOn = some taskId) :
    threads.main.waitsOn = some taskId ∨ ¬ (threads.task taskId).Idle := by
  cases mainStep_cases taken with
  | read =>
    cases mode : config.perfectScheduleMode <;> simp [mode, MainPc.waitsOn] at waits
  | blocked _ _ _ outstanding =>
    cases waits
    exact Or.inr (TaskIPC.not_idle_of_outstanding outstanding)
  | resumed timedOut =>
    cases waits
    exact Or.inl (by rw [timedOut]; rfl)
  | scanned | passed | rescanned | exited | expired | called | updated | triggered => cases waits

private theorem waits_begin {threads moved : Threads} {threadEvent : ThreadEvent}
    (taken : threads.step config threadEvent = some moved) (waits : moved.main.waitsOn = some taskId) :
    threads.main.waitsOn = some taskId ∨ ¬ (threads.task taskId).Idle := by
  by_cases isMain : threadEvent = .main
  · subst isMain
    exact main_waits taken waits
  · left
    rcases step_main isMain taken with same | ⟨ii, remainingTime, waiting, woken | timedOut⟩
    · rwa [← same]
    · rw [woken] at waits
      cases waits
    · rw [timedOut] at waits
      rwa [waiting]

private theorem tenure_kept (holds : Tenure → Prop) (held : holds (history taskId))
    (used : holds (history taskId).use) (cleared : holds (history taskId).clearTriggered)
    (completed : ∀ task currStack, holds ((history taskId).complete task currStack)) (threadEvent : ThreadEvent) :
    holds ((tenures config).record history state (.thread threadEvent) taskId) := by
  have updated {change : Tenure → Tenure} (kept : holds (change (history taskId))) (other : Nat) :
      holds (Function.update history other (change (history other)) taskId) := by
    by_cases same : taskId = other
    · subst other
      rwa [Function.update_self]
    · rwa [Function.update_of_ne same]
  cases threadEvent with
  | main =>
    cases main : state.threads.main with
    | timedOut ii remainingTime =>
      simp only [tenures, main]
      split
      · exact updated cleared ii
      · exact held
    | _ => simpa only [tenures, main] using held
  | scheduler =>
    cases scheduler : state.threads.scheduler with
    | marking other mid =>
      simp only [tenures, scheduler]
      split
      · exact updated used other
      · exact held
    | checking other entries reqTriggers numTriggers numCompletes =>
      simp only [tenures, scheduler]
      split
      · exact held
      · exact updated cleared other
    | _ => simpa only [tenures, scheduler] using held
  | acknowledge other mid newStack =>
    simp only [tenures]
    split
    · exact updated used other
    · exact held
  | complete other currStack => exact updated (completed _ currStack) other
  | _ => exact held

private theorem complete_clean {tenure : Tenure} (clean : tenure.Clean) (task : TaskIPC) (currStack : StackInfo) :
    (tenure.complete task currStack).Clean := by
  obtain ⟨noMIDs, noStacks⟩ := clean
  constructor
  · simp only [Tenure.complete, noMIDs, Nat.not_lt_zero, if_false]
    split <;> rfl
  · simp only [Tenure.complete, noStacks, Nat.not_lt_zero, if_false]

private theorem thread_clean {threadEvent : ThreadEvent} (clean : (history taskId).Clean) :
    ((tenures config).record history state (.thread threadEvent) taskId).Clean :=
  tenure_kept Tenure.Clean clean clean ⟨rfl, clean.2⟩ (complete_clean clean) threadEvent

private theorem occupied_kept (occupied : Occupied (state, history) taskId) (unended : ¬ Ends state taskId event)
    (taken : state.step config event = some next) :
    Occupied (next, (tenures config).record history state event) taskId := by
  obtain ⟨live, running, used, own⟩ := occupied
  cases event with
  | thread threadEvent =>
    obtain ⟨stepped, slots, _⟩ := Host.step_thread taken
    refine ⟨?_, ?_, ?_, thread_clean own⟩
    · simpa only [Host.isLive, slots] using live
    · simpa only [Host.isRunning, (step_fixed stepped).1] using running
    · exact tenure_kept (fun tenure => tenure.used = true) used rfl used (fun _ _ => used) threadEvent
  | stopApp appId =>
    cases taken
    refine ⟨live, ?_, used, own⟩
    simp only [Host.isRunning, EsGlobal.locateAppRecord, Threads.stopApp, EsGlobal.stopApp]
    rw [Function.update_of_ne unended]
    exact running
  | createTask other appId registered =>
    obtain ⟨_, free, slots, taskTable, appTable⟩ := Host.createTask_some taken
    have different : taskId ≠ other := by
      rintro rfl
      simp [Host.isLive, free] at live
    have same : (tenures config).record history state (.createTask other appId registered) taskId = history taskId :=
      Function.update_of_ne different ..
    refine ⟨?_, ?_, (congrArg Tenure.used same).trans used, (congrArg Tenure.Clean same).mpr own⟩
    · simpa only [Host.isLive, slots, Function.update_of_ne different] using live
    · simpa only [Host.isRunning, EsGlobal.locateAppRecord, taskTable, appTable,
        Function.update_of_ne different] using running
  | deleteTask other =>
    obtain ⟨_, rfl⟩ := Host.deleteTask_some taken
    have different : taskId ≠ other := fun same => unended same.symm
    refine ⟨?_, running, used, own⟩
    simpa only [Host.isLive, Host.setSlot, Function.update_of_ne different] using live
  | exitCommand =>
    cases taken
    exact ⟨live, running, used, own⟩

/-- Every record with work, and every record waited for, has a living occupant,
and no occupant has found work in its record. -/
structure Owned (watched : Host × (Nat → Tenure)) : Prop where
  work : ∀ taskId, ¬ (watched.1.task taskId).Idle → Occupied watched taskId
  clean : ∀ taskId, (watched.2 taskId).Clean
  waits : WaitsForTheLiving watched

namespace Owned

private theorem creation_clean (owned : Owned (state, history)) {other appId : Nat} {registered : Bool}
    (taken : state.createTask config other appId registered = some next) (taskId : Nat) :
    ((tenures config).record history state (.createTask other appId registered) taskId).Clean := by
  by_cases same : taskId = other
  · subst other
    obtain ⟨_, free, _⟩ := Host.createTask_some taken
    have idle : (state.task taskId).Idle := by
      by_contra work
      have live := (owned.work taskId work).live
      simp [Host.isLive, free] at live
    simp only [tenures, Function.update_self, idle.1, idle.2]
    exact ⟨rfl, rfl⟩
  · simpa only [tenures, Function.update_of_ne same] using owned.clean taskId

theorem step_preserves (owned : Owned (state, history)) (orderly : Orderly (state, history) event)
    (taken : state.step config event = some next) :
    Owned (next, (tenures config).record history state event) := by
  have worked (taskId : Nat) (work : ¬ (state.task taskId).Idle) :
      Occupied (next, (tenures config).record history state event) taskId :=
    occupied_kept (owned.work taskId work) (fun ends => work (orderly.ends taskId ends).1) taken
  have waited (taskId : Nat) (waits : state.threads.main.waitsOn = some taskId) :
      Occupied (next, (tenures config).record history state event) taskId :=
    occupied_kept (owned.waits taskId waits) (fun ends => (orderly.ends taskId ends).2 waits) taken
  cases event with
  | thread threadEvent =>
    obtain ⟨stepped, slots, _⟩ := Host.step_thread taken
    have clean (taskId : Nat) :
        ((tenures config).record history state (.thread threadEvent) taskId).Clean :=
      thread_clean (owned.clean taskId)
    refine ⟨?_, clean, ?_⟩
    · intro taskId work
      by_cases idle : (state.threads.task taskId).Idle
      · rcases (step_moves stepped taskId).idle idle with ⟨triggered, stack, _⟩ | ⟨rfl, running, mid, marking⟩
        · exact absurd ⟨triggered.trans idle.1, stack.trans idle.2⟩ work
        · have live := orderly.marks taskId mid rfl marking running
          refine ⟨?_, ?_, ?_, clean taskId⟩
          · simpa only [Host.isLive, slots] using live
          · simpa only [Host.isRunning, (step_fixed stepped).1] using running
          · have marked : state.isRunning taskId := running
            simp only [tenures, marking, marked, if_true, Function.update_self, Tenure.use]
      · exact worked taskId idle
    · intro taskId waits
      rcases waits_begin stepped waits with before | work
      · exact waited taskId before
      · exact worked taskId work
  | stopApp | createTask | deleteTask | exitCommand =>
    obtain ⟨iface, main, _⟩ := Host.lifecycle_keeps (by simp) taken
    refine ⟨?_, ?_, ?_⟩
    · intro taskId work
      apply worked taskId
      simpa only [Host.task, Threads.task, iface] using work
    · first | exact owned.clean | exact owned.creation_clean taken
    · intro taskId waits
      apply waited taskId
      rwa [← main]

end Owned

def markedTask : List HostEvent :=
  .createTask 0 3 true ::
    ([.scheduler, .scheduler, .main, .main, .main, .startRun, .main, .main, .main,
      .scheduler, .send 5 7, .scheduler, .scheduler, .scheduler] : List ThreadEvent).map .thread

def frameEnd : List HostEvent := [.thread .main, .thread .main]

private theorem orderly_thread {watched : Host × (Nat → Tenure)} {threadEvent : ThreadEvent}
    (live : ∀ taskId mid, watched.1.threads.scheduler = .marking taskId mid → watched.1.isLive taskId) :
    Orderly watched (.thread threadEvent) :=
  ⟨fun _ ends => ends.elim, fun taskId mid _ marking _ => live taskId mid marking⟩

end Proofs.DeadApps
end TrickCFS
