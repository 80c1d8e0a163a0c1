import TrickCFS.Proofs.FreeRunning

/-! Frames in which nothing is marked. The main thread and the scheduler alone
can carry a calm state from one return of `TrickWaitForCFSComplete` to the
next, counting each record's delay down once on the way. -/

namespace TrickCFS

def updatesOf (taskId : Nat) : Machine.Monitor Threads ThreadEvent Nat where
  start := 0
  record := fun updates state event =>
    if event = .main ∧ state.main = .updating taskId then updates + 1 else updates

namespace Threads

/-- No work is outstanding and none is on its way. -/
structure Calm (mode : ExecMode) (state : Threads) : Prop where
  free : FreeRunning state
  locked : LockStep state
  mode : state.execMode = mode
  unmarked : ∀ taskId mid, state.scheduler ≠ .marking taskId mid
  idle : ∀ taskId, (state.task taskId).triggeredMIDs = [] ∧ (state.task taskId).stackList = []

namespace Calm
variable {config : Config} {state next : Threads} {mode : ExecMode}

theorem not_outstanding (calm : Calm mode state) (taskId : Nat) : ¬ (state.task taskId).Outstanding := by
  obtain ⟨triggered, stack⟩ := calm.idle taskId
  simp [TaskIPC.Outstanding, triggered, stack]

private theorem main_keeps_mode (taken : state.mainStep config = some next) :
    next.execMode = state.execMode := by
  cases mainStep_cases taken <;> rfl

private theorem scheduler_unmarked (unmarked : ∀ taskId mid, state.scheduler ≠ .marking taskId mid)
    (taken : state.schedulerStep config = some next) (taskId mid : Nat) :
    next.scheduler ≠ .marking taskId mid := by
  cases schedulerStep_cases taken with
  | began => cases mode : config.perfectScheduleMode <;> simp [beginSignal, mode]
  | marked marking => exact False.elim (unmarked _ _ marking)
  | woken | finished | entered | visited | undelayed | granted | acknowledged | polled | checked
  | abandoned | completed => simp

private theorem step_idle (calm : Calm mode state) {event : ThreadEvent}
    (taken : state.step config event = some next)
    (taskId : Nat) : (next.task taskId).triggeredMIDs = [] ∧ (next.task taskId).stackList = [] := by
  have idle : (state.task taskId).Idle := calm.idle taskId
  rcases (step_moves taken taskId).idle idle with ⟨triggered, stack, _⟩ | ⟨_, _, mid, marking⟩
  · exact ⟨triggered.trans idle.1, stack.trans idle.2⟩
  · exact False.elim (calm.unmarked taskId mid marking)

theorem step_preserves (free : config.perfectScheduleMode = false) (calm : Calm mode state)
    {event : ThreadEvent} (ours : event = .main ∨ event = .scheduler)
    (taken : state.step config event = some next) : Calm mode next := by
  refine ⟨calm.free.step_preserves free taken, calm.locked.step_preserves taken, ?_, ?_,
    step_idle calm taken⟩
  · rcases ours with rfl | rfl
    · exact (main_keeps_mode taken).trans calm.mode
    · exact (schedulerEvent_main (Or.inl rfl) taken).2.2.2.1.trans calm.mode
  · intro taskId mid
    rcases ours with rfl | rfl
    · rw [(mainEvent_scheduler rfl (by simp) (by simp) taken).1]
      exact calm.unmarked taskId mid
    · exact scheduler_unmarked calm.unmarked taken taskId mid

end Calm

section Frames
variable (system : Machine Threads ThreadEvent) (taskId : Nat)

def Advances (mode : ExecMode) (first last : Threads × Nat) : Prop :=
  Calm mode last.1 ∧ last.1.es = first.1.es ∧ last.1.tasks = first.1.tasks ∧
    ∃ events, (∀ event ∈ events, event = .main ∨ event = .scheduler) ∧
      (system.watch (updatesOf taskId)).runFrom first events = some last

variable {config : Config} {state next : Threads} {mode : ExecMode}

namespace Advances
variable {system taskId} {first middle last : Threads × Nat}

theorem refl (calm : Calm mode first.1) : Advances system taskId mode first first :=
  ⟨calm, rfl, rfl, [], by simp, rfl⟩

theorem trans (one : Advances system taskId mode first middle)
    (two : Advances system taskId mode middle last) : Advances system taskId mode first last := by
  obtain ⟨_, es, tasks, before, earlier, reached⟩ := one
  obtain ⟨calm, es', tasks', after, later, rest⟩ := two
  refine ⟨calm, es'.trans es, tasks'.trans tasks, before ++ after, ?_, ?_⟩
  · intro event member
    exact (List.mem_append.mp member).elim (earlier event) (later event)
  · exact (Machine.runFrom_append _).mpr ⟨middle, reached, rest⟩

end Advances

variable (stepped : system.step = Threads.step config) (free : config.perfectScheduleMode = false)
include stepped free

theorem Advances.step (calm : Calm mode state) {event : ThreadEvent}
    (ours : event = .main ∨ event = .scheduler) (taken : state.step config event = some next) (updates : Nat) :
    Advances system taskId mode (state, updates)
      (next, (updatesOf taskId).record updates state event) := by
  have tasks : next.tasks = state.tasks := by
    rcases ours with rfl | rfl
    · exact (mainEvent_scheduler rfl (by simp) (by simp) taken).2.2.2.1
    · exact (schedulerEvent_main (Or.inl rfl) taken).2.2.2.2
  refine ⟨calm.step_preserves free ours taken, (step_fixed taken).1, tasks, [event], ?_, ?_⟩
  · intro other member
    rw [List.mem_singleton.mp member]
    exact ours
  · rw [← stepped] at taken
    exact (Machine.runFrom_cons _).mpr ⟨_, (Machine.watch_step _).mpr ⟨taken, rfl⟩, rfl⟩

theorem Advances.uncounted (calm : Calm mode state) {event : ThreadEvent}
    (ours : event = .main ∨ event = .scheduler) (taken : state.step config event = some next) (updates : Nat)
    (elsewhere : event = .main → state.main ≠ .updating taskId) :
    Advances system taskId mode (state, updates) (next, updates) := by
  have advanced := Advances.step system taskId stepped free calm ours taken updates
  have same : (updatesOf taskId).record updates state event = updates :=
    if_neg (fun both => elsewhere both.1 both.2)
  rwa [same] at advanced

private theorem scan_returns {state : Threads} {ii : Nat} (calm : Calm mode state) (scanning : state.main = .scanning ii)
    (updates : Nat) :
    ∃ after, Advances system taskId mode (state, updates) (after, updates) ∧ after.main = .returned := by
  have unstopped := calm.free.unstopped
  by_cases more : ii < state.es.registeredTasks
  · have taken : state.step config .main = some (state.setMain (.scanning (ii + 1))) := by
      simp [Threads.step, mainStep, scanning, scan, more, unstopped, calm.not_outstanding]
    have advanced := Advances.uncounted system taskId stepped free calm (Or.inl rfl) taken updates
      (by simp [scanning])
    obtain ⟨after, rest, returned⟩ := scan_returns advanced.1 rfl updates
    exact ⟨after, advanced.trans rest, returned⟩
  · have taken : state.step config .main = some (state.setMain .returned) := by
      simp [Threads.step, mainStep, scanning, scan, more]
    exact ⟨_, .uncounted system taskId stepped free calm (Or.inl rfl) taken updates (by simp [scanning]), rfl⟩
termination_by state.es.registeredTasks - ii
decreasing_by
  simp only [setMain]
  omega

private theorem update_triggers (slot : taskId < config.maxTasks) {state : Threads} {ii : Nat}
    (calm : Calm mode state) (updating : state.main = .updating ii) (updates : Nat) :
    ∃ after, Advances system taskId mode (state, updates)
        (after, updates + if ii ≤ taskId then 1 else 0) ∧
      after.main = .reading ∧ after.iface.triggerMain ≠ 0 := by
  by_cases more : ii < config.maxTasks
  · have taken : state.step config .main = some
        ((state.setTask ii (TaskIPC.updateTaskTimes config.cycleTics)).setMain (.updating (ii + 1))) := by
      simp [Threads.step, mainStep, updating, updateRecord, more]
    have advanced := Advances.step system taskId stepped free calm (Or.inl rfl) taken updates
    obtain ⟨after, rest, reading, triggered⟩ := update_triggers slot advanced.1 rfl _
    refine ⟨after, ?_, reading, triggered⟩
    have total := advanced.trans rest
    have counted : ((updatesOf taskId).record updates state .main +
        if ii + 1 ≤ taskId then 1 else 0) = updates + if ii ≤ taskId then 1 else 0 := by
      simp only [updatesOf, updating, MainPc.updating.injEq, true_and]
      split_ifs <;> omega
    rwa [counted] at total
  · have taken : state.step config .main = some { state with
        iface := { state.iface with triggerMain := state.iface.triggerMain + 1 }
        main := .reading } := by
      simp [Threads.step, mainStep, updating, updateRecord, more]
    have past : ¬ ii ≤ taskId := by omega
    rw [if_neg past, Nat.add_zero]
    refine ⟨_, .uncounted system taskId stepped free calm (Or.inl rfl) taken updates ?_, rfl, by simp⟩
    intro _ same
    rw [updating] at same
    cases same
    exact past (Nat.le_refl _)
termination_by config.maxTasks - ii

private theorem completing_returns (calm : Calm mode state) (completing : state.scheduler = .completing)
    (updates : Nat) :
    ∃ after, Advances system taskId mode (state, updates) (after, updates) ∧ after.main = .returned := by
  have reading := calm.locked.busy (by simp [completing])
  have taken : state.step config .scheduler = some { state with
      iface := { state.iface with isMainCompleteTrigger := state.iface.isMainCompleteTrigger + 1 }
      scheduler := .waiting } := by
    simp [Threads.step, schedulerStep, completing]
  have posted := Advances.uncounted system taskId stepped free calm (Or.inr rfl) taken updates (by simp)
  have read : ({ state with
      iface := { state.iface with isMainCompleteTrigger := state.iface.isMainCompleteTrigger + 1 }
      scheduler := .waiting } : Threads).step config .main = some { state with
        iface := { state.iface with isMainCompleteTrigger := 0 }
        scheduler := .waiting
        main := .scanning 0 } := by
    simp [Threads.step, mainStep, reading, free]
  have scanned := Advances.uncounted system taskId stepped free posted.1 (Or.inl rfl) read updates
    (by simp [reading])
  obtain ⟨after, rest, returned⟩ := scan_returns system taskId stepped free scanned.1 rfl updates
  exact ⟨after, (posted.trans scanned).trans rest, returned⟩

private theorem frame_returns (slot : taskId < config.maxTasks) (calm : Calm .run state)
    (returned : state.main = .returned) (updates : Nat) :
    ∃ after, Advances system taskId .run (state, updates) (after, updates + 1) ∧
      after.main = .returned := by
  have started : state.step config .main = some (state.setMain (.updating 0)) := by
    simp [Threads.step, mainStep, returned, calm.mode]
  have updating := Advances.uncounted system taskId stepped free calm (Or.inl rfl) started updates
    (by simp [returned])
  obtain ⟨updated, counted, reading, triggered⟩ :=
    update_triggers system taskId stepped free slot updating.1 rfl updates
  rw [if_pos (Nat.zero_le taskId)] at counted
  have waits : updated.scheduler = .waiting := (counted.1.locked.posted (Or.inr triggered)).1.2
  have woken : updated.step config .scheduler = some { updated with
      iface := { updated.iface with triggerMain := 0 }
      scheduler := .processing } := by
    simp [Threads.step, schedulerStep, waits, triggered]
  have processing := Advances.uncounted system taskId stepped free counted.1 (Or.inr rfl) woken
    (updates + 1) (by simp)
  have signalled : ({ updated with
      iface := { updated.iface with triggerMain := 0 }
      scheduler := .processing } : Threads).step config .scheduler = some { updated with
        iface := { updated.iface with triggerMain := 0 }
        scheduler := .completing } := by
    simp [Threads.step, schedulerStep, beginSignal, setScheduler, free]
  have completing := Advances.uncounted system taskId stepped free processing.1 (Or.inr rfl) signalled
    (updates + 1) (by simp)
  obtain ⟨after, rest, done⟩ :=
    completing_returns system taskId stepped free completing.1 rfl (updates + 1)
  exact ⟨after, (((updating.trans counted).trans processing).trans completing).trans rest, done⟩

/-- Any number of updates of a record can be reached from a calm return. -/
theorem frames_return (slot : taskId < config.maxTasks) (calm : Calm .run state)
    (returned : state.main = .returned) (updates : Nat) :
    ∃ after, Advances system taskId .run (state, 0) (after, updates) ∧ after.main = .returned := by
  induction updates with
  | zero => exact ⟨state, .refl calm, returned⟩
  | succ updates ih =>
    obtain ⟨middle, reached, returned⟩ := ih
    obtain ⟨after, frame, done⟩ := frame_returns system taskId stepped free slot reached.1 returned updates
    exact ⟨after, reached.trans frame, done⟩

end Frames

theorem reachable_run (config : Config) (free : config.perfectScheduleMode = false)
    (registeredTasks : Nat) (taskTable priority : Nat → Nat) :
    ∃ state, (threads config registeredTasks taskTable priority).Reachable state ∧
      Calm .run state ∧ state.main = .returned ∧ state.tasks = fun _ => .running := by
  let system := threads config registeredTasks taskTable priority
  have calm : Calm .initialization system.initial :=
    ⟨.initial config, .initial config, rfl, by simp [system, threads], fun _ => ⟨rfl, rfl⟩⟩
  have taken : system.initial.step config .scheduler = some (system.initial.setScheduler .completing) := by
    simp [Threads.step, schedulerStep, beginSignal, system, threads, free]
  have completing := Advances.uncounted system 0 rfl free calm (Or.inr rfl) taken 0 (by simp)
  obtain ⟨after, rest, returned⟩ := completing_returns system 0 rfl free completing.1 rfl 0
  obtain ⟨calm, _, tasks, events, _, ran⟩ := completing.trans rest
  have reachable : system.Reachable after := Machine.Reachable.unwatched ⟨events, ran⟩
  have mode : after.execMode = .initialization := calm.mode
  have started : after.step config .startRun = some { after with execMode := .run } := by
    simp [Threads.step, returned, mode]
  have running : system.step after .startRun = some { after with execMode := .run } := started
  exact ⟨_, reachable.step running, ⟨calm.free.step_preserves free started,
    calm.locked.step_preserves started, rfl, calm.unmarked, calm.idle⟩, returned, tasks⟩

end Threads
end TrickCFS
