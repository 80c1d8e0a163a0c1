import TrickCFS.Proofs.HostSteps

/-! What a thread is bound to do with a few steps of its own, whatever the others
do in between: the main thread leaves its wait after the exit command, and the
scheduler gets past the tasks whose apps have died. -/

namespace TrickCFS.Proofs.BoundedReturns
open Threads

variable {config : Config} {state next : Threads} {event : ThreadEvent}

section Exit

def InWait : MainPc → Prop
  | .scanning _ | .waiting _ _ | .woken _ | .timedOut _ _ => True
  | .reading | .returned | .updating _ => False

def exitRank : MainPc → Nat
  | .waiting _ _ => 3
  | .woken _ | .timedOut _ _ => 2
  | .scanning _ => 1
  | .reading | .returned | .updating _ => 0

def isMain : ThreadEvent → Bool
  | .main | .mainTimeout | .mainSpurious => true
  | _ => false

/-- The exit command has been given, and the main thread is in the loop over the
tasks or has returned. The read in front of that loop is not part of it. -/
structure Exiting (state : Threads) : Prop where
  stopped : state.exitCmd = true
  place : InWait state.main ∨ state.main = .returned

private theorem mainStep_exits (stopped : state.exitCmd = true) (inWait : InWait state.main)
    (taken : state.mainStep config = some next) :
    (InWait next.main ∨ next.main = .returned) ∧ exitRank next.main + 1 ≤ exitRank state.main := by
  cases mainStep_cases taken with
  | read place | called place | updated place | triggered place =>
    rw [place] at inWait
    exact False.elim inWait
  | passed _ _ unstopped | blocked _ _ unstopped | expired _ unstopped | resumed _ unstopped =>
    rw [stopped] at unstopped
    cases unstopped
  | scanned place =>
    rw [place]
    exact ⟨Or.inr rfl, Nat.le_refl _⟩
  | rescanned place | exited place =>
    rw [place]
    exact ⟨Or.inl trivial, Nat.le_refl _⟩

private theorem others_exit (exiting : Exiting state) (away : event ≠ .main)
    (taken : state.step config event = some next) :
    (InWait next.main ∨ next.main = .returned) ∧ exitRank next.main ≤ exitRank state.main := by
  rcases step_main away taken with same | ⟨ii, remainingTime, waiting, woken | timedOut⟩
  · rw [same]
    exact ⟨exiting.place, Nat.le_refl _⟩
  · rw [waiting, woken]
    exact ⟨Or.inl trivial, by simp [exitRank]⟩
  · rw [waiting, timedOut]
    exact ⟨Or.inl trivial, by simp [exitRank]⟩

theorem exiting_step (exiting : Exiting state) (away : state.main ≠ .returned)
    (taken : state.step config event = some next) :
    Exiting next ∧ exitRank next.main + (if isMain event then 1 else 0) ≤ exitRank state.main := by
  have inWait := exiting.place.resolve_right away
  have stopped : next.exitCmd = true := (step_fixed taken).2.trans exiting.stopped
  suffices moved : (InWait next.main ∨ next.main = .returned) ∧
      exitRank next.main + (if isMain event then 1 else 0) ≤ exitRank state.main from
    ⟨⟨stopped, moved.1⟩, moved.2⟩
  cases event with
  | main => exact mainStep_exits exiting.stopped inWait taken
  | mainTimeout | mainSpurious =>
    simp only [step] at taken
    split at taken
    next waiting =>
      cases taken
      rw [waiting]
      exact ⟨Or.inl trivial, Nat.le_refl _⟩
    next => cases taken
  | startRun | scheduler | send | createQueue | receive | complete | acknowledge | noMessage | delay | leave =>
    exact others_exit exiting (by simp) taken

theorem exiting_enabled (inWait : InWait state.main) :
    ∃ event next, isMain event = true ∧ event.taskOf = none ∧ state.step config event = some next := by
  cases place : state.main with
  | scanning ii => exact ⟨.main, _, rfl, rfl, by simp only [step, mainStep, place]; rfl⟩
  | woken ii => exact ⟨.main, _, rfl, rfl, by simp only [step, mainStep, place]; rfl⟩
  | timedOut ii remainingTime => exact ⟨.main, _, rfl, rfl, by simp only [step, mainStep, place]; rfl⟩
  | waiting ii remainingTime => exact ⟨.mainTimeout, _, rfl, rfl, by simp only [step, place]; rfl⟩
  | reading | returned | updating => simp [place, InWait] at inWait

def ofMain : HostEvent → Bool
  | .thread event => isMain event
  | _ => false

private theorem host_exiting {host after : Host} {event : HostEvent} (exiting : Exiting host.threads)
    (away : host.threads.main ≠ .returned) (taken : host.step config event = some after) :
    Exiting after.threads ∧
      exitRank after.threads.main + (if ofMain event then 1 else 0) ≤ exitRank host.threads.main := by
  cases event with
  | thread event => exact exiting_step exiting away (Host.step_thread taken).1
  | stopApp appId =>
    cases taken
    exact ⟨⟨exiting.stopped, exiting.place⟩, Nat.le_refl _⟩
  | exitCommand =>
    cases taken
    exact ⟨⟨rfl, exiting.place⟩, Nat.le_refl _⟩
  | createTask taskId appId registered =>
    simp only [Host.step, Host.createTask] at taken
    obtain ⟨_, taken⟩ := Option.ite_none_right_eq_some.mp taken
    cases taken
    exact ⟨⟨exiting.stopped, exiting.place⟩, Nat.le_refl _⟩
  | deleteTask taskId =>
    obtain ⟨_, rfl⟩ := Host.deleteTask_some taken
    exact ⟨⟨exiting.stopped, exiting.place⟩, Nat.le_refl _⟩

/-- The exit command ends the loop over the tasks. Whatever the apps and tasks do,
`TrickWaitForCFSComplete` returns within three more steps of the main thread, the
end of a timed wait included, and one of these is always possible. -/
theorem exit_leaves_wait (config : Config) (priority : Nat → Nat) {state final : Host} {events : List HostEvent}
    (exiting : Exiting state.threads) (ran : (host config priority).runFrom state events = some final) :
    (3 ≤ events.countP ofMain → ∃ before after middle, events = before ++ after ∧
      (host config priority).runFrom state before = some middle ∧ middle.threads.main = .returned ∧
      before.countP ofMain ≤ 3) ∧
    (InWait state.threads.main → ∃ event next, ofMain event = true ∧ state.step config event = some next) := by
  have few : exitRank state.threads.main ≤ 3 := by
    cases state.threads.main <;> simp [exitRank]
  constructor
  · intro many
    obtain ⟨before, after, middle, split, reached, returned, bound⟩ :=
      (host config priority).reaches_within (fun host => Exiting host.threads)
        (fun host => host.threads.main = .returned) ofMain (fun host => exitRank host.threads.main)
        (fun _ _ _ exiting away taken => host_exiting exiting away taken)
        (fun host exiting zero => exiting.place.resolve_left (fun inWait => by
          cases place : host.threads.main <;> simp [place, InWait, exitRank] at inWait zero))
        exiting ran (Nat.le_trans few many)
    exact ⟨before, after, middle, split, reached, returned, Nat.le_trans bound few⟩
  · intro inWait
    obtain ⟨event, next, byMain, noTask, taken⟩ : ∃ event next, isMain event = true ∧ event.taskOf = none ∧
        state.threads.step config event = some next := exiting_enabled inWait
    refine ⟨.thread event, { state with threads := next }, byMain, ?_⟩
    simp only [Host.step, Host.threadStep, noTask, taken, Option.map_some]

def exitDuringWait : List HostEvent :=
  .createTask 0 0 true :: ([.createQueue 0 0, .scheduler, .scheduler, .main, .main, .main, .startRun, .main, .main,
    .main, .scheduler, .send 0 7, .scheduler, .scheduler, .scheduler, .main, .main] : List ThreadEvent).map .thread ++
    [.exitCommand]

private theorem exitDuringWait_runs :
    ((host oneTaskConfig (fun _ => 20)).run exitDuringWait).isSome = true := by decide

def lastSteps : List HostEvent := [.thread .mainTimeout, .thread .main, .thread .main]

private theorem lastSteps_run : ((host oneTaskConfig (fun _ => 20)).runFrom
    (((host oneTaskConfig (fun _ => 20)).run exitDuringWait).get exitDuringWait_runs) lastSteps).isSome = true := by
  decide

theorem exit_leaves_wait_one_task :
    let state := ((host oneTaskConfig (fun _ => 20)).run exitDuringWait).get exitDuringWait_runs
    state.threads.main = .waiting 0 5000 ∧ ∃ before after middle, lastSteps = before ++ after ∧
      (host oneTaskConfig (fun _ => 20)).runFrom state before = some middle ∧ middle.threads.main = .returned ∧
      before.countP ofMain ≤ 3 := by
  refine ⟨rfl, ?_⟩
  have exiting : Exiting (((host oneTaskConfig (fun _ => 20)).run exitDuringWait).get exitDuringWait_runs).threads :=
    ⟨rfl, Or.inl trivial⟩
  exact (exit_leaves_wait oneTaskConfig (fun _ => 20) exiting (Option.some_get lastSteps_run).symm).1 (by decide)

end Exit

section Deserted

def Dead (state : Threads) (taskId : Nat) : Prop := (state.es.locateAppRecord taskId).running = false

def Deserted (state : Threads) : Prop :=
  match state.scheduler with
  | .iterating entries => ∀ entry ∈ entries, Dead state entry.2
  | .polling taskId entries _ _ _ | .checking taskId entries _ _ _ =>
    Dead state taskId ∧ ∀ entry ∈ entries, Dead state entry.2
  | .completing => True
  | .starting | .waiting | .processing | .marking _ _ => False

/-- Four steps for each entry, and one that ends the iteration. -/
def visitRank : SchedulerPc → Nat
  | .iterating entries => 4 * entries.length + 1
  | .polling _ entries reqTriggers _ numCompletes =>
    4 * entries.length + if numCompletes = reqTriggers then 2 else 4
  | .checking _ entries _ _ _ => 4 * entries.length + 3
  | .starting | .waiting | .processing | .marking _ _ | .completing => 0

theorem Deserted.kept (deserted : Deserted state) (scheduler : next.scheduler = state.scheduler)
    (dead : ∀ taskId, Dead state taskId → Dead next taskId) : Deserted next := by
  simp only [Deserted, scheduler] at deserted ⊢
  cases place : state.scheduler with
  | iterating entries =>
    rw [place] at deserted
    exact fun entry member => dead _ (deserted entry member)
  | polling taskId entries req triggers completes | checking taskId entries req triggers completes =>
    rw [place] at deserted
    exact ⟨dead _ deserted.1, fun entry member => dead _ (deserted.2 entry member)⟩
  | completing => trivial
  | starting | waiting | processing | marking =>
    rw [place] at deserted
    exact deserted

theorem schedulerStep_deserted (deserted : Deserted state) (unfinished : state.scheduler ≠ .completing)
    (taken : state.schedulerStep config = some next) :
    Deserted next ∧ visitRank next.scheduler + 1 ≤ visitRank state.scheduler := by
  have es : next.es = state.es :=
    (schedulerEvent_main (Or.inl rfl) (show state.step config .scheduler = some next from taken)).2.1
  have dead (taskId : Nat) : Dead state taskId → Dead next taskId := by
    intro dead
    rwa [Dead, es]
  rw [Deserted] at deserted
  cases schedulerStep_cases taken with
  | began gathered =>
    rcases gathered with place | place
    all_goals
      rw [place] at deserted
      exact False.elim deserted
  | woken place | marked place =>
    rw [place] at deserted
    exact False.elim deserted
  | completed place => exact absurd place unfinished
  | finished place =>
    rw [place]
    exact ⟨trivial, Nat.le_refl _⟩
  | @entered entry entries place =>
    rw [place] at deserted ⊢
    obtain ⟨first, others⟩ := List.forall_mem_cons.mp deserted
    refine ⟨⟨dead _ first, fun other member => dead _ (others other member)⟩, ?_⟩
    simp only [setScheduler, visitRank, List.length_cons]
    split <;> omega
  | visited place =>
    rw [place] at deserted ⊢
    refine ⟨fun other member => dead _ (deserted.2 other member), ?_⟩
    simp [setScheduler, visitRank]
  | undelayed place pending | granted place pending | acknowledged place pending | polled place pending =>
    rw [place] at deserted ⊢
    refine ⟨⟨dead _ deserted.1, fun other member => dead _ (deserted.2 other member)⟩, ?_⟩
    simp [setScheduler, visitRank, pending]
  | checked place running =>
    rw [place] at deserted
    cases running.symm.trans deserted.1
  | abandoned place =>
    rw [place] at deserted ⊢
    refine ⟨⟨dead _ deserted.1, fun other member => dead _ (deserted.2 other member)⟩, ?_⟩
    simp [setScheduler, visitRank]

theorem deserted_enabled (deserted : Deserted state) (unfinished : state.scheduler ≠ .completing) :
    ∃ next, state.schedulerStep config = some next := by
  rw [Deserted] at deserted
  cases place : state.scheduler with
  | iterating entries =>
    simp only [schedulerStep, place]
    cases entries <;> exact ⟨_, rfl⟩
  | polling =>
    simp only [schedulerStep, place]
    exact ⟨_, rfl⟩
  | checking taskId =>
    simp only [schedulerStep, place]
    split <;> exact ⟨_, rfl⟩
  | completing => exact absurd place unfinished
  | starting | waiting | processing | marking =>
    rw [place] at deserted
    exact False.elim deserted

theorem completing_of_rank (deserted : Deserted state) (zero : visitRank state.scheduler = 0) :
    state.scheduler = .completing := by
  rw [Deserted] at deserted
  cases place : state.scheduler with
  | completing => rfl
  | iterating | checking =>
    simp only [place, visitRank] at zero
    omega
  | polling =>
    simp only [place, visitRank] at zero
    split at zero <;> omega
  | starting | waiting | processing | marking =>
    rw [place] at deserted
    exact False.elim deserted

def ofScheduler : AppEvent → Bool
  | .thread .scheduler => true
  | _ => false

private theorem mortal_deserted {event : AppEvent} (deserted : Deserted state)
    (unfinished : state.scheduler ≠ .completing) {registeredTasks : Nat} {taskTable priority : Nat → Nat}
    (taken : (mortalThreads config registeredTasks taskTable priority).step state event = some next) :
    Deserted next ∧ visitRank next.scheduler + (if ofScheduler event then 1 else 0) ≤ visitRank state.scheduler := by
  cases event with
  | stopApp appId =>
    cases taken
    refine ⟨deserted.kept rfl ?_, Nat.le_refl _⟩
    intro taskId dead
    simp only [Dead, EsGlobal.locateAppRecord, stopApp, EsGlobal.stopApp, Function.update_apply] at dead ⊢
    split
    · rfl
    · exact dead
  | thread event =>
    by_cases byScheduler : event = .scheduler
    · subst byScheduler
      exact schedulerStep_deserted deserted unfinished taken
    · have stepped : state.step config event = some next := taken
      have scheduler : next.scheduler = state.scheduler := by
        obtain ⟨_, same | ⟨processing, _⟩⟩ := step_scheduler byScheduler stepped
        · exact same
        · rw [Deserted, processing] at deserted
          exact False.elim deserted
      have notCounted : ofScheduler (.thread event) = false := by
        cases event with
        | scheduler => exact absurd rfl byScheduler
        | _ => rfl
      rw [notCounted, scheduler]
      refine ⟨deserted.kept scheduler ?_, Nat.le_refl _⟩
      intro taskId dead
      rwa [Dead, (step_fixed stepped).1]

/-- Dead apps do not hold up perfect mode. `signalMainAppComplete` gets past
every entry whose app has left RUNNING, whatever state its record was left in,
with four steps of the scheduler at most, and the scheduler is never blocked. -/
theorem dead_apps_are_passed (config : Config) (registeredTasks : Nat) (taskTable priority : Nat → Nat)
    {state final : Threads} {events : List AppEvent} (deserted : Deserted state)
    (ran : (mortalThreads config registeredTasks taskTable priority).runFrom state events = some final) :
    (visitRank state.scheduler ≤ events.countP ofScheduler → ∃ before after middle, events = before ++ after ∧
      (mortalThreads config registeredTasks taskTable priority).runFrom state before = some middle ∧
      middle.scheduler = .completing ∧ before.countP ofScheduler ≤ visitRank state.scheduler) ∧
    (state.scheduler ≠ .completing → ∃ next, state.schedulerStep config = some next) := by
  constructor
  · intro many
    exact (mortalThreads config registeredTasks taskTable priority).reaches_within Deserted
      (fun state => state.scheduler = .completing) ofScheduler (fun state => visitRank state.scheduler)
      (fun _ _ _ deserted unfinished taken => mortal_deserted deserted unfinished taken)
      (fun _ deserted zero => completing_of_rank deserted zero) deserted ran many
  · exact deserted_enabled deserted

def diesBeforeVisit : List AppEvent :=
  ([.scheduler, .scheduler, .scheduler, .main, .startRun, .main, .main, .main, .scheduler, .send 0 7,
    .scheduler] : List ThreadEvent).map .thread ++ [.stopApp 0, .thread .scheduler]

def oneMortalTask : Machine Threads AppEvent :=
  mortalThreads { oneTaskConfig with perfectScheduleMode := true } 1 id (fun _ => 20)

private theorem diesBeforeVisit_runs : (oneMortalTask.run diesBeforeVisit).isSome = true := by decide

private theorem visits_run : (oneMortalTask.runFrom ((oneMortalTask.run diesBeforeVisit).get diesBeforeVisit_runs)
    (List.replicate 5 (.thread .scheduler))).isSome = true := by decide

theorem dead_apps_are_passed_one_task :
    let state := (oneMortalTask.run diesBeforeVisit).get diesBeforeVisit_runs
    (state.task 0).triggeredMIDs = [7] ∧ ∃ before after middle,
      List.replicate 5 (.thread .scheduler) = before ++ after ∧ oneMortalTask.runFrom state before = some middle ∧
      middle.scheduler = .completing ∧ before.countP ofScheduler ≤ visitRank state.scheduler := by
  refine ⟨rfl, ?_⟩
  have deserted : Deserted ((oneMortalTask.run diesBeforeVisit).get diesBeforeVisit_runs) := by
    intro entry member
    rw [List.mem_singleton.mp member]
    rfl
  exact (dead_apps_are_passed { oneTaskConfig with perfectScheduleMode := true } 1 id (fun _ => 20) deserted
    (Option.some_get visits_run).symm).1 (by decide)

end Deserted

end TrickCFS.Proofs.BoundedReturns
