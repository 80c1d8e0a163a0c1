import TrickCFS.AppLifetimes
import TrickCFS.Proofs.PerfectSerialisation

/-! What a frame of perfect mode leaves behind when apps may leave RUNNING at any
step. A running task comes out of its visit with clean lists; from the others the
scheduler takes `triggeredMIDs` only, and the other two lists stay as they are. -/

namespace TrickCFS

def mortalLedger : Machine.Monitor Threads AppEvent Ledger where
  start := {}
  record := fun ledger state event =>
    match event with
    | .thread event => ledger.record state event
    | .stopApp _ => ledger

/-- The task whose visit ends with the scheduler's next step, unless its app runs. -/
def Threads.givesUp (state : Threads) : Option Nat :=
  match state.scheduler with
  | .checking taskId _ _ _ _ => some taskId
  | .iterating (entry :: _) => if (state.task entry.2).triggeredMIDs = [] then some entry.2 else none
  | _ => none

namespace Proofs.PerfectResets
open Threads
open PerfectSerialisation (Unscanned unscanned_step mark_task)

variable {config : Config} {state next : Threads} {entries : List (Nat × Nat)}
  {taskId reqTriggers numTriggers numCompletes : Nat}

structure Clean (task : TaskIPC) : Prop where
  triggered : task.triggeredMIDs = []
  stack : task.stackList = []
  acknowledged : task.acknowledgedMIDs = []

/-- Once `signalMainAppComplete` has done its work, nothing of the frame is left. -/
def Reset (watched : Threads × Ledger) : Prop :=
  watched.1.scheduler = .completing ∨ watched.1.scheduler = .waiting →
    watched.1.iface.perfectFDMap = [] ∧ ∀ taskId ∈ watched.2.marks, Clean (watched.1.task taskId)

def HoldsNothing (task : TaskIPC) : Prop := task.stackList = [] ∧ task.acknowledgedMIDs = []

/-- The scheduler gives up only tasks that hold neither a stack nor an
acknowledged MID. -/
def Recovered (watched : Threads × Ledger) (event : AppEvent) : Prop :=
  event = .thread .scheduler → ∀ taskId, watched.1.givesUp = some taskId →
    (watched.1.es.locateAppRecord taskId).running = false → HoldsNothing (watched.1.task taskId)

def runs (state : Threads) (taskId : Nat) : Prop := (state.es.locateAppRecord taskId).running = true

def Share (task : TaskIPC) (pc : TaskPc) (outstanding ungranted : Nat) : Prop :=
  ∃ acknowledged left grants,
    Account task pc (acknowledged + outstanding) left acknowledged grants (grants + ungranted)

namespace Share
variable {task : TaskIPC} {pc : TaskPc} {outstanding ungranted : Nat}

theorem triggers (share : Share task pc 0 ungranted) : task.triggeredMIDs.length = ungranted := by
  obtain ⟨acknowledged, left, grants, account⟩ := share
  have balanced := account.balanced rfl
  omega

theorem clean (share : Share task pc 0 0) : Clean task := by
  have none : task.triggeredMIDs = [] := List.length_eq_zero_iff.mp share.triggers
  obtain ⟨acknowledged, left, grants, account⟩ := share
  rcases account.held with ⟨unheld, away⟩ | ⟨mid, _, member, _⟩
  · have stack := account.stack
    simp only [requesting, away, false_and, ite_false] at stack
    exact ⟨none, List.length_eq_zero_iff.mp (by omega), unheld⟩
  · rw [none] at member
    cases member

theorem marked (share : Share task pc outstanding ungranted) (mid : Nat) :
    Share (task.markPipeAsTriggered mid) pc outstanding (ungranted + 1) := by
  obtain ⟨acknowledged, left, grants, account⟩ := share
  exact ⟨acknowledged, left, grants, account.marked mid⟩

theorem granted (share : Share task pc outstanding (ungranted + 1)) (received : task.state = .msgRcv) :
    Share (task.setState .taskContinue) pc (outstanding + 1) ungranted := by
  obtain ⟨acknowledged, left, grants, account⟩ := share
  refine ⟨acknowledged, left, grants + 1, ?_⟩
  have account := account.granted_permission received
  rwa [show grants + (ungranted + 1) = grants + 1 + ungranted by omega] at account

theorem acknowledged (share : Share task pc outstanding ungranted) (completed : task.state = .taskComplete) :
    ∃ fewer, outstanding = fewer + 1 ∧ Share (task.setState .taskContinue) pc fewer ungranted := by
  obtain ⟨acknowledged, left, grants, account⟩ := share
  have stack := account.stack
  have place := account.answerable.completed completed
  simp only [requesting, reporting, place, completed, reduceCtorEq, and_self, ite_false,
    ite_true] at stack
  obtain ⟨fewer, rfl⟩ : ∃ fewer, outstanding = fewer + 1 := ⟨outstanding - 1, by omega⟩
  refine ⟨fewer, rfl, acknowledged + 1, left, grants, ?_⟩
  have account := account.acknowledged_completion completed
  rwa [show acknowledged + (fewer + 1) = acknowledged + 1 + fewer by omega] at account

theorem undelayed (share : Share task pc outstanding ungranted) (delayed : task.state = .taskDelay) :
    Share (task.setState .taskContinue) pc outstanding ungranted := by
  obtain ⟨acknowledged, left, grants, account⟩ := share
  exact ⟨acknowledged, left, grants, account.woken delayed rfl ⟨rfl, rfl, rfl⟩⟩

end Share

theorem share_move (perfect : config.perfectScheduleMode = true) (unscanned : Unscanned state.main)
    {event : ThreadEvent} (notScheduler : event ≠ .scheduler) (running : runs state taskId)
    {outstanding ungranted : Nat} {record : TaskIPC} {pc : TaskPc}
    (share : Share (state.task taskId) (state.tasks taskId) outstanding ungranted)
    (moved : Move config state event taskId record pc) : Share record pc outstanding ungranted := by
  obtain ⟨acknowledged, left, grants, account⟩ := share
  have untimed (ii : Nat) (remainingTime : Int) : state.main ≠ .timedOut ii remainingTime := by
    intro timedOut
    rw [timedOut] at unscanned
    exact unscanned
  by_cases leaves : ∃ target, event = .leave target
  · obtain ⟨target, rfl⟩ := leaves
    cases moved with
    | stay => exact ⟨acknowledged, left, grants, account⟩
    | left granted loop =>
      rcases granted with released | dead
      · exact ⟨acknowledged, _, grants, account.left_wait released loop⟩
      · cases running.symm.trans dead
  · simp only [not_exists] at leaves
    exact ⟨acknowledged, left, grants, account_move perfect untimed notScheduler leaves account moved⟩

/-- Between two visits the marks of a running task are ungranted, and a task
without an entry ahead has clean lists. -/
structure Standing (state : Threads) (entries : List (Nat × Nat)) (taskId : Nat) : Prop where
  share : runs state taskId →
    ∃ ungranted, Share (state.task taskId) (state.tasks taskId) 0 ungranted
  clean : taskId ∉ entries.map Prod.snd → Clean (state.task taskId)

structure Visiting (state : Threads) (entries : List (Nat × Nat))
    (taskId reqTriggers numTriggers numCompletes : Nat) : Prop where
  others : ∀ other, other ≠ taskId → Standing state entries other
  current : runs state taskId → ∃ outstanding ungranted,
    numTriggers = numCompletes + outstanding ∧ reqTriggers = numTriggers + ungranted ∧
      Share (state.task taskId) (state.tasks taskId) outstanding ungranted

def Phase (state : Threads) : SchedulerPc → Prop
  | .starting | .processing | .marking _ _ => ∀ taskId, Standing state state.iface.perfectFDMap taskId
  | .iterating entries => ∀ taskId, Standing state entries taskId
  | .polling taskId entries reqTriggers numTriggers numCompletes =>
    Visiting state entries taskId reqTriggers numTriggers numCompletes ∧
      (numCompletes = reqTriggers → Clean (state.task taskId))
  | .checking taskId entries reqTriggers numTriggers numCompletes =>
    Visiting state entries taskId reqTriggers numTriggers numCompletes
  | .completing | .waiting =>
    state.iface.perfectFDMap = [] ∧ ∀ taskId, Standing state [] taskId

/-- What a step carries over for one task. -/
structure Carried (state next : Threads) (taskId : Nat) : Prop where
  still : runs next taskId → runs state taskId
  share : runs state taskId → ∀ outstanding ungranted,
    Share (state.task taskId) (state.tasks taskId) outstanding ungranted →
      Share (next.task taskId) (next.tasks taskId) outstanding ungranted
  clean : Clean (state.task taskId) → Clean (next.task taskId)

theorem Carried.same (running : runs next taskId → runs state taskId)
    (record : next.task taskId = state.task taskId) (pc : next.tasks taskId = state.tasks taskId) :
    Carried state next taskId := by
  refine ⟨running, fun _ outstanding ungranted => ?_, ?_⟩
  · rw [record, pc]
    exact id
  · rw [record]
    exact id

theorem Standing.carry (standing : Standing state entries taskId) (carried : Carried state next taskId) :
    Standing next entries taskId := by
  refine ⟨?_, fun absent => carried.clean (standing.clean absent)⟩
  intro running
  obtain ⟨ungranted, share⟩ := standing.share (carried.still running)
  exact ⟨ungranted, carried.share (carried.still running) _ _ share⟩

theorem Standing.more {later : List (Nat × Nat)} (standing : Standing state entries taskId)
    (entered : taskId ∈ entries.map Prod.snd → taskId ∈ later.map Prod.snd) : Standing state later taskId :=
  ⟨standing.share, fun absent => standing.clean (fun old => absent (entered old))⟩

theorem Visiting.carry (visiting : Visiting state entries taskId reqTriggers numTriggers numCompletes)
    (carried : ∀ taskId, Carried state next taskId) :
    Visiting next entries taskId reqTriggers numTriggers numCompletes := by
  refine ⟨fun other different => (visiting.others other different).carry (carried other), ?_⟩
  intro running
  obtain ⟨outstanding, ungranted, triggers, required, share⟩ := visiting.current ((carried taskId).still running)
  exact ⟨outstanding, ungranted, triggers, required,
    (carried taskId).share ((carried taskId).still running) _ _ share⟩

theorem Phase.carry {scheduler : SchedulerPc} (phase : Phase state scheduler)
    (map : next.iface.perfectFDMap = state.iface.perfectFDMap)
    (carried : ∀ taskId, Carried state next taskId) : Phase next scheduler := by
  cases scheduler with
  | starting | processing | marking =>
    intro taskId
    rw [map]
    exact (phase taskId).carry (carried taskId)
  | iterating entries => exact fun taskId => (phase taskId).carry (carried taskId)
  | polling taskId => exact ⟨phase.1.carry carried, fun finished => (carried taskId).clean (phase.2 finished)⟩
  | checking => exact Visiting.carry phase carried
  | completing | waiting =>
    exact ⟨map.trans phase.1, fun taskId => (phase.2 taskId).carry (carried taskId)⟩

theorem Phase.proceed {pc : SchedulerPc} (phase : Phase state pc) :
    Phase (state.setScheduler pc) (state.setScheduler pc).scheduler :=
  phase.carry rfl (fun _ => .same id rfl rfl)

theorem Clean.idle {task : TaskIPC} (clean : Clean task) : task.Idle := ⟨clean.triggered, clean.stack⟩

theorem Clean.of_same {task record : TaskIPC} (clean : Clean task)
    (lists : record.triggeredMIDs = task.triggeredMIDs ∧ record.stackList = task.stackList ∧
      record.acknowledgedMIDs = task.acknowledgedMIDs) : Clean record :=
  ⟨lists.1.trans clean.triggered, lists.2.1.trans clean.stack, lists.2.2.trans clean.acknowledged⟩

private theorem away_carried (perfect : config.perfectScheduleMode = true) (unscanned : Unscanned state.main)
    {event : ThreadEvent} (notScheduler : event ≠ .scheduler)
    (taken : state.step config event = some next) (taskId : Nat) : Carried state next taskId := by
  have moved := step_moves taken taskId
  refine ⟨?_, ?_, ?_⟩
  · intro running
    simpa only [runs, (step_fixed taken).1] using running
  · intro running outstanding ungranted share
    exact share_move perfect unscanned notScheduler running share moved
  · intro clean
    rcases moved.idle clean.idle with same | ⟨byScheduler, _⟩
    · exact clean.of_same same
    · exact absurd byScheduler notScheduler

private theorem stop_carried (state : Threads) (appId taskId : Nat) :
    Carried state (state.stopApp appId) taskId := by
  refine .same ?_ rfl rfl
  intro running
  simp only [runs, EsGlobal.locateAppRecord, Threads.stopApp, EsGlobal.stopApp] at running ⊢
  by_cases stopped : state.es.taskTable taskId = appId
  · rw [stopped, Function.update_self] at running
    cases running
  · rwa [Function.update_of_ne stopped] at running

theorem Visiting.answer (visiting : Visiting state entries taskId reqTriggers numTriggers numCompletes)
    {change : TaskIPC → TaskIPC} {pc : SchedulerPc} {triggers completes : Nat}
    (current : runs state taskId → ∃ outstanding ungranted,
      triggers = completes + outstanding ∧ reqTriggers = triggers + ungranted ∧
        Share (change (state.task taskId)) (state.tasks taskId) outstanding ungranted) :
    Visiting ((state.setTask taskId change).setScheduler pc) entries taskId reqTriggers triggers completes := by
  refine ⟨fun other different => ?_, ?_⟩
  · refine (visiting.others other different).carry (.same id ?_ rfl)
    exact setTask_other state taskId change different
  · rw [setScheduler_task, setTask_task]
    exact current

private theorem visit_begins {entry : Nat × Nat}
    (standing : ∀ taskId, Standing state (entry :: entries) taskId)
    (recovered : (state.task entry.2).triggeredMIDs = [] →
      (state.es.locateAppRecord entry.2).running = false → HoldsNothing (state.task entry.2)) :
    Visiting state entries entry.2 (state.task entry.2).triggeredMIDs.length 0 0 ∧
      (0 = (state.task entry.2).triggeredMIDs.length → Clean (state.task entry.2)) := by
  refine ⟨⟨fun other different => (standing other).more ?_, ?_⟩, ?_⟩
  · intro member
    rw [List.map_cons] at member
    exact (List.mem_cons.mp member).resolve_left different
  · intro running
    obtain ⟨ungranted, share⟩ := (standing entry.2).share running
    exact ⟨0, ungranted, rfl, by rw [share.triggers, Nat.zero_add], share⟩
  · intro none
    have triggered := List.length_eq_zero_iff.mp none.symm
    by_cases running : runs state entry.2
    · obtain ⟨ungranted, share⟩ := (standing entry.2).share running
      obtain rfl : ungranted = 0 := share.triggers.symm.trans none.symm
      exact share.clean
    · obtain ⟨stack, acknowledged⟩ := recovered triggered (Bool.not_eq_true _ ▸ running)
      exact ⟨triggered, stack, acknowledged⟩

/-- All grants of a running task that has completed as often as required are served. -/
private theorem visit_served
    (visiting : Visiting state entries taskId reqTriggers numTriggers reqTriggers)
    (running : runs state taskId) : Share (state.task taskId) (state.tasks taskId) 0 0 := by
  obtain ⟨outstanding, ungranted, triggers, required, share⟩ := visiting.current running
  obtain ⟨rfl, rfl⟩ : outstanding = 0 ∧ ungranted = 0 := by omega
  exact share

private theorem visit_ends
    (visiting : Visiting state entries taskId reqTriggers numTriggers reqTriggers)
    (clean : Clean (state.task taskId)) (other : Nat) : Standing state entries other := by
  by_cases same : other = taskId
  · subst other
    exact ⟨fun running => ⟨0, visit_served visiting running⟩, fun _ => clean⟩
  · exact visiting.others other same

private theorem mark_standing {target mid : Nat} (perfect : config.perfectScheduleMode = true)
    (standing : ∀ taskId, Standing state state.iface.perfectFDMap taskId) (scheduler : SchedulerPc)
    (taskId : Nat) :
    let marked : Threads := { state with
      iface := state.iface.markTask config.perfectScheduleMode (state.es.locateAppRecord target) target mid
      scheduler }
    Standing marked marked.iface.perfectFDMap taskId := by
  simp only [perfect]
  by_cases running : runs state target
  · obtain ⟨marked, kept⟩ := mark_task running mid scheduler
    rw [TrickCFSInterface.markTask_perfectFDMap mid state.iface running]
    have entered (member : taskId ∈ state.iface.perfectFDMap.map Prod.snd ∨ taskId = target) :
        taskId ∈ (TrickCFSInterface.insertFD (state.es.locateAppRecord target).priority target
          state.iface.perfectFDMap).map Prod.snd := by
      rcases member with old | rfl
      · obtain ⟨entry, member, same⟩ := List.mem_map.mp old
        exact List.mem_map.mpr ⟨entry, TrickCFSInterface.mem_insertFD.mpr (Or.inr member), same⟩
      · exact List.mem_map.mpr ⟨_, TrickCFSInterface.mem_insertFD.mpr (Or.inl rfl), rfl⟩
    by_cases same : taskId = target
    · refine ⟨fun _ => ?_, fun absent => absurd (entered (Or.inr same)) absent⟩
      subst same
      obtain ⟨ungranted, share⟩ := (standing taskId).share running
      rw [marked]
      exact ⟨ungranted + 1, share.marked mid⟩
    · have more := (standing taskId).more (fun old => entered (Or.inl old))
      exact more.carry (.same id (kept taskId same) rfl)
  · have ignored : state.iface.markTask true (state.es.locateAppRecord target) target mid = state.iface :=
      if_neg running
    rw [ignored]
    exact (standing taskId).carry (.same id rfl rfl)

private theorem schedulerStep_phase (perfect : config.perfectScheduleMode = true)
    (phase : Phase state state.scheduler)
    (recovered : ∀ taskId, state.givesUp = some taskId →
      (state.es.locateAppRecord taskId).running = false → HoldsNothing (state.task taskId))
    (taken : state.schedulerStep config = some next) : Phase next next.scheduler := by
  cases schedulerStep_cases taken with
  | began gathered =>
    have rest : Phase state (.iterating state.iface.perfectFDMap) := by
      rcases gathered with same | same
      all_goals
        rw [same] at phase
        exact phase
    simp only [beginSignal, perfect, ite_true]
    exact rest.proceed
  | woken waiting =>
    rw [waiting] at phase
    have empty : Phase state .processing := by
      intro taskId
      rw [phase.1]
      exact phase.2 taskId
    exact empty.carry rfl (fun _ => .same id rfl rfl)
  | marked marking =>
    rw [marking] at phase
    exact mark_standing perfect phase .processing
  | finished iterating =>
    rw [iterating] at phase
    exact ⟨rfl, fun taskId => (phase taskId).carry (.same id rfl rfl)⟩
  | @entered entry entries iterating =>
    rw [iterating] at phase
    have visit : Phase state (.polling entry.2 entries (state.task entry.2).triggeredMIDs.length 0 0) := by
      apply visit_begins phase
      intro triggered
      apply recovered entry.2
      simp only [givesUp, iterating, triggered, ite_true]
    exact visit.proceed
  | @visited target entries req triggers polling =>
    rw [polling] at phase
    have rest : Phase state (.iterating entries) := visit_ends phase.1 (phase.2 rfl)
    exact rest.proceed
  | undelayed polling _ read =>
    rw [polling] at phase
    apply phase.1.answer
    intro running
    obtain ⟨outstanding, ungranted, triggers, required, share⟩ := phase.1.current running
    exact ⟨outstanding, ungranted, triggers, required, share.undelayed read⟩
  | granted polling _ more read =>
    rw [polling] at phase
    apply phase.1.answer
    intro running
    obtain ⟨outstanding, ungranted, triggers, required, share⟩ := phase.1.current running
    obtain ⟨fewer, rfl⟩ : ∃ fewer, ungranted = fewer + 1 := ⟨ungranted - 1, by omega⟩
    exact ⟨outstanding + 1, fewer, by omega, by omega, share.granted read⟩
  | acknowledged polling _ read =>
    rw [polling] at phase
    apply phase.1.answer
    intro running
    obtain ⟨outstanding, ungranted, triggers, required, share⟩ := phase.1.current running
    obtain ⟨fewer, rfl, acknowledged⟩ := share.acknowledged read
    exact ⟨fewer, ungranted, by omega, required, acknowledged⟩
  | @polled target entries req triggers completes polling =>
    rw [polling] at phase
    have visit : Phase state (.checking target entries req triggers completes) := phase.1
    exact visit.proceed
  | @checked target entries req triggers completes checking running =>
    rw [checking] at phase
    have visit : Phase state (.polling target entries req triggers completes) := by
      refine ⟨phase, ?_⟩
      rintro rfl
      exact (visit_served phase running).clean
    exact visit.proceed
  | @abandoned target entries req triggers completes checking dead =>
    rw [checking] at phase
    refine ⟨Visiting.answer phase ?_, fun _ => ?_⟩
    · intro running
      cases running.symm.trans dead
    · obtain ⟨stack, acknowledged⟩ := recovered target (by simp only [givesUp, checking]) dead
      rw [setScheduler_task, setTask_task]
      exact ⟨rfl, stack, acknowledged⟩
  | completed completing =>
    rw [completing] at phase
    exact Phase.carry (phase : Phase state .waiting) rfl (fun _ => .same id rfl rfl)

/-- What holds throughout a run in which the scheduler gives up no task that
still holds something. -/
structure Sound (state : Threads) : Prop where
  unscanned : Unscanned state.main
  phase : Phase state state.scheduler

namespace Sound

theorem initial (config : Config) (registeredTasks : Nat) (taskTable priority : Nat → Nat) :
    Sound (mortalThreads config registeredTasks taskTable priority).initial where
  unscanned := trivial
  phase := fun _ => by
    refine ⟨fun _ => ⟨0, 0, 0, 0, ?_⟩, fun _ => ⟨rfl, rfl, rfl⟩⟩
    refine ⟨⟨?_, ?_, ?_⟩, Or.inl ⟨rfl, ?_⟩, rfl, rfl, rfl⟩
    all_goals simp [mortalThreads, threads, task]

theorem step_preserves (perfect : config.perfectScheduleMode = true) {event : ThreadEvent} (sound : Sound state)
    (recovered : event = .scheduler → ∀ taskId, state.givesUp = some taskId →
      (state.es.locateAppRecord taskId).running = false → HoldsNothing (state.task taskId))
    (taken : state.step config event = some next) : Sound next := by
  refine ⟨unscanned_step perfect sound.unscanned taken, ?_⟩
  by_cases byScheduler : event = .scheduler
  · subst byScheduler
    exact schedulerStep_phase perfect sound.phase (recovered rfl) taken
  · have carried := away_carried perfect sound.unscanned byScheduler taken
    obtain ⟨map, same | ⟨processing, taskId, mid, marking⟩⟩ := step_scheduler byScheduler taken
    · rw [same]
      exact sound.phase.carry map carried
    · have phase := sound.phase
      rw [processing] at phase
      rw [marking]
      exact Phase.carry (phase : Phase state (.marking taskId mid)) map carried

theorem mortal_preserves (perfect : config.perfectScheduleMode = true)
    {registeredTasks : Nat} {taskTable priority : Nat → Nat} {ledger : Ledger} {event : AppEvent}
    (sound : Sound state) (recovered : Recovered (state, ledger) event)
    (taken : (mortalThreads config registeredTasks taskTable priority).step state event = some next) :
    Sound next := by
  cases event with
  | thread threadEvent =>
    refine sound.step_preserves perfect ?_ taken
    rintro rfl
    exact recovered rfl
  | stopApp appId =>
    cases taken
    exact ⟨sound.unscanned, sound.phase.carry rfl (stop_carried state appId)⟩

theorem reset {watched : Threads × Ledger} (sound : Sound watched.1) : Reset watched := by
  intro returned
  have phase := sound.phase
  have rest : watched.1.iface.perfectFDMap = [] ∧ ∀ taskId, Standing watched.1 [] taskId := by
    rcases returned with same | same
    all_goals
      rw [same] at phase
      exact phase
  exact ⟨rest.1, fun taskId _ => (rest.2 taskId).clean List.not_mem_nil⟩

end Sound

/-- In perfect mode every frame leaves its tasks with clean records, in every run
in which the scheduler gives up no task that holds a stack or an acknowledged MID. -/
theorem perfect_resets (config : Config) (perfect : config.perfectScheduleMode = true) (registeredTasks : Nat)
    (taskTable priority : Nat → Nat) (events : List AppEvent)
    (recovered : ((mortalThreads config registeredTasks taskTable priority).watch mortalLedger).Steps Recovered
      ((mortalThreads config registeredTasks taskTable priority).watch mortalLedger).initial events) :
    ((mortalThreads config registeredTasks taskTable priority).watch mortalLedger).States Reset
      ((mortalThreads config registeredTasks taskTable priority).watch mortalLedger).initial events := by
  refine Machine.Steps.states _ (fun watched => Sound watched.1) ?_ (fun _ sound => sound.reset)
    (.initial config registeredTasks taskTable priority) recovered
  intro watched event after sound recovered taken
  exact sound.mortal_preserves perfect recovered ((Machine.watch_step _).mp taken).1

def perfectTask : Config := { oneTaskConfig with perfectScheduleMode := true }

def frameStart : List AppEvent :=
  ([.scheduler, .scheduler, .scheduler, .main, .startRun, .main, .main, .main,
    .scheduler, .send 0 7, .scheduler, .receive 0 0, .complete 0 (StackInfo.backtrace [])] :
      List ThreadEvent).map .thread

def frameRest : List AppEvent :=
  .stopApp 0 :: ([.scheduler, .scheduler, .scheduler, .scheduler, .scheduler, .scheduler] :
    List ThreadEvent).map .thread

/-- The task acknowledges its message before its app leaves RUNNING. The
scheduler takes back the trigger, and leaves the rest. -/
theorem acknowledged_message_left :
    ¬ ∀ events : List AppEvent,
      ((mortalThreads perfectTask 1 (fun _ => 0) (fun _ => 0)).watch mortalLedger).States Reset
        ((mortalThreads perfectTask 1 (fun _ => 0) (fun _ => 0)).watch mortalLedger).initial events := by
  intro always
  have throughout := always
    (frameStart ++ .thread (.acknowledge 0 7 (StackInfo.backtrace [])) :: frameRest)
  iterate 21 replace throughout := throughout.2 _ rfl
  have left := (throughout (Or.inl rfl)).2 0 (by decide)
  exact absurd left.acknowledged (by decide)

/-- The app leaves RUNNING before its task has taken the message up. -/
theorem perfect_resets_unread_message :
    let watched := (mortalThreads perfectTask 1 (fun _ => 0) (fun _ => 0)).watch mortalLedger
    watched.States Reset watched.initial (frameStart ++ frameRest) ∧
      ∃ final, watched.run (frameStart ++ frameRest) = some final ∧
        final.1.scheduler = .completing ∧ final.2.marks = [0] := by
  refine ⟨?_, _, rfl, rfl, by decide⟩
  apply perfect_resets perfectTask rfl 1 (fun _ => 0) (fun _ => 0)
  iterate 20
    intro next taken
    cases taken
    refine ⟨?_, ?_⟩
    focus
      intro byScheduler taskId givesUp dead
      first
        | cases byScheduler; done
        | cases givesUp; done
        | cases givesUp; cases dead; done
        | cases givesUp; exact ⟨rfl, rfl⟩
  trivial

end Proofs.PerfectResets
end TrickCFS
