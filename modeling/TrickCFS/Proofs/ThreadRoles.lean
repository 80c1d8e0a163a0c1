import TrickCFS.Proofs.ThreadSteps

/-! What a step leaves alone, by the thread that takes it, and how the two event
counters make the main thread and the scheduler take turns. -/

namespace TrickCFS.Threads

variable {config : Config} {state next : Threads} {event : ThreadEvent}

/-- The parts of the state that only the main thread and the scheduler write. -/
structure SameRoles (state next : Threads) : Prop where
  es : next.es = state.es
  exitCmd : next.exitCmd = state.exitCmd
  execMode : next.execMode = state.execMode
  scheduler : next.scheduler = state.scheduler
  perfectFDMap : next.iface.perfectFDMap = state.iface.perfectFDMap
  isMainCompleteTrigger : next.iface.isMainCompleteTrigger = state.iface.isMainCompleteTrigger
  triggerMain : next.iface.triggerMain = state.iface.triggerMain

namespace SameRoles

theorem trans {middle : Threads} (first : SameRoles state middle) (second : SameRoles middle next) :
    SameRoles state next :=
  ⟨second.es.trans first.es, second.exitCmd.trans first.exitCmd,
    second.execMode.trans first.execMode, second.scheduler.trans first.scheduler,
    second.perfectFDMap.trans first.perfectFDMap,
    second.isMainCompleteTrigger.trans first.isMainCompleteTrigger,
    second.triggerMain.trans first.triggerMain⟩

theorem setTask (taskId : Nat) (change : TaskIPC → TaskIPC) :
    SameRoles state (state.setTask taskId change) := ⟨rfl, rfl, rfl, rfl, rfl, rfl, rfl⟩

theorem setPc (taskId : Nat) (pc : TaskPc) : SameRoles state (state.setPc taskId pc) :=
  ⟨rfl, rfl, rfl, rfl, rfl, rfl, rfl⟩

theorem signal (taskId : Nat) : SameRoles state (state.signal taskId) := by
  rw [signal_eq]
  exact ⟨rfl, rfl, rfl, rfl, rfl, rfl, rfl⟩

theorem setTask_setPc (taskId : Nat) (change : TaskIPC → TaskIPC) (pc : TaskPc) :
    SameRoles state ((state.setTask taskId change).setPc taskId pc) :=
  (setTask taskId change).trans (setPc taskId pc)

end SameRoles

/-- A task's step is a change of its own record and position, after which it
may signal its condition variable. -/
theorem taskEvent_shape {taskId : Nat} (byTask : event.taskOf = some taskId)
    (taken : state.step config event = some next) :
    ∃ quiet, SameRoles state quiet ∧ quiet.main = state.main ∧
      (next = quiet ∨ next = quiet.signal taskId) := by
  cases event with
  | createQueue target pipeId | receive target pipeId =>
    simp only [step] at taken
    obtain ⟨_, _, rfl⟩ := taskStep_some taken
    refine ⟨_, ?_, ?_, Or.inl rfl⟩
    · exact ⟨rfl, rfl, rfl, rfl, rfl, rfl, rfl⟩
    · rfl
  | complete target currStack | acknowledge target mid newStack =>
    cases byTask
    simp only [step] at taken
    obtain ⟨_, _, rfl⟩ := taskStep_some taken
    exact ⟨_, .setTask_setPc .., rfl, Or.inr rfl⟩
  | noMessage target =>
    simp only [step] at taken
    obtain ⟨_, _, rfl⟩ := taskStep_some taken
    exact ⟨_, .setPc .., rfl, Or.inl rfl⟩
  | delay target ms =>
    cases byTask
    simp only [step] at taken
    obtain ⟨_, _, rfl⟩ := taskStep_some taken
    simp only [delayStep]
    split
    · exact ⟨state, ⟨rfl, rfl, rfl, rfl, rfl, rfl, rfl⟩, rfl, Or.inl rfl⟩
    · split
      · exact ⟨_, .setTask .., rfl, Or.inl rfl⟩
      · exact ⟨_, .setTask_setPc .., rfl, Or.inr rfl⟩
  | leave target =>
    cases byTask
    simp only [step, leaveStep] at taken
    repeat' split at taken
    all_goals cases taken
    · exact ⟨_, .setTask_setPc .., rfl, Or.inl rfl⟩
    · exact ⟨_, .setTask_setPc .., rfl, Or.inr rfl⟩
    · exact ⟨_, .setTask_setPc .., rfl, Or.inr rfl⟩
  | main | mainTimeout | mainSpurious | startRun | scheduler | send => cases byTask

theorem taskEvent_roles {taskId : Nat} (byTask : event.taskOf = some taskId)
    (taken : state.step config event = some next) : SameRoles state next := by
  obtain ⟨quiet, same, _, rfl | rfl⟩ := taskEvent_shape byTask taken
  · exact same
  · exact same.trans (.signal taskId)

theorem taskEvent_main {taskId : Nat} (byTask : event.taskOf = some taskId)
    (taken : state.step config event = some next) :
    next.main = state.main ∨
      ∃ remainingTime, state.main = .waiting taskId remainingTime ∧ next.main = .woken taskId := by
  obtain ⟨quiet, _, same, rfl | rfl⟩ := taskEvent_shape byTask taken
  · exact Or.inl same
  · rw [← same]
    exact quiet.signal_main taskId

theorem schedulerEvent_main (byScheduler : event = .scheduler ∨ ∃ pipeId mid, event = .send pipeId mid)
    (taken : state.step config event = some next) :
    next.main = state.main ∧ next.es = state.es ∧ next.exitCmd = state.exitCmd ∧
      next.execMode = state.execMode ∧ next.tasks = state.tasks := by
  rcases byScheduler with rfl | ⟨pipeId, mid, rfl⟩
  · cases schedulerStep_cases taken <;> exact ⟨rfl, rfl, rfl, rfl, rfl⟩
  · simp only [step] at taken
    split at taken <;> cases taken
    exact ⟨rfl, rfl, rfl, rfl, rfl⟩

/-- Outside its own steps the main thread stays where it is, or its timed wait ends. -/
theorem step_main (away : event ≠ .main) (taken : state.step config event = some next) :
    next.main = state.main ∨
      ∃ ii remainingTime, state.main = .waiting ii remainingTime ∧
        (next.main = .woken ii ∨ next.main = .timedOut ii remainingTime) := by
  cases byTask : event.taskOf with
  | some taskId =>
    rcases taskEvent_main byTask taken with same | ⟨remainingTime, waiting, woken⟩
    · exact Or.inl same
    · exact Or.inr ⟨taskId, remainingTime, waiting, Or.inl woken⟩
  | none =>
    cases event with
    | main => exact False.elim (away rfl)
    | mainTimeout =>
      simp only [step] at taken
      split at taken
      next ii remainingTime waiting =>
        cases taken
        exact Or.inr ⟨ii, remainingTime, waiting, Or.inr rfl⟩
      next => cases taken
    | mainSpurious =>
      simp only [step] at taken
      split at taken
      next ii remainingTime waiting =>
        cases taken
        exact Or.inr ⟨ii, remainingTime, waiting, Or.inl rfl⟩
      next => cases taken
    | startRun =>
      simp only [step] at taken
      split at taken <;> cases taken
      exact Or.inl rfl
    | scheduler => exact Or.inl (schedulerEvent_main (Or.inl rfl) taken).1
    | send pipeId mid => exact Or.inl (schedulerEvent_main (Or.inr ⟨pipeId, mid, rfl⟩) taken).1
    | createQueue | receive | complete | acknowledge | noMessage | delay | leave => cases byTask

theorem mainEvent_scheduler (byMain : event.taskOf = none) (notScheduler : event ≠ .scheduler)
    (notSend : ∀ pipeId mid, event ≠ .send pipeId mid)
    (taken : state.step config event = some next) :
    next.scheduler = state.scheduler ∧ next.es = state.es ∧ next.exitCmd = state.exitCmd ∧
      next.tasks = state.tasks ∧ next.iface.perfectFDMap = state.iface.perfectFDMap := by
  cases event with
  | main => cases mainStep_cases taken <;> exact ⟨rfl, rfl, rfl, rfl, rfl⟩
  | mainTimeout | mainSpurious | startRun =>
    simp only [step] at taken
    split at taken <;> cases taken
    exact ⟨rfl, rfl, rfl, rfl, rfl⟩
  | scheduler => exact False.elim (notScheduler rfl)
  | send pipeId mid => exact False.elim (notSend pipeId mid rfl)
  | _ => cases byMain

/-- Outside its own steps the scheduler stays where it is, or begins a mark. -/
theorem step_scheduler (away : event ≠ .scheduler) (taken : state.step config event = some next) :
    next.iface.perfectFDMap = state.iface.perfectFDMap ∧
      (next.scheduler = state.scheduler ∨
        state.scheduler = .processing ∧ ∃ taskId mid, next.scheduler = .marking taskId mid) := by
  cases byTask : event.taskOf with
  | some taskId =>
    have same := taskEvent_roles byTask taken
    exact ⟨same.perfectFDMap, Or.inl same.scheduler⟩
  | none =>
    by_cases sends : ∃ pipeId mid, event = .send pipeId mid
    · obtain ⟨pipeId, mid, rfl⟩ := sends
      simp only [step] at taken
      split at taken
      next processing =>
        cases taken
        exact ⟨rfl, Or.inr ⟨processing, _, mid, rfl⟩⟩
      next => cases taken
    · simp only [not_exists] at sends
      obtain ⟨scheduler, _, _, _, map⟩ := mainEvent_scheduler byTask away sends taken
      exact ⟨map, Or.inl scheduler⟩

/-- No event registers a task, stops an app or gives the exit command. -/
theorem step_fixed (taken : state.step config event = some next) :
    next.es = state.es ∧ next.exitCmd = state.exitCmd := by
  cases byTask : event.taskOf with
  | some taskId => exact ⟨(taskEvent_roles byTask taken).es, (taskEvent_roles byTask taken).exitCmd⟩
  | none =>
    by_cases byScheduler : event = .scheduler ∨ ∃ pipeId mid, event = .send pipeId mid
    · obtain ⟨_, es, exitCmd, _⟩ := schedulerEvent_main byScheduler taken
      exact ⟨es, exitCmd⟩
    · simp only [not_or, not_exists] at byScheduler
      obtain ⟨_, es, exitCmd, _⟩ := mainEvent_scheduler byTask byScheduler.1 byScheduler.2 taken
      exact ⟨es, exitCmd⟩

/-- The main thread and the scheduler take turns: outside its blocking read of
`triggerMain` the scheduler works while the main thread blocks, and a token is
in the counters exactly when both block. -/
structure LockStep (state : Threads) : Prop where
  busy : state.scheduler ≠ .waiting → state.main = .reading
  tokens : state.iface.isMainCompleteTrigger + state.iface.triggerMain =
    if state.main = .reading ∧ state.scheduler = .waiting then 1 else 0

namespace LockStep

theorem waits (locked : LockStep state) (away : state.main ≠ .reading) : state.scheduler = .waiting :=
  Classical.byContradiction (fun busy => away (locked.busy busy))

theorem spent (locked : LockStep state)
    (elsewhere : state.main ≠ .reading ∨ state.scheduler ≠ .waiting) :
    state.iface.isMainCompleteTrigger = 0 ∧ state.iface.triggerMain = 0 := by
  have tokens := locked.tokens
  rw [if_neg (by tauto)] at tokens
  omega

theorem posted (locked : LockStep state)
    (some : state.iface.isMainCompleteTrigger ≠ 0 ∨ state.iface.triggerMain ≠ 0) :
    (state.main = .reading ∧ state.scheduler = .waiting) ∧
      state.iface.isMainCompleteTrigger + state.iface.triggerMain = 1 := by
  have tokens := locked.tokens
  split at tokens
  next both => exact ⟨both, tokens⟩
  next => omega

private theorem keep_main (locked : LockStep state) (away : state.main ≠ .reading)
    (same : SameRoles state next) (still : next.main ≠ .reading) : LockStep next := by
  have waits := locked.waits away
  have spent := locked.spent (Or.inl away)
  constructor
  · intro busy
    exact False.elim (busy (same.scheduler.trans waits))
  · rw [if_neg (by tauto), same.isMainCompleteTrigger, same.triggerMain, spent.1, spent.2]

private theorem keep_scheduler (locked : LockStep state) (busy : state.scheduler ≠ .waiting)
    (main : next.main = state.main) (still : next.scheduler ≠ .waiting)
    (first : next.iface.isMainCompleteTrigger = state.iface.isMainCompleteTrigger)
    (second : next.iface.triggerMain = state.iface.triggerMain) : LockStep next := by
  have spent := locked.spent (Or.inr busy)
  constructor
  · intro _
    exact main.trans (locked.busy busy)
  · rw [if_neg (by tauto), first, second, spent.1, spent.2]

private theorem mainStep_keeps (locked : LockStep state) (taken : state.mainStep config = some next) :
    LockStep next := by
  cases mainStep_cases taken with
  | read reading posted =>
    obtain ⟨⟨_, waits⟩, tokens⟩ := locked.posted (Or.inl posted)
    refine ⟨fun busy => False.elim (busy waits), ?_⟩
    have away : (if config.perfectScheduleMode then MainPc.returned else .scanning 0) ≠ .reading := by
      split <;> simp
    have spent : 0 + state.iface.triggerMain = 0 := by omega
    exact spent.trans (if_neg (fun both => away both.1)).symm
  | scanned same | passed same | blocked same | rescanned same | exited same | expired same | resumed same
  | called same | updated same =>
    exact keep_main locked (by simp [same]) ⟨rfl, rfl, rfl, rfl, rfl, rfl, rfl⟩ (by simp)
  | triggered updating =>
    have spent := locked.spent (Or.inl (by simp [updating]))
    have waits := locked.waits (by simp [updating])
    refine ⟨fun busy => False.elim (busy waits), ?_⟩
    simp [waits, spent]

private theorem schedulerStep_keeps (locked : LockStep state)
    (taken : state.schedulerStep config = some next) : LockStep next := by
  have isStep : state.step config .scheduler = some next := taken
  have main := (schedulerEvent_main (Or.inl rfl) isStep).1
  cases schedulerStep_cases taken with
  | woken waits posted =>
    obtain ⟨⟨reading, _⟩, tokens⟩ := locked.posted (Or.inr posted)
    refine ⟨fun _ => reading, ?_⟩
    rw [if_neg (by simp)]
    change state.iface.isMainCompleteTrigger + 0 = 0
    omega
  | completed completing =>
    have reading := locked.busy (by simp [completing])
    have spent := locked.spent (Or.inr (by simp [completing]))
    refine ⟨fun _ => reading, ?_⟩
    simp [reading, spent]
  | began gathered =>
    have busy : state.scheduler ≠ .waiting := by
      rcases gathered with same | same <;> simp [same]
    refine keep_scheduler locked busy main ?_ rfl rfl
    simp only [beginSignal, setScheduler_scheduler]
    split <;> simp
  | @marked target mid marking =>
    obtain ⟨_, complete, trigger⟩ := TrickCFSInterface.markTask_shared config.perfectScheduleMode mid state.iface
    exact keep_scheduler locked (by simp [marking]) main (by simp) complete trigger
  | finished same | entered same | visited same | undelayed same | granted same | acknowledged same
  | polled same | checked same | abandoned same =>
    exact keep_scheduler locked (by simp [same]) main (by simp) rfl rfl

theorem step_preserves (locked : LockStep state) (taken : state.step config event = some next) :
    LockStep next := by
  cases byTask : event.taskOf with
  | some taskId =>
    have same := taskEvent_roles byTask taken
    have main := taskEvent_main byTask taken
    have still : next.main = .reading ↔ state.main = .reading := by
      rcases main with main | ⟨_, before, after⟩
      · rw [main]
      · simp [before, after]
    exact ⟨by simpa only [same.scheduler, still] using locked.busy, by
      simpa only [same.scheduler, still, same.isMainCompleteTrigger, same.triggerMain]
        using locked.tokens⟩
  | none =>
    cases event with
    | main => exact mainStep_keeps locked taken
    | scheduler => exact schedulerStep_keeps locked taken
    | mainTimeout | mainSpurious =>
      simp only [step] at taken
      split at taken
      next main =>
        cases taken
        exact keep_main locked (by simp [main]) ⟨rfl, rfl, rfl, rfl, rfl, rfl, rfl⟩ (by simp)
      next => cases taken
    | startRun =>
      simp only [step] at taken
      split at taken <;> cases taken
      exact ⟨locked.busy, locked.tokens⟩
    | send pipeId mid =>
      simp only [step] at taken
      split at taken
      next processing =>
        cases taken
        exact keep_scheduler locked (by simp [processing]) rfl (by simp) rfl rfl
      next => cases taken
    | createQueue | receive | complete | acknowledge | noMessage | delay | leave => cases byTask

theorem initial (config : Config) {registeredTasks : Nat} {taskTable priority : Nat → Nat} :
    LockStep (threads config registeredTasks taskTable priority).initial :=
  ⟨fun _ => rfl, rfl⟩

end LockStep
end TrickCFS.Threads
