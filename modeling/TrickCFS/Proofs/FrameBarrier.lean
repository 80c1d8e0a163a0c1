import TrickCFS.Proofs.FreeRunning
import TrickCFS.Proofs.LogPairing

/-! `TrickWaitForCFSComplete` as a frame barrier in non-perfect mode with an
unbounded wait. The main thread checks the tasks one after the other; a task
that it has passed stays settled, because only a mark can give it work again
and the scheduler cannot mark before the next frame is triggered. -/

namespace TrickCFS.Proofs.FrameBarrier
open Threads

variable {config : Config} {state next : Threads} {event : ThreadEvent}

def Settled (task : TaskIPC) : Prop :=
  task.state = .taskDelay ∨ task.triggeredMIDs = [] ∧ task.stackList = []

theorem settled_of_not_outstanding {task : TaskIPC} (idle : ¬ task.Outstanding) : Settled task := by
  simp only [TaskIPC.Outstanding, List.length_eq_zero_iff] at idle
  simp only [Settled]
  tauto

/-- How many tasks the main thread has passed in the current scan. -/
def passed (registeredTasks : Nat) : MainPc → Nat
  | .reading | .updating _ => 0
  | .scanning ii | .waiting ii _ | .woken ii | .timedOut ii _ => ii
  | .returned => registeredTasks

/-- The wait-forever case: the remaining time never runs out. -/
def Patient : MainPc → Prop
  | .waiting _ remainingTime | .timedOut _ remainingTime => 0 < remainingTime
  | .reading | .scanning _ | .woken _ | .returned | .updating _ => True

/-- A task's lists agree with its log. Between two receives at most one
acknowledgement is held, and its MID is still among the triggered ones. -/
structure Books (task : TaskIPC) (pc : TaskPc) (log : List TaskEvent) : Prop where
  counts : ∀ mid, marksOf mid log + task.acknowledgedMIDs.count mid =
    acknowledgementsOf mid log + task.triggeredMIDs.count mid
  awaiting : Awaiting log task.stackList
  held : task.acknowledgedMIDs = [] ∨
    ∃ mid, task.acknowledgedMIDs = [mid] ∧ mid ∈ task.triggeredMIDs ∧ task.stackList ≠ [] ∧ pc ≠ .receiving

namespace Books
variable {task record : TaskIPC} {pc after : TaskPc} {log : List TaskEvent}

theorem closed (books : Books task pc log) (idle : task.triggeredMIDs = [] ∧ task.stackList = []) :
    (∀ mid, acknowledgementsOf mid log = marksOf mid log) ∧ Answered log := by
  have none : task.acknowledgedMIDs = [] := by
    rcases books.held with none | ⟨mid, _, member, _⟩
    · exact none
    · rw [idle.1] at member
      cases member
  constructor
  · intro mid
    have counts := books.counts mid
    simp only [none, idle.1, List.count_nil] at counts
    omega
  · have awaiting := books.awaiting
    rw [idle.2] at awaiting
    exact awaiting.answered

private theorem keep (books : Books task pc log) (triggered : record.triggeredMIDs = task.triggeredMIDs)
    (stack : record.stackList = task.stackList) (acknowledged : record.acknowledgedMIDs = task.acknowledgedMIDs)
    (place : after = .receiving → pc = .receiving) : Books record after (log ++ []) := by
  rw [List.append_nil]
  refine ⟨?_, by rw [stack]; exact books.awaiting, ?_⟩
  · intro mid
    rw [triggered, acknowledged]
    exact books.counts mid
  · rw [triggered, stack, acknowledged]
    apply books.held.imp id
    rintro ⟨mid, one, member, some, away⟩
    exact ⟨mid, one, member, some, fun receiving => away (place receiving)⟩

private theorem marked (books : Books task pc log) (mid : Nat) :
    Books (task.markPipeAsTriggered mid) pc (log ++ [.triggered mid]) := by
  refine ⟨?_, ?_, ?_⟩
  · intro other
    have counts := books.counts other
    by_cases same : mid = other
    · simp [marksOf, acknowledgementsOf, same] at counts ⊢
      omega
    · simp [marksOf, acknowledgementsOf, same] at counts ⊢
      omega
  · exact books.awaiting.snoc_other (by simp)
  · apply books.held.imp id
    rintro ⟨held, one, member, some, away⟩
    exact ⟨held, one, List.mem_append_left _ member, some, away⟩

private theorem none_held (books : Books task .receiving log) : task.acknowledgedMIDs = [] := by
  rcases books.held with none | ⟨_, _, _, _, away⟩
  · exact none
  · exact False.elim (away rfl)

private theorem acknowledged (books : Books task .receiving log) (mid : Nat) (newStack : StackInfo)
    (found : mid ∈ task.triggeredMIDs) :
    Books (task.acknowledgePipeTrigger false mid newStack) .running
      (log ++ [.acknowledged mid newStack]) := by
  have none := books.none_held
  rw [TaskIPC.acknowledge_found false mid newStack found]
  refine ⟨?_, books.awaiting.snoc_acknowledged mid newStack, ?_⟩
  · intro other
    have counts := books.counts other
    by_cases same : mid = other
    · simp [marksOf, acknowledgementsOf, none, same] at counts ⊢
      omega
    · simp [marksOf, acknowledgementsOf, none, same] at counts ⊢
      omega
  · exact Or.inr ⟨mid, by simp [none], found, by simp, by simp⟩

private theorem completed (books : Books task pc log) (currStack : StackInfo) :
    Books (task.markPipeAsComplete currStack) .receiving (log ++ [.completed currStack]) := by
  have awaiting := books.awaiting.snoc_completed currStack
  rw [← TaskIPC.complete_stacks] at awaiting
  rcases books.held with none | ⟨held, one, member, some, _⟩
  · have unretired (mid : Nat) : ¬ task.retires mid := by
      rintro ⟨_, last, _⟩
      simp [none] at last
    obtain ⟨triggered, kept⟩ := TaskIPC.complete_keeps currStack unretired
    refine ⟨?_, awaiting, Or.inl (kept.trans none)⟩
    intro mid
    have counts := books.counts mid
    rw [triggered, kept]
    simpa [marksOf, acknowledgementsOf] using counts
  · have retired : task.retires held := ⟨some, by simp [one], member⟩
    obtain ⟨triggered, popped⟩ := TaskIPC.complete_retires currStack retired
    have empty : (task.markPipeAsComplete currStack).acknowledgedMIDs = [] := by simp [popped, one]
    refine ⟨?_, awaiting, Or.inl empty⟩
    intro mid
    have counts := books.counts mid
    have some := List.count_pos_iff.mpr member
    rw [triggered, empty]
    by_cases same : mid = held
    · subst mid
      simp [marksOf, acknowledgementsOf, one] at counts ⊢
      omega
    · rw [List.count_erase_of_ne same]
      simp [marksOf, acknowledgementsOf, one, Ne.symm same] at counts ⊢
      omega

end Books

theorem remainingAfter_forever (forever : config.msWaitTimeForCFSApps = -1) (remainingTime : Int) :
    remainingAfter config remainingTime = remainingTime := by
  simp only [remainingAfter, forever, ite_true]
  omega

private theorem books_move (free : config.perfectScheduleMode = false)
    (forever : config.msWaitTimeForCFSApps = -1) (holds : FreeRunning state)
    (patient : Patient state.main) {taskId : Nat} {record : TaskIPC} {pc : TaskPc} {log : List TaskEvent}
    (books : Books (state.task taskId) (state.tasks taskId) log)
    (moved : Move config state event taskId record pc) :
    Books record pc (log ++ state.logged event taskId) := by
  have placed := holds.placed taskId
  have unpolled := holds.unpolled
  cases moved with
  | stay silent => rw [silent]; exact books.keep rfl rfl rfl id
  | updated =>
    obtain ⟨triggered, stack, acknowledged⟩ := (state.task taskId).updateTaskTimes_lists config.cycleTics
    exact books.keep triggered stack acknowledged id
  | cleared timedOut expired =>
    rw [remainingAfter_forever forever] at expired
    rw [timedOut] at patient
    exact False.elim (Int.not_lt.mpr expired patient)
  | @marked _ mid marking running =>
    have entry : state.logged .scheduler taskId = [.triggered mid] := by
      simp [logged, marking, running]
    rw [entry]
    exact books.marked mid
  | continued polling => simp [polling, SchedulerPc.polls] at unpolled
  | abandoned checking => simp [checking, SchedulerPc.polls] at unpolled
  | received running => exact books.keep rfl rfl rfl (by simp)
  | @completed _ currStack completing =>
    have entry : state.logged (.complete taskId currStack) taskId = [.completed currStack] := by
      simp [logged]
    simp only [entry, free, Bool.false_and, Bool.false_eq_true, ite_false]
    exact books.completed currStack
  | @acknowledged _ mid newStack receiving =>
    simp only [free, Bool.false_and, Bool.false_eq_true, ite_false]
    by_cases found : mid ∈ (state.task taskId).triggeredMIDs
    · have entry : state.logged (.acknowledge taskId mid newStack) taskId =
          [.acknowledged mid newStack] := by simp [logged, found]
      rw [entry]
      rw [receiving] at books
      exact books.acknowledged mid newStack found
    · have entry : state.logged (.acknowledge taskId mid newStack) taskId = [] := by
        simp [logged, found]
      rw [entry, TaskIPC.acknowledge_missing false mid newStack found]
      exact books.keep rfl rfl rfl (by simp)
  | noMessage => exact books.keep rfl rfl rfl (by simp)
  | undelayed _ perfect => simp [free] at perfect
  | delayed => exact books.keep rfl rfl rfl (by simp)
  | left granted loop =>
    obtain rfl := placed.leaves loop
    exact books.keep rfl rfl rfl (by simp)

/-- While the scheduler waits and no delay is counted down, nothing that any
thread does gives a settled task new work. -/
theorem settled_move (free : config.perfectScheduleMode = false) (holds : FreeRunning state)
    (waits : state.scheduler = .waiting) (counted : ∀ ii, state.main ≠ .updating ii)
    {taskId : Nat} {record : TaskIPC} {pc : TaskPc} (settled : Settled (state.task taskId))
    (moved : Move config state event taskId record pc) : Settled record := by
  have placed := holds.placed taskId
  cases moved with
  | stay => exact settled
  | updated updating => exact False.elim (counted taskId updating)
  | cleared => exact settled.imp id (fun idle => ⟨rfl, idle.2⟩)
  | marked scheduler | continued scheduler | abandoned scheduler => simp [waits] at scheduler
  | received => exact settled
  | @completed _ currStack completing =>
    have undelayed := placed.undelayed (by simp [completing])
    obtain ⟨triggered, stack⟩ := settled.resolve_left undelayed
    have unretired (mid : Nat) : ¬ (state.task taskId).retires mid := fun retired => retired.1 stack
    have kept := TaskIPC.complete_keeps currStack unretired
    exact Or.inr ⟨kept.1.trans triggered, by rw [TaskIPC.complete_stacks, stack]; rfl⟩
  | acknowledged receiving =>
    have undelayed := placed.undelayed (by simp [receiving])
    obtain ⟨triggered, stack⟩ := settled.resolve_left undelayed
    rw [TaskIPC.acknowledge_missing _ _ _ (by simp [triggered])]
    exact Or.inr ⟨triggered, stack⟩
  | noMessage => exact settled
  | undelayed _ perfect => simp [free] at perfect
  | delayed => exact Or.inl rfl
  | left granted =>
    have undelayed : (state.task taskId).state ≠ .taskDelay := by
      rcases granted with granted | dead
      · simp [granted]
      · simp [holds.running] at dead
    exact Or.inr (settled.resolve_left undelayed)

theorem step_patient (patient : Patient state.main)
    (taken : state.step config event = some next) : Patient next.main := by
  by_cases isMain : event = .main
  · subst isMain
    cases mainStep_cases taken with
    | read => cases config.perfectScheduleMode <;> trivial
    | blocked _ _ _ _ granted => exact granted
    | resumed _ _ left => exact left
    | scanned | passed | rescanned | exited | expired | called | updated | triggered => trivial
  · rcases step_main isMain taken with same | ⟨ii, remainingTime, waiting, woken | timedOut⟩
    · rw [same]
      exact patient
    · rw [woken]
      trivial
    · rw [waiting] at patient
      rw [timedOut]
      exact patient

private theorem step_passed (free : config.perfectScheduleMode = false)
    (forever : config.msWaitTimeForCFSApps = -1)
    (unstopped : state.exitCmd = false) (patient : Patient state.main)
    (taken : state.step config event = some next) {taskId : Nat}
    (inside : taskId < passed next.es.registeredTasks next.main) :
    taskId < passed state.es.registeredTasks state.main ∨
      next.task taskId = state.task taskId ∧ ¬ (state.task taskId).Outstanding := by
  rw [(step_fixed taken).1] at inside
  by_cases isMain : event = .main
  · subst isMain
    cases mainStep_cases taken with
    | read reading =>
      simp only [free, Bool.false_eq_true, ite_false] at inside
      cases inside
    | @scanned ii scanning last =>
      have beyond : ¬ ii < state.es.registeredTasks := by
        intro more
        cases unstopped.symm.trans (last more)
      rw [scanning]
      exact Or.inl (Nat.lt_of_lt_of_le inside (Nat.not_lt.mp beyond))
    | passed scanning _ _ settled =>
      rcases Nat.lt_succ_iff_lt_or_eq.mp inside with earlier | rfl
      · rw [scanning]
        exact Or.inl earlier
      · refine Or.inr ⟨rfl, fun outstanding => ?_⟩
        have spent := settled outstanding
        simp [Config.waitTime, forever] at spent
    | blocked same | rescanned same | resumed same =>
      rw [same]
      exact Or.inl inside
    | exited _ stopped => cases unstopped.symm.trans stopped
    | expired timedOut _ spent =>
      rw [timedOut] at patient
      rw [remainingAfter_forever forever] at spent
      exact absurd spent (Int.not_le.mpr patient)
    | called | updated | triggered => cases inside
  · left
    rcases step_main isMain taken with same | ⟨ii, remainingTime, waiting, woken | timedOut⟩
    · rw [← same]
      exact inside
    · rw [woken] at inside
      rw [waiting]
      exact inside
    · rw [timedOut] at inside
      rw [waiting]
      exact inside

structure Barrier (watched : Threads × (Nat → List TaskEvent)) : Prop where
  free : FreeRunning watched.1
  locked : LockStep watched.1
  patient : Patient watched.1.main
  books : ∀ taskId, Books (watched.1.task taskId) (watched.1.tasks taskId) (watched.2 taskId)
  settled : ∀ taskId < passed watched.1.es.registeredTasks watched.1.main, Settled (watched.1.task taskId)

namespace Barrier

theorem initial {registeredTasks : Nat} {taskTable priority : Nat → Nat} :
    Barrier (((threads config registeredTasks taskTable priority).watch taskLogs).initial) where
  free := .initial config
  locked := .initial config
  patient := trivial
  books := fun _ => ⟨fun _ => rfl, .empty, Or.inl rfl⟩
  settled := fun _ inside => by cases inside

theorem step_preserves (free : config.perfectScheduleMode = false)
    (forever : config.msWaitTimeForCFSApps = -1) {watched after : Threads × (Nat → List TaskEvent)}
    (holds : Barrier watched) (taken : watched.1.step config event = some after.1)
    (recorded : after.2 = taskLogs.record watched.2 watched.1 event) : Barrier after := by
  refine ⟨holds.free.step_preserves free taken, holds.locked.step_preserves taken,
    step_patient holds.patient taken, ?_, ?_⟩
  · intro taskId
    rw [recorded]
    exact books_move free forever holds.free holds.patient (holds.books taskId) (step_moves taken taskId)
  · intro taskId inside
    rcases step_passed free forever holds.free.unstopped holds.patient taken inside with old | ⟨same, idle⟩
    · have waits : watched.1.scheduler = .waiting := by
        apply holds.locked.waits
        intro reading
        rw [reading] at old
        cases old
      have counted (ii : Nat) : watched.1.main ≠ .updating ii := by
        intro updating
        rw [updating] at old
        cases old
      exact settled_move free holds.free waits counted (holds.settled taskId old) (step_moves taken taskId)
    · rw [same]
      exact settled_of_not_outstanding idle

end Barrier

/-- Whenever `TrickWaitForCFSComplete` has returned, every registered task is
delayed or has acknowledged and completed everything ever marked on it. -/
theorem frame_barrier (config : Config) (free : config.perfectScheduleMode = false)
    (forever : config.msWaitTimeForCFSApps = -1) (registeredTasks : Nat) (taskTable priority : Nat → Nat)
    {state : Threads} {logs : Nat → List TaskEvent}
    (reachable : ((threads config registeredTasks taskTable priority).watch taskLogs).Reachable (state, logs))
    (returned : state.main = .returned) (taskId : Nat) (registered : taskId < registeredTasks) :
    (state.task taskId).state = .taskDelay ∨
      ((∀ mid, acknowledgementsOf mid (logs taskId) = marksOf mid (logs taskId)) ∧
        Answered (logs taskId) ∧
        (state.task taskId).triggeredMIDs = [] ∧ (state.task taskId).stackList = []) := by
  have holds : Barrier (state, logs) ∧ state.es.registeredTasks = registeredTasks := by
    refine Machine.invariant _
      (fun watched => Barrier watched ∧ watched.1.es.registeredTasks = registeredTasks)
      ⟨.initial, rfl⟩ ?_ reachable
    intro watched event after ⟨holds, same⟩ taken
    obtain ⟨taken, recorded⟩ := (Machine.watch_step _).mp taken
    refine ⟨holds.step_preserves free forever taken recorded, ?_⟩
    rw [(step_fixed taken).1]
    exact same
  obtain ⟨barrier, same⟩ := holds
  have inside : taskId < passed state.es.registeredTasks state.main := by
    rw [returned, same]
    exact registered
  rcases barrier.settled taskId inside with delayed | idle
  · exact Or.inl delayed
  · obtain ⟨counts, answered⟩ := (barrier.books taskId).closed idle
    exact Or.inr ⟨counts, answered, idle⟩

def oneTask : Machine (Threads × (Nat → List TaskEvent)) ThreadEvent :=
  (threads oneTaskConfig 1 (fun _ => 0) (fun _ => 0)).watch taskLogs

/-- A frame after initialization in which the one task receives a message, and
completes it after the main thread has begun to wait for it. -/
def oneMessage : List ThreadEvent :=
  let site := StackInfo.backtrace [0, 1, 2, 3]
  [.scheduler, .scheduler, .main, .main, .main, .startRun, .main, .main, .main,
    .scheduler, .send 0 7, .scheduler, .scheduler, .scheduler, .main, .main,
    .receive 0 0, .complete 0 site, .acknowledge 0 7 site, .main, .main,
    .receive 0 0, .complete 0 site, .main, .main, .main]

private theorem oneMessage_runs : (oneTask.run oneMessage).isSome = true := by decide

theorem frame_barrier_one_message :
    let final := (oneTask.run oneMessage).get oneMessage_runs
    marksOf 7 (final.2 0) = 1 ∧ final.1.main = .returned ∧
      ((final.1.task 0).state = .taskDelay ∨
        ((∀ mid, acknowledgementsOf mid (final.2 0) = marksOf mid (final.2 0)) ∧
          Answered (final.2 0) ∧
          (final.1.task 0).triggeredMIDs = [] ∧ (final.1.task 0).stackList = [])) := by
  refine ⟨by decide, by decide, ?_⟩
  exact frame_barrier oneTaskConfig rfl rfl 1 (fun _ => 0) (fun _ => 0)
    ⟨oneMessage, (Option.some_get oneMessage_runs).symm⟩ (by decide) 0 one_pos

end TrickCFS.Proofs.FrameBarrier
