import Mathlib.Tactic.Linarith
import Mathlib.Tactic.NormNum
import Mathlib.Algebra.Order.Floor.Semiring
import TrickCFS.Proofs.QuietFrames

/-! When a task delay ends at the right simulated time. `addTaskDelay` stores
milliseconds and `updateTaskTimes` counts them down in tics, so a delay lasts
the right number of cycles only where the two units happen to agree. -/

namespace TrickCFS.Proofs.SimulatedDelays
open Threads

variable {config : Config} {state next : Threads} {event : ThreadEvent} {taskId ms : Nat}

/-- The first update at which the simulated time is at least `ms` milliseconds. -/
def dueUpdate (config : Config) (ms : Nat) : Nat := ⌈(ms : ℚ) / (1000 * config.jobCycle)⌉₊

/-- Counting `ms` down in tics takes just as many updates. -/
def UnitsAgree (config : Config) (ms : Nat) : Prop :=
  ((dueUpdate config ms : Int) - 1) * config.cycleTics < ms ∧ (ms : Int) ≤ dueUpdate config ms * config.cycleTics

/-- In every run from the registration of the delay, until the task leaves its
wait, the task is delayed exactly while the updates of its record count less
than `ms` milliseconds. -/
def ReleasedOnTime (config : Config) (registeredTasks : Nat) (taskTable priority : Nat → Nat)
    (taskId ms : Nat) : Prop :=
  ∀ start registered, (threads config registeredTasks taskTable priority).Reachable start →
    start.execMode = .run → start.step config (.delay taskId ms) = some registered →
    ∀ events, .leave taskId ∉ events → ∀ final updates,
      ((threads config registeredTasks taskTable priority).watch (updatesOf taskId)).runFrom
        (registered, 0) events = some (final, updates) →
      ((final.task taskId).state = .taskDelay ↔ (updates : ℚ) * config.jobCycle * 1000 < ms)

theorem cycleTics_nonneg (config : Config) : 0 ≤ config.cycleTics :=
  Int.floor_nonneg.mpr (mul_nonneg config.jobCycle_pos.le (Nat.cast_nonneg _))

structure Counting (config : Config) (ms updates : Nat) (task : TaskIPC) : Prop where
  delayed : task.state = .taskDelay → task.usRemaining = ms - updates * config.cycleTics
  due : task.state = .taskDelay ↔ (updates : Int) * config.cycleTics < ms
  waits : task.state = .taskDelay ∨ task.state = .taskContinue

theorem Counting.registered (positive : 1 ≤ ms) (task : TaskIPC) :
    Counting config ms 0 (task.addTaskDelay ms) where
  delayed := fun _ => by simp [TaskIPC.addTaskDelay]
  due := by simp [TaskIPC.addTaskDelay]; omega
  waits := Or.inl rfl

theorem Counting.updated {updates : Nat} {task : TaskIPC} (counting : Counting config ms updates task) :
    Counting config ms (updates + 1) (task.updateTaskTimes config.cycleTics) := by
  have tics := cycleTics_nonneg config
  have total : ((updates + 1 : Nat) : Int) * config.cycleTics =
      updates * config.cycleTics + config.cycleTics := by push_cast; ring
  rcases counting.waits with delayed | released
  · have remaining := counting.delayed delayed
    simp only [TaskIPC.updateTaskTimes, delayed, ite_true]
    split
    next ended =>
      refine ⟨by simp, ?_, Or.inr rfl⟩
      simp only [reduceCtorEq, false_iff, total]
      omega
    next more =>
      refine ⟨fun _ => ?_, ?_, Or.inl rfl⟩
      · simp only [total, remaining]
        omega
      · simp only [true_iff, total]
        omega
  · have due := counting.due
    simp only [released, reduceCtorEq, false_iff] at due
    have kept : task.updateTaskTimes config.cycleTics = task := by
      simp [TaskIPC.updateTaskTimes, released]
    rw [kept]
    refine ⟨by simp [released], ?_, Or.inr released⟩
    simp only [released, reduceCtorEq, false_iff, total]
    omega

theorem Counting.keep {updates : Nat} {task record : TaskIPC} (counting : Counting config ms updates task)
    (same : record.state = task.state) (remaining : record.usRemaining = task.usRemaining) :
    Counting config ms updates record where
  delayed := fun delayed => remaining.trans (counting.delayed (same.symm.trans delayed))
  due := by rw [same]; exact counting.due
  waits := by rw [same]; exact counting.waits

structure Delaying (config : Config) (taskId ms : Nat) (watched : Threads × Nat) : Prop where
  free : FreeRunning watched.1
  waits : watched.1.tasks taskId = .delayed
  counting : Counting config ms watched.2 (watched.1.task taskId)

private theorem update_step (updating : state.main = .updating taskId) (slot : taskId < config.maxTasks)
    (taken : state.mainStep config = some next) :
    next.task taskId = (state.task taskId).updateTaskTimes config.cycleTics ∧
      next.tasks taskId = state.tasks taskId := by
  simp only [mainStep, updating, updateRecord, if_pos slot, Option.some.injEq] at taken
  subst taken
  exact ⟨by simp, rfl⟩

/-- Nothing but the updates counts a delay down, whatever the others do. -/
private theorem delaying_step (free : config.perfectScheduleMode = false) (slot : taskId < config.maxTasks)
    {watched after : Threads × Nat} (holds : Delaying config taskId ms watched)
    (stays : event ≠ .leave taskId) (taken : watched.1.step config event = some after.1)
    (recorded : after.2 = (updatesOf taskId).record watched.2 watched.1 event) :
    Delaying config taskId ms after := by
  have freeNext := holds.free.step_preserves free taken
  by_cases update : event = .main ∧ watched.1.main = .updating taskId
  · obtain ⟨rfl, updating⟩ := update
    obtain ⟨record, pc⟩ := update_step updating slot taken
    refine ⟨freeNext, pc.trans holds.waits, ?_⟩
    have counted : after.2 = watched.2 + 1 := recorded.trans (if_pos ⟨rfl, updating⟩)
    rw [counted, record]
    exact holds.counting.updated
  · have counted : after.2 = watched.2 := recorded.trans (if_neg update)
    have moved := step_moves taken taskId
    have unpolled := holds.free.unpolled
    have still : after.1.tasks taskId = .delayed ∧ (after.1.task taskId).state = (watched.1.task taskId).state ∧
        (after.1.task taskId).usRemaining = (watched.1.task taskId).usRemaining := by
      have waits := holds.waits
      generalize after.1.task taskId = record at moved ⊢
      generalize after.1.tasks taskId = pc at moved ⊢
      cases moved with
      | stay | cleared | marked => exact ⟨waits, rfl, rfl⟩
      | updated updating => exact False.elim (update ⟨rfl, updating⟩)
      | continued polling => simp [polling, SchedulerPc.polls] at unpolled
      | abandoned checking => simp [checking, SchedulerPc.polls] at unpolled
      | received elsewhere | completed elsewhere | acknowledged elsewhere | noMessage elsewhere
      | undelayed elsewhere | delayed elsewhere => simp [waits] at elsewhere
      | left => exact False.elim (stays rfl)
    obtain ⟨waits, same, remaining⟩ := still
    refine ⟨freeNext, waits, ?_⟩
    rw [counted]
    exact holds.counting.keep same remaining

private theorem delaying_run (free : config.perfectScheduleMode = false) (slot : taskId < config.maxTasks)
    {system : Machine Threads ThreadEvent} (stepped : system.step = Threads.step config)
    {events : List ThreadEvent} (stays : .leave taskId ∉ events) {watched after : Threads × Nat}
    (holds : Delaying config taskId ms watched)
    (ran : (system.watch (updatesOf taskId)).runFrom watched events = some after) :
    Delaying config taskId ms after := by
  refine Machine.runFrom_preserves_on _ (· ≠ .leave taskId) (Delaying config taskId ms) ?_ holds ?_ ran
  · intro watched event after holds stays taken
    obtain ⟨taken, recorded⟩ := (Machine.watch_step _).mp taken
    rw [stepped] at taken
    exact delaying_step free slot holds stays taken recorded
  · intro event member same
    subst same
    exact stays member

private theorem registration (free : config.perfectScheduleMode = false) (run : state.execMode = .run)
    (taken : state.step config (.delay taskId ms) = some next) :
    taskId < config.maxTasks ∧
      next = ((state.setTask taskId (TaskIPC.addTaskDelay ms)).setPc taskId .delayed).signal taskId := by
  simp only [Threads.step] at taken
  obtain ⟨slot, _, rfl⟩ := taskStep_some taken
  exact ⟨slot, by simp [delayStep, run, free]⟩

private theorem registered_delaying (free : config.perfectScheduleMode = false) (positive : 1 ≤ ms)
    (holds : FreeRunning state) (run : state.execMode = .run)
    (taken : state.step config (.delay taskId ms) = some next) :
    Delaying config taskId ms (next, 0) := by
  refine ⟨holds.step_preserves free taken, ?_, ?_⟩
  all_goals obtain ⟨_, rfl⟩ := registration free run taken
  · simp
  · simpa using Counting.registered positive (state.task taskId)

private theorem due_iff (config : Config) (ms updates : Nat) :
    (updates : ℚ) * config.jobCycle * 1000 < ms ↔ updates < dueUpdate config ms := by
  have cycle := config.jobCycle_pos
  rw [dueUpdate, Nat.lt_ceil, lt_div_iff₀ (by positivity)]
  constructor <;> intro less <;> linarith

private theorem agree_of_always (positive : 1 ≤ ms)
    (always : ∀ updates : Nat, (updates : Int) * config.cycleTics < ms ↔ updates < dueUpdate config ms) :
    UnitsAgree config ms := by
  have started : 0 < dueUpdate config ms := (always 0).mp (by simp; omega)
  constructor
  · have last := (always (dueUpdate config ms - 1)).mpr (by omega)
    rwa [Nat.cast_sub started, Nat.cast_one] at last
  · have due := (always (dueUpdate config ms)).not.mpr (Nat.lt_irrefl _)
    exact Int.not_lt.mp due

private theorem always_of_agree (agree : UnitsAgree config ms) (updates : Nat) :
    (updates : Int) * config.cycleTics < ms ↔ updates < dueUpdate config ms := by
  have tics := cycleTics_nonneg config
  constructor
  · intro less
    refine Nat.lt_of_not_le (fun due => ?_)
    have more := mul_le_mul_of_nonneg_right (Int.ofNat_le.mpr due) tics
    exact absurd (Int.lt_of_le_of_lt (Int.le_trans agree.2 more) less) (Int.lt_irrefl _)
  · intro early
    have fewer : (updates : Int) ≤ (dueUpdate config ms : Int) - 1 := by omega
    exact Int.lt_of_le_of_lt (mul_le_mul_of_nonneg_right fewer tics) agree.1

section
variable (free : config.perfectScheduleMode = false) {registeredTasks : Nat} {taskTable priority : Nat → Nat}
include free

private theorem released_of_agree (positive : 1 ≤ ms) (agree : UnitsAgree config ms) :
    ReleasedOnTime config registeredTasks taskTable priority taskId ms := by
  intro start registered reachable run taken events stays final updates ran
  have slot := (registration free run taken).1
  have holds : FreeRunning start := by
    refine Machine.invariant _ FreeRunning (.initial config) ?_ reachable
    intro state event next holds taken
    exact holds.step_preserves free taken
  have delaying := registered_delaying free positive holds run taken
  have counting := (delaying_run free slot rfl stays delaying ran).counting
  rw [counting.due, always_of_agree agree, due_iff]

private theorem agree_of_released (positive : 1 ≤ ms) (slot : taskId < config.maxTasks)
    (onTime : ReleasedOnTime config registeredTasks taskTable priority taskId ms) :
    UnitsAgree config ms := by
  refine agree_of_always positive (fun updates => ?_)
  obtain ⟨start, reachable, calm, returned, running⟩ :=
    reachable_run config free registeredTasks taskTable priority
  have taken : start.step config (.delay taskId ms) =
      some (((start.setTask taskId (TaskIPC.addTaskDelay ms)).setPc taskId .delayed).signal taskId) := by
    simp [Threads.step, taskStep, slot, running, delayStep, calm.mode, free]
  have same : ((start.setTask taskId (TaskIPC.addTaskDelay ms)).setPc taskId .delayed).signal taskId =
      (start.setTask taskId (TaskIPC.addTaskDelay ms)).setPc taskId .delayed := by
    simp [Threads.signal, returned]
  rw [same] at taken
  have delaying := registered_delaying free positive calm.free calm.mode taken
  have registered : Calm .run ((start.setTask taskId (TaskIPC.addTaskDelay ms)).setPc taskId .delayed) := by
    refine ⟨delaying.free, calm.locked.step_preserves taken, calm.mode, calm.unmarked, ?_⟩
    intro other
    by_cases this : other = taskId
    · subst other
      simpa using calm.idle taskId
    · simpa [setTask_other _ _ _ this] using calm.idle other
  let system := threads config registeredTasks taskTable priority
  obtain ⟨after, ⟨_, _, _, events, ours, ran⟩, _⟩ :=
    frames_return system taskId rfl free slot registered returned updates
  have stays : .leave taskId ∉ events := by
    intro member
    rcases ours _ member with same | same <;> cases same
  have counting := (delaying_run free slot rfl stays delaying ran).counting
  rw [← due_iff, ← onTime start _ reachable calm.mode taken events stays after updates ran]
  exact counting.due.symm

end

/-- A delay ends at the right update in every run exactly when counting its
milliseconds in tics takes as many cycles as it should. -/
theorem released_on_time_iff (config : Config) (free : config.perfectScheduleMode = false)
    (registeredTasks : Nat) (taskTable priority : Nat → Nat) (taskId : Nat) (slot : taskId < config.maxTasks)
    (ms : Nat) (positive : 1 ≤ ms) :
    ReleasedOnTime config registeredTasks taskTable priority taskId ms ↔ UnitsAgree config ms :=
  ⟨agree_of_released free positive slot, released_of_agree free positive⟩

def millisecondTics : Config := { oneTaskConfig with timeTicValue := 1000 }

theorem released_on_time_millisecond_tics :
    ReleasedOnTime millisecondTics 1 (fun _ => 0) (fun _ => 0) 0 2500 := by
  refine (released_on_time_iff millisecondTics rfl 1 (fun _ => 0) (fun _ => 0) 0 one_pos 2500
    (by decide)).mpr ?_
  have due : dueUpdate millisecondTics 2500 = 3 := by
    simp only [dueUpdate, millisecondTics, oneTaskConfig]
    exact (Nat.ceil_eq_iff (by decide)).mpr (by norm_num)
  have tics : millisecondTics.cycleTics = 1000 := by
    norm_num [Config.cycleTics, millisecondTics, oneTaskConfig]
  norm_num [UnitsAgree, due, tics]

def microsecondTics : Config := { oneTaskConfig with jobCycle := 1 / 100, jobCycle_pos := by norm_num }

/-- A delay of 100 ms is over after the first cycle of 10 ms. -/
theorem delay_released_early :
    ¬ ∀ (config : Config), config.perfectScheduleMode = false →
      ∀ (registeredTasks : Nat) (taskTable priority : Nat → Nat) (taskId : Nat),
        taskId < config.maxTasks → ∀ ms, 1 ≤ ms →
          ReleasedOnTime config registeredTasks taskTable priority taskId ms := by
  intro always
  have onTime := always microsecondTics rfl 1 (fun _ => 0) (fun _ => 0) 0 one_pos 100 (by decide)
  have agree := agree_of_released rfl (by decide) one_pos onTime
  norm_num [UnitsAgree, dueUpdate, Config.cycleTics, microsecondTics, oneTaskConfig] at agree

end TrickCFS.Proofs.SimulatedDelays
