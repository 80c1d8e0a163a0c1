import TrickCFS.Proofs.FreeRunning

/-! When the main thread may block on a task that has nothing outstanding. The
record is tested before the first timed wait and after a wake-up, but not when
the main thread waits again after a poll has timed out. -/

namespace TrickCFS.Proofs.LostWakeups
open Threads

variable {config : Config} {state next : Threads} {event : ThreadEvent}

/-- The main thread is blocked on a task only while that task has work. -/
def BlockedOnWork (state : Threads) : Prop :=
  ∀ ii remainingTime, state.main = .waiting ii remainingTime → (state.task ii).Outstanding

/-- A waiter that has timed out, and has time left, finds the task's work still
outstanding when it holds the mutex again. -/
def OutstandingAfterTimeout (config : Config) (state : Threads) (event : ThreadEvent) : Prop :=
  event = .main → ∀ ii remainingTime, state.main = .timedOut ii remainingTime →
    0 < remainingAfter config remainingTime → (state.task ii).Outstanding

private theorem signalled {taskId : Nat} (taken : state.step config event = some next)
    (ends : (∃ currStack, event = .complete taskId currStack) ∨
      (∃ mid newStack, event = .acknowledge taskId mid newStack) ∨
      ∃ ms, event = .delay taskId ms ∧ state.execMode = .run ∧
        ¬ (config.perfectScheduleMode = true ∧ (state.task taskId).triggeredMIDs.length > 0))
    (remainingTime : Int) : next.main ≠ .waiting taskId remainingTime := by
  rcases ends with ⟨currStack, rfl⟩ | ⟨mid, newStack, rfl⟩ | ⟨ms, rfl, run, enters⟩
  all_goals
    simp only [step] at taken
    obtain ⟨_, _, rfl⟩ := taskStep_some taken
  · exact not_waiting_of_signal _ taskId remainingTime
  · exact not_waiting_of_signal _ taskId remainingTime
  · simp only [delayStep, run, if_neg enters]
    exact not_waiting_of_signal _ taskId remainingTime

/-- Work can end only under a signal: a move of the task that the main thread
stays blocked on leaves its work outstanding. -/
private theorem move_outstanding (free : config.perfectScheduleMode = false) (holds : FreeRunning state)
    (taken : state.step config event = some next) {taskId : Nat} {remainingTime : Int}
    (blocked : next.main = .waiting taskId remainingTime) (away : event ≠ .main)
    (outstanding : (state.task taskId).Outstanding) : (next.task taskId).Outstanding := by
  have moved := step_moves taken taskId
  have unpolled := holds.unpolled
  generalize next.task taskId = record at moved
  generalize next.tasks taskId = pc at moved
  cases moved with
  | stay | received | noMessage => exact outstanding
  | updated | cleared => exact False.elim (away rfl)
  | marked => exact ⟨outstanding.1, by simp⟩
  | continued polling => simp [polling, SchedulerPc.polls] at unpolled
  | abandoned checking => simp [checking, SchedulerPc.polls] at unpolled
  | completed => exact False.elim (signalled taken (Or.inl ⟨_, rfl⟩) remainingTime blocked)
  | acknowledged =>
    exact False.elim (signalled taken (Or.inr (Or.inl ⟨_, _, rfl⟩)) remainingTime blocked)
  | undelayed _ perfect => simp [free] at perfect
  | delayed _ run enters =>
    exact False.elim (signalled taken (Or.inr (Or.inr ⟨_, rfl, run, enters⟩)) remainingTime blocked)
  | left => exact ⟨by simp, outstanding.2⟩

private theorem still_waiting (taken : state.step config event = some next) (away : event ≠ .main)
    {ii : Nat} {remainingTime : Int} (blocked : next.main = .waiting ii remainingTime) :
    state.main = .waiting ii remainingTime := by
  rcases step_main away taken with same | ⟨_, _, _, woken | timedOut⟩
  · exact same.symm.trans blocked
  · rw [woken] at blocked
    cases blocked
  · rw [timedOut] at blocked
    cases blocked

private theorem main_blocks (taken : state.mainStep config = some next) {ii : Nat} {remainingTime : Int}
    (blocked : next.main = .waiting ii remainingTime) :
    next.task ii = state.task ii ∧
      (state.main = .scanning ii ∧ (state.task ii).Outstanding ∨
        ∃ before, state.main = .timedOut ii before ∧ 0 < remainingAfter config before) := by
  cases mainStep_cases taken with
  | read => split at blocked <;> cases blocked
  | blocked scanning _ _ outstanding =>
    cases blocked
    exact ⟨rfl, Or.inl ⟨scanning, outstanding⟩⟩
  | resumed timedOut _ left =>
    cases blocked
    exact ⟨rfl, Or.inr ⟨_, timedOut, left⟩⟩
  | scanned | passed | rescanned | exited | expired | called | updated | triggered => cases blocked

/-- Whether a step blocks the main thread on finished work is decided by what a
timed-out waiter finds. -/
theorem step_blocks (free : config.perfectScheduleMode = false) (holds : FreeRunning state)
    (before : BlockedOnWork state) (taken : state.step config event = some next) :
    BlockedOnWork next ↔ OutstandingAfterTimeout config state event := by
  constructor
  · intro after isMain ii remainingTime timedOut left
    subst isMain
    simp only [step, mainStep, timedOut, reacquire, holds.unstopped, Int.not_le.mpr left] at taken
    cases taken
    exact after ii (remainingAfter config remainingTime) rfl
  · intro good ii remainingTime blocked
    by_cases isMain : event = .main
    · subst isMain
      obtain ⟨same, ⟨_, outstanding⟩ | ⟨earlier, timedOut, left⟩⟩ := main_blocks taken blocked
      · rw [same]; exact outstanding
      · rw [same]; exact good rfl ii earlier timedOut left
    · have still := still_waiting taken isMain blocked
      exact move_outstanding free holds taken blocked isMain (before ii remainingTime still)

/-- The main thread blocks only on outstanding work throughout a run exactly
when every timed-out waiter of the run finds the work still outstanding. -/
theorem blocked_on_work_iff (config : Config) (free : config.perfectScheduleMode = false)
    (registeredTasks : Nat) (taskTable priority : Nat → Nat) (events : List ThreadEvent) :
    (threads config registeredTasks taskTable priority).States BlockedOnWork
        (threads config registeredTasks taskTable priority).initial events ↔
      (threads config registeredTasks taskTable priority).Steps (OutstandingAfterTimeout config)
        (threads config registeredTasks taskTable priority).initial events := by
  refine Machine.states_iff_steps _ FreeRunning ?_ ?_ (.initial config) ?_
  · intro state event next holds _ taken _
    exact holds.step_preserves free taken
  · intro state event next holds before taken
    exact step_blocks free holds before taken
  · intro ii remainingTime waiting
    cases waiting

/-- The task has acknowledged message 7 when the poll times out, and completes
it before the main thread holds the mutex again: its signal wakes nobody. -/
def missedSignal : List ThreadEvent :=
  let site := StackInfo.backtrace [0, 1, 2, 3]
  [.scheduler, .scheduler, .main, .main, .main, .startRun, .main, .main, .main,
    .scheduler, .send 0 7, .scheduler, .scheduler, .scheduler,
    .receive 0 0, .complete 0 site, .acknowledge 0 7 site, .receive 0 0, .main, .main,
    .mainTimeout, .complete 0 site, .main]

private theorem missedSignal_runs :
    ((threads oneTaskConfig 1 (fun _ => 0) (fun _ => 0)).run missedSignal).isSome = true := by decide

theorem blocked_on_work_iff_missed :
    (threads oneTaskConfig 1 (fun _ => 0) (fun _ => 0)).States BlockedOnWork
        (threads oneTaskConfig 1 (fun _ => 0) (fun _ => 0)).initial missedSignal ↔
      (threads oneTaskConfig 1 (fun _ => 0) (fun _ => 0)).Steps (OutstandingAfterTimeout oneTaskConfig)
        (threads oneTaskConfig 1 (fun _ => 0) (fun _ => 0)).initial missedSignal :=
  blocked_on_work_iff oneTaskConfig rfl 1 (fun _ => 0) (fun _ => 0) missedSignal

theorem missed_signal_blocks :
    ¬ ∀ (config : Config), config.perfectScheduleMode = false →
      ∀ (registeredTasks : Nat) (taskTable priority : Nat → Nat) (events : List ThreadEvent),
        (threads config registeredTasks taskTable priority).States BlockedOnWork
          (threads config registeredTasks taskTable priority).initial events := by
  intro always
  have throughout := always oneTaskConfig rfl 1 (fun _ => 0) (fun _ => 0) missedSignal
  have blocked := Machine.States.last _ throughout (Option.some_get missedSignal_runs).symm
  have outstanding := blocked 0 5000 (by decide)
  revert outstanding
  decide

end TrickCFS.Proofs.LostWakeups
