import TrickCFS.Library.Lasso
import TrickCFS.Proofs.LostWakeups
import TrickCFS.Proofs.PerfectProgress

/-! The other mode makes progress too, as long as no wake-up is lost: a task that
the main thread waits for reads and completes the messages that it has been
sent, and the section that ends its work signals the main thread. -/

namespace TrickCFS.Proofs.FrameProgress
open Threads PipeThreads SimulationProgress FrameBarrier LostWakeups

variable {config : Config} {depth : Nat → Nat} {registeredTasks : Nat} {taskTable priority : Nat → Nat}
  {use : PipeUse} {behaviour : (pipeThreads config depth registeredTasks taskTable priority).Behaviour} {ii : Nat}

/-- No wake-up of the main thread is lost between the end of a poll and the next wait. -/
def Unlost (config : Config) (state : PipeThreads) (event : PipeThreadEvent) : Prop :=
  ∀ threadEvent, event = .thread threadEvent → OutstandingAfterTimeout config state.threads threadEvent

def LooksAt (ii : Nat) (main : MainPc) : Prop :=
  main = .scanning ii ∨ main = .woken ii ∨ ∃ remainingTime, main = .waiting ii remainingTime ∨ main = .timedOut ii remainingTime

namespace LooksAt
variable {state next : PipeThreads} {event : PipeThreadEvent} {main : MainPc}

theorem away (looks : LooksAt ii main) : main ≠ .reading ∧ ∀ jj, main ≠ .updating jj := by
  rcases looks with same | same | ⟨_, same | same⟩ <;> simp [same]

theorem step (looks : LooksAt ii state.threads.main) (inside : ii < state.threads.es.registeredTasks)
    (unstopped : state.threads.exitCmd = false) (unexpired : Unexpired config state.threads)
    (taken : state.step config depth event = some next) :
    LooksAt ii next.threads.main ∨ next.threads.main = .scanning (ii + 1) := by
  by_cases byMain : event = .thread .main
  · have stepped := (thread_taken taken byMain).2
    generalize next.threads = threads at stepped ⊢
    have place {main : MainPc} (same : state.threads.main = main) : LooksAt ii main := same ▸ looks
    cases mainStep_cases stepped with
    | passed same =>
      rcases place same with same | same | ⟨_, same | same⟩ <;> cases same
      exact Or.inr rfl
    | blocked same =>
      rcases place same with same | same | ⟨_, same | same⟩ <;> cases same
      exact Or.inl (Or.inr (Or.inr ⟨_, Or.inl rfl⟩))
    | rescanned same =>
      rcases place same with same | same | ⟨_, same | same⟩ <;> cases same
      exact Or.inl (Or.inl rfl)
    | resumed same =>
      rcases place same with same | same | ⟨_, same | same⟩ <;> cases same
      exact Or.inl (Or.inr (Or.inr ⟨_, Or.inl rfl⟩))
    | scanned same last =>
      rcases place same with same | same | ⟨_, same | same⟩ <;> cases same
      simp [unstopped] at last
      omega
    | exited _ stopped => cases unstopped.symm.trans stopped
    | expired timedOut _ spent => exact absurd spent (unexpired _ _ timedOut)
    | read same | called same | updated same | triggered same =>
      rcases place same with same | same | ⟨_, same | same⟩ <;> cases same
  · left
    rcases threads_step taken with ⟨threadEvent, rfl, _, stepped⟩ | ⟨same, _⟩
    · have notMain : threadEvent ≠ .main := by
        rintro rfl
        exact byMain rfl
      rcases step_main notMain stepped with same | ⟨jj, remainingTime, waiting, woken | timedOut⟩
      · rw [same]
        exact looks
      · rw [waiting] at looks
        rcases looks with same | same | ⟨_, same | same⟩ <;> cases same
        exact Or.inr (Or.inl woken)
      · rw [waiting] at looks
        rcases looks with same | same | ⟨_, same | same⟩ <;> cases same
        exact Or.inr (Or.inr ⟨_, Or.inr timedOut⟩)
    · rw [same]
      exact looks

end LooksAt

structure Waited (config : Config) (use : PipeUse) (state : PipeThreads) : Prop where
  sound : Sound config use state
  free : FreeRunning state.threads
  blocked : BlockedOnWork state.threads

theorem registered_at (behaviour : (pipeThreads config depth registeredTasks taskTable priority).Behaviour)
    (time : Nat) : (behaviour.state time).threads.es.registeredTasks = registeredTasks := by
  refine behaviour.always (fun state => state.threads.es.registeredTasks = registeredTasks) rfl ?_ time
  intro time same
  rcases threads_step (behaviour.taken time) with ⟨_, _, _, stepped⟩ | ⟨unmoved, _⟩
  · rw [(step_fixed stepped).1]
    exact same
  · rw [unmoved]
    exact same

theorem waits_inside (behaviour : (pipeThreads config depth registeredTasks taskTable priority).Behaviour)
    (time : Nat) : ∀ ii, ((behaviour.state time).threads.main = .woken ii ∨ ∃ remainingTime,
      (behaviour.state time).threads.main = .waiting ii remainingTime ∨
        (behaviour.state time).threads.main = .timedOut ii remainingTime) → ii < registeredTasks := by
  refine behaviour.always (fun state => ∀ ii, (state.threads.main = .woken ii ∨ ∃ remainingTime,
    state.threads.main = .waiting ii remainingTime ∨ state.threads.main = .timedOut ii remainingTime) →
      ii < registeredTasks) ?_ ?_ time
  · rintro ii (woken | ⟨_, waiting | timedOut⟩)
    · cases woken
    · cases waiting
    · cases timedOut
  · intro time before ii
    have registered := registered_at behaviour time
    rcases threads_step (behaviour.taken time) with ⟨event, _, _, stepped⟩ | ⟨unmoved, _⟩
    · generalize (behaviour.state (time + 1)).threads = next at stepped ⊢
      by_cases isMain : event = .main
      · subst isMain
        cases mainStep_cases stepped with
        | read => cases config.perfectScheduleMode <;> simp
        | blocked _ inside =>
          rintro (woken | ⟨_, waiting | timedOut⟩)
          · cases woken
          · cases waiting
            exact registered ▸ inside
          · cases timedOut
        | resumed timedOut =>
          rintro (woken | ⟨_, waiting | again⟩)
          · cases woken
          · cases waiting
            exact before ii (Or.inr ⟨_, Or.inr timedOut⟩)
          · cases again
        | scanned | passed | rescanned | exited | expired | called | updated | triggered => simp
      · rcases step_main isMain stepped with same | ⟨jj, _, waiting, woken | timedOut⟩
        · rw [same]
          exact before ii
        · rw [woken]
          rintro (same | ⟨_, same | same⟩) <;> cases same
          exact before ii (Or.inr ⟨_, Or.inl waiting⟩)
        · rw [timedOut]
          rintro (same | ⟨_, same | same⟩) <;> cases same
          exact before ii (Or.inr ⟨_, Or.inl waiting⟩)
    · rw [unmoved]
      exact before ii

section Free
variable (free : config.perfectScheduleMode = false) (forever : config.msWaitTimeForCFSApps = -1)
  (live : Live use behaviour) (unlost : ∀ time, Unlost config (behaviour.state time) (behaviour.event time))
include free forever live unlost

theorem waited_at (time : Nat) : Waited config use (behaviour.state time) := by
  suffices both : FreeRunning (behaviour.state time).threads ∧ BlockedOnWork (behaviour.state time).threads from
    ⟨sound_at (Or.inr forever) live time, both.1, both.2⟩
  apply behaviour.always (fun state => FreeRunning state.threads ∧ BlockedOnWork state.threads)
  · refine ⟨.initial config, ?_⟩
    intro ii remainingTime waiting
    cases waiting
  · rintro time ⟨holds, blocked⟩
    rcases threads_step (taken_at time) with ⟨event, isThread, _, stepped⟩ | ⟨same, _⟩
    · exact ⟨holds.step_preserves free stepped,
        (step_blocks free holds blocked stepped).mpr (unlost time event isThread)⟩
    · rw [same]
      exact ⟨holds, blocked⟩

section Stuck
variable {time : Nat} (inside : ii < registeredTasks)
  (stuck : ∀ later, time ≤ later → LooksAt ii (behaviour.state later).threads.main)
include stuck

theorem scheduler_waits {now : Nat} (order : time ≤ now) :
    (behaviour.state now).threads.scheduler = .waiting :=
  (waited_at free forever live unlost now).sound.locked.waits (stuck now order).away.1

theorem settles {now : Nat} (order : time ≤ now) (settled : ¬ ((behaviour.state now).threads.task ii).Outstanding)
    {later : Nat} (beyond : now ≤ later) : ¬ ((behaviour.state later).threads.task ii).Outstanding := by
  refine behaviour.persists (fun state => ¬ (state.threads.task ii).Outstanding) settled ?_ beyond
  intro later beyond settled
  rcases task_moves (taken_at later) ii with ⟨event, _, _, moved⟩ | unmoved
  · have waited := waited_at free forever live unlost later
    have still := settled_move free waited.free (scheduler_waits free forever live unlost stuck (by omega))
      (stuck later (by omega)).away.2 (settled_of_not_outstanding settled) moved
    rintro ⟨undelayed, some⟩
    rcases still with delayed | ⟨triggered, stack⟩
    · exact undelayed delayed
    · exact some ⟨by simp [triggered], by simp [stack]⟩
  · rw [unmoved]
    exact settled

include inside

theorem outstanding {now : Nat} (order : time ≤ now) : ((behaviour.state now).threads.task ii).Outstanding := by
  refine Classical.byContradiction (fun settled => ?_)
  have settles {later : Nat} (beyond : now ≤ later) := settles free forever live unlost stuck order settled beyond
  have scanning {later : Nat} (beyond : now ≤ later)
      (place : (behaviour.state later).threads.main = .scanning ii) : False := by
    obtain ⟨last, further, same, isMain⟩ := main_acts live place trivial
    have stepped := (thread_taken (taken_at last) isMain).2
    have looks := stuck (last + 1) (by omega)
    have unstopped := (waited_at free forever live unlost last).sound.unstopped
    have settled : ¬ ((behaviour.state last).threads.task ii).Outstanding := settles (by omega)
    simp only [Threads.step, mainStep, same, scan, registered_at behaviour last, inside, unstopped, settled, ite_true, ite_false,
      Bool.false_eq_true, Option.some.injEq] at stepped
    rw [← stepped] at looks
    rcases looks with same | same | ⟨_, same | same⟩
    · simp at same
    · cases same
    · cases same
    · cases same
  rcases stuck now order with place | place | ⟨remainingTime, place | place⟩
  · exact scanning (Nat.le_refl now) place
  · obtain ⟨last, further, same, isMain⟩ := main_acts live place trivial
    have stepped := (thread_taken (taken_at last) isMain).2
    simp only [Threads.step, mainStep, same, Option.some.injEq] at stepped
    have place : (behaviour.state (last + 1)).threads.main = .scanning ii := by
      rw [← stepped]
      rfl
    exact scanning (by omega) place
  · exact settled ((waited_at free forever live unlost now).blocked ii remainingTime place)
  · obtain ⟨last, further, same, isMain⟩ := main_acts live place trivial
    have unexpired := (waited_at free forever live unlost last).sound.untimed.unexpired
    exact settles (by omega) (unlost last .main isMain rfl ii remainingTime same
      (Int.not_le.mp (unexpired ii remainingTime same)))

theorem not_held {now : Nat} (order : time ≤ now) : ¬ (behaviour.state now).threads.HeldUp ii := by
  rintro ⟨place, unreleased⟩
  have placed := (waited_at free forever live unlost now).free.placed ii
  rcases place with delayed | permission | acknowledgement
  · have undelayed := (outstanding free forever live unlost inside stuck order).1
    exact (placed.delayed.mp delayed).elim undelayed unreleased
  · exact placed.unpermitted permission
  · exact placed.unacknowledged acknowledgement

theorem stays_running {now : Nat} (order : time ≤ now)
    (running : (behaviour.state now).threads.tasks ii = .running)
    (keeps : ¬ ∃ pipeId, behaviour.event now = .thread (.receive ii pipeId)) :
    (behaviour.state (now + 1)).threads.tasks ii = .running := by
  have undelayed := (outstanding free forever live unlost inside stuck (Nat.le_succ_of_le order)).1
  rcases task_moves (taken_at now) ii with ⟨threadEvent, isThread, _, moved⟩ | unmoved
  · generalize (behaviour.state (now + 1)).threads.task ii = record at moved undelayed
    generalize (behaviour.state (now + 1)).threads.tasks ii = pc at moved ⊢
    cases moved with
    | stay | updated | cleared | marked | continued | abandoned => exact running
    | received => exact absurd ⟨_, isThread⟩ keeps
    | undelayed => rfl
    | delayed => exact absurd rfl undelayed
    | completed place | acknowledged place | noMessage place => cases running.symm.trans place
    | left _ loop =>
      rw [running] at loop
      cases loop
  · rw [unmoved]
    exact running

theorem let_go {now : Nat} (order : time ≤ now)
    (waits : (behaviour.state now).threads.tasks ii = .delayed ∨
      (behaviour.state now).threads.tasks ii = .awaitingPermission) :
    ∃ later, now ≤ later ∧ (behaviour.state later).threads.tasks ii = .running := by
  have placed := (waited_at free forever live unlost now).free.placed ii
  have delayed := waits.resolve_right placed.unpermitted
  have released := (placed.delayed.mp delayed).resolve_left
    (outstanding free forever live unlost inside stuck order).1
  obtain ⟨later, beyond, ⟨same, _⟩, leaves⟩ := resumes (Or.inr forever) live rfl delayed released
  have stepped := (thread_taken (taken_at later) leaves).2
  simp only [Threads.step] at stepped
  split at stepped
  next =>
    have left := (leaveStep_some stepped).2.1
    refine ⟨later + 1, by omega, ?_⟩
    rw [same] at left
    generalize (behaviour.state (later + 1)).threads.tasks ii = pc at left ⊢
    cases left
    rfl
  next => cases stepped

omit inside in
theorem triggered_le {now : Nat} (order : time ≤ now) :
    ((behaviour.state (now + 1)).threads.task ii).triggeredMIDs.length ≤
      ((behaviour.state now).threads.task ii).triggeredMIDs.length := by
  have waits := scheduler_waits free forever live unlost stuck order
  rcases task_moves (taken_at now) ii with ⟨threadEvent, isThread, _, moved⟩ | unmoved
  · generalize (behaviour.state (now + 1)).threads.task ii = record at moved ⊢
    generalize (behaviour.state (now + 1)).threads.tasks ii = pc at moved
    cases moved with
    | stay | continued | received | noMessage | undelayed | delayed | left => exact Nat.le_refl _
    | updated =>
      rw [(((behaviour.state now).threads.task ii).updateTaskTimes_lists config.cycleTics).1]
    | cleared | abandoned => exact Nat.zero_le _
    | marked marking => cases waits.symm.trans marking
    | @completed _ currStack =>
      have orderly := live.orderly now
      rw [isThread] at orderly
      have handling := ((waited_at free forever live unlost now).sound.reconciled.tended ii).handling
      rw [(handling.completed orderly).2.2.1]
      exact (List.diff_sublist _ _).length_le
    | @acknowledged _ mid newStack =>
      by_cases found : mid ∈ ((behaviour.state now).threads.task ii).triggeredMIDs
      · rw [TaskIPC.acknowledge_found _ mid newStack found]
      · rw [TaskIPC.acknowledge_missing _ mid newStack found]
        exact Nat.le_refl _
  · rw [unmoved]

omit inside stuck in
theorem triggered_lt {now : Nat} (handles : ((behaviour.state now).threads.task ii).stackList ≠ [])
    {stack : StackInfo} (completes : behaviour.event now = .thread (.complete ii stack)) :
    ((behaviour.state (now + 1)).threads.task ii).triggeredMIDs.length <
      ((behaviour.state now).threads.task ii).triggeredMIDs.length := by
  have orderly := live.orderly now
  rw [completes] at orderly
  have handling := ((waited_at free forever live unlost now).sound.reconciled.tended ii).handling
  have triggered := (handling.completed orderly).2.2.1
  have stepped := (thread_taken (taken_at now) completes).2
  simp only [Threads.step] at stepped
  obtain ⟨_, _, stepped⟩ := taskStep_some stepped
  rw [← stepped]
  simp only [completeStep, signal_task, setPc_task, setTask_task, triggered]
  rcases handling.held with ⟨_, none⟩ | ⟨mid, _, one, _, member, _⟩
  · exact absurd none handles
  · have some := List.length_pos_of_mem member
    rw [one, List.diff_cons, List.diff_nil, List.length_erase_of_mem member]
    omega

theorem unstuck : False := by
  have falls : ∀ count now, time ≤ now →
      ((behaviour.state now).threads.task ii).triggeredMIDs.length = count → False := by
    intro count
    induction count using Nat.strongRecOn with
    | ind count ih =>
      intro now order measured
      have fewer {later : Nat} (beyond : now ≤ later) :
          ((behaviour.state later).threads.task ii).triggeredMIDs.length ≤ count := by
        induction later, beyond using Nat.le_induction with
        | base => exact measured.le
        | succ later beyond le =>
          exact (triggered_le free forever live unlost stuck (Nat.le_trans order beyond)).trans le
      have handled {later : Nat} (beyond : now ≤ later)
          (handles : ((behaviour.state later).threads.task ii).stackList ≠ []) : False := by
        obtain ⟨last, further, handles, stack, completes⟩ := completes_handled (Or.inr forever) live handles
          (fun last further => stays_running free forever live unlost inside stuck (by omega))
          (fun last further => let_go free forever live unlost inside stuck (by omega))
        have less := triggered_lt free forever live unlost handles completes
        have still := fewer (Nat.le_trans beyond further)
        exact ih _ (by omega) (last + 1) (by omega) rfl
      by_cases idle : ((behaviour.state now).threads.task ii).stackList = []
      · have work := (outstanding free forever live unlost inside stuck order).2
        have triggered : ((behaviour.state now).threads.task ii).triggeredMIDs ≠ [] :=
          fun none => work ⟨by simp [none], by simp [idle]⟩
        have waits := scheduler_waits free forever live unlost stuck order
        have outside : ¬ InPass (behaviour.state now) := by
          rintro (processing | ⟨taskId, mid, marking⟩)
          · cases waits.symm.trans processing
          · cases waits.symm.trans marking
        obtain ⟨later, beyond, mid, found, stack, acknowledges⟩ := acknowledges_triggered (Or.inr forever) live
          (fun later beyond => not_held free forever live unlost inside stuck (Nat.le_trans order beyond))
          outside triggered idle
        have stepped := (thread_taken (taken_at later) acknowledges).2
        simp only [Threads.step] at stepped
        obtain ⟨_, _, stepped⟩ := taskStep_some stepped
        have beyond : now ≤ later + 1 := by omega
        apply handled beyond
        rw [← stepped]
        simp only [acknowledgeStep, signal_task, setPc_task, setTask_task,
          TaskIPC.acknowledge_found _ mid stack found]
        simp
      · exact handled (Nat.le_refl now) idle
  exact falls _ time (Nat.le_refl time) rfl

end Stuck

theorem passes_on (inside : ii < registeredTasks) : behaviour.LeadsTo (fun state => LooksAt ii state.threads.main)
    (fun state => state.threads.main = .scanning (ii + 1)) := by
  intro time looks
  refine Classical.byContradiction (fun never => ?_)
  have stuck : ∀ later, time ≤ later → LooksAt ii (behaviour.state later).threads.main := by
    intro later order
    refine behaviour.persists (fun state => LooksAt ii state.threads.main) looks ?_ order
    intro later order looks
    have sound := (waited_at free forever live unlost later).sound
    have registered : ii < (behaviour.state later).threads.es.registeredTasks := by
      rw [registered_at behaviour later]
      exact inside
    exact (looks.step registered sound.unstopped sound.untimed.unexpired (taken_at later)).resolve_right
      (fun passed => never ⟨later + 1, Nat.le_succ_of_le order, passed⟩)
  exact unstuck free forever live unlost inside stuck

theorem scan_ends (ii : Nat) : behaviour.LeadsTo (fun state => LooksAt ii state.threads.main)
    (fun state => state.threads.main = .returned) := by
  have beyond (ii : Nat) (outside : registeredTasks ≤ ii) : behaviour.LeadsTo
      (fun state => state.threads.main = .scanning ii) (fun state => state.threads.main = .returned) := by
    intro time place
    obtain ⟨later, order, same, isMain⟩ := main_acts live place trivial
    have stepped := (thread_taken (taken_at later) isMain).2
    simp only [Threads.step, mainStep, same, scan, registered_at behaviour later, Nat.not_lt.mpr outside, ite_false,
      Option.some.injEq] at stepped
    exact ⟨later + 1, Nat.le_succ_of_le order, (congrArg Threads.main stepped).symm⟩
  have onward : ∀ left ii, registeredTasks - ii = left → behaviour.LeadsTo
      (fun state => state.threads.main = .scanning ii) (fun state => state.threads.main = .returned) := by
    intro left
    induction left with
    | zero => exact fun ii none => beyond ii (by omega)
    | succ left ih =>
      intro ii some time place
      obtain ⟨later, order, passed⟩ := passes_on free forever live unlost (by omega) time (Or.inl place)
      obtain ⟨last, further, returned⟩ := ih (ii + 1) (by omega) later passed
      exact ⟨last, by omega, returned⟩
  intro time looks
  by_cases inside : ii < registeredTasks
  · obtain ⟨later, order, passed⟩ := passes_on free forever live unlost inside time looks
    obtain ⟨last, further, returned⟩ := onward _ (ii + 1) rfl later passed
    exact ⟨last, by omega, returned⟩
  · have scanning : (behaviour.state time).threads.main = .scanning ii :=
      looks.resolve_right (fun waits => inside (waits_inside behaviour time ii waits))
    exact beyond ii (Nat.not_lt.mp inside) time scanning

omit forever unlost in
theorem passes : behaviour.LeadsTo InPass (fun state => state.threads.scheduler = .completing) := by
  intro time passing
  obtain ⟨late, order, gone⟩ := live.passes time passing
  obtain ⟨later, within, inside, outside⟩ := behaviour.exists_exit InPass order passing gone
  refine ⟨later + 1, Nat.le_succ_of_le within, ?_⟩
  have began := pass_ends (taken_at later) inside outside
  simpa [beginSignal, free] using began

omit forever unlost in
theorem completing {time : Nat} (busy : (behaviour.state time).threads.scheduler ≠ .waiting)
    (unpolled : (behaviour.state time).threads.scheduler.polls = false) :
    ∃ later, time ≤ later ∧ (behaviour.state later).threads.scheduler = .completing := by
  cases place : (behaviour.state time).threads.scheduler with
  | starting =>
    obtain ⟨later, order, same, acts⟩ := scheduler_acts live place (by simp) (by simp)
    have stepped := (thread_taken (taken_at later) acts).2
    simp only [Threads.step, schedulerStep, same, beginSignal, free, Bool.false_eq_true, ite_false,
      Option.some.injEq] at stepped
    exact ⟨later + 1, Nat.le_succ_of_le order, (congrArg Threads.scheduler stepped).symm⟩
  | waiting => exact absurd place busy
  | processing => exact passes free live time (Or.inl place)
  | marking taskId mid => exact passes free live time (Or.inr ⟨taskId, mid, place⟩)
  | iterating | polling | checking => simp [place, SchedulerPc.polls] at unpolled
  | completing => exact ⟨time, Nat.le_refl time, place⟩

theorem comes_back {time : Nat} (busy : (behaviour.state time).threads.scheduler ≠ .waiting) :
    ∃ later, time ≤ later ∧ (behaviour.state later).threads.main = .returned := by
  obtain ⟨done, first, completing⟩ := completing free live busy
    (waited_at free forever live unlost time).free.unpolled
  obtain ⟨posted, second, completed⟩ := posts (Or.inr forever) live done completing
  obtain ⟨scanning, third, read⟩ := reads (Or.inr forever) live posted completed
  obtain ⟨last, fourth, returned⟩ := scan_ends free forever live unlost 0 scanning (Or.inl (by simpa [free] using read))
  exact ⟨last, by omega, returned⟩

end Free

/-- When a call of `updateCFS` has returned, each registered task is in a delay
or has processed its messages. -/
theorem settled_at (behaviour : (pipeThreads config depth registeredTasks taskTable priority).Behaviour)
    (free : config.perfectScheduleMode = false) (forever : config.msWaitTimeForCFSApps = -1) {time : Nat}
    (returned : (behaviour.state time).threads.main = .returned) {taskId : Nat} (inside : taskId < registeredTasks) :
    Settled ((behaviour.state time).threads.task taskId) := by
  obtain ⟨logs, barrier⟩ : ∃ logs, Barrier ((behaviour.state time).threads, logs) := by
    refine behaviour.always (fun state => ∃ logs, Barrier (state.threads, logs)) ?_ ?_ time
    · exact ⟨_, @Barrier.initial config registeredTasks taskTable priority⟩
    · rintro time ⟨logs, barrier⟩
      rcases threads_step (behaviour.taken time) with ⟨event, _, _, stepped⟩ | ⟨same, _⟩
      · exact ⟨taskLogs.record logs (behaviour.state time).threads event,
          barrier.step_preserves free forever stepped rfl⟩
      · rw [same]
        exact ⟨logs, barrier⟩
  apply barrier.settled
  rw [returned]
  simpa only [passed, registered_at behaviour time] using inside

/-- Outside perfect mode too the simulation goes on for ever if no wake-up is
lost: at any time, the call of `updateCFS` under way returns, with every
registered task in a delay or idle. -/
theorem free_mode_progress (config : Config) (free : config.perfectScheduleMode = false)
    (forever : config.msWaitTimeForCFSApps = -1) (depth : Nat → Nat) (registeredTasks : Nat)
    (taskTable priority : Nat → Nat) (use : PipeUse)
    (behaviour : (pipeThreads config depth registeredTasks taskTable priority).Behaviour) (live : Live use behaviour)
    (unlost : ∀ time, Unlost config (behaviour.state time) (behaviour.event time)) (time : Nat) :
    ∃ later, time ≤ later ∧ (behaviour.state later).threads.main = .returned ∧
      ∀ taskId < registeredTasks, ((behaviour.state later).threads.task taskId).state = .taskDelay ∨
        ((behaviour.state later).threads.task taskId).Idle := by
  have sound := sound_at (Or.inr forever) live time
  have triggered_returns : behaviour.LeadsTo Triggered (fun state => state.threads.main = .returned) := by
    intro time triggered
    obtain ⟨started, order, passing⟩ := wakes (Or.inr forever) live time triggered
    have busy : (behaviour.state started).threads.scheduler ≠ .waiting := by
      rcases passing with processing | ⟨taskId, mid, marking⟩
      · simp [processing]
      · simp [marking]
    obtain ⟨later, beyond, returned⟩ := comes_back free forever live unlost busy
    exact ⟨later, by omega, returned⟩
  have goes_on : ∃ later, time ≤ later ∧ (behaviour.state later).threads.main = .returned := by
    cases place : (behaviour.state time).threads.main with
    | returned => exact ⟨time, Nat.le_refl time, place⟩
    | updating ii => exact (updates (Or.inr forever) live).trans triggered_returns time ⟨ii, place⟩
    | reading =>
      by_cases waits : (behaviour.state time).threads.scheduler = .waiting
      · have tokens := sound.locked.tokens
        rw [if_pos ⟨place, waits⟩] at tokens
        by_cases posted : (behaviour.state time).threads.iface.triggerMain = 0
        · obtain ⟨scanning, order, read⟩ := reads (Or.inr forever) live time ⟨place, by omega⟩
          obtain ⟨last, beyond, returned⟩ :=
            scan_ends free forever live unlost 0 scanning (Or.inl (by simpa [free] using read))
          exact ⟨last, by omega, returned⟩
        · exact triggered_returns time ⟨waits, posted⟩
      · exact comes_back free forever live unlost waits
    | scanning ii => exact scan_ends free forever live unlost ii time (Or.inl place)
    | woken ii => exact scan_ends free forever live unlost ii time (Or.inr (Or.inl place))
    | waiting ii remainingTime =>
      exact scan_ends free forever live unlost ii time (Or.inr (Or.inr ⟨remainingTime, Or.inl place⟩))
    | timedOut ii remainingTime =>
      exact scan_ends free forever live unlost ii time (Or.inr (Or.inr ⟨remainingTime, Or.inr place⟩))
  obtain ⟨later, order, returned⟩ := goes_on
  exact ⟨later, order, returned, fun taskId inside => settled_at behaviour free forever returned inside⟩

section Steady

def servedSite : StackInfo := StackInfo.backtrace [0, 1, 2, 3]

def servedUse : PipeUse where
  owner := fun _ => 0
  scheduled := fun mid => mid == 7
  callSite := fun _ => servedSite

def servedMission : Machine PipeThreads PipeThreadEvent := pipeThreads oneTaskConfig (fun _ => 4) 1 id (fun _ => 20)

/-- The steps of a frame behind the first one, which is the call of `updateCFS`. -/
def servedFrame : List PipeThreadEvent :=
  [.thread .main, .thread .main, .thread .scheduler, .thread (.send 0 7), .thread .scheduler, .put,
    .thread .scheduler, .thread .scheduler, .thread .main, .thread .main, .dequeue 0,
    .thread (.acknowledge 0 7 servedSite), .thread .main, .thread .main, .thread (.receive 0 0),
    .thread (.complete 0 servedSite), .thread .main, .thread .main, .thread .main, .thread (.noMessage 0),
    .thread (.receive 0 0), .thread (.complete 0 servedSite)]

def servedStart : List PipeThreadEvent :=
  [.thread (.createQueue 0 0), .thread .scheduler, .thread .scheduler, .thread .main, .thread .main, .thread .main,
    .thread .startRun, .thread (.receive 0 0), .thread (.complete 0 servedSite)]

private theorem servedStart_runs : (servedMission.run servedStart).isSome = true := by decide

def servedState : PipeThreads := (servedMission.run servedStart).get servedStart_runs

private theorem servedFrame_runs :
    (servedMission.runFrom servedState (.thread .main :: servedFrame)).isSome = true := by decide

private theorem servedFrame_returns :
    (servedMission.runFrom servedState (.thread .main :: servedFrame)).get servedFrame_runs = servedState := by
  apply PipeThreads.ext
  · apply Threads.ext
    · apply TrickCFSInterface.ext
      · funext taskId
        cases taskId <;> rfl
      · funext pipeId
        cases pipeId <;> rfl
      all_goals rfl
    · rfl
    · rfl
    · rfl
    · rfl
    · rfl
    · funext taskId
      cases taskId <;> rfl
  · rfl
  · rfl
  · funext taskId
    cases taskId <;> rfl
  · funext taskId
    cases taskId <;> rfl

def servedLasso : servedMission.Lasso where
  stem := servedStart
  knot := servedState
  first := .thread .main
  rest := servedFrame
  reaches := (Option.some_get servedStart_runs).symm
  returns := (Option.some_get servedFrame_runs).symm.trans (congrArg some servedFrame_returns)

def polledOut : MainPc → Bool
  | .timedOut _ _ => true
  | _ => false

/-- What holds at each step of the mission: the pipe is used in order, only pipe 0
is used, and no poll times out. -/
def Served (state : PipeThreads) (event : PipeThreadEvent) : Prop :=
  servedUse.Orderly (fun _ => 4) state event ∧ state.queued.all (fun copy => copy.1 == 0) = true ∧
    polledOut state.threads.main = false

instance (state : PipeThreads) (event : PipeThreadEvent) : Decidable (Served state event) :=
  inferInstanceAs (Decidable (_ ∧ _))

private theorem servedLasso_served (time : Nat) :
    Served (servedLasso.behaviour.state time) (servedLasso.behaviour.event time) :=
  servedLasso.always (by decide) (by decide) time

private theorem servedLasso_live : Live servedUse servedLasso.behaviour where
  orderly := fun time => (servedLasso_served time).1
  main := servedLasso.fair 0 rfl rfl
  scheduler := servedLasso.fair 3 rfl rfl
  passes := servedLasso.leads_to 0 rfl (by rintro (processing | ⟨taskId, mid, marking⟩) <;> contradiction)
  leaves := by
    intro taskId
    cases taskId with
    | zero =>
      refine servedLasso.fair_of_disabled 0 rfl ?_
      rintro _ rfl
      rfl
    | succ taskId =>
      refine fair_beyond servedLasso.behaviour (Nat.succ_pos taskId) ?_
      rintro _ rfl
      exact ⟨_, rfl, rfl⟩
  completes := by
    intro taskId
    cases taskId with
    | zero => exact servedLasso.fair 16 rfl ⟨_, rfl⟩
    | succ taskId =>
      refine fair_beyond servedLasso.behaviour (Nat.succ_pos taskId) ?_
      rintro _ ⟨_, rfl⟩
      exact ⟨_, rfl, rfl⟩
  acknowledges := by
    intro taskId
    cases taskId with
    | zero => exact servedLasso.fair 12 rfl ⟨_, _, rfl⟩
    | succ taskId =>
      refine fair_beyond servedLasso.behaviour (Nat.succ_pos taskId) ?_
      rintro _ ⟨_, _, rfl⟩
      exact ⟨_, rfl, rfl⟩
  returns := by
    intro time taskId inside _ _
    obtain rfl : taskId = 0 := Nat.lt_one_iff.mp inside
    obtain ⟨later, order, same, _⟩ := servedLasso.recurs 15 rfl time
    exact ⟨later, order, Or.inl ⟨0, same⟩⟩
  attends := by
    intro time copy member
    have onPipe : copy.1 = 0 := by simpa using List.all_eq_true.mp (servedLasso_served time).2.1 copy member
    obtain ⟨later, order, same, here⟩ := servedLasso.recurs 11 rfl time
    refine ⟨later, order, Or.inl ⟨same, ?_⟩⟩
    rw [onPipe, here]
    rfl

private theorem servedLasso_unlost (time : Nat) :
    Unlost oneTaskConfig (servedLasso.behaviour.state time) (servedLasso.behaviour.event time) := by
  intro event _ _ ii remainingTime timedOut
  have never := (servedLasso_served time).2.2
  simp [timedOut, polledOut] at never

theorem free_mode_progress_steady : ∃ later, 1000 ≤ later ∧
    (servedLasso.behaviour.state later).threads.main = .returned ∧
    ∀ taskId < 1, ((servedLasso.behaviour.state later).threads.task taskId).state = .taskDelay ∨
      ((servedLasso.behaviour.state later).threads.task taskId).Idle :=
  free_mode_progress oneTaskConfig rfl rfl (fun _ => 4) 1 id (fun _ => 20) servedUse servedLasso.behaviour
    servedLasso_live servedLasso_unlost 1000

end Steady

end TrickCFS.Proofs.FrameProgress
