import TrickCFS.Library.Lasso
import TrickCFS.Proofs.SimulationProgress

/-! Perfect mode makes progress. A visit of `signalMainAppComplete` cannot be
stuck: the task that it waits for is let go from every wait, reads the messages
that are in its pipes, and reports each of them. -/

namespace TrickCFS.Proofs.PerfectProgress
open Threads PipeThreads SimulationProgress PerfectSerialisation

variable {config : Config} {depth : Nat → Nat} {registeredTasks : Nat} {taskTable priority : Nat → Nat}
  {use : PipeUse} {behaviour : (pipeThreads config depth registeredTasks taskTable priority).Behaviour}
  {taskId req completes : Nat} {entries : List (Nat × Nat)}

/-- The loop of `signalMainAppComplete` on one task, with this many of its
completions acknowledged. -/
def InVisit (taskId : Nat) (entries : List (Nat × Nat)) (req completes : Nat) (state : PipeThreads) : Prop :=
  ∃ triggers, state.threads.scheduler = .polling taskId entries req triggers completes ∨
    state.threads.scheduler = .checking taskId entries req triggers completes

namespace InVisit
variable {state next : PipeThreads} {event : PipeThreadEvent}

theorem outside (visit : InVisit taskId entries req completes state) :
    state.threads.scheduler ≠ .waiting ∧ state.threads.scheduler ≠ .processing := by
  obtain ⟨_, polling | checking⟩ := visit
  · simp [polling]
  · simp [checking]

theorem step (visit : InVisit taskId entries req completes state) (unfinished : completes ≠ req)
    (running : ∀ taskId, (state.threads.es.locateAppRecord taskId).running = true)
    (taken : state.step config depth event = some next) :
    InVisit taskId entries req completes next ∨ InVisit taskId entries req (completes + 1) next := by
  by_cases byScheduler : event = .thread .scheduler
  · have stepped := (thread_taken taken byScheduler).2
    obtain ⟨triggers, place⟩ := visit
    simp only [InVisit]
    generalize next.threads = threads at stepped ⊢
    cases schedulerStep_cases stepped with
    | visited same =>
      rcases place with place | place <;> cases place.symm.trans same
      exact absurd rfl unfinished
    | undelayed same | polled same =>
      rcases place with place | place <;> cases place.symm.trans same
      exact Or.inl ⟨_, Or.inr rfl⟩
    | granted same =>
      rcases place with place | place <;> cases place.symm.trans same
      exact Or.inl ⟨_, Or.inr rfl⟩
    | acknowledged same =>
      rcases place with place | place <;> cases place.symm.trans same
      exact Or.inr ⟨_, Or.inr rfl⟩
    | checked same =>
      rcases place with place | place <;> cases place.symm.trans same
      exact Or.inl ⟨_, Or.inl rfl⟩
    | abandoned _ dead => cases (running _).symm.trans dead
    | began same =>
      rcases place with place | place <;> rcases same with same | same <;> cases place.symm.trans same
    | woken same | marked same | finished same | entered same | completed same =>
      rcases place with place | place <;> cases place.symm.trans same
  · have same := scheduler_kept taken byScheduler visit.outside.2
    simp only [InVisit, same]
    exact Or.inl visit

end InVisit

/-- The task's record while the scheduler visits it: the triggers that are left
are the completions still to be acknowledged. -/
theorem visit_counts {priorityOf : Nat → Nat} {state : PipeThreads} {ledger : Ledger} {triggers : Nat}
    (serial : Serial priorityOf state.threads ledger) (reconciled : Reconciled use state)
    (visiting : state.threads.scheduler = .polling taskId entries req triggers completes ∨
      state.threads.scheduler = .checking taskId entries req triggers completes)
    (unfinished : completes ≠ req) :
    (state.threads.task taskId).triggeredMIDs.length + completes +
        reporting (state.threads.task taskId) (state.threads.tasks taskId) = req ∧
      ((state.threads.task taskId).state = .msgRcv → triggers ≠ req) := by
  have phase : Visiting priorityOf entries ledger.toSchedulerLedger taskId req triggers completes := by
    have phase := serial.phase
    rcases visiting with place | place <;> rw [place] at phase <;> exact phase
  have serving := phase.current.resolve_left (fun repeated => unfinished repeated.required.symm)
  have granted : ledger.grants.count taskId = triggers := by
    obtain ⟨before, grants, absent⟩ := serving.last
    simp [grants, List.count_eq_zero.mpr absent]
  have account := serial.accounts taskId
  have stack := account.stack
  have counted := account.triggers
  have required := serving.required
  have balance := serving.completes
  obtain ⟨_, one⟩ := reconciled.tended taskId |>.handling
  have lists : (state.threads.task taskId).stackList.length =
        (state.threads.task taskId).acknowledgedMIDs.length ∧
      ((state.threads.task taskId).acknowledgedMIDs.length = 0 ∨
        0 < (state.threads.task taskId).triggeredMIDs.length ∧
          (state.threads.task taskId).acknowledgedMIDs.length = 1) := by
    rcases one with ⟨none, empty⟩ | ⟨mid, entry, one, only, member, _⟩
    · simp [none, empty]
    · exact ⟨by simp [one, only], Or.inr ⟨List.length_pos_of_mem member, by simp [one]⟩⟩
  refine ⟨by omega, fun received => ?_⟩
  have place := account.answerable.received received
  have asks : requesting (state.threads.task taskId) (state.threads.tasks taskId) = 1 := if_pos ⟨place, received⟩
  have held : (state.threads.task taskId).acknowledgedMIDs.length ≠ 0 := by
    rcases account.held with ⟨_, away⟩ | ⟨mid, only, _⟩
    · exact absurd place away
    · simp [only]
  omega

theorem serial_at (behaviour : (pipeThreads config depth registeredTasks taskTable priority).Behaviour)
    (perfect : config.perfectScheduleMode = true) (time : Nat) : ∃ ledger,
    Serial (fun taskId => priority (taskTable taskId)) (behaviour.state time).threads ledger := by
  apply behaviour.always (fun state => ∃ ledger,
    Serial (fun taskId => priority (taskTable taskId)) state.threads ledger)
  · exact ⟨{}, serial_initial config registeredTasks taskTable priority⟩
  · intro time ⟨ledger, serial⟩
    rcases threads_step (behaviour.taken time) with ⟨event, _, _, stepped⟩ | ⟨same, _⟩
    · exact ⟨_, step_serial perfect serial stepped⟩
    · rw [same]
      exact ⟨ledger, serial⟩

section Stuck
variable (perfect : config.perfectScheduleMode = true) (live : Live use behaviour) {time : Nat} (unfinished : completes ≠ req)
  (stuck : ∀ later, time ≤ later → InVisit taskId entries req completes (behaviour.state later))
include perfect live stuck

theorem polls {now : Nat} (order : time ≤ now) : ∃ later, now ≤ later ∧
    (∃ triggers, (behaviour.state later).threads.scheduler = .polling taskId entries req triggers completes) ∧
      behaviour.event later = .thread .scheduler := by
  obtain ⟨triggers, polling | checking⟩ := stuck now order
  · obtain ⟨later, beyond, same, acts⟩ := scheduler_acts live polling (by simp) (by simp)
    exact ⟨later, beyond, ⟨triggers, same⟩, acts⟩
  · obtain ⟨middle, beyond, same, acts⟩ := scheduler_acts live checking (by simp) (by simp)
    obtain ⟨again, polling | still⟩ := stuck (middle + 1) (by omega)
    · obtain ⟨later, last, same, acts⟩ := scheduler_acts live polling (by simp) (by simp)
      exact ⟨later, by omega, ⟨again, same⟩, acts⟩
    · exfalso
      have stepped := (thread_taken (taken_at middle) acts).2
      have running := (sound_at (Or.inl perfect) live middle).reconciled.running taskId
      simp only [Threads.step, schedulerStep, same, running, ite_true, Option.some.injEq] at stepped
      rw [← stepped] at still
      cases still

theorem answered {value : TaskState} (asks : value = .taskDelay ∨ value = .msgRcv ∨ value = .taskComplete)
    {now : Nat} (order : time ≤ now) (asked : ((behaviour.state now).threads.task taskId).state = value) :
    ∃ later, now ≤ later ∧ ((behaviour.state later).threads.task taskId).state = value ∧
      behaviour.event later = .thread .scheduler ∧
      ∃ triggers, (behaviour.state later).threads.scheduler = .polling taskId entries req triggers completes := by
  obtain ⟨late, beyond, ⟨triggers, polling⟩, acts⟩ := polls perfect live stuck order
  by_cases still : ((behaviour.state late).threads.task taskId).state = value
  · exact ⟨late, beyond, still, acts, triggers, polling⟩
  · obtain ⟨later, within, here, gone⟩ := behaviour.exists_exit
      (fun state => (state.threads.task taskId).state = value) beyond asked still
    obtain ⟨ledger, serial⟩ := serial_at behaviour perfect later
    have answerable := (serial.accounts taskId).answerable
    obtain ⟨triggers, place⟩ := stuck later (by omega)
    have reading := (sound_at (Or.inl perfect) live later).locked.busy (stuck later (by omega)).outside.1
    rcases task_moves (taken_at later) taskId with ⟨threadEvent, isThread, _, moved⟩ | unmoved
    · generalize (behaviour.state (later + 1)).threads.tasks taskId = pc at moved
      generalize record_eq : (behaviour.state (later + 1)).threads.task taskId = record at moved
      simp only [record_eq] at gone
      have waits : (behaviour.state later).threads.tasks taskId = .delayed ∨
          (behaviour.state later).threads.tasks taskId = .awaitingPermission ∨
          (behaviour.state later).threads.tasks taskId = .awaitingAcknowledgement := by
        rcases asks with rfl | rfl | rfl
        · exact Or.inl (answerable.delayed here)
        · exact Or.inr (Or.inl (answerable.received here))
        · exact Or.inr (Or.inr (answerable.completed here))
      cases moved with
      | stay | marked => exact absurd here gone
      | updated updating => cases reading.symm.trans updating
      | cleared timedOut => cases reading.symm.trans timedOut
      | continued polling =>
        refine ⟨later, within, here, isThread, triggers, ?_⟩
        rcases place with same | same <;> cases same.symm.trans polling
        exact same
      | abandoned _ dead => cases (serial.running taskId).symm.trans dead
      | received outside | completed outside | acknowledged outside | noMessage outside | undelayed outside
      | delayed outside => simp [outside] at waits
      | left granted =>
        rcases granted with released | dead
        · rcases asks with rfl | rfl | rfl <;> cases here.symm.trans released
        · cases (serial.running taskId).symm.trans dead
    · exact absurd (unmoved ▸ here) gone

include unfinished

theorem unreported {now : Nat} (order : time ≤ now) :
    ((behaviour.state now).threads.task taskId).state ≠ .taskComplete := by
  intro reported
  obtain ⟨later, beyond, here, acts, triggers, polling⟩ :=
    answered perfect live stuck (Or.inr (Or.inr rfl)) order reported
  have stepped := (thread_taken (taken_at later) acts).2
  obtain ⟨again, place⟩ := stuck (later + 1) (by omega)
  simp only [Threads.step, schedulerStep, polling, poll, if_neg unfinished, here, Option.some.injEq] at stepped
  rw [← stepped] at place
  simp at place

theorem triggered_now {now : Nat} (order : time ≤ now) :
    ((behaviour.state now).threads.task taskId).triggeredMIDs ≠ [] := by
  obtain ⟨ledger, serial⟩ := serial_at behaviour perfect now
  obtain ⟨triggers, place⟩ := stuck now order
  have reconciled := (sound_at (Or.inl perfect) live now).reconciled
  have counts := (visit_counts serial reconciled place unfinished).1
  have silent : reporting ((behaviour.state now).threads.task taskId) ((behaviour.state now).threads.tasks taskId) = 0 :=
    if_neg (fun both => unreported perfect live unfinished stuck order both.2)
  intro none
  simp only [none, silent, List.length_nil] at counts
  omega

theorem released {now : Nat} (order : time ≤ now)
    (waits : (behaviour.state now).threads.tasks taskId = .delayed ∨
      (behaviour.state now).threads.tasks taskId = .awaitingPermission) :
    ∃ later, now ≤ later ∧ ((behaviour.state later).threads.task taskId).state = .taskContinue ∧
      ((behaviour.state later).threads.tasks taskId = .delayed ∨
        (behaviour.state later).threads.tasks taskId = .awaitingPermission) := by
  have announced := (sound_at (Or.inl perfect) live now).announced taskId
  obtain ⟨value, asks, here⟩ : ∃ value, (value = .taskDelay ∨ value = .msgRcv) ∧
      (((behaviour.state now).threads.task taskId).state = value ∨
        ((behaviour.state now).threads.task taskId).state = .taskContinue) := by
    rcases waits with delayed | permission
    · exact ⟨.taskDelay, Or.inl rfl, announced .taskDelay (by rw [delayed]; rfl)⟩
    · exact ⟨.msgRcv, Or.inr rfl, announced .msgRcv (by rw [permission]; rfl)⟩
  rcases here with here | already
  · obtain ⟨later, beyond, same, acts, triggers, polling⟩ :=
      answered perfect live stuck (asks.imp_right Or.inl) order here
    obtain ⟨ledger, serial⟩ := serial_at behaviour perfect later
    have answerable := (serial.accounts taskId).answerable
    have reconciled := (sound_at (Or.inl perfect) live later).reconciled
    have more := (visit_counts serial reconciled (Or.inl polling) unfinished).2
    have stepped := (thread_taken (taken_at later) acts).2
    refine ⟨later + 1, Nat.le_succ_of_le beyond, ?_⟩
    rcases asks with rfl | rfl
    · simp only [Threads.step, schedulerStep, polling, poll, if_neg unfinished, same, Option.some.injEq] at stepped
      rw [← stepped]
      exact ⟨by simp, Or.inl (answerable.delayed same)⟩
    · simp only [Threads.step, schedulerStep, polling, poll, if_neg unfinished, same, if_pos (more same),
        Option.some.injEq] at stepped
      rw [← stepped]
      exact ⟨by simp, Or.inr (answerable.received same)⟩
  · exact ⟨now, Nat.le_refl now, already, waits⟩

theorem let_go {now : Nat} (order : time ≤ now)
    (waits : (behaviour.state now).threads.tasks taskId = .delayed ∨
      (behaviour.state now).threads.tasks taskId = .awaitingPermission) :
    ∃ later, now ≤ later ∧ (behaviour.state later).threads.tasks taskId = .running := by
  obtain ⟨middle, order, continues, place⟩ := released perfect live unfinished stuck order waits
  have loop : ((behaviour.state middle).threads.tasks taskId).announced.isSome = true := by
    rcases place with place | place <;> rw [place] <;> rfl
  obtain ⟨later, beyond, ⟨same, _⟩, leaves⟩ := resumes (Or.inl perfect) live loop rfl continues
  have stepped := (thread_taken (taken_at later) leaves).2
  simp only [Threads.step] at stepped
  split at stepped
  next =>
    have left := (leaveStep_some stepped).2.1
    refine ⟨later + 1, by omega, ?_⟩
    rcases place with place | place
    all_goals
      rw [same, place] at left
      generalize (behaviour.state (later + 1)).threads.tasks taskId = pc at left ⊢
      cases left
      rfl
  next => cases stepped

theorem incomplete {now : Nat} (order : time ≤ now)
    (handles : ((behaviour.state now).threads.task taskId).stackList ≠ []) (stack : StackInfo) :
    behaviour.event now ≠ .thread (.complete taskId stack) := by
  intro completes
  have sited : (use.callSite taskId).SameCallSite stack := by
    have orderly := live.orderly now
    rw [completes] at orderly
    exact orderly
  have handling := ((sound_at (Or.inl perfect) live now).reconciled.tended taskId).handling
  have reports : ((behaviour.state now).threads.task taskId).completesStack stack = true := by
    rw [(handling.completed sited).2.2.2]
    simpa using handles
  apply unreported perfect live unfinished stuck (Nat.le_succ_of_le order)
  have stepped := (thread_taken (taken_at now) completes).2
  simp only [Threads.step] at stepped
  obtain ⟨_, _, stepped⟩ := taskStep_some stepped
  rw [← stepped]
  simp [completeStep, TaskIPC.complete_state, reports]

theorem stays_running {now : Nat} (order : time ≤ now)
    (running : (behaviour.state now).threads.tasks taskId = .running)
    (keeps : ¬ ∃ pipeId, behaviour.event now = .thread (.receive taskId pipeId)) :
    (behaviour.state (now + 1)).threads.tasks taskId = .running := by
  have triggered := triggered_now perfect live unfinished stuck order
  rcases task_moves (taken_at now) taskId with ⟨threadEvent, isThread, _, moved⟩ | unmoved
  · generalize (behaviour.state (now + 1)).threads.task taskId = record at moved
    generalize (behaviour.state (now + 1)).threads.tasks taskId = pc at moved ⊢
    cases moved with
    | stay | updated | cleared | marked | continued | abandoned => exact running
    | received => exact absurd ⟨_, isThread⟩ keeps
    | undelayed => rfl
    | delayed _ _ enters => exact absurd ⟨perfect, List.length_pos_iff.mpr triggered⟩ enters
    | completed place | acknowledged place | noMessage place => cases running.symm.trans place
    | left _ loop =>
      rw [running] at loop
      cases loop
  · rw [unmoved]
    exact running

theorem handles_none {now : Nat} (order : time ≤ now) :
    ((behaviour.state now).threads.task taskId).stackList = [] := by
  refine Classical.byContradiction (fun handles => ?_)
  obtain ⟨later, beyond, handles, stack, completes⟩ := completes_handled (Or.inl perfect) live handles
    (fun later beyond => stays_running perfect live unfinished stuck (Nat.le_trans order beyond))
    (fun later beyond => let_go perfect live unfinished stuck (Nat.le_trans order beyond))
  exact incomplete perfect live unfinished stuck (Nat.le_trans order beyond) handles stack completes

theorem undelayed {now : Nat} (order : time ≤ now)
    (away : (behaviour.state now).threads.tasks taskId ≠ .delayed) :
    (behaviour.state (now + 1)).threads.tasks taskId ≠ .delayed := by
  have triggered := triggered_now perfect live unfinished stuck order
  rcases task_moves (taken_at now) taskId with ⟨threadEvent, _, _, moved⟩ | unmoved
  · generalize (behaviour.state (now + 1)).threads.task taskId = record at moved
    generalize (behaviour.state (now + 1)).threads.tasks taskId = pc at moved ⊢
    cases moved with
    | stay | updated | cleared | marked | continued | abandoned => exact away
    | received | noMessage | undelayed => simp
    | completed | acknowledged => split <;> simp
    | delayed _ _ enters => exact absurd ⟨perfect, List.length_pos_iff.mpr triggered⟩ enters
    | left _ loop =>
      generalize (behaviour.state now).threads.tasks taskId = before at loop
      cases loop <;> simp
  · rw [unmoved]
    exact away

theorem free : ∃ start, time ≤ start ∧ ∀ later, start ≤ later → ¬ (behaviour.state later).threads.HeldUp taskId := by
  obtain ⟨start, order, away⟩ : ∃ start, time ≤ start ∧ (behaviour.state start).threads.tasks taskId ≠ .delayed := by
    by_cases delayed : (behaviour.state time).threads.tasks taskId = .delayed
    · obtain ⟨later, beyond, running⟩ := let_go perfect live unfinished stuck (Nat.le_refl time) (Or.inl delayed)
      exact ⟨later, beyond, by simp [running]⟩
    · exact ⟨time, Nat.le_refl time, delayed⟩
  refine ⟨start, order, fun later beyond held => ?_⟩
  have undelayed : (behaviour.state later).threads.tasks taskId ≠ .delayed :=
    behaviour.persists (fun state => state.threads.tasks taskId ≠ .delayed) away
      (fun later beyond away => undelayed perfect live unfinished stuck (by omega) away) beyond
  obtain ⟨delayed | permission | acknowledgement, unreleased⟩ := held
  · exact undelayed delayed
  · obtain ⟨ledger, serial⟩ := serial_at behaviour perfect later
    rcases (serial.accounts taskId).held with ⟨_, elsewhere⟩ | ⟨_, _, _, handles, _⟩
    · exact elsewhere permission
    · exact handles (handles_none perfect live unfinished stuck (by omega))
  · have announced := (sound_at (Or.inl perfect) live later).announced taskId .taskComplete
    rcases announced (by rw [acknowledgement]; rfl) with reported | released
    · exact unreported perfect live unfinished stuck (by omega) reported
    · exact unreleased released

/-- So the visit is not stuck: the message that is triggered is on its way to the
task, and a task that reads it handles it. -/
theorem unstuck : False := by
  obtain ⟨start, order, free⟩ := free perfect live unfinished stuck
  have outside : ¬ InPass (behaviour.state start) := by
    obtain ⟨triggers, place⟩ := stuck start order
    rintro (processing | ⟨target, marked, marking⟩)
    · rcases place with same | same <;> cases same.symm.trans processing
    · rcases place with same | same <;> cases same.symm.trans marking
  obtain ⟨later, beyond, mid, found, stack, acknowledges⟩ := acknowledges_triggered (Or.inl perfect) live free outside
    (triggered_now perfect live unfinished stuck order) (handles_none perfect live unfinished stuck order)
  have stepped := (thread_taken (taken_at later) acknowledges).2
  simp only [Threads.step] at stepped
  obtain ⟨_, _, stepped⟩ := taskStep_some stepped
  have next : time ≤ later + 1 := by omega
  have handles := handles_none perfect live unfinished stuck next
  rw [← stepped] at handles
  simp only [acknowledgeStep, signal_task, setPc_task, setTask_task, TaskIPC.acknowledge_found _ mid stack found]
    at handles
  simp at handles

end Stuck

section Visits
variable (perfect : config.perfectScheduleMode = true) (live : Live use behaviour)
include perfect live

theorem serves (unfinished : completes ≠ req) :
    behaviour.LeadsTo (InVisit taskId entries req completes) (InVisit taskId entries req (completes + 1)) := by
  intro time visit
  refine Classical.byContradiction (fun never => ?_)
  have stuck : ∀ later, time ≤ later → InVisit taskId entries req completes (behaviour.state later) := by
    intro later order
    refine behaviour.persists (InVisit taskId entries req completes) visit ?_ order
    intro later order visit
    have running := (sound_at (Or.inl perfect) live later).reconciled.running
    exact (visit.step unfinished running (taken_at later)).resolve_right
      (fun served => never ⟨later + 1, Nat.le_succ_of_le order, served⟩)
  exact unstuck perfect live unfinished stuck

theorem completes_le {time : Nat} (visit : InVisit taskId entries req completes (behaviour.state time)) :
    completes ≤ req := by
  by_cases unfinished : completes = req
  · exact unfinished.le
  · obtain ⟨ledger, serial⟩ := serial_at behaviour perfect time
    obtain ⟨triggers, place⟩ := visit
    have counts := (visit_counts serial (sound_at (Or.inl perfect) live time).reconciled place unfinished).1
    omega

theorem visit_ends : behaviour.LeadsTo (fun state => ∃ completes, InVisit taskId entries req completes state)
    (fun state => state.threads.scheduler = .iterating entries) := by
  have finish : behaviour.LeadsTo (InVisit taskId entries req req)
      (fun state => state.threads.scheduler = .iterating entries) := by
    rintro time ⟨triggers, polling | checking⟩
    · obtain ⟨later, order, same, acts⟩ := scheduler_acts live polling (by simp) (by simp)
      refine ⟨later + 1, Nat.le_succ_of_le order, ?_⟩
      have stepped := (thread_taken (taken_at later) acts).2
      simp only [Threads.step, schedulerStep, same, poll, ite_true, Option.some.injEq] at stepped
      exact (congrArg Threads.scheduler stepped).symm
    · obtain ⟨middle, order, same, acts⟩ := scheduler_acts live checking (by simp) (by simp)
      have running := (sound_at (Or.inl perfect) live middle).reconciled.running taskId
      have stepped := (thread_taken (taken_at middle) acts).2
      simp only [Threads.step, schedulerStep, same, running, ite_true, Option.some.injEq] at stepped
      have polling : (behaviour.state (middle + 1)).threads.scheduler = .polling taskId entries req triggers req := by
        rw [← stepped]
        rfl
      obtain ⟨later, beyond, same, acts⟩ := scheduler_acts live polling (by simp) (by simp)
      refine ⟨later + 1, by omega, ?_⟩
      have stepped := (thread_taken (taken_at later) acts).2
      simp only [Threads.step, schedulerStep, same, poll, ite_true, Option.some.injEq] at stepped
      exact (congrArg Threads.scheduler stepped).symm
  have onward : ∀ left completes, completes + left = req →
      behaviour.LeadsTo (InVisit taskId entries req completes)
        (fun state => state.threads.scheduler = .iterating entries) := by
    intro left
    induction left with
    | zero =>
      rintro completes rfl
      exact finish
    | succ left ih =>
      intro completes owed
      exact (serves perfect live (by omega)).trans (ih (completes + 1) (by omega))
  rintro time ⟨completes, visit⟩
  have few := completes_le perfect live visit
  exact onward (req - completes) completes (by omega) time visit

theorem iterates (entries : List (Nat × Nat)) :
    behaviour.LeadsTo (fun state => state.threads.scheduler = .iterating entries)
      (fun state => state.threads.scheduler = .completing) := by
  induction entries with
  | nil =>
    intro time iterating
    obtain ⟨later, order, same, acts⟩ := scheduler_acts live iterating (by simp) (by simp)
    refine ⟨later + 1, Nat.le_succ_of_le order, ?_⟩
    have stepped := (thread_taken (taken_at later) acts).2
    simp only [Threads.step, schedulerStep, same, Option.some.injEq] at stepped
    exact (congrArg Threads.scheduler stepped).symm
  | cons entry entries ih =>
    intro time iterating
    obtain ⟨later, order, same, acts⟩ := scheduler_acts live iterating (by simp) (by simp)
    have stepped := (thread_taken (taken_at later) acts).2
    simp only [Threads.step, schedulerStep, same, Option.some.injEq] at stepped
    have visit : ∃ completes, InVisit entry.2 entries
        ((behaviour.state later).threads.task entry.2).triggeredMIDs.length completes (behaviour.state (later + 1)) := by
      refine ⟨0, 0, Or.inl ?_⟩
      rw [← stepped]
      rfl
    obtain ⟨next, beyond, remaining⟩ := visit_ends perfect live (later + 1) visit
    obtain ⟨last, further, done⟩ := ih next remaining
    exact ⟨last, by omega, done⟩

theorem gathers : behaviour.LeadsTo InPass
    (fun state => ∃ entries, state.threads.scheduler = .iterating entries) := by
  intro time passing
  obtain ⟨late, order, gone⟩ := live.passes time passing
  obtain ⟨later, within, inside, outside⟩ := behaviour.exists_exit InPass order passing gone
  have began := pass_ends (taken_at later) inside outside
  refine ⟨later + 1, Nat.le_succ_of_le within, (behaviour.state later).threads.iface.perfectFDMap, ?_⟩
  simpa [beginSignal, perfect] using began

theorem completing {time : Nat} (busy : (behaviour.state time).threads.scheduler ≠ .waiting) :
    ∃ later, time ≤ later ∧ (behaviour.state later).threads.scheduler = .completing := by
  have passed : behaviour.LeadsTo InPass (fun state => state.threads.scheduler = .completing) :=
    (gathers perfect live).trans (fun time ⟨entries, iterating⟩ => iterates perfect live entries time iterating)
  cases place : (behaviour.state time).threads.scheduler with
  | starting =>
    obtain ⟨later, order, same, acts⟩ := scheduler_acts live place (by simp) (by simp)
    have stepped := (thread_taken (taken_at later) acts).2
    simp only [Threads.step, schedulerStep, same, beginSignal, perfect, ite_true, Option.some.injEq] at stepped
    obtain ⟨last, beyond, done⟩ := iterates perfect live
      (behaviour.state later).threads.iface.perfectFDMap (later + 1)
      (congrArg Threads.scheduler stepped).symm
    exact ⟨last, by omega, done⟩
  | waiting => exact absurd place busy
  | processing => exact passed time (Or.inl place)
  | marking taskId mid => exact passed time (Or.inr ⟨taskId, mid, place⟩)
  | iterating entries => exact iterates perfect live entries time place
  | polling taskId entries req triggers completes =>
    obtain ⟨next, order, remaining⟩ := visit_ends perfect live time ⟨completes, triggers, Or.inl place⟩
    obtain ⟨last, beyond, done⟩ := iterates perfect live entries next remaining
    exact ⟨last, by omega, done⟩
  | checking taskId entries req triggers completes =>
    obtain ⟨next, order, remaining⟩ := visit_ends perfect live time ⟨completes, triggers, Or.inr place⟩
    obtain ⟨last, beyond, done⟩ := iterates perfect live entries next remaining
    exact ⟨last, by omega, done⟩
  | completing => exact ⟨time, Nat.le_refl time, place⟩

theorem comes_back : behaviour.LeadsTo Triggered (fun state => state.threads.main = .returned) := by
  intro time triggered
  obtain ⟨started, first, passing⟩ := wakes (Or.inl perfect) live time triggered
  have busy : (behaviour.state started).threads.scheduler ≠ .waiting := by
    rcases passing with processing | ⟨taskId, mid, marking⟩
    · simp [processing]
    · simp [marking]
  obtain ⟨done, second, completing⟩ := completing perfect live busy
  obtain ⟨posted, third, completed⟩ := posts (Or.inl perfect) live done completing
  obtain ⟨last, fourth, returned⟩ := reads (Or.inl perfect) live posted completed
  refine ⟨last, by omega, ?_⟩
  simpa [perfect] using returned

end Visits

/-- When a call of `updateCFS` has returned, the messages that the scheduler has
sent are read, handled and reported. -/
theorem all_served (perfect : config.perfectScheduleMode = true) (live : Live use behaviour) {time : Nat}
    (returned : (behaviour.state time).threads.main = .returned) :
    (∀ taskId, ((behaviour.state time).threads.task taskId).Idle) ∧
      ∀ copy ∈ (behaviour.state time).queued, use.scheduled copy.2 = false := by
  have sound := sound_at (Or.inl perfect) live time
  obtain ⟨ledger, serial⟩ := serial_at behaviour perfect time
  have waits := sound.locked.waits (by simp [returned])
  have phase := serial.phase
  rw [waits] at phase
  have idle (taskId : Nat) : ((behaviour.state time).threads.task taskId).Idle := by
    have closed := phase.2 taskId
    have triggers := (serial.accounts taskId).balanced closed.balanced
    have served := closed.served
    have none : ((behaviour.state time).threads.task taskId).triggeredMIDs = [] :=
      List.eq_nil_of_length_eq_zero (by omega)
    rcases (sound.reconciled.tended taskId).handling.held with empty | ⟨mid, _, _, _, member, _⟩
    · exact ⟨none, empty.2⟩
    · simp [none] at member
  refine ⟨idle, fun copy member => ?_⟩
  by_cases scheduled : use.scheduled copy.2 = true
  · have counts := (sound.reconciled.tended (use.owner copy.1)).counts copy.2 scheduled
    have unmarked : (behaviour.state time).threads.beingMarked (use.owner copy.1) copy.2 = 0 := by
      simp [Threads.beingMarked, waits]
    have some : 0 < (behaviour.state time).queued.countP (use.isFor (use.owner copy.1) copy.2) :=
      List.countP_pos_iff.mpr ⟨copy, member, by simp [PipeUse.isFor]⟩
    simp only [(idle (use.owner copy.1)).1, unmarked, PipeUse.unread, List.count_nil] at counts
    omega
  · simpa using scheduled

/-- In perfect mode the simulation goes on for ever: at any time, the call of
`updateCFS` under way returns, with all scheduled messages processed. -/
theorem perfect_mode_progress (config : Config) (perfect : config.perfectScheduleMode = true) (depth : Nat → Nat)
    (registeredTasks : Nat) (taskTable priority : Nat → Nat) (use : PipeUse)
    (behaviour : (pipeThreads config depth registeredTasks taskTable priority).Behaviour)
    (live : Live use behaviour) (time : Nat) :
    ∃ later, time ≤ later ∧ (behaviour.state later).threads.main = .returned ∧
      (∀ taskId, ((behaviour.state later).threads.task taskId).Idle) ∧
      ∀ copy ∈ (behaviour.state later).queued, use.scheduled copy.2 = false := by
  have sound := sound_at (Or.inl perfect) live time
  obtain ⟨ledger, serial⟩ := serial_at behaviour perfect time
  have unscanned := serial.unscanned
  have goes_on : ∃ later, time ≤ later ∧ (behaviour.state later).threads.main = .returned := by
    cases place : (behaviour.state time).threads.main with
    | returned => exact ⟨time, Nat.le_refl time, place⟩
    | updating ii =>
      exact (updates (Or.inl perfect) live).trans (comes_back perfect live) time ⟨ii, place⟩
    | reading =>
      have reported (time : Nat) (completed : Completed (behaviour.state time)) :
          ∃ later, time ≤ later ∧ (behaviour.state later).threads.main = .returned := by
        obtain ⟨later, order, returned⟩ := reads (Or.inl perfect) live time completed
        exact ⟨later, order, by simpa [perfect] using returned⟩
      by_cases waits : (behaviour.state time).threads.scheduler = .waiting
      · have tokens := sound.locked.tokens
        rw [if_pos ⟨place, waits⟩] at tokens
        by_cases posted : (behaviour.state time).threads.iface.triggerMain = 0
        · exact reported time ⟨place, by omega⟩
        · exact comes_back perfect live time ⟨waits, posted⟩
      · obtain ⟨done, first, completing⟩ := completing perfect live waits
        obtain ⟨posted, second, completed⟩ := posts (Or.inl perfect) live done completing
        obtain ⟨last, third, returned⟩ := reported posted completed
        exact ⟨last, by omega, returned⟩
    | scanning | waiting | woken | timedOut =>
      rw [place] at unscanned
      exact unscanned.elim
  obtain ⟨later, order, returned⟩ := goes_on
  exact ⟨later, order, returned, all_served perfect live returned⟩

section Steady

def steadySite : StackInfo := StackInfo.backtrace [0, 1, 2, 3]

def steadyUse : PipeUse where
  owner := fun _ => 0
  scheduled := fun mid => mid == 7
  callSite := fun _ => steadySite

def steadyMission : Machine PipeThreads PipeThreadEvent :=
  pipeThreads { oneTaskConfig with perfectScheduleMode := true } (fun _ => 4) 1 id (fun _ => 20)

def steadyStart : List PipeThreadEvent :=
  [.thread (.createQueue 0 0), .thread .scheduler, .thread .scheduler, .thread .scheduler, .thread .main,
    .thread .startRun, .thread (.receive 0 0), .thread (.complete 0 steadySite)]

/-- The steps of a frame behind the first one, which is the call of `updateCFS`. -/
def steadyFrame : List PipeThreadEvent :=
  [.thread .main, .thread .main, .thread .scheduler, .thread (.send 0 7), .thread .scheduler, .put,
    .thread .scheduler, .thread .scheduler, .dequeue 0, .thread (.acknowledge 0 7 steadySite), .thread .scheduler,
    .thread (.leave 0), .thread .scheduler, .thread (.receive 0 0), .thread (.complete 0 steadySite),
    .thread .scheduler, .thread (.leave 0), .thread .scheduler, .thread .scheduler, .thread .scheduler,
    .thread .scheduler, .thread .main]

private theorem steadyStart_runs : (steadyMission.run steadyStart).isSome = true := by decide

def steadyState : PipeThreads := (steadyMission.run steadyStart).get steadyStart_runs

private theorem steadyFrame_runs :
    (steadyMission.runFrom steadyState (.thread .main :: steadyFrame)).isSome = true := by decide

attribute [ext] TrickCFSInterface Threads PipeThreads

private theorem steadyFrame_returns :
    (steadyMission.runFrom steadyState (.thread .main :: steadyFrame)).get steadyFrame_runs = steadyState := by
  apply PipeThreads.ext
  · apply Threads.ext
    · apply TrickCFSInterface.ext
      · funext taskId
        cases taskId <;> rfl
      · funext pipeId
        cases pipeId <;> rfl
      all_goals rfl
    · rfl
    · rfl
    · rfl
    · rfl
    · rfl
    · funext taskId
      cases taskId <;> rfl
  · rfl
  · rfl
  · funext taskId
    cases taskId <;> rfl
  · funext taskId
    cases taskId <;> rfl

def steadyLasso : steadyMission.Lasso where
  stem := steadyStart
  knot := steadyState
  first := .thread .main
  rest := steadyFrame
  reaches := (Option.some_get steadyStart_runs).symm
  returns := (Option.some_get steadyFrame_runs).symm.trans (congrArg some steadyFrame_returns)

/-- What holds at each step of the mission: the pipe is used in order, and only pipe 0 is used. -/
def Steady (state : PipeThreads) (event : PipeThreadEvent) : Prop :=
  steadyUse.Orderly (fun _ => 4) state event ∧ state.queued.all (fun copy => copy.1 == 0) = true

instance (state : PipeThreads) (event : PipeThreadEvent) : Decidable (Steady state event) :=
  inferInstanceAs (Decidable (_ ∧ _))

private theorem steadyLasso_steady (time : Nat) :
    Steady (steadyLasso.behaviour.state time) (steadyLasso.behaviour.event time) :=
  steadyLasso.always (by decide) (by decide) time

private theorem steadyLasso_live : Live steadyUse steadyLasso.behaviour where
  orderly := fun time => (steadyLasso_steady time).1
  main := steadyLasso.fair 0 rfl rfl
  scheduler := steadyLasso.fair 3 rfl rfl
  passes := steadyLasso.leads_to 0 rfl (by rintro (processing | ⟨taskId, mid, marking⟩) <;> contradiction)
  leaves := by
    intro taskId
    cases taskId with
    | zero => exact steadyLasso.fair 12 rfl rfl
    | succ taskId =>
      refine fair_beyond steadyLasso.behaviour (Nat.succ_pos taskId) ?_
      rintro _ rfl
      exact ⟨_, rfl, rfl⟩
  completes := by
    intro taskId
    cases taskId with
    | zero => exact steadyLasso.fair 15 rfl ⟨_, rfl⟩
    | succ taskId =>
      refine fair_beyond steadyLasso.behaviour (Nat.succ_pos taskId) ?_
      rintro _ ⟨_, rfl⟩
      exact ⟨_, rfl, rfl⟩
  acknowledges := by
    intro taskId
    cases taskId with
    | zero => exact steadyLasso.fair 10 rfl ⟨_, _, rfl⟩
    | succ taskId =>
      refine fair_beyond steadyLasso.behaviour (Nat.succ_pos taskId) ?_
      rintro _ ⟨_, _, rfl⟩
      exact ⟨_, rfl, rfl⟩
  returns := by
    intro time taskId inside _ _
    obtain rfl : taskId = 0 := Nat.lt_one_iff.mp inside
    obtain ⟨later, order, same, _⟩ := steadyLasso.recurs 14 rfl time
    exact ⟨later, order, Or.inl ⟨0, same⟩⟩
  attends := by
    intro time copy member
    have onPipe : copy.1 = 0 := by simpa using List.all_eq_true.mp (steadyLasso_steady time).2 copy member
    obtain ⟨later, order, same, here⟩ := steadyLasso.recurs 9 rfl time
    refine ⟨later, order, Or.inl ⟨same, ?_⟩⟩
    rw [onPipe, here]
    rfl

theorem perfect_mode_progress_steady : ∃ later, 1000 ≤ later ∧
    (steadyLasso.behaviour.state later).threads.main = .returned ∧
    (∀ taskId, ((steadyLasso.behaviour.state later).threads.task taskId).Idle) ∧
    ∀ copy ∈ (steadyLasso.behaviour.state later).queued, steadyUse.scheduled copy.2 = false :=
  perfect_mode_progress { oneTaskConfig with perfectScheduleMode := true } rfl (fun _ => 4) 1 id (fun _ => 20)
    steadyUse steadyLasso.behaviour steadyLasso_live 1000

end Steady
end TrickCFS.Proofs.PerfectProgress
