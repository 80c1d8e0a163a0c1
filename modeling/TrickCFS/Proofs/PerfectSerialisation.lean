import TrickCFS.Proofs.PerfectAccounts

/-! Perfect mode serialises the tasks. The scheduler visits the multimap in
priority order, and a visit ends with the account of its task closed, so only
the task under visit can hold a permission. -/

namespace TrickCFS.Proofs.PerfectSerialisation
open Threads

variable {config : Config} {priorityOf : Nat → Nat} {state next : Threads} {ledger : Ledger}

/-- The task has been served all its marks of the frame. -/
structure Closed (ledger : SchedulerLedger) (taskId : Nat) : Prop where
  served : ledger.grants.count taskId = ledger.marks.count taskId
  balanced : ledger.acknowledged taskId = ledger.granted taskId

structure Untouched (ledger : SchedulerLedger) (entries : List (Nat × Nat)) (taskId : Nat) : Prop where
  ungranted : taskId ∉ ledger.grants
  entered : (entries.map Prod.snd).count taskId = ledger.marks.count taskId
  balanced : ledger.acknowledged taskId = ledger.granted taskId

structure InOrder (priorityOf : Nat → Nat) (entries : List (Nat × Nat)) : Prop where
  sorted : entries.Pairwise (fun first second => first.1 ≤ second.1)
  keys : ∀ entry ∈ entries, entry.1 = priorityOf entry.2

structure Gathering (priorityOf : Nat → Nat) (entries : List (Nat × Nat)) (ledger : SchedulerLedger) :
    Prop where
  order : InOrder priorityOf entries
  untouched : ∀ taskId, Untouched ledger entries taskId

structure Iterating (priorityOf : Nat → Nat) (entries : List (Nat × Nat)) (ledger : SchedulerLedger) :
    Prop where
  order : InOrder priorityOf entries
  earlier : ∀ granted ∈ ledger.grants, ∀ entry ∈ entries, priorityOf granted ≤ entry.1
  rest : ∀ taskId, Closed ledger taskId ∨ Untouched ledger entries taskId

/-- The first visit of a task: the scheduler's counters are those of the ledger,
and its grants so far are the last ones of the frame. -/
structure Serving (ledger : SchedulerLedger) (taskId reqTriggers numTriggers numCompletes : Nat) : Prop where
  required : reqTriggers = ledger.marks.count taskId
  triggers : numTriggers ≤ reqTriggers
  completes : numCompletes + ledger.granted taskId = ledger.acknowledged taskId + numTriggers
  last : ∃ before, ledger.grants = before ++ List.replicate numTriggers taskId ∧ taskId ∉ before

/-- A later entry of a task that has been served finds no trigger left. -/
structure Repeated (ledger : SchedulerLedger) (taskId reqTriggers numCompletes : Nat) : Prop where
  required : reqTriggers = numCompletes
  closed : Closed ledger taskId

structure Visiting (priorityOf : Nat → Nat) (entries : List (Nat × Nat)) (ledger : SchedulerLedger)
    (taskId reqTriggers numTriggers numCompletes : Nat) : Prop where
  order : InOrder priorityOf entries
  later : ∀ entry ∈ entries, priorityOf taskId ≤ entry.1
  earlier : ∀ granted ∈ ledger.grants, priorityOf granted ≤ priorityOf taskId
  others : ∀ other, other ≠ taskId → Closed ledger other ∨ Untouched ledger entries other
  current : Repeated ledger taskId reqTriggers numCompletes ∨
    Serving ledger taskId reqTriggers numTriggers numCompletes

def Phase (priorityOf : Nat → Nat) (perfectFDMap : List (Nat × Nat)) (ledger : SchedulerLedger) :
    SchedulerPc → Prop
  | .starting | .processing | .marking _ _ => Gathering priorityOf perfectFDMap ledger
  | .iterating entries => Iterating priorityOf entries ledger
  | .polling taskId entries reqTriggers numTriggers numCompletes
  | .checking taskId entries reqTriggers numTriggers numCompletes =>
    Visiting priorityOf entries ledger taskId reqTriggers numTriggers numCompletes
  | .completing | .waiting => perfectFDMap = [] ∧ ∀ taskId, Closed ledger taskId

def Contiguous (taskId : Nat) (grants : List Nat) : Prop :=
  ∃ before count after, grants = before ++ List.replicate count taskId ++ after ∧
    taskId ∉ before ∧ taskId ∉ after

/-- In perfect mode `TrickWaitForCFSComplete` does not look at the tasks. -/
def Unscanned : MainPc → Prop
  | .reading | .returned | .updating _ => True
  | .scanning _ | .waiting _ _ | .woken _ | .timedOut _ _ => False

structure Serial (priorityOf : Nat → Nat) (state : Threads) (ledger : Ledger) : Prop where
  running : ∀ taskId, (state.es.locateAppRecord taskId).running = true
  priorities : ∀ taskId, (state.es.locateAppRecord taskId).priority = priorityOf taskId
  unscanned : Unscanned state.main
  accounts : ∀ taskId, Account (state.task taskId) (state.tasks taskId) (ledger.granted taskId)
    (ledger.left taskId) (ledger.acknowledged taskId) (ledger.grants.count taskId) (ledger.marks.count taskId)
  phase : Phase priorityOf state.iface.perfectFDMap ledger.toSchedulerLedger state.scheduler
  ordered : ledger.grants.Pairwise (fun first second => priorityOf first ≤ priorityOf second)
  contiguous : ∀ taskId, Contiguous taskId ledger.grants

inductive Turn (state : Threads) (ledger : Ledger) : Threads → Ledger → Prop
  | began (gathered : state.scheduler = .starting ∨ state.scheduler = .processing) :
      Turn state ledger (state.setScheduler (.iterating state.iface.perfectFDMap)) ledger
  | woken (waiting : state.scheduler = .waiting) :
      Turn state ledger
        { state with
          iface := { state.iface with triggerMain := 0 }
          scheduler := .processing }
        ledger.newFrame
  | marked {taskId mid} (marking : state.scheduler = .marking taskId mid) :
      Turn state ledger
        { state with
          iface := state.iface.markTask true (state.es.locateAppRecord taskId) taskId mid
          scheduler := .processing }
        (ledger.mark taskId)
  | finished (iterating : state.scheduler = .iterating []) :
      Turn state ledger
        { state with
          iface := { state.iface with perfectFDMap := [] }
          scheduler := .completing }
        ledger
  | entered {entry entries} (iterating : state.scheduler = .iterating (entry :: entries)) :
      Turn state ledger
        (state.setScheduler (.polling entry.2 entries (state.task entry.2).triggeredMIDs.length 0 0)) ledger
  | visited {taskId entries reqTriggers numTriggers}
      (polling : state.scheduler = .polling taskId entries reqTriggers numTriggers reqTriggers) :
      Turn state ledger (state.setScheduler (.iterating entries)) ledger
  | undelayed {taskId entries reqTriggers numTriggers numCompletes}
      (polling : state.scheduler = .polling taskId entries reqTriggers numTriggers numCompletes)
      (read : (state.task taskId).state = .taskDelay) :
      Turn state ledger
        ((state.setTask taskId (TaskIPC.setState .taskContinue)).setScheduler
          (.checking taskId entries reqTriggers numTriggers numCompletes))
        ledger
  | granted {taskId entries reqTriggers numTriggers numCompletes}
      (polling : state.scheduler = .polling taskId entries reqTriggers numTriggers numCompletes)
      (unfinished : numCompletes ≠ reqTriggers) (more : numTriggers ≠ reqTriggers)
      (read : (state.task taskId).state = .msgRcv) :
      Turn state ledger
        ((state.setTask taskId (TaskIPC.setState .taskContinue)).setScheduler
          (.checking taskId entries reqTriggers (numTriggers + 1) numCompletes))
        (ledger.grant taskId)
  | acknowledged {taskId entries reqTriggers numTriggers numCompletes}
      (polling : state.scheduler = .polling taskId entries reqTriggers numTriggers numCompletes)
      (unfinished : numCompletes ≠ reqTriggers)
      (read : (state.task taskId).state = .taskComplete) :
      Turn state ledger
        ((state.setTask taskId (TaskIPC.setState .taskContinue)).setScheduler
          (.checking taskId entries reqTriggers numTriggers (numCompletes + 1)))
        (ledger.acknowledge taskId)
  | polled {taskId entries reqTriggers numTriggers numCompletes}
      (polling : state.scheduler = .polling taskId entries reqTriggers numTriggers numCompletes) :
      Turn state ledger
        (state.setScheduler (.checking taskId entries reqTriggers numTriggers numCompletes)) ledger
  | checked {taskId entries reqTriggers numTriggers numCompletes}
      (checking : state.scheduler = .checking taskId entries reqTriggers numTriggers numCompletes) :
      Turn state ledger
        (state.setScheduler (.polling taskId entries reqTriggers numTriggers numCompletes)) ledger
  | completed (completing : state.scheduler = .completing) :
      Turn state ledger
        { state with
          iface := { state.iface with isMainCompleteTrigger := state.iface.isMainCompleteTrigger + 1 }
          scheduler := .waiting }
        ledger

theorem schedulerStep_turn (perfect : config.perfectScheduleMode = true)
    (running : ∀ taskId, (state.es.locateAppRecord taskId).running = true)
    (taken : state.schedulerStep config = some next) :
    Turn state ledger next (ledger.record state .scheduler) := by
  cases schedulerStep_cases taken with
  | began gathered =>
    simp only [beginSignal, perfect, ite_true]
    rcases gathered with same | same
    all_goals
      simp only [Ledger.record, same]
      exact .began (by simp [same])
  | woken waiting =>
    simp only [Ledger.record, waiting]
    exact .woken waiting
  | marked marking =>
    simp only [Ledger.record, marking, running, ite_true, perfect]
    exact .marked marking
  | finished iterating =>
    simp only [Ledger.record, iterating]
    exact .finished iterating
  | entered iterating =>
    simp only [Ledger.record, iterating]
    exact .entered iterating
  | visited polling =>
    simp only [Ledger.record, Ledger.poll, polling, ite_true]
    exact .visited polling
  | undelayed polling unfinished read =>
    simp only [Ledger.record, Ledger.poll, polling, if_neg unfinished, read]
    exact .undelayed polling read
  | granted polling unfinished more read =>
    simp only [Ledger.record, Ledger.poll, polling, if_neg unfinished, read, if_pos more]
    exact .granted polling unfinished more read
  | acknowledged polling unfinished read =>
    simp only [Ledger.record, Ledger.poll, polling, if_neg unfinished, read]
    exact .acknowledged polling unfinished read
  | @polled target _ req triggers _ polling unfinished undelayed ungranted unreported =>
    simp only [Ledger.record, Ledger.poll, polling, if_neg unfinished]
    cases read : (state.task target).state with
    | taskDelay => exact absurd read undelayed
    | msgRcv =>
      simp only [ungranted read, ne_eq, not_true_eq_false, ite_false]
      exact .polled (ungranted read ▸ polling)
    | taskComplete => exact absurd read unreported
    | none | taskRunning | taskContinue => exact .polled polling
  | checked checking =>
    simp only [Ledger.record, checking]
    exact .checked checking
  | @abandoned target _ _ _ _ _ dead => cases (running target).symm.trans dead
  | completed completing =>
    simp only [Ledger.record, completing]
    exact .completed completing

private theorem count_snoc_self (taskId : Nat) (tasks : List Nat) :
    (tasks ++ [taskId]).count taskId = tasks.count taskId + 1 := by simp

private theorem count_snoc_other {taskId other : Nat} (tasks : List Nat) (different : other ≠ taskId) :
    (tasks ++ [taskId]).count other = tasks.count other := by simp [different.symm]

theorem mark_task {target : Nat} (running : (state.es.locateAppRecord target).running = true)
    (mid : Nat) (scheduler : SchedulerPc) :
    let marked : Threads := { state with
      iface := state.iface.markTask true (state.es.locateAppRecord target) target mid
      scheduler }
    marked.task target = (state.task target).markPipeAsTriggered mid ∧
      ∀ other, other ≠ target → marked.task other = state.task other := by
  exact ⟨TrickCFSInterface.markTask_same _ mid state.iface running, fun other different =>
    TrickCFSInterface.markTask_other _ mid state.iface different⟩

private theorem turn_accounts (serial : Serial priorityOf state ledger) {later : Ledger}
    (turn : Turn state ledger next later) (taskId : Nat) :
    Account (next.task taskId) (next.tasks taskId) (later.granted taskId) (later.left taskId)
      (later.acknowledged taskId) (later.grants.count taskId) (later.marks.count taskId) := by
  have account := serial.accounts taskId
  have phase := serial.phase
  cases turn with
  | began | finished | entered | visited | polled | checked | completed => exact account
  | woken waiting =>
    rw [waiting] at phase
    exact account.newFrame (phase.2 taskId).served
  | @marked target mid marking =>
    obtain ⟨marked, kept⟩ := mark_task (serial.running target) mid .processing
    by_cases same : taskId = target
    · subst target
      rw [marked]
      simpa only [Ledger.mark, count_snoc_self] using account.marked mid
    · rw [kept taskId same]
      simpa only [Ledger.mark, count_snoc_other _ same] using account
  | @undelayed target _ _ _ _ _ read =>
    by_cases same : taskId = target
    · subst target
      rw [setScheduler_task, setTask_task]
      exact account.woken read rfl ⟨rfl, rfl, rfl⟩
    · simpa [setTask_other _ _ _ same] using account
  | @granted target _ _ _ _ _ _ _ read =>
    by_cases same : taskId = target
    · subst target
      simpa [Ledger.grant] using account.granted_permission read
    · simpa [Ledger.grant, setTask_other _ _ _ same, Ledger.increment_other _ same, count_snoc_other _ same]
        using account
  | @acknowledged target _ _ _ _ _ _ read =>
    by_cases same : taskId = target
    · subst target
      simpa [Ledger.acknowledge] using account.acknowledged_completion read
    · simpa [Ledger.acknowledge, setTask_other _ _ _ same, Ledger.increment_other _ same] using account

private theorem count_insertFD (priority target : Nat) (entries : List (Nat × Nat)) (taskId : Nat) :
    ((TrickCFSInterface.insertFD priority target entries).map Prod.snd).count taskId =
      (entries.map Prod.snd ++ [target]).count taskId := by
  induction entries with
  | nil => rfl
  | cons entry entries ih =>
    simp only [TrickCFSInterface.insertFD]
    split
    · simp only [List.map_cons, List.cons_append, List.count_cons, ih]
    · simp only [List.map_cons, List.cons_append, List.count_cons, List.count_append, List.count_nil]
      omega

private theorem gathering_marked {entries : List (Nat × Nat)}
    (gathering : Gathering priorityOf entries ledger.toSchedulerLedger) (target : Nat) :
    Gathering priorityOf (TrickCFSInterface.insertFD (priorityOf target) target entries)
      (ledger.mark target).toSchedulerLedger := by
  refine ⟨⟨TrickCFSInterface.insertFD_sorted gathering.order.sorted, ?_⟩, ?_⟩
  · intro entry member
    rcases TrickCFSInterface.mem_insertFD.mp member with rfl | old
    · rfl
    · exact gathering.order.keys entry old
  · intro taskId
    have untouched := gathering.untouched taskId
    refine ⟨untouched.ungranted, ?_, untouched.balanced⟩
    have entered := untouched.entered
    simp only [Ledger.mark, count_insertFD, List.count_append, entered]

private theorem visit_begins {entry : Nat × Nat} {entries : List (Nat × Nat)}
    (serial : Serial priorityOf state ledger)
    (iterating : Iterating priorityOf (entry :: entries) ledger.toSchedulerLedger) :
    Visiting priorityOf entries ledger.toSchedulerLedger entry.2
      (state.task entry.2).triggeredMIDs.length 0 0 := by
  obtain ⟨least, sorted⟩ := List.pairwise_cons.mp iterating.order.sorted
  have key := iterating.order.keys entry List.mem_cons_self
  refine ⟨⟨sorted, fun other member => iterating.order.keys other (List.mem_cons_of_mem _ member)⟩,
    ?_, ?_, ?_, ?_⟩
  · intro other member
    rw [← key]
    exact least other member
  · intro granted member
    rw [← key]
    exact iterating.earlier granted member entry List.mem_cons_self
  · intro other different
    apply (iterating.rest other).imp id
    intro untouched
    refine ⟨untouched.ungranted, ?_, untouched.balanced⟩
    have entered := untouched.entered
    rwa [List.map_cons, List.count_cons_of_ne different.symm] at entered
  · have account := serial.accounts entry.2
    rcases iterating.rest entry.2 with closed | untouched
    · have left := account.balanced closed.balanced
      have served := closed.served
      exact Or.inl ⟨by omega, closed⟩
    · have left := account.balanced untouched.balanced
      have none := List.count_eq_zero.mpr untouched.ungranted
      refine Or.inr ⟨by omega, Nat.zero_le _, by simp [untouched.balanced], ?_⟩
      exact ⟨ledger.grants, by simp, untouched.ungranted⟩

theorem serving_count {taskId req triggers completes : Nat}
    (serving : Serving ledger.toSchedulerLedger taskId req triggers completes) :
    ledger.grants.count taskId = triggers := by
  obtain ⟨before, grants, absent⟩ := serving.last
  simp [grants, List.count_eq_zero.mpr absent]

theorem visit_ends {taskId req triggers : Nat} {entries : List (Nat × Nat)}
    (serial : Serial priorityOf state ledger)
    (visiting : Visiting priorityOf entries ledger.toSchedulerLedger taskId req triggers req) :
    Iterating priorityOf entries ledger.toSchedulerLedger := by
  have closed : Closed ledger.toSchedulerLedger taskId := by
    rcases visiting.current with repeated | serving
    · exact repeated.closed
    · have account := serial.accounts taskId
      have count := serving_count serving
      have required := serving.required
      have triggers := serving.triggers
      have completes := serving.completes
      obtain ⟨served, balanced⟩ := account.closes (by omega) (by omega)
      exact ⟨served, balanced⟩
  refine ⟨visiting.order, ?_, ?_⟩
  · intro granted member entry entered
    exact Nat.le_trans (visiting.earlier granted member) (visiting.later entry entered)
  · intro other
    by_cases same : other = taskId
    · subst other; exact Or.inl closed
    · exact visiting.others other same

section Serving
variable {taskId req triggers completes : Nat} {entries : List (Nat × Nat)}

theorem serving_of_unfinished
    (visiting : Visiting priorityOf entries ledger.toSchedulerLedger taskId req triggers completes)
    (unfinished : completes ≠ req) : Serving ledger.toSchedulerLedger taskId req triggers completes :=
  visiting.current.resolve_left (fun repeated => unfinished repeated.required.symm)

private theorem visiting_granted
    (visiting : Visiting priorityOf entries ledger.toSchedulerLedger taskId req triggers completes)
    (unfinished : completes ≠ req) (more : triggers ≠ req) :
    Visiting priorityOf entries (ledger.grant taskId).toSchedulerLedger taskId req (triggers + 1) completes := by
  have serving := serving_of_unfinished visiting unfinished
  refine ⟨visiting.order, visiting.later, ?_, ?_, Or.inr ⟨serving.required, ?_, ?_, ?_⟩⟩
  · intro granted member
    rcases List.mem_append.mp member with old | new
    · exact visiting.earlier granted old
    · rw [List.mem_singleton.mp new]
  · intro other different
    apply (visiting.others other different).imp
    · intro closed
      refine ⟨?_, ?_⟩
      · simpa only [Ledger.grant, count_snoc_other _ different] using closed.served
      · simpa only [Ledger.grant, Ledger.increment_other _ different] using closed.balanced
    · intro untouched
      refine ⟨?_, untouched.entered, ?_⟩
      · simp only [Ledger.grant, List.mem_append, List.mem_singleton, not_or]
        exact ⟨untouched.ungranted, different⟩
      · simpa only [Ledger.grant, Ledger.increment_other _ different] using untouched.balanced
  · have triggers := serving.triggers
    omega
  · have completes := serving.completes
    simp only [Ledger.grant, Ledger.increment_self]
    omega
  · obtain ⟨before, grants, absent⟩ := serving.last
    refine ⟨before, ?_, absent⟩
    simp only [Ledger.grant, grants, List.append_assoc, List.replicate_succ']

private theorem visiting_acknowledged
    (visiting : Visiting priorityOf entries ledger.toSchedulerLedger taskId req triggers completes)
    (unfinished : completes ≠ req) :
    Visiting priorityOf entries (ledger.acknowledge taskId).toSchedulerLedger taskId req triggers
      (completes + 1) := by
  have serving := serving_of_unfinished visiting unfinished
  refine ⟨visiting.order, visiting.later, visiting.earlier, ?_,
    Or.inr ⟨serving.required, serving.triggers, ?_, serving.last⟩⟩
  · intro other different
    apply (visiting.others other different).imp
    · intro closed
      refine ⟨closed.served, ?_⟩
      simpa only [Ledger.acknowledge, Ledger.increment_other _ different] using closed.balanced
    · intro untouched
      refine ⟨untouched.ungranted, untouched.entered, ?_⟩
      simpa only [Ledger.acknowledge, Ledger.increment_other _ different] using untouched.balanced
  · have completes := serving.completes
    simp only [Ledger.acknowledge, Ledger.increment_self]
    omega

end Serving

private theorem turn_phase (serial : Serial priorityOf state ledger) {later : Ledger}
    (turn : Turn state ledger next later) :
    Phase priorityOf next.iface.perfectFDMap later.toSchedulerLedger next.scheduler := by
  have phase := serial.phase
  cases turn with
  | began gathered =>
    have gathering : Gathering priorityOf state.iface.perfectFDMap ledger.toSchedulerLedger := by
      rcases gathered with same | same
      all_goals
        rw [same] at phase
        exact phase
    refine ⟨gathering.order, ?_, fun taskId => Or.inr (gathering.untouched taskId)⟩
    intro granted member
    exact False.elim ((gathering.untouched granted).ungranted member)
  | woken waiting =>
    rw [waiting] at phase
    obtain ⟨empty, closed⟩ := phase
    refine ⟨⟨?_, ?_⟩, ?_⟩
    · simp [empty]
    · simp [empty]
    · intro taskId
      exact ⟨by simp [Ledger.newFrame], by simp [Ledger.newFrame, empty], (closed taskId).balanced⟩
  | @marked target mid marking =>
    rw [marking] at phase
    have entered := gathering_marked phase target
    have inserted : (state.iface.markTask true (state.es.locateAppRecord target) target mid).perfectFDMap =
        TrickCFSInterface.insertFD (priorityOf target) target state.iface.perfectFDMap := by
      rw [TrickCFSInterface.markTask_perfectFDMap mid state.iface (serial.running target), serial.priorities]
    rw [← inserted] at entered
    exact entered
  | finished iterating =>
    rw [iterating] at phase
    refine ⟨rfl, fun taskId => ?_⟩
    rcases phase.rest taskId with closed | untouched
    · exact closed
    · have entered := untouched.entered
      simp only [List.map_nil, List.count_nil] at entered
      exact ⟨(List.count_eq_zero.mpr untouched.ungranted).trans entered, untouched.balanced⟩
  | entered iterating =>
    rw [iterating] at phase
    exact visit_begins serial phase
  | visited polling =>
    rw [polling] at phase
    exact visit_ends serial phase
  | undelayed polling | polled polling =>
    rw [polling] at phase
    exact phase
  | granted polling unfinished more =>
    rw [polling] at phase
    exact visiting_granted phase unfinished more
  | acknowledged polling unfinished =>
    rw [polling] at phase
    exact visiting_acknowledged phase unfinished
  | checked checking =>
    rw [checking] at phase
    exact phase
  | completed completing =>
    rw [completing] at phase
    exact phase

private theorem contiguous_snoc {taskId : Nat} {grants before : List Nat} {count : Nat}
    (last : grants = before ++ List.replicate count taskId) (absent : taskId ∉ before)
    {other : Nat} (contiguous : Contiguous other grants) : Contiguous other (grants ++ [taskId]) := by
  by_cases same : other = taskId
  · subst other
    refine ⟨before, count + 1, [], ?_, absent, by simp⟩
    simp [last, List.replicate_succ']
  · obtain ⟨first, occurrences, after, split, notFirst, notAfter⟩ := contiguous
    refine ⟨first, occurrences, after ++ [taskId], ?_, notFirst, ?_⟩
    · simp only [split, List.append_assoc]
    · simp [notAfter, same]

/-- Grants go to tasks in priority order, one task after the other. -/
private theorem turn_grants (serial : Serial priorityOf state ledger) {later : Ledger}
    (turn : Turn state ledger next later) :
    later.grants.Pairwise (fun first second => priorityOf first ≤ priorityOf second) ∧
      ∀ taskId, Contiguous taskId later.grants := by
  cases turn with
  | began | finished | entered | visited | undelayed | polled | checked | completed =>
    exact ⟨serial.ordered, serial.contiguous⟩
  | woken =>
    exact ⟨List.Pairwise.nil, fun taskId => ⟨[], 0, [], rfl, by simp, by simp⟩⟩
  | marked => exact ⟨serial.ordered, serial.contiguous⟩
  | acknowledged => exact ⟨serial.ordered, serial.contiguous⟩
  | granted polling unfinished more =>
    have phase := serial.phase
    rw [polling] at phase
    obtain ⟨before, last, absent⟩ := (serving_of_unfinished phase unfinished).last
    refine ⟨List.pairwise_append.mpr ⟨serial.ordered, List.pairwise_singleton .., ?_⟩, ?_⟩
    · intro first member second only
      rw [List.mem_singleton.mp only]
      exact phase.earlier first member
    · intro taskId
      exact contiguous_snoc last absent (serial.contiguous taskId)

private theorem schedulerStep_serial (perfect : config.perfectScheduleMode = true)
    (serial : Serial priorityOf state ledger) (taken : state.schedulerStep config = some next) :
    Serial priorityOf next (ledger.record state .scheduler) := by
  have turn : Turn state ledger next (ledger.record state .scheduler) :=
    schedulerStep_turn perfect serial.running taken
  have stepped : state.step config .scheduler = some next := taken
  obtain ⟨main, es, _⟩ := schedulerEvent_main (Or.inl rfl) stepped
  obtain ⟨ordered, contiguous⟩ := turn_grants serial turn
  refine ⟨?_, ?_, ?_, turn_accounts serial turn, turn_phase serial turn, ordered, contiguous⟩
  · rw [es]; exact serial.running
  · rw [es]; exact serial.priorities
  · rw [main]; exact serial.unscanned

theorem unscanned_step (perfect : config.perfectScheduleMode = true) {event : ThreadEvent}
    (unscanned : Unscanned state.main) (taken : state.step config event = some next) :
    Unscanned next.main := by
  by_cases isMain : event = .main
  · subst isMain
    cases mainStep_cases taken with
    | read => simp only [perfect, ite_true, Unscanned]
    | called | updated | triggered => trivial
    | scanned same | passed same | blocked same | rescanned same | exited same | expired same | resumed same =>
      rw [same] at unscanned
      exact False.elim unscanned
  · rcases step_main isMain taken with same | ⟨_, _, waiting, _⟩
    · rw [same]
      exact unscanned
    · rw [waiting] at unscanned
      exact False.elim unscanned

private theorem phase_kept {event : ThreadEvent} (notScheduler : event ≠ .scheduler)
    (serial : Serial priorityOf state ledger) (taken : state.step config event = some next) :
    Phase priorityOf next.iface.perfectFDMap ledger.toSchedulerLedger next.scheduler := by
  have phase := serial.phase
  obtain ⟨map, same | ⟨processing, taskId, mid, marking⟩⟩ := step_scheduler notScheduler taken
  · rw [map, same]
    exact phase
  · rw [processing] at phase
    rw [map, marking]
    exact phase

private theorem leave_accounts {target : Nat} (serial : Serial priorityOf state ledger)
    (taken : state.leaveStep target = some next) (taskId : Nat) :
    let later := ledger.record state (.leave target)
    Account (next.task taskId) (next.tasks taskId) (later.granted taskId) (later.left taskId)
      (later.acknowledged taskId) (later.grants.count taskId) (later.marks.count taskId) := by
  obtain ⟨granted, loop, record, records, pcs⟩ := leaveStep_some taken
  have released : (state.task target).state = .taskContinue := by
    rcases granted with granted | dead
    · exact granted
    · simp [serial.running] at dead
  have account := serial.accounts taskId
  by_cases same : taskId = target
  · subst target
    have moved := account.left_wait released loop
    rw [record]
    by_cases permitted : state.tasks taskId = .awaitingPermission
    · simpa [Ledger.record, Ledger.leave, permitted] using moved
    · simpa [Ledger.record, permitted] using moved
  · rw [records taskId same, pcs taskId same]
    simp only [Ledger.record]
    split
    · simpa only [Ledger.leave, Ledger.increment_other _ same] using account
    · exact account

theorem step_serial (perfect : config.perfectScheduleMode = true) {event : ThreadEvent}
    (serial : Serial priorityOf state ledger) (taken : state.step config event = some next) :
    Serial priorityOf next (ledger.record state event) := by
  by_cases byScheduler : event = .scheduler
  · subst byScheduler
    exact schedulerStep_serial perfect serial taken
  · have sameLedger : (ledger.record state event).toSchedulerLedger = ledger.toSchedulerLedger := by
      cases event with
      | scheduler => exact False.elim (byScheduler rfl)
      | leave target =>
        simp only [Ledger.record]
        split <;> rfl
      | _ => rfl
    have phase := phase_kept byScheduler serial taken
    obtain ⟨es, _⟩ := step_fixed taken
    refine ⟨by rw [es]; exact serial.running, by rw [es]; exact serial.priorities,
      unscanned_step perfect serial.unscanned taken, ?_, by rw [sameLedger]; exact phase,
      by rw [sameLedger]; exact serial.ordered, by rw [sameLedger]; exact serial.contiguous⟩
    intro taskId
    by_cases leaves : ∃ target, event = .leave target
    · obtain ⟨target, rfl⟩ := leaves
      simp only [step] at taken
      split at taken
      · exact leave_accounts serial taken taskId
      · cases taken
    · simp only [not_exists] at leaves
      have same : ledger.record state event = ledger := by
        cases event with
        | scheduler => exact False.elim (byScheduler rfl)
        | leave target => exact False.elim (leaves target rfl)
        | _ => rfl
      have untimed (ii : Nat) (remainingTime : Int) : state.main ≠ .timedOut ii remainingTime := by
        intro timedOut
        have unscanned := serial.unscanned
        rw [timedOut] at unscanned
        exact unscanned
      rw [same]
      exact account_move perfect untimed byScheduler leaves (serial.accounts taskId) (step_moves taken taskId)

/-- Only the task under visit can have a grant that is not acknowledged. -/
private theorem holder_visited (serial : Serial priorityOf state ledger) {taskId : Nat}
    (holds : ledger.acknowledged taskId < ledger.granted taskId) :
    ∃ entries req triggers completes, state.scheduler = .polling taskId entries req triggers completes ∨
      state.scheduler = .checking taskId entries req triggers completes := by
  have phase := serial.phase
  have unbalanced : ledger.acknowledged taskId ≠ ledger.granted taskId := Nat.ne_of_lt holds
  cases scheduler : state.scheduler with
  | starting | processing | marking =>
    rw [scheduler] at phase
    exact False.elim (unbalanced (phase.untouched taskId).balanced)
  | iterating entries =>
    rw [scheduler] at phase
    rcases phase.rest taskId with closed | untouched
    · exact False.elim (unbalanced closed.balanced)
    · exact False.elim (unbalanced untouched.balanced)
  | polling target entries req triggers completes | checking target entries req triggers completes =>
    rw [scheduler] at phase
    by_cases same : taskId = target
    · subst target
      exact ⟨entries, req, triggers, completes, by simp⟩
    · rcases phase.others taskId same with closed | untouched
      · exact False.elim (unbalanced closed.balanced)
      · exact False.elim (unbalanced untouched.balanced)
  | completing | waiting =>
    rw [scheduler] at phase
    exact False.elim (unbalanced (phase.2 taskId).balanced)

theorem grants_le_marks (serial : Serial priorityOf state ledger) (taskId : Nat) :
    ledger.grants.count taskId ≤ ledger.marks.count taskId := by
  have phase := serial.phase
  have ungranted {entries : List (Nat × Nat)} {other : Nat}
      (untouched : Untouched ledger.toSchedulerLedger entries other) :
      ledger.grants.count other ≤ ledger.marks.count other := by
    rw [List.count_eq_zero.mpr untouched.ungranted]
    exact Nat.zero_le _
  cases scheduler : state.scheduler with
  | starting | processing | marking =>
    rw [scheduler] at phase
    exact ungranted (phase.untouched taskId)
  | iterating entries =>
    rw [scheduler] at phase
    exact (phase.rest taskId).elim (fun closed => closed.served.le) ungranted
  | polling target entries req triggers completes | checking target entries req triggers completes =>
    rw [scheduler] at phase
    by_cases same : taskId = target
    · subst target
      rcases phase.current with repeated | serving
      · exact repeated.closed.served.le
      · rw [serving_count serving, ← serving.required]
        exact serving.triggers
    · exact (phase.others taskId same).elim (fun closed => closed.served.le) ungranted
  | completing | waiting =>
    rw [scheduler] at phase
    exact (phase.2 taskId).served.le

theorem serial_initial (config : Config) (registeredTasks : Nat) (taskTable priority : Nat → Nat) :
    Serial (fun taskId => priority (taskTable taskId))
      (threads config registeredTasks taskTable priority).initial {} where
  running := fun _ => rfl
  priorities := fun _ => rfl
  unscanned := trivial
  accounts := fun _ =>
    ⟨⟨by simp [threads, task], by simp [threads, task], by simp [threads, task]⟩,
      Or.inl ⟨rfl, by simp [threads]⟩, rfl, rfl, rfl⟩
  phase := ⟨⟨List.Pairwise.nil, fun _ member => by cases member⟩, fun _ => ⟨List.not_mem_nil, rfl, rfl⟩⟩
  ordered := List.Pairwise.nil
  contiguous := fun _ => ⟨[], 0, [], rfl, List.not_mem_nil, List.not_mem_nil⟩

theorem serial_reachable (perfect : config.perfectScheduleMode = true)
    (registeredTasks : Nat) (taskTable priority : Nat → Nat)
    (reachable :
      ((threads config registeredTasks taskTable priority).watch frameLedger).Reachable (state, ledger)) :
    Serial (fun taskId => priority (taskTable taskId)) state ledger := by
  refine Machine.invariant _
    (fun watched : Threads × Ledger =>
      Serial (fun taskId => priority (taskTable taskId)) watched.1 watched.2)
    (serial_initial config registeredTasks taskTable priority) ?_ reachable
  intro watched event after serial taken
  obtain ⟨taken, recorded⟩ := (Machine.watch_step _).mp taken
  rw [recorded]
  exact step_serial perfect serial taken

/-- Perfect mode serialises the processing of scheduler messages: one holder of
a permission at a time, and in each frame grants by priority, task by task,
one for each mark by the time that `signalMainAppComplete` completes. -/
theorem perfect_serialisation (config : Config) (perfect : config.perfectScheduleMode = true)
    (registeredTasks : Nat) (taskTable priority : Nat → Nat) {state : Threads} {ledger : Ledger}
    (reachable :
      ((threads config registeredTasks taskTable priority).watch frameLedger).Reachable (state, ledger)) :
    (∀ first second, ledger.acknowledged first < ledger.granted first →
      ledger.acknowledged second < ledger.granted second → first = second) ∧
    (∀ taskId, ledger.acknowledged taskId ≤ ledger.left taskId ∧ ledger.left taskId ≤ ledger.granted taskId) ∧
    ledger.grants.Pairwise (fun first second =>
      priority (taskTable first) ≤ priority (taskTable second)) ∧
    (∀ taskId, Contiguous taskId ledger.grants) ∧
    (∀ taskId, ledger.grants.count taskId ≤ ledger.marks.count taskId) ∧
    (state.scheduler = .completing →
      ∀ taskId, ledger.grants.count taskId = ledger.marks.count taskId) := by
  have serial := serial_reachable perfect registeredTasks taskTable priority reachable
  refine ⟨?_, ?_, serial.ordered, serial.contiguous, grants_le_marks serial, ?_⟩
  · intro first second firstHolds secondHolds
    obtain ⟨_, _, _, _, one⟩ := holder_visited serial firstHolds
    obtain ⟨_, _, _, _, two⟩ := holder_visited serial secondHolds
    rcases one with one | one <;> rcases two with two | two
    all_goals
      rw [one] at two
      cases two
    · rfl
    · rfl
  · intro taskId
    have account := serial.accounts taskId
    have left := account.left
    exact ⟨account.acknowledged_le, by omega⟩
  · intro completing taskId
    have phase := serial.phase
    rw [completing] at phase
    exact (phase.2 taskId).served

def twoTasks : Machine (Threads × Ledger) ThreadEvent :=
  (threads { oneTaskConfig with perfectScheduleMode := true, maxTasks := 2 } 2 id
    (fun appId => 20 - 10 * appId)).watch frameLedger

/-- A frame that marks task 0 before task 1. Both have asked for permission
before the scheduler begins its visits. -/
def bothMarked : List ThreadEvent :=
  let site := StackInfo.backtrace [0, 1, 2, 3]
  [.createQueue 1 1, .scheduler, .scheduler, .scheduler, .main, .startRun, .main, .main, .main, .main,
    .scheduler, .send 0 7, .scheduler, .send 1 8, .scheduler, .scheduler,
    .receive 0 0, .complete 0 site, .acknowledge 0 7 site,
    .receive 1 1, .complete 1 site, .acknowledge 1 8 site,
    .scheduler, .scheduler, .leave 1, .scheduler, .receive 1 1, .complete 1 site,
    .scheduler, .scheduler, .scheduler, .leave 1,
    .scheduler, .scheduler, .leave 0, .scheduler, .receive 0 0, .complete 0 site,
    .scheduler, .scheduler, .scheduler, .scheduler]

private theorem bothMarked_runs : (twoTasks.run bothMarked).isSome = true := by decide

theorem perfect_serialisation_two_tasks :
    let final := (twoTasks.run bothMarked).get bothMarked_runs
    final.2.marks = [0, 1] ∧ final.2.grants = [1, 0] ∧
      ∀ taskId, final.2.grants.count taskId = final.2.marks.count taskId := by
  refine ⟨by decide, by decide, ?_⟩
  have serial := perfect_serialisation
    { oneTaskConfig with perfectScheduleMode := true, maxTasks := 2 } rfl 2 id (fun appId => 20 - 10 * appId)
    ⟨bothMarked, (Option.some_get bothMarked_runs).symm⟩
  exact serial.2.2.2.2.2 (by decide)

end TrickCFS.Proofs.PerfectSerialisation
