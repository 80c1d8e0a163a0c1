import TrickCFS.TaskRuns
import TrickCFS.Proofs.TaskRecords
import TrickCFS.Proofs.Bookkeeping

/-! The end-of-wait timeout clears `triggeredMIDs` but not `acknowledgedMIDs`.
An acknowledgement that survives the clear can retire a trigger marked after it,
whose message the task has not received. -/

namespace TrickCFS.Proofs.StaleAcknowledgements
open TaskIPC Bookkeeping

/-- What has happened on a task since `triggeredMIDs` was last cleared, with the
acknowledgements that the clear left behind. -/
structure SinceClear where
  erased : List Nat := []
  acknowledged : List Nat := []
  stale : List Nat := []

def sinceClear : Machine.Monitor TaskIPC TaskEvent SinceClear where
  start := {}
  record := fun history task event =>
    match event with
    | .acknowledged mid _ =>
      if mid ∈ task.triggeredMIDs then { history with acknowledged := mid :: history.acknowledged }
      else history
    | .completed _ =>
      match task.retiredMID with
      | some mid => { history with erased := mid :: history.erased }
      | none => history
    | .cleared => { stale := task.acknowledgedMIDs }
    | .triggered _ | .written _ => history

abbrev watched (perfect : Bool) (taskId : Nat) : Machine (TaskIPC × SinceClear) TaskEvent :=
  (taskRuns perfect taskId).watch sinceClear

/-- No MID has been erased more often than it has been acknowledged. -/
def Matched (current : TaskIPC × SinceClear) : Prop :=
  ∀ mid, current.2.erased.count mid ≤ current.2.acknowledged.count mid

/-- A completion that retires a trigger uses an acknowledgement made since the
last clear. -/
def UsesFresh (current : TaskIPC × SinceClear) : TaskEvent → Prop
  | .completed _ => ∀ mid, current.1.retires mid →
      current.2.stale.length < current.1.acknowledgedMIDs.length
  | _ => True

/-- Acknowledgements are conserved, and the stale ones lie below the others. -/
structure Layered (current : TaskIPC × SinceClear) : Prop where
  conserved : ∀ mid, current.2.stale.count mid + current.2.acknowledged.count mid =
    current.2.erased.count mid + current.1.acknowledgedMIDs.count mid
  below : current.2.stale <+: current.1.acknowledgedMIDs

private theorem split_last {task : TaskIPC} {mid : Nat} (retired : task.retires mid) :
    task.acknowledgedMIDs.dropLast ++ [mid] = task.acknowledgedMIDs :=
  List.dropLast_append_getLast? mid (Option.mem_def.mpr retired.2.1)

private theorem below_last {stale : List Nat} {task : TaskIPC}
    (below : stale <+: task.acknowledgedMIDs) (fresh : stale.length < task.acknowledgedMIDs.length) :
    stale <+: task.acknowledgedMIDs.dropLast := by
  apply List.prefix_of_prefix_length_le below (List.dropLast_prefix _)
  rw [List.length_dropLast]
  omega

/-- A retiring completion keeps every MID matched exactly when the entry it
pops lies above the stale ones. -/
private theorem retire_matched_iff {task : TaskIPC} {history : SinceClear} {mid : Nat}
    (layered : Layered (task, history)) (matched : Matched (task, history))
    (retired : task.retires mid) :
    (∀ other, (mid :: history.erased).count other ≤ history.acknowledged.count other) ↔
      history.stale.length < task.acknowledgedMIDs.length := by
  have conserved : history.stale.count mid + history.acknowledged.count mid =
      history.erased.count mid + task.acknowledgedMIDs.count mid := layered.conserved mid
  constructor
  · intro still
    apply Nat.lt_of_le_of_ne layered.below.length_le
    intro same
    have equal : history.stale = task.acknowledgedMIDs := layered.below.eq_of_length same
    have bound := still mid
    simp only [List.count_cons_self] at bound
    simp only [equal] at conserved
    omega
  · intro fresh other
    have split := congrArg (List.count mid) (split_last retired)
    have kept : history.stale.count mid ≤ task.acknowledgedMIDs.dropLast.count mid :=
      (below_last layered.below fresh).sublist.count_le mid
    have bound : history.erased.count other ≤ history.acknowledged.count other := matched other
    simp only [List.count_append, List.count_singleton_self] at split
    by_cases same : mid = other
    · subst other
      simp only [List.count_cons_self]
      omega
    · simpa [List.count_cons_of_ne same] using bound

private theorem record_completed {history : SinceClear} {task : TaskIPC} {stack : StackInfo} {mid : Nat}
    (retired : task.retires mid) :
    sinceClear.record history task (.completed stack) =
      { history with erased := mid :: history.erased } := by
  simp only [sinceClear, retiredMID_eq_some.mpr retired]

private theorem record_unretired {history : SinceClear} {task : TaskIPC} {stack : StackInfo}
    (unretired : ∀ mid, ¬ task.retires mid) :
    sinceClear.record history task (.completed stack) = history := by
  have none : task.retiredMID = none := by
    cases found : task.retiredMID with
    | none => rfl
    | some mid => exact False.elim (unretired mid (retiredMID_eq_some.mp found))
  simp only [sinceClear, none]

private theorem step_matched_iff {perfect : Bool} {task : TaskIPC} {history : SinceClear}
    {event : TaskEvent} (layered : Layered (task, history)) (matched : Matched (task, history)) :
    Matched (task.apply perfect event, sinceClear.record history task event) ↔
      UsesFresh (task, history) event := by
  cases event with
  | triggered | written => exact iff_of_true matched trivial
  | cleared => exact iff_of_true (fun _ => Nat.le_refl _) trivial
  | acknowledged mid stack =>
    refine iff_of_true ?_ trivial
    intro other
    have bound := matched other
    simp only [sinceClear]
    split
    · exact Nat.le_trans bound List.count_le_count_cons
    · exact bound
  | completed stack =>
    by_cases retired : ∃ mid, task.retires mid
    · obtain ⟨mid, retired⟩ := retired
      have same := retire_matched_iff layered matched retired
      simp only [Matched, record_completed retired, UsesFresh]
      exact same.trans ⟨fun fresh _ _ => fresh, fun fresh => fresh mid retired⟩
    · have unretired := not_exists.mp retired
      simp only [Matched, record_unretired unretired, UsesFresh]
      exact iff_of_true matched (fun mid now => False.elim (unretired mid now))

private theorem step_layered {perfect : Bool} {task : TaskIPC} {history : SinceClear}
    {event : TaskEvent} (layered : Layered (task, history)) (fresh : UsesFresh (task, history) event) :
    Layered (task.apply perfect event, sinceClear.record history task event) := by
  cases event with
  | triggered | written => exact ⟨layered.conserved, layered.below⟩
  | cleared => exact ⟨fun _ => by simp [TaskIPC.apply, sinceClear], List.prefix_rfl⟩
  | acknowledged mid stack =>
    by_cases found : mid ∈ task.triggeredMIDs
    · simp only [TaskIPC.apply, acknowledge_found perfect mid stack found, sinceClear, found, ite_true]
      refine ⟨?_, layered.below.trans (List.prefix_append _ _)⟩
      intro other
      have conserved := layered.conserved other
      simp only [List.count_cons, List.count_append, List.count_nil] at conserved ⊢
      omega
    · simp only [TaskIPC.apply, acknowledge_missing perfect mid stack found, sinceClear, found, ite_false]
      exact ⟨layered.conserved, layered.below⟩
  | completed stack =>
    by_cases retired : ∃ mid, task.retires mid
    · obtain ⟨mid, retired⟩ := retired
      have popped := (complete_retires stack retired).2
      have above := below_last layered.below (fresh mid retired)
      simp only [TaskIPC.apply, record_completed retired]
      refine ⟨?_, popped ▸ above⟩
      intro other
      have conserved := layered.conserved other
      have split := congrArg (List.count other) (split_last retired)
      simp only [popped, List.count_cons, List.count_append, List.count_nil] at conserved split ⊢
      omega
    · have unretired := not_exists.mp retired
      have kept := (complete_keeps stack unretired).2
      simp only [TaskIPC.apply, record_unretired unretired]
      exact ⟨by simpa only [kept] using layered.conserved, by simpa only [kept] using layered.below⟩

/-- In every state of a run the erased entries are matched by acknowledgements
of the same period, exactly when no completion of the run retires a trigger
with an acknowledgement that a clear left behind. -/
theorem erasures_matched_iff (perfect : Bool) (taskId : Nat) (events : List TaskEvent) :
    (watched perfect taskId).States Matched (watched perfect taskId).initial events ↔
      (watched perfect taskId).Steps UsesFresh (watched perfect taskId).initial events := by
  apply Machine.states_iff_steps _ Layered
  · intro current event next layered matched taken now
    obtain ⟨moved, recorded⟩ := Machine.watch_step _ |>.mp taken
    cases next
    cases moved
    cases recorded
    exact step_layered layered ((step_matched_iff layered matched).mp now)
  · intro current event next layered matched taken
    obtain ⟨moved, recorded⟩ := Machine.watch_step _ |>.mp taken
    cases next
    cases moved
    cases recorded
    exact step_matched_iff layered matched
  · exact ⟨fun _ => rfl, List.prefix_rfl⟩
  · exact fun _ => Nat.le_refl _

/-- A clear between an acknowledgement and its completion lets the next receive
retire a trigger that was marked after the clear and never acknowledged. -/
theorem clear_leaves_stale_acknowledgement :
    ¬ ∀ events : List TaskEvent, (∀ event ∈ events, event.isCall = true ∨ event = .cleared) →
      (watched false 0).States Matched (watched false 0).initial events := by
  intro always
  have states := always [.triggered 7, .acknowledged 7 receiveSite, .cleared, .triggered 7,
    .completed pollSite] (by decide)
  have last := Machine.States.last _ states rfl 7
  revert last
  decide

end TrickCFS.Proofs.StaleAcknowledgements
