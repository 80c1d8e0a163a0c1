import TrickCFS.Library.StableOrder
import TrickCFS.Proofs.PerfectSerialisation

/-! The order of a frame in perfect mode. The multimap is the stable sort of the
marks of the frame, and `signalMainAppComplete` serves it from the front, so
the grants do not depend on how the threads are interleaved. -/

namespace TrickCFS.Proofs.PerfectOrder
open Threads PerfectSerialisation StableOrder

/-- The task may be served before the other one. -/
def ByPriority (priorityOf : Nat → Nat) (first second : Nat) : Prop := priorityOf first ≤ priorityOf second

instance (priorityOf : Nat → Nat) : DecidableRel (ByPriority priorityOf) :=
  fun first second => Nat.decLe (priorityOf first) (priorityOf second)

instance (priorityOf : Nat → Nat) : IsTrans Nat (ByPriority priorityOf) := ⟨fun _ _ _ => Nat.le_trans⟩

instance (priorityOf : Nat → Nat) : Std.Total (ByPriority priorityOf) := ⟨fun _ _ => Nat.le_total ..⟩

variable {config : Config} {priorityOf : Nat → Nat} {state next : Threads} {ledger : Ledger}

/-- The marks of a frame by priority, those of equal priority as they came. -/
def sorted (priorityOf : Nat → Nat) (marks : List Nat) : List Nat := marks.insertionSort (ByPriority priorityOf)

theorem count_sorted (priorityOf : Nat → Nat) (marks : List Nat) (taskId : Nat) :
    (sorted priorityOf marks).count taskId = marks.count taskId :=
  (List.perm_insertionSort (ByPriority priorityOf) marks).count_eq taskId

def entriesFor (priorityOf : Nat → Nat) (tasks : List Nat) : List (Nat × Nat) :=
  tasks.map (fun taskId => (priorityOf taskId, taskId))

theorem entriesFor_tasks (tasks : List Nat) : (entriesFor priorityOf tasks).map Prod.snd = tasks := by
  simp [entriesFor, Function.comp_def]

theorem insertFD_entriesFor (taskId : Nat) (tasks : List Nat) :
    TrickCFSInterface.insertFD (priorityOf taskId) taskId (entriesFor priorityOf tasks) =
      entriesFor priorityOf (insertBehind (ByPriority priorityOf) taskId tasks) := by
  induction tasks with
  | nil => rfl
  | cons first tasks ih =>
    simp only [entriesFor, List.map_cons, TrickCFSInterface.insertFD, insertBehind]
    by_cases before : priorityOf first ≤ priorityOf taskId
    · have behind : ByPriority priorityOf first taskId := before
      simp only [before, behind, ite_true, List.map_cons]
      exact congrArg _ ih
    · have ahead : ¬ ByPriority priorityOf first taskId := before
      simp only [before, ahead, ite_false, List.map_cons]

/-- A visit grants its task as many permissions as it counts, unless the task has
been served at an earlier entry. -/
structure Visit (priorityOf : Nat → Nat) (entries : List (Nat × Nat)) (ledger : SchedulerLedger)
    (taskId numTriggers : Nat) (done : List Nat) : Prop where
  split : sorted priorityOf ledger.marks = done ++ taskId :: entries.map Prod.snd
  grants : taskId ∈ done ∧ ledger.grants = served ledger.marks.count done ∨
    taskId ∉ done ∧ ledger.grants = served ledger.marks.count done ++ List.replicate numTriggers taskId

/-- The entries before the current one have been served, and no others. -/
def Order (priorityOf : Nat → Nat) (perfectFDMap : List (Nat × Nat)) (ledger : SchedulerLedger) :
    SchedulerPc → Prop
  | .starting | .processing | .marking _ _ =>
    perfectFDMap = entriesFor priorityOf (sorted priorityOf ledger.marks) ∧ ledger.grants = []
  | .iterating entries =>
    ∃ done, sorted priorityOf ledger.marks = done ++ entries.map Prod.snd ∧
      ledger.grants = served ledger.marks.count done
  | .polling taskId entries _ numTriggers _ | .checking taskId entries _ numTriggers _ =>
    ∃ done, Visit priorityOf entries ledger taskId numTriggers done
  | .completing | .waiting => ledger.grants = served ledger.marks.count (sorted priorityOf ledger.marks)

private theorem order_began (gathered : state.scheduler = .starting ∨ state.scheduler = .processing)
    (order : Order priorityOf state.iface.perfectFDMap ledger.toSchedulerLedger state.scheduler) :
    Order priorityOf state.iface.perfectFDMap ledger.toSchedulerLedger (.iterating state.iface.perfectFDMap) := by
  have collected : state.iface.perfectFDMap = entriesFor priorityOf (sorted priorityOf ledger.marks) ∧
      ledger.grants = [] := by
    rcases gathered with same | same <;>
      rw [same] at order <;> exact order
  refine ⟨[], ?_, collected.2⟩
  rw [collected.1, entriesFor_tasks, List.nil_append]

private theorem order_marked (priority : (state.es.locateAppRecord taskId).priority = priorityOf taskId)
    (running : (state.es.locateAppRecord taskId).running = true) {mid : Nat}
    (order : Order priorityOf state.iface.perfectFDMap ledger.toSchedulerLedger (.marking taskId mid)) :
    Order priorityOf (state.iface.markTask true (state.es.locateAppRecord taskId) taskId mid).perfectFDMap
      (ledger.mark taskId).toSchedulerLedger .processing := by
  refine ⟨?_, order.2⟩
  rw [TrickCFSInterface.markTask_perfectFDMap mid state.iface running, priority, order.1, insertFD_entriesFor]
  exact congrArg _ (insertionSort_snoc ledger.marks taskId).symm

private theorem order_entered {entry : Nat × Nat} {entries : List (Nat × Nat)} (req : Nat)
    (order : Order priorityOf state.iface.perfectFDMap ledger.toSchedulerLedger (.iterating (entry :: entries))) :
    Order priorityOf state.iface.perfectFDMap ledger.toSchedulerLedger (.polling entry.2 entries req 0 0) := by
  obtain ⟨done, split, grants⟩ := order
  refine ⟨done, split, ?_⟩
  by_cases again : entry.2 ∈ done
  · exact Or.inl ⟨again, grants⟩
  · exact Or.inr ⟨again, by simpa using grants⟩

section Visits
variable {taskId req triggers completes : Nat} {entries : List (Nat × Nat)} {done : List Nat}

private theorem Visit.count_grants (visit : Visit priorityOf entries ledger.toSchedulerLedger taskId triggers done) :
    taskId ∈ done ∧ ledger.grants.count taskId = ledger.marks.count taskId ∨
      taskId ∉ done ∧ ledger.grants.count taskId = triggers := by
  rcases visit.grants with ⟨again, grants⟩ | ⟨first, grants⟩
  · exact Or.inl ⟨again, grants ▸ count_served again⟩
  · have unserved : taskId ∉ served ledger.marks.count done := fun before => first (mem_served before)
    refine Or.inr ⟨first, ?_⟩
    rw [grants, List.count_append, List.count_eq_zero.mpr unserved, List.count_replicate_self, Nat.zero_add]

private theorem visit_complete (serial : Serial priorityOf state ledger)
    (visiting : Visiting priorityOf entries ledger.toSchedulerLedger taskId req triggers req)
    (visit : Visit priorityOf entries ledger.toSchedulerLedger taskId triggers done) :
    ledger.grants.count taskId = ledger.marks.count taskId := by
  rcases (visit_ends serial visiting).rest taskId with closed | untouched
  · exact closed.served
  · -- its entry under visit is one more than the entries that are left
    have entered := untouched.entered
    have marked := count_sorted priorityOf ledger.marks taskId
    rw [visit.split, List.count_append, List.count_cons_self] at marked
    omega

private theorem order_visited (serial : Serial priorityOf state ledger)
    (visiting : Visiting priorityOf entries ledger.toSchedulerLedger taskId req triggers req)
    (visit : Visit priorityOf entries ledger.toSchedulerLedger taskId triggers done) :
    Order priorityOf state.iface.perfectFDMap ledger.toSchedulerLedger (.iterating entries) := by
  refine ⟨done ++ [taskId], by simpa using visit.split, ?_⟩
  have complete := visit_complete serial visiting visit
  rcases visit.grants with ⟨again, grants⟩ | ⟨first, grants⟩
  · rw [served_again again]
    exact grants
  · rw [served_snoc first, ← complete]
    rcases visit.count_grants with ⟨again, _⟩ | ⟨_, count⟩
    · exact absurd again first
    · rw [count]
      exact grants

private theorem order_granted (visiting : Visiting priorityOf entries ledger.toSchedulerLedger taskId req triggers completes)
    (unfinished : completes ≠ req) (more : triggers ≠ req)
    (visit : Visit priorityOf entries ledger.toSchedulerLedger taskId triggers done) :
    Visit priorityOf entries (ledger.grant taskId).toSchedulerLedger taskId (triggers + 1) done := by
  have serving := serving_of_unfinished visiting unfinished
  have required := serving.required
  have count := serving_count serving
  refine ⟨visit.split, ?_⟩
  rcases visit.grants with ⟨again, grants⟩ | ⟨first, grants⟩
  · rcases visit.count_grants with ⟨_, full⟩ | ⟨first, _⟩
    · omega
    · exact absurd again first
  · refine Or.inr ⟨first, ?_⟩
    simp only [Ledger.grant, grants, List.append_assoc, List.replicate_succ']

end Visits

theorem turn_order (serial : Serial priorityOf state ledger)
    (order : Order priorityOf state.iface.perfectFDMap ledger.toSchedulerLedger state.scheduler) {later : Ledger}
    (turn : Turn state ledger next later) :
    Order priorityOf next.iface.perfectFDMap later.toSchedulerLedger next.scheduler := by
  have phase := serial.phase
  cases turn with
  | began gathered =>
    have began := order_began gathered order
    exact began
  | woken waiting =>
    rw [waiting] at phase
    exact ⟨phase.1, rfl⟩
  | @marked taskId _ marking =>
    rw [marking] at order
    exact order_marked (serial.priorities taskId) (serial.running taskId) order
  | finished iterating =>
    rw [iterating] at order
    obtain ⟨done, split, grants⟩ := order
    rw [List.map_nil, List.append_nil] at split
    rw [← split] at grants
    exact grants
  | entered iterating =>
    rw [iterating] at order
    exact order_entered _ order
  | visited polling =>
    rw [polling] at order phase
    obtain ⟨done, visit⟩ := order
    have visited := order_visited serial phase visit
    exact visited
  | granted polling unfinished more =>
    rw [polling] at order phase
    obtain ⟨done, visit⟩ := order
    exact ⟨done, order_granted phase unfinished more visit⟩
  | acknowledged polling =>
    rw [polling] at order
    obtain ⟨done, visit⟩ := order
    exact ⟨done, visit.split, visit.grants⟩
  | undelayed polling | polled polling =>
    rw [polling] at order
    exact order
  | checked checking =>
    rw [checking] at order
    exact order
  | completed completing =>
    rw [completing] at order
    exact order

theorem record_other {event : ThreadEvent} (other : event ≠ .scheduler) :
    (ledger.record state event).toSchedulerLedger = ledger.toSchedulerLedger := by
  cases event with
  | scheduler => exact absurd rfl other
  | leave taskId =>
    simp only [Ledger.record]
    split <;> rfl
  | _ => rfl

/-- Only the scheduler moves in the order, and a message that is sent changes
neither the marks nor the multimap before it is marked. -/
theorem step_order (perfect : config.perfectScheduleMode = true) (serial : Serial priorityOf state ledger)
    (order : Order priorityOf state.iface.perfectFDMap ledger.toSchedulerLedger state.scheduler)
    {event : ThreadEvent} (taken : state.step config event = some next) :
    Order priorityOf next.iface.perfectFDMap (ledger.record state event).toSchedulerLedger next.scheduler := by
  by_cases byScheduler : event = .scheduler
  · subst byScheduler
    exact turn_order serial order (schedulerStep_turn perfect serial.running taken)
  · rw [record_other byScheduler]
    obtain ⟨map, same | ⟨processing, taskId, mid, marking⟩⟩ := step_scheduler byScheduler taken
    · rw [map, same]
      exact order
    · rw [processing] at order
      rw [map, marking]
      exact order

theorem order_reachable (perfect : config.perfectScheduleMode = true) (registeredTasks : Nat)
    (taskTable priority : Nat → Nat)
    (reachable : ((threads config registeredTasks taskTable priority).watch frameLedger).Reachable (state, ledger)) :
    Order (fun taskId => priority (taskTable taskId)) state.iface.perfectFDMap ledger.toSchedulerLedger
      state.scheduler := by
  refine (Machine.invariant _ (fun watched : Threads × Ledger =>
    Serial (fun taskId => priority (taskTable taskId)) watched.1 watched.2 ∧
      Order (fun taskId => priority (taskTable taskId)) watched.1.iface.perfectFDMap
        watched.2.toSchedulerLedger watched.1.scheduler) ?_ ?_ reachable).2
  · exact ⟨serial_initial config registeredTasks taskTable priority, rfl, rfl⟩
  · intro watched event after ⟨serial, order⟩ taken
    obtain ⟨taken, recorded⟩ := (Machine.watch_step _).mp taken
    rw [recorded]
    exact ⟨step_serial perfect serial taken, step_order perfect serial order taken⟩

theorem order_begins {scheduler : SchedulerPc} {perfectFDMap : List (Nat × Nat)}
    (order : Order priorityOf perfectFDMap ledger.toSchedulerLedger scheduler)
    (bounded : ∀ taskId, ledger.grants.count taskId ≤ ledger.marks.count taskId) :
    ledger.grants <+: served ledger.marks.count (sorted priorityOf ledger.marks) := by
  cases scheduler with
  | starting | processing | marking =>
    rw [order.2]
    exact List.nil_prefix
  | iterating entries =>
    obtain ⟨done, split, grants⟩ := order
    rw [grants, split]
    exact served_prefix
  | polling taskId entries req triggers completes | checking taskId entries req triggers completes =>
    obtain ⟨done, visit⟩ := order
    rw [visit.split]
    rcases visit.grants with ⟨_, grants⟩ | ⟨first, grants⟩
    · rw [grants]
      exact served_prefix
    · have few : triggers ≤ ledger.marks.count taskId := by
        rcases visit.count_grants with ⟨again, _⟩ | ⟨_, count⟩
        · exact absurd again first
        · exact count ▸ bounded taskId
      have whole : served ledger.marks.count (done ++ [taskId]) <+:
          served ledger.marks.count (done ++ [taskId] ++ entries.map Prod.snd) := served_prefix
      rw [served_snoc first, List.append_assoc, List.singleton_append] at whole
      rw [grants]
      refine List.IsPrefix.trans ?_ whole
      exact (List.prefix_append_right_inj _).mpr (List.prefix_replicate_iff.mpr ⟨by simpa using few, by simp⟩)
  | completing | waiting => exact order ▸ List.prefix_rfl

theorem grants_of_marks (serial : Serial priorityOf state ledger)
    (order : Order priorityOf state.iface.perfectFDMap ledger.toSchedulerLedger state.scheduler) :
    ledger.grants <+: grouped (sorted priorityOf ledger.marks) ∧
      (state.scheduler = .completing ∨ state.scheduler = .waiting →
        ledger.grants = grouped (sorted priorityOf ledger.marks)) := by
  have whole : grouped (sorted priorityOf ledger.marks) =
      served ledger.marks.count (sorted priorityOf ledger.marks) := by
    rw [grouped, funext (count_sorted _ ledger.marks)]
  rw [whole]
  refine ⟨order_begins order (grants_le_marks serial), ?_⟩
  intro ended
  rcases ended with completing | waiting
  · rw [completing] at order
    exact order
  · rw [waiting] at order
    exact order

/-- In perfect mode the marks of a frame alone determine the order of its grants,
however the threads are interleaved: by priority, of equal priorities the task
that was marked first, and each task all its messages in one go. -/
theorem perfect_frame_determined (config : Config) (perfect : config.perfectScheduleMode = true)
    (registeredTasks : Nat) (taskTable priority : Nat → Nat) {state : Threads} {ledger : Ledger}
    (reachable : ((threads config registeredTasks taskTable priority).watch frameLedger).Reachable (state, ledger)) :
    let order := grouped (sorted (fun taskId => priority (taskTable taskId)) ledger.marks)
    ledger.grants <+: order ∧
      (state.scheduler = .completing ∨ state.scheduler = .waiting → ledger.grants = order) :=
  grants_of_marks (serial_reachable perfect registeredTasks taskTable priority reachable)
    (order_reachable perfect registeredTasks taskTable priority reachable)

/-- A frame that marks task 0 twice and task 1, of smaller priority number, in between. -/
def markedAround : List ThreadEvent :=
  let site := StackInfo.backtrace [0, 1, 2, 3]
  [.createQueue 1 1, .scheduler, .scheduler, .scheduler, .main, .startRun, .main, .main, .main, .main,
    .scheduler, .send 0 7, .scheduler, .send 1 8, .scheduler, .send 0 9, .scheduler, .scheduler,
    .receive 0 0, .complete 0 site, .acknowledge 0 7 site,
    .receive 1 1, .complete 1 site, .acknowledge 1 8 site,
    .scheduler, .scheduler, .leave 1, .scheduler, .receive 1 1, .complete 1 site,
    .scheduler, .scheduler, .scheduler, .leave 1,
    .scheduler, .scheduler, .leave 0, .scheduler, .receive 0 0, .complete 0 site, .scheduler, .scheduler, .leave 0,
    .acknowledge 0 9 site, .scheduler, .leave 0, .scheduler, .receive 0 0, .complete 0 site,
    .scheduler, .scheduler, .scheduler, .scheduler, .scheduler, .scheduler]

private theorem markedAround_runs : (twoTasks.run markedAround).isSome = true := by decide

theorem perfect_frame_determined_marked_around :
    let final := (twoTasks.run markedAround).get markedAround_runs
    final.2.marks = [0, 1, 0] ∧ final.2.grants = [1, 0, 0] := by
  have marks : ((twoTasks.run markedAround).get markedAround_runs).2.marks = [0, 1, 0] := by decide
  obtain ⟨_, determined⟩ := perfect_frame_determined
    { oneTaskConfig with perfectScheduleMode := true, maxTasks := 2 } rfl 2 id (fun appId => 20 - 10 * appId)
    ⟨markedAround, (Option.some_get markedAround_runs).symm⟩
  have grants := determined (Or.inl (by decide))
  exact ⟨marks, grants.trans (congrArg (fun marks => grouped (sorted (fun taskId => 20 - 10 * taskId) marks)) marks)⟩

end TrickCFS.Proofs.PerfectOrder
