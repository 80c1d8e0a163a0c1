import TrickCFS.PipeThreads
import TrickCFS.Proofs.FrameBarrier
import TrickCFS.Proofs.PerfectSerialisation
import TrickCFS.Proofs.TriggerOwnership

/-! The account of the messages between the scheduler and the tasks. While the
pipes are used in order, the triggers of a task are the messages that it has not
read yet and the one that it has acknowledged and not completed. -/

namespace TrickCFS

theorem StackInfo.foundEntry_of_site {site currStack stack : StackInfo} (curr : site.foundEntry currStack = true)
    (entry : site.foundEntry stack = true) : currStack.foundEntry stack = true := by
  simp only [foundEntry, Bool.and_eq_true, beq_iff_eq] at curr entry ⊢
  exact ⟨curr.1.symm.trans entry.1, curr.2.symm.trans entry.2⟩

/-- A task that receives from one call site handles one message at a time. -/
structure Handling (site : StackInfo) (task : TaskIPC) (pc : TaskPc) : Prop where
  sited : ∀ stack ∈ task.stackList, site.foundEntry stack = true
  held : task.acknowledgedMIDs = [] ∧ task.stackList = [] ∨
    ∃ mid stack, task.acknowledgedMIDs = [mid] ∧ task.stackList = [stack] ∧ mid ∈ task.triggeredMIDs ∧
      pc ≠ .receiving ∧ pc ≠ .awaitingAcknowledgement

namespace Handling
variable {site : StackInfo} {task record : TaskIPC} {pc after : TaskPc}

theorem none_held (handling : Handling site task pc)
    (between : pc = .receiving ∨ pc = .awaitingAcknowledgement) :
    task.acknowledgedMIDs = [] ∧ task.stackList = [] := by
  rcases handling.held with none | ⟨_, _, _, _, _, notReceiving, notAwaiting⟩
  · exact none
  · rcases between with same | same
    · exact absurd same notReceiving
    · exact absurd same notAwaiting

theorem keep (handling : Handling site task pc) (triggered : task.triggeredMIDs ⊆ record.triggeredMIDs)
    (stack : record.stackList = task.stackList) (acknowledged : record.acknowledgedMIDs = task.acknowledgedMIDs)
    (place : after = .receiving ∨ after = .awaitingAcknowledgement → pc = .receiving ∨ pc = .awaitingAcknowledgement) :
    Handling site record after := by
  refine ⟨by rw [stack]; exact handling.sited, ?_⟩
  rw [stack, acknowledged]
  apply handling.held.imp id
  intro ⟨mid, entry, one, only, member, notReceiving, notAwaiting⟩
  refine ⟨mid, entry, one, only, triggered member, ?_, ?_⟩
  · intro receiving
    rcases place (Or.inl receiving) with same | same
    · exact notReceiving same
    · exact notAwaiting same
  · intro awaiting
    rcases place (Or.inr awaiting) with same | same
    · exact notReceiving same
    · exact notAwaiting same

theorem completed (handling : Handling site task pc) {currStack : StackInfo}
    (sited : site.foundEntry currStack = true) :
    (task.markPipeAsComplete currStack).acknowledgedMIDs = [] ∧
      (task.markPipeAsComplete currStack).stackList = [] ∧
      (task.markPipeAsComplete currStack).triggeredMIDs = task.triggeredMIDs.diff task.acknowledgedMIDs ∧
      task.completesStack currStack = !task.stackList.isEmpty := by
  rcases handling.held with ⟨none, empty⟩ | ⟨mid, stack, one, only, member, _⟩
  · have unretired (mid : Nat) : ¬ task.retires mid := by simp [TaskIPC.retires, none]
    obtain ⟨triggered, acknowledged⟩ := TaskIPC.complete_keeps currStack unretired
    refine ⟨acknowledged.trans none, by simp [empty], by simp [triggered, none], ?_⟩
    simp [TaskIPC.completesStack, empty]
  · have retired : task.retires mid := ⟨by simp [only], by simp [one], member⟩
    obtain ⟨triggered, acknowledged⟩ := TaskIPC.complete_retires currStack retired
    have found : currStack.foundEntry stack = true :=
      StackInfo.foundEntry_of_site sited (handling.sited stack (by simp [only]))
    refine ⟨by simp [acknowledged, one], by simp [only, found], ?_, ?_⟩
    · simp [triggered, one, List.diff]
    · simp [TaskIPC.completesStack, only, found]

end Handling

namespace Threads
variable {config : Config} {state next : Threads} {event : ThreadEvent}

def AtSite (site : StackInfo) (taskId : Nat) : ThreadEvent → Prop
  | .complete target stack | .acknowledge target _ stack => target = taskId → site.foundEntry stack = true
  | _ => True

def Unexpired (config : Config) (state : Threads) : Prop :=
  ∀ ii remainingTime, state.main = .timedOut ii remainingTime → ¬ remainingAfter config remainingTime ≤ 0

theorem handling_move {site : StackInfo} (running : ∀ taskId, (state.es.locateAppRecord taskId).running = true)
    (unexpired : Unexpired config state) {taskId : Nat} {record : TaskIPC} {pc : TaskPc}
    (handling : Handling site (state.task taskId) (state.tasks taskId))
    (atSite : AtSite site taskId event) (moved : Move config state event taskId record pc) :
    Handling site record pc := by
  cases moved with
  | stay => exact handling
  | updated =>
    obtain ⟨triggered, stack, acknowledged⟩ := (state.task taskId).updateTaskTimes_lists config.cycleTics
    exact handling.keep (by rw [triggered]; exact List.Subset.refl _) stack acknowledged id
  | cleared timedOut expired => exact absurd expired (unexpired _ _ timedOut)
  | marked => exact handling.keep (List.subset_append_left ..) rfl rfl id
  | continued => exact handling.keep (List.Subset.refl _) rfl rfl id
  | abandoned _ dead => cases (running taskId).symm.trans dead
  | received => exact handling.keep (List.Subset.refl _) rfl rfl (by simp)
  | completed =>
    obtain ⟨none, empty, _⟩ := handling.completed (atSite rfl)
    refine ⟨?_, Or.inl ⟨none, empty⟩⟩
    rw [empty]
    simp
  | @acknowledged _ mid newStack receiving =>
    obtain ⟨none, empty⟩ := handling.none_held (Or.inl receiving)
    by_cases found : mid ∈ (state.task taskId).triggeredMIDs
    · rw [TaskIPC.acknowledge_found _ mid newStack found]
      refine ⟨?_, Or.inr ⟨mid, newStack, by simp [none], by simp [empty], found, ?_⟩⟩
      · intro stack member
        simp only [empty, List.nil_append, List.mem_singleton] at member
        exact member ▸ atSite rfl
      · split <;> simp
    · rw [TaskIPC.acknowledge_missing _ mid newStack found]
      exact ⟨by simp [empty], Or.inl ⟨none, empty⟩⟩
  | noMessage | undelayed | delayed => exact handling.keep (List.Subset.refl _) rfl rfl (by simp)
  | left _ loop =>
    refine handling.keep (List.Subset.refl _) rfl rfl ?_
    generalize state.tasks taskId = before at loop
    cases loop <;> simp

theorem marking_step (taken : state.step config event = some next) {taskId mid : Nat}
    (marking : next.scheduler = .marking taskId mid) :
    state.scheduler = .marking taskId mid ∧ event ≠ .scheduler ∨
      state.scheduler = .processing ∧
        ∃ pipeId, event = .send pipeId mid ∧ state.iface.prevPipeTaskOwner pipeId = taskId := by
  by_cases byScheduler : event = .scheduler
  · subst byScheduler
    exfalso
    have unmarked : ∀ taskId mid, next.scheduler ≠ .marking taskId mid := by
      cases schedulerStep_cases taken with
      | began =>
        simp only [beginSignal, setScheduler_scheduler]
        split <;> simp
      | woken | marked | finished | entered | visited | undelayed | granted | acknowledged | polled
      | checked | abandoned | completed => simp
    exact unmarked taskId mid marking
  · by_cases sends : ∃ pipeId mid, event = .send pipeId mid
    · obtain ⟨pipeId, sent, rfl⟩ := sends
      simp only [step] at taken
      split at taken
      next processing =>
        cases taken
        cases marking
        exact Or.inr ⟨processing, pipeId, rfl, rfl⟩
      next => cases taken
    · have same : next.scheduler = state.scheduler := by
        cases byTask : event.taskOf with
        | some target => exact (taskEvent_roles byTask taken).scheduler
        | none =>
          exact (mainEvent_scheduler byTask byScheduler (fun pipeId mid same => sends ⟨pipeId, mid, same⟩) taken).1
      exact Or.inl ⟨same.symm.trans marking, byScheduler⟩

end Threads

namespace PipeThreads
variable {config : Config} {depth : Nat → Nat} {state next : PipeThreads} {event : PipeThreadEvent}

inductive PipeStep (config : Config) (depth : Nat → Nat) (state : PipeThreads) :
    PipeThreadEvent → PipeThreads → Prop
  | thread {event threads} (allowed : state.allows event = true)
      (taken : state.threads.step config event = some threads) :
      PipeStep config depth state (.thread event) { state.follow event with threads }
  | put {copy rest} (front : state.inFlight = copy :: rest) (processing : state.threads.scheduler = .processing)
      (room : state.length copy.1 < depth copy.1) :
      PipeStep config depth state .put { state with inFlight := rest, queued := state.queued ++ [copy] }
  | dropped {copy rest} (front : state.inFlight = copy :: rest) (full : depth copy.1 ≤ state.length copy.1) :
      PipeStep config depth state .put { state with inFlight := rest }
  | post {pipeId mid} :
      PipeStep config depth state (.post pipeId mid) { state with queued := state.queued ++ [(pipeId, mid)] }
  | lost {pipeId mid} : PipeStep config depth state (.post pipeId mid) state
  | dequeue {taskId copy} (inside : taskId < config.maxTasks) (receiving : state.threads.tasks taskId = .receiving)
      (free : state.dequeued taskId = none)
      (found : state.queued.find? (fun copy => copy.1 = state.receivingOn taskId) = some copy) :
      PipeStep config depth state (.dequeue taskId)
        { state with
          queued := state.queued.eraseP (fun copy => copy.1 = state.receivingOn taskId)
          dequeued := Function.update state.dequeued taskId (some copy.2) }

theorem step_cases (taken : state.step config depth event = some next) :
    PipeStep config depth state event next := by
  cases event with
  | thread event =>
    simp only [step] at taken
    split at taken
    next allowed =>
      obtain ⟨threads, stepped, rfl⟩ := Option.map_eq_some_iff.mp taken
      exact .thread allowed stepped
    next => cases taken
  | put =>
    simp only [step, put] at taken
    split at taken
    next => cases taken
    next copy rest front =>
      split at taken
      next processing =>
        cases taken
        change PipeStep config depth state .put (if state.length copy.1 < depth copy.1 then _ else _)
        split
        next room => exact .put front processing room
        next full => exact .dropped front (Nat.not_lt.mp full)
      next => cases taken
  | post pipeId mid =>
    simp only [step, enqueue] at taken
    split at taken
    · cases taken
      exact .post
    · cases taken
      exact .lost
  | dequeue taskId =>
    simp only [step, dequeue] at taken
    split at taken
    next enabled =>
      split at taken
      next copy found =>
        cases taken
        exact .dequeue enabled.1 enabled.2.1 enabled.2.2 found
      next => cases taken
    next => cases taken

end PipeThreads

namespace PipeUse
variable (use : PipeUse)

def isFor (taskId mid : Nat) (copy : Nat × Nat) : Bool := decide (use.owner copy.1 = taskId ∧ copy.2 = mid)

def unread (state : PipeThreads) (taskId mid : Nat) : Nat :=
  state.inFlight.countP (use.isFor taskId mid) + state.queued.countP (use.isFor taskId mid) +
    if state.dequeued taskId = some mid then 1 else 0

end PipeUse

/-- The scheduler has sent the message to a pipe of the task and is about to mark it. -/
def Threads.beingMarked (state : Threads) (taskId mid : Nat) : Nat :=
  if state.scheduler = .marking taskId mid then 1 else 0

/-- The account of one task. -/
structure Tended (use : PipeUse) (state : PipeThreads) (taskId : Nat) : Prop where
  handling : Handling (use.callSite taskId) (state.threads.task taskId) (state.threads.tasks taskId)
  scheduled : ∀ mid ∈ (state.threads.task taskId).triggeredMIDs, use.scheduled mid = true
  counts : ∀ mid, use.scheduled mid = true →
    (state.threads.task taskId).triggeredMIDs.count mid + state.threads.beingMarked taskId mid =
      use.unread state taskId mid + (state.threads.task taskId).acknowledgedMIDs.count mid
  reading : state.dequeued taskId ≠ none → state.threads.tasks taskId = .receiving
  placed : (state.threads.tasks taskId = .completing ∨ state.threads.tasks taskId = .receiving ∨
    state.threads.tasks taskId = .awaitingAcknowledgement) → use.owner (state.receivingOn taskId) = taskId

structure Reconciled (use : PipeUse) (state : PipeThreads) : Prop where
  running : ∀ taskId, (state.threads.es.locateAppRecord taskId).running = true
  marking : ∀ taskId mid, state.threads.scheduler = .marking taskId mid →
    use.scheduled mid = true ∧ ∃ copy ∈ state.inFlight, use.isFor taskId mid copy = true
  landed : state.inFlight ≠ [] → state.threads.scheduler = .processing ∨
    ∃ taskId mid, state.threads.scheduler = .marking taskId mid
  tended : ∀ taskId, Tended use state taskId

namespace Tended
variable {use : PipeUse} {state : PipeThreads} {taskId : Nat}

/-- A message that the scheduler has sent is still triggered when it is read. -/
theorem triggered_of_dequeued (reconciled : Reconciled use state) {mid : Nat}
    (dequeued : state.dequeued taskId = some mid) (scheduled : use.scheduled mid = true) :
    mid ∈ (state.threads.task taskId).triggeredMIDs := by
  have counts := (reconciled.tended taskId).counts mid scheduled
  simp only [PipeUse.unread, dequeued, ite_true, Threads.beingMarked] at counts
  apply List.count_pos_iff.mp
  split at counts
  next marking =>
    obtain ⟨copy, member, copyFor⟩ := (reconciled.marking taskId mid marking).2
    have some : 0 < state.inFlight.countP (use.isFor taskId mid) := List.countP_pos_iff.mpr ⟨copy, member, copyFor⟩
    omega
  next => omega

end Tended

namespace PipeThreads
variable {config : Config} {depth : Nat → Nat} {use : PipeUse} {state next : PipeThreads}
  {event : ThreadEvent} {threads : Threads} {taskId : Nat}

theorem unread_send (pipeId sent mid : Nat) :
    use.unread { state.follow (.send pipeId sent) with threads } taskId mid =
      use.unread state taskId mid + if use.owner pipeId = taskId ∧ sent = mid then 1 else 0 := by
  have added : (state.inFlight ++ [(pipeId, sent)]).countP (use.isFor taskId mid) =
      state.inFlight.countP (use.isFor taskId mid) + if use.owner pipeId = taskId ∧ sent = mid then 1 else 0 := by
    simp only [List.countP_append, List.countP_singleton, PipeUse.isFor, decide_eq_true_eq]
  simp only [PipeUse.unread, follow, added]
  ac_rfl

theorem unread_acknowledge (use : PipeUse) (threads : Threads) (taskId : Nat) {target read : Nat}
    (stack : StackInfo) (mid : Nat) (dequeued : state.dequeued target = some read) :
    use.unread { state.follow (.acknowledge target read stack) with threads } taskId mid +
      (if taskId = target ∧ read = mid then 1 else 0) = use.unread state taskId mid := by
  simp only [PipeUse.unread, follow]
  by_cases same : taskId = target
  · subst target
    simp [dequeued]
  · simp [same]

theorem unread_other (notSend : ∀ pipeId sent, event ≠ .send pipeId sent)
    (notAcknowledge : ∀ target read stack, event ≠ .acknowledge target read stack) (mid : Nat) :
    use.unread { state.follow event with threads } taskId mid = use.unread state taskId mid := by
  cases event with
  | send pipeId sent => exact absurd rfl (notSend pipeId sent)
  | acknowledge target read stack => exact absurd rfl (notAcknowledge target read stack)
  | _ => rfl

section Thread
variable (reconciled : Reconciled use state) (taken : state.threads.step config event = some threads)
include reconciled taken

private theorem send_counts {pipeId sent : Nat} (sends : event = .send pipeId sent)
    (owned : state.threads.iface.prevPipeTaskOwner pipeId = use.owner pipeId) (mid : Nat)
    (scheduled : use.scheduled mid = true) :
    (threads.task taskId).triggeredMIDs.count mid + threads.beingMarked taskId mid =
      use.unread { state.follow event with threads } taskId mid +
        (threads.task taskId).acknowledgedMIDs.count mid := by
  subst sends
  have counts := (reconciled.tended taskId).counts mid scheduled
  rw [unread_send]
  simp only [Threads.step] at taken
  split at taken
  next processing =>
    cases taken
    simp only [Threads.beingMarked, processing, reduceCtorEq, ite_false, Threads.setScheduler_scheduler,
      Threads.setScheduler_task, SchedulerPc.marking.injEq, owned] at counts ⊢
    omega
  next => cases taken

private theorem acknowledge_counts {target read : Nat} {stack : StackInfo}
    (acknowledges : event = .acknowledge target read stack) (dequeued : state.dequeued target = some read)
    (mid : Nat) (scheduled : use.scheduled mid = true) :
    (threads.task taskId).triggeredMIDs.count mid + threads.beingMarked taskId mid =
      use.unread { state.follow event with threads } taskId mid +
        (threads.task taskId).acknowledgedMIDs.count mid := by
  subst acknowledges
  have counts := (reconciled.tended taskId).counts mid scheduled
  have removed := unread_acknowledge use threads taskId stack mid dequeued
  have still : threads.beingMarked taskId mid = state.threads.beingMarked taskId mid := by
    simp only [Threads.beingMarked, (Threads.taskEvent_roles rfl taken).scheduler]
  have present (same : taskId = target) (equal : read = mid) :
      read ∈ (state.threads.task taskId).triggeredMIDs := by
    subst same equal
    exact Tended.triggered_of_dequeued reconciled dequeued scheduled
  have moved := Threads.step_moves taken taskId
  generalize threads.task taskId = record at moved
  generalize threads.tasks taskId = pc at moved
  rw [still]
  cases moved with
  | stay silent =>
    have none : ¬ (taskId = target ∧ read = mid) := by
      intro ⟨same, equal⟩
      have found := present same equal
      simp [Threads.logged, same] at silent
      exact silent (same ▸ found)
    rw [if_neg none] at removed
    omega
  | acknowledged receiving =>
    by_cases found : read ∈ (state.threads.task taskId).triggeredMIDs
    · rw [TaskIPC.acknowledge_found _ read stack found]
      simp only [List.count_append, List.count_singleton, beq_iff_eq, true_and] at removed ⊢
      omega
    · rw [TaskIPC.acknowledge_missing _ read stack found]
      have other : read ≠ mid := fun equal => found (present rfl equal)
      simp only [other, and_false, ite_false] at removed
      simp only [TaskIPC.setState_triggeredMIDs, TaskIPC.setState_acknowledgedMIDs]
      omega

private theorem scheduler_counts (byScheduler : event = .scheduler) (mid : Nat)
    (scheduled : use.scheduled mid = true) :
    (threads.task taskId).triggeredMIDs.count mid + threads.beingMarked taskId mid =
      use.unread { state.follow event with threads } taskId mid +
        (threads.task taskId).acknowledgedMIDs.count mid := by
  subst byScheduler
  have counts := (reconciled.tended taskId).counts mid scheduled
  have unmarked : threads.beingMarked taskId mid = 0 := by
    refine if_neg (fun marking => ?_)
    rcases Threads.marking_step taken marking with ⟨_, away⟩ | ⟨_, _, sent, _⟩
    · exact away rfl
    · cases sent
  have moved := Threads.step_moves taken taskId
  generalize threads.task taskId = record at moved
  generalize threads.tasks taskId = pc at moved
  rw [unmarked, unread_other (by simp) (by simp)]
  cases moved with
  | stay silent =>
    have before : state.threads.beingMarked taskId mid = 0 := by
      refine if_neg (fun marking => ?_)
      simp [Threads.logged, marking, reconciled.running] at silent
    omega
  | @marked _ marked marking =>
    simp only [Threads.beingMarked, marking, SchedulerPc.marking.injEq, true_and] at counts
    simp only [TaskIPC.mark_triggeredMIDs, TaskIPC.mark_acknowledgedMIDs, List.count_append,
      List.count_singleton, beq_iff_eq]
    omega
  | continued polling =>
    simp only [Threads.beingMarked, polling, reduceCtorEq, ite_false] at counts
    exact counts
  | abandoned _ dead => cases (reconciled.running taskId).symm.trans dead

private theorem other_counts (unexpired : Threads.Unexpired config state.threads)
    (byScheduler : event ≠ .scheduler) (sends : ∀ pipeId sent, event ≠ .send pipeId sent)
    (acknowledges : ∀ target read stack, event ≠ .acknowledge target read stack) (mid : Nat)
    (scheduled : use.scheduled mid = true) :
    (threads.task taskId).triggeredMIDs.count mid + threads.beingMarked taskId mid =
      use.unread { state.follow event with threads } taskId mid +
        (threads.task taskId).acknowledgedMIDs.count mid := by
  have counts := (reconciled.tended taskId).counts mid scheduled
  have same : threads.scheduler = .marking taskId mid ↔ state.threads.scheduler = .marking taskId mid := by
    constructor
    · intro marking
      rcases Threads.marking_step taken marking with ⟨before, _⟩ | ⟨_, pipeId, sent, _⟩
      · exact before
      · exact absurd sent (sends pipeId mid)
    · intro marking
      rcases (Threads.step_scheduler byScheduler taken).2 with same | ⟨processing, _⟩
      · rw [same, marking]
      · cases processing.symm.trans marking
  have still : threads.beingMarked taskId mid = state.threads.beingMarked taskId mid := by
    simp only [Threads.beingMarked, same]
  have moved := Threads.step_moves taken taskId
  generalize threads.task taskId = record at moved
  generalize threads.tasks taskId = pc at moved
  rw [still, unread_other sends acknowledges]
  cases moved with
  | stay | received | noMessage | undelayed | delayed | left => exact counts
  | updated =>
    obtain ⟨triggered, _, acknowledged⟩ := (state.threads.task taskId).updateTaskTimes_lists config.cycleTics
    rw [triggered, acknowledged]
    exact counts
  | cleared timedOut expired => exact absurd expired (unexpired _ _ timedOut)
  | marked | continued | abandoned => exact absurd rfl byScheduler
  | @completed _ currStack =>
    have retired := (state.threads.task taskId).complete_counts currStack mid
    omega
  | acknowledged => exact absurd rfl (acknowledges _ _ _)

private theorem thread_counts (unexpired : Threads.Unexpired config state.threads)
    (orderly : use.Orderly depth state (.thread event)) (allowed : state.allows event = true) (mid : Nat)
    (scheduled : use.scheduled mid = true) :
    (threads.task taskId).triggeredMIDs.count mid + threads.beingMarked taskId mid =
      use.unread { state.follow event with threads } taskId mid +
        (threads.task taskId).acknowledgedMIDs.count mid := by
  cases event with
  | send pipeId sent => exact send_counts reconciled taken rfl orderly.2 mid scheduled
  | acknowledge target read stack =>
    exact acknowledge_counts reconciled taken rfl (by simpa [allows] using allowed) mid scheduled
  | scheduler => exact scheduler_counts reconciled taken rfl mid scheduled
  | main | mainTimeout | mainSpurious | startRun | createQueue | receive | complete | noMessage | delay | leave =>
    exact other_counts reconciled taken unexpired (by simp) (by simp) (by simp) mid scheduled

private theorem thread_scheduled (orderly : use.Orderly depth state (.thread event)) :
    ∀ mid ∈ (threads.task taskId).triggeredMIDs, use.scheduled mid = true := by
  have tended := reconciled.tended taskId
  have scheduled := tended.scheduled
  have moved := Threads.step_moves taken taskId
  generalize threads.task taskId = record at moved
  generalize threads.tasks taskId = pc at moved
  cases moved with
  | stay | continued | received | noMessage | undelayed | delayed | left => exact scheduled
  | updated =>
    rw [((state.threads.task taskId).updateTaskTimes_lists config.cycleTics).1]
    exact scheduled
  | cleared | abandoned => simp
  | @marked _ marked marking =>
    intro mid member
    rcases List.mem_append.mp member with old | new
    · exact scheduled mid old
    · rw [List.mem_singleton.mp new]
      exact (reconciled.marking taskId marked marking).1
  | completed =>
    rw [(tended.handling.completed orderly).2.2.1]
    exact fun mid member => scheduled mid (List.diff_subset _ _ member)
  | @acknowledged _ read stack =>
    by_cases found : read ∈ (state.threads.task taskId).triggeredMIDs
    · rw [TaskIPC.acknowledge_found _ read stack found]
      exact scheduled
    · rw [TaskIPC.acknowledge_missing _ read stack found]
      exact scheduled

private theorem thread_reading (allowed : state.allows event = true)
    (dequeued : (state.follow event).dequeued taskId ≠ none) : threads.tasks taskId = .receiving := by
  have reading := (reconciled.tended taskId).reading
  have moved := Threads.step_moves taken taskId
  generalize threads.task taskId = record at moved
  generalize threads.tasks taskId = pc at moved
  have before : state.dequeued taskId ≠ none := by
    cases event with
    | acknowledge target read stack =>
      simp only [follow] at dequeued
      by_cases same : taskId = target
      · subst same
        simp at dequeued
      · simpa [same] using dequeued
    | _ => exact dequeued
  have receiving := reading before
  cases moved with
  | stay | updated | cleared | marked | continued | abandoned => exact receiving
  | received running => cases running.symm.trans receiving
  | completed completing => cases completing.symm.trans receiving
  | acknowledged => simp [follow] at dequeued
  | noMessage =>
    simp only [allows, Bool.and_eq_true, Option.isNone_iff_eq_none] at allowed
    exact absurd allowed.1 before
  | undelayed running | delayed running => cases running.symm.trans receiving
  | left _ loop =>
    rw [receiving] at loop
    cases loop

private theorem thread_placed (orderly : use.Orderly depth state (.thread event))
    (place : threads.tasks taskId = .completing ∨ threads.tasks taskId = .receiving ∨
      threads.tasks taskId = .awaitingAcknowledgement) :
    use.owner ((state.follow event).receivingOn taskId) = taskId := by
  have placed := (reconciled.tended taskId).placed
  have moved := Threads.step_moves taken taskId
  generalize threads.task taskId = record at moved
  generalize threads.tasks taskId = pc at moved place
  by_cases receives : ∃ pipeId, event = .receive taskId pipeId
  · obtain ⟨pipeId, rfl⟩ := receives
    have owned : use.owner pipeId = taskId := orderly
    simpa [follow] using owned
  · have same : (state.follow event).receivingOn taskId = state.receivingOn taskId := by
      cases event with
      | receive target pipeId =>
        have different : taskId ≠ target := by
          rintro rfl
          exact receives ⟨pipeId, rfl⟩
        simp [follow, different]
      | _ => rfl
    rw [same]
    apply placed
    cases moved with
    | stay | updated | cleared | marked | continued | abandoned => exact place
    | received => exact absurd ⟨_, rfl⟩ receives
    | completed completing => exact Or.inl completing
    | acknowledged =>
      split at place <;> simp at place
    | noMessage | undelayed | delayed => simp at place
    | left _ loop =>
      generalize state.threads.tasks taskId = before at loop
      cases loop with
      | delay | permission => simp at place
      | acknowledgement => simp

private theorem thread_marking (orderly : use.Orderly depth state (.thread event)) {mid : Nat}
    (marking : threads.scheduler = .marking taskId mid) :
    use.scheduled mid = true ∧ ∃ copy ∈ (state.follow event).inFlight, use.isFor taskId mid copy = true := by
  rcases Threads.marking_step taken marking with ⟨before, _⟩ | ⟨_, pipeId, rfl, owned⟩
  · obtain ⟨scheduled, copy, member, copyFor⟩ := reconciled.marking taskId mid before
    refine ⟨scheduled, copy, ?_, copyFor⟩
    cases event with
    | send pipeId sent => exact List.mem_append_left _ member
    | _ => exact member
  · obtain ⟨scheduled, same⟩ := orderly
    refine ⟨scheduled, (pipeId, mid), by simp [follow], ?_⟩
    simp [PipeUse.isFor, ← same, owned]

private theorem thread_landed (allowed : state.allows event = true)
    (some : (state.follow event).inFlight ≠ []) :
    threads.scheduler = .processing ∨ ∃ taskId mid, threads.scheduler = .marking taskId mid := by
  by_cases sends : ∃ pipeId sent, event = .send pipeId sent
  · obtain ⟨pipeId, sent, rfl⟩ := sends
    simp only [Threads.step] at taken
    split at taken
    next => cases taken; exact Or.inr ⟨_, sent, rfl⟩
    next => cases taken
  · have before : state.inFlight ≠ [] := by
      cases event with
      | send pipeId sent => exact absurd ⟨pipeId, sent, rfl⟩ sends
      | _ => exact some
    have place := reconciled.landed before
    by_cases byScheduler : event = .scheduler
    · subst byScheduler
      rcases place with processing | ⟨target, mid, marking⟩
      · simp [allows, processing, before] at allowed
      · simp only [Threads.step, Threads.schedulerStep, marking] at taken
        cases taken
        exact Or.inl rfl
    · rcases (Threads.step_scheduler byScheduler taken).2 with same | ⟨_, target, mid, marking⟩
      · rw [same]
        exact place
      · exact Or.inr ⟨target, mid, marking⟩

private theorem thread_reconciled (unexpired : Threads.Unexpired config state.threads)
    (orderly : use.Orderly depth state (.thread event)) (allowed : state.allows event = true) :
    Reconciled use { state.follow event with threads } where
  running := by
    rw [(Threads.step_fixed taken).1]
    exact reconciled.running
  marking := fun _ _ marking => thread_marking reconciled taken orderly marking
  landed := thread_landed reconciled taken allowed
  tended := fun taskId =>
    { handling := by
        refine Threads.handling_move reconciled.running unexpired (reconciled.tended taskId).handling ?_
          (Threads.step_moves taken taskId)
        cases event with
        | complete target stack | acknowledge target read stack =>
          rintro rfl
          exact orderly
        | _ => trivial
      scheduled := thread_scheduled reconciled taken orderly
      counts := fun mid scheduled => thread_counts reconciled taken unexpired orderly allowed mid scheduled
      reading := thread_reading reconciled taken allowed
      placed := thread_placed reconciled taken orderly }

end Thread

private theorem put_reconciled {copy : Nat × Nat} {rest : List (Nat × Nat)} (reconciled : Reconciled use state)
    (front : state.inFlight = copy :: rest) (processing : state.threads.scheduler = .processing) :
    Reconciled use { state with inFlight := rest, queued := state.queued ++ [copy] } where
  running := reconciled.running
  marking := fun _ _ marking => by cases processing.symm.trans marking
  landed := fun _ => Or.inl processing
  tended := fun taskId =>
    { handling := (reconciled.tended taskId).handling
      scheduled := (reconciled.tended taskId).scheduled
      counts := by
        intro mid scheduled
        have counts := (reconciled.tended taskId).counts mid scheduled
        simp only [PipeUse.unread, front, List.countP_cons, List.countP_append, List.countP_nil] at counts ⊢
        omega
      reading := (reconciled.tended taskId).reading
      placed := (reconciled.tended taskId).placed }

private theorem post_reconciled {pipeId posted : Nat} (reconciled : Reconciled use state)
    (unscheduled : use.scheduled posted = false) :
    Reconciled use { state with queued := state.queued ++ [(pipeId, posted)] } where
  running := reconciled.running
  marking := reconciled.marking
  landed := reconciled.landed
  tended := fun taskId =>
    { handling := (reconciled.tended taskId).handling
      scheduled := (reconciled.tended taskId).scheduled
      counts := by
        intro mid scheduled
        have other : use.isFor taskId mid (pipeId, posted) = false := by
          simp only [PipeUse.isFor, decide_eq_false_iff_not, not_and]
          rintro _ rfl
          simp [scheduled] at unscheduled
        have counts := (reconciled.tended taskId).counts mid scheduled
        simpa [PipeUse.unread, other] using counts
      reading := (reconciled.tended taskId).reading
      placed := (reconciled.tended taskId).placed }

private theorem dequeue_reconciled {target : Nat} {copy : Nat × Nat} (reconciled : Reconciled use state)
    (receiving : state.threads.tasks target = .receiving) (free : state.dequeued target = none)
    (found : state.queued.find? (fun copy => copy.1 = state.receivingOn target) = some copy) :
    Reconciled use { state with
      queued := state.queued.eraseP (fun copy => copy.1 = state.receivingOn target)
      dequeued := Function.update state.dequeued target (some copy.2) } where
  running := reconciled.running
  marking := reconciled.marking
  landed := reconciled.landed
  tended := fun taskId =>
    { handling := (reconciled.tended taskId).handling
      scheduled := (reconciled.tended taskId).scheduled
      counts := by
        intro mid scheduled
        have counts := (reconciled.tended taskId).counts mid scheduled
        have pipe : copy.1 = state.receivingOn target := by simpa using List.find?_some found
        have owned : use.owner copy.1 = target := by
          rw [pipe]
          exact (reconciled.tended target).placed (Or.inr (Or.inl receiving))
        have erased := Proofs.TriggerOwnership.Owned.countP_eraseP (use.isFor taskId mid) found
        have held : (if Function.update state.dequeued target (some copy.2) taskId = some mid then 1 else 0) =
            (if state.dequeued taskId = some mid then 1 else 0) +
              if use.isFor taskId mid copy = true then 1 else 0 := by
          by_cases same : taskId = target
          · subst same
            simp [free, PipeUse.isFor, owned]
          · simp [Function.update_of_ne same, PipeUse.isFor, owned, Ne.symm same]
        simp only [PipeUse.unread, held] at counts ⊢
        change _ + state.threads.beingMarked taskId mid = _
        simp only [Threads.task] at counts ⊢
        omega
      reading := by
        intro taken
        by_cases same : taskId = target
        · exact same ▸ receiving
        · exact (reconciled.tended taskId).reading (by simpa [Function.update_of_ne same] using taken)
      placed := (reconciled.tended taskId).placed }

theorem reconciled_step (unexpired : Threads.Unexpired config state.threads) {event : PipeThreadEvent}
    (reconciled : Reconciled use state) (orderly : use.Orderly depth state event)
    (taken : state.step config depth event = some next) : Reconciled use next := by
  cases step_cases taken with
  | thread allowed stepped => exact thread_reconciled reconciled stepped unexpired orderly allowed
  | put front processing => exact put_reconciled reconciled front processing
  | @dropped copy _ front full =>
    have room : state.length copy.1 < depth copy.1 := orderly copy (by simp [front])
    exact absurd room (Nat.not_lt.mpr full)
  | post => exact post_reconciled reconciled orderly
  | lost => exact reconciled
  | dequeue _ receiving free found => exact dequeue_reconciled reconciled receiving free found

theorem reconciled_initial (config : Config) (depth : Nat → Nat) (registeredTasks : Nat)
    (taskTable priority : Nat → Nat) :
    Reconciled use (pipeThreads config depth registeredTasks taskTable priority).initial where
  running := fun _ => rfl
  marking := fun _ _ marking => by cases marking
  landed := fun some => absurd rfl some
  tended := fun taskId =>
    { handling := ⟨fun _ member => (by cases member), Or.inl ⟨rfl, rfl⟩⟩
      scheduled := fun _ member => by cases member
      counts := fun _ _ => rfl
      reading := fun some => absurd rfl some
      placed := fun elsewhere => by rcases elsewhere with none | none | none <;> cases none }

end PipeThreads

namespace Threads
variable {config : Config} {state next : Threads} {event : ThreadEvent}

/-- No wait of the main thread runs out: there is none in perfect mode, and
otherwise it waits for ever. -/
def Untimed (config : Config) (main : MainPc) : Prop :=
  config.perfectScheduleMode = true ∧ Proofs.PerfectSerialisation.Unscanned main ∨
    config.msWaitTimeForCFSApps = -1 ∧ Proofs.FrameBarrier.Patient main

theorem Untimed.unexpired (untimed : Untimed config state.main) : Unexpired config state := by
  intro ii remainingTime timedOut
  rcases untimed with ⟨_, unscanned⟩ | ⟨forever, patient⟩
  · rw [timedOut] at unscanned
    exact False.elim unscanned
  · rw [timedOut] at patient
    rw [Proofs.FrameBarrier.remainingAfter_forever forever]
    exact Int.not_le.mpr patient

theorem untimed_step (untimed : Untimed config state.main) (taken : state.step config event = some next) :
    Untimed config next.main := by
  rcases untimed with ⟨perfect, unscanned⟩ | ⟨forever, patient⟩
  · exact Or.inl ⟨perfect, Proofs.PerfectSerialisation.unscanned_step perfect unscanned taken⟩
  · exact Or.inr ⟨forever, Proofs.FrameBarrier.step_patient patient taken⟩

end Threads

namespace Proofs.PipeAccounts
open PipeThreads

/-- Two copies of one message, of which the task has completed the first and read the second. -/
def twoCopies : List PipeThreadEvent :=
  let site := StackInfo.backtrace [0, 1, 2, 3]
  [.thread (.createQueue 0 0), .thread .scheduler, .thread .scheduler, .thread .main, .thread .main, .thread .main,
    .thread .startRun, .thread .main, .thread .main, .thread .main, .thread .scheduler, .thread (.send 0 7),
    .thread .scheduler, .put, .thread (.send 0 7), .thread .scheduler, .put, .thread (.receive 0 0),
    .thread (.complete 0 site), .dequeue 0, .thread (.acknowledge 0 7 site), .thread (.receive 0 0),
    .thread (.complete 0 site), .dequeue 0]

def twoCopiesUse : PipeUse where
  owner := fun _ => 0
  scheduled := fun mid => mid == 7
  callSite := fun _ => StackInfo.backtrace [0, 1, 2, 3]

private theorem twoCopies_runs :
    ((pipeThreads oneTaskConfig (fun _ => 4) 1 id (fun _ => 20)).run twoCopies).isSome = true := by decide

end Proofs.PipeAccounts
end TrickCFS
