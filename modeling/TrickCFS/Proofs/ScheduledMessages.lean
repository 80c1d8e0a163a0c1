import TrickCFS.BaseTrickCFSScheduler
import TrickCFS.Proofs.QueueRefinement

/-! When the triggers of a scheduled message match its deliveries. Every
targeted pipe is marked before anything is sent, so the two agree exactly when
every targeted queue has room for all its copies. -/

namespace TrickCFS.Proofs.ScheduledMessages
open QueueRefinement

variable {scheduler : BaseTrickCFSScheduler} {bus : SoftwareBus} {es : EsGlobal}

/-- An active destination whose pipe is not the sender's own with IGNOREMINE. -/
def Targeted (scheduler : BaseTrickCFSScheduler) (bus : SoftwareBus) (dest : DestinationD) : Prop :=
  dest.active = true ∧ ¬ ((bus.pipeTable dest.pipeId).ignoreMine = true ∧
    (bus.pipeTable dest.pipeId).appId = scheduler.appId)

instance (dest : DestinationD) : Decidable (Targeted scheduler bus dest) :=
  inferInstanceAs (Decidable (_ ∧ _))

/-- The queues of the targeted destinations, in order. -/
def targets (scheduler : BaseTrickCFSScheduler) (bus : SoftwareBus) (dests : List DestinationD) : List Nat :=
  (dests.filter (fun dest => Targeted scheduler bus dest)).map
    (fun dest => (bus.pipeTable dest.pipeId).sysQueueId)

/-- The call adds one entry to a task's list for each copy enqueued on a pipe
that the task owns, and no other entry. -/
def TriggersMatch (scheduler : BaseTrickCFSScheduler) (bus : SoftwareBus) (msgId : Nat)
    (sim : Simulation) : Prop :=
  let sent := scheduler.sendScheduledMessage bus msgId sim
  ∀ taskId, (sent.2.iface.taskStates taskId).triggeredMIDs =
    (sim.iface.taskStates taskId).triggeredMIDs ++
      List.replicate (sent.1.countP (fun pipeId => sim.iface.prevPipeTaskOwner pipeId = taskId)) msgId

/-- Every queue that is sent to is open, takes messages of this length, and has
room for all the copies it is sent. -/
def Room (queues : Nat → TrickCFSQueue) (size : Nat) (pipes : List Nat) : Prop :=
  ∀ pipeId ∈ pipes, (queues pipeId).isEnabled = true ∧ size ≤ (queues pipeId).maxSize ∧
    (queues pipeId).numMessages + pipes.count pipeId ≤ (queues pipeId).maxMsgs

section Marks

private theorem mark_owner (perfect : Bool) (pipeId mid : Nat) (iface : TrickCFSInterface) :
    (iface.markPipeAsTriggered perfect es pipeId mid).prevPipeTaskOwner = iface.prevPipeTaskOwner :=
  TrickCFSInterface.markTask_owner ..

private theorem mark_triggered (running : ∀ taskId, (es.locateAppRecord taskId).running = true)
    (perfect : Bool) (pipeId mid : Nat) (iface : TrickCFSInterface) (taskId : Nat) :
    ((iface.markPipeAsTriggered perfect es pipeId mid).taskStates taskId).triggeredMIDs =
      (iface.taskStates taskId).triggeredMIDs ++
        List.replicate ([pipeId].countP (fun pipeId => iface.prevPipeTaskOwner pipeId = taskId)) mid := by
  simp only [TrickCFSInterface.markPipeAsTriggered]
  by_cases owner : iface.prevPipeTaskOwner pipeId = taskId
  · rw [owner, TrickCFSInterface.markTask_same _ _ _ (running taskId)]
    simp [TaskIPC.markPipeAsTriggered, owner]
  · rw [TrickCFSInterface.markTask_other _ _ _ (Ne.symm owner)]
    simp [owner]

private theorem marks_triggered (running : ∀ taskId, (es.locateAppRecord taskId).running = true)
    (msgId : Nat) (dests : List DestinationD) (iface : TrickCFSInterface) (taskId : Nat) :
    ((scheduler.markDestinations bus es msgId dests iface).taskStates taskId).triggeredMIDs =
      (iface.taskStates taskId).triggeredMIDs ++ List.replicate
        ((targets scheduler bus dests).countP (fun pipeId => iface.prevPipeTaskOwner pipeId = taskId))
        msgId := by
  induction dests generalizing iface with
  | nil => simp [BaseTrickCFSScheduler.markDestinations, targets]
  | cons dest dests ih =>
    simp only [BaseTrickCFSScheduler.markDestinations]
    by_cases targeted : Targeted scheduler bus dest
    · have split : targets scheduler bus (dest :: dests) =
          [(bus.pipeTable dest.pipeId).sysQueueId] ++ targets scheduler bus dests := by
        simp [targets, targeted]
      rw [if_neg (by simp [targeted.1]), if_neg targeted.2, ih, mark_triggered running, mark_owner, split,
        List.countP_append, ← List.replicate_append_replicate, List.append_assoc]
    · have skipped : targets scheduler bus (dest :: dests) = targets scheduler bus dests := by
        simp [targets, targeted]
      rw [skipped]
      split
      next => exact ih iface
      next active =>
        have mine : (bus.pipeTable dest.pipeId).ignoreMine = true ∧
            (bus.pipeTable dest.pipeId).appId = scheduler.appId :=
          Classical.byContradiction (fun other => targeted ⟨by simpa using active, other⟩)
        rw [if_pos mine]
        exact ih iface

end Marks

section Puts
variable {queues : Nat → TrickCFSQueue} {data : List UInt8}

def Accepts (queue : TrickCFSQueue) (size : Nat) : Prop :=
  queue.isEnabled = true ∧ size ≤ queue.maxSize ∧ queue.numMessages + 1 ≤ queue.maxMsgs

private theorem send_accepted (data : List UInt8) {queue : TrickCFSQueue} {spec : Option BoundedFifo}
    (represents : Represents queue spec) :
    ((queue.send data).1.isAccepted = true ↔ Accepts queue data.length) ∧
      (Accepts queue data.length → (queue.send data).2.isEnabled = true ∧
        (queue.send data).2.maxSize = queue.maxSize ∧ (queue.send data).2.maxMsgs = queue.maxMsgs ∧
        (queue.send data).2.numMessages = queue.numMessages + 1) := by
  cases spec with
  | none =>
    have closed := represents.1
    simp [TrickCFSQueue.send, TrickCFSQueue.sendCheck, closed, Accepts, QueueOutcome.isAccepted]
  | some fifo =>
    obtain ⟨ring, layout⟩ := represents
    by_cases short : data.length ≤ queue.maxSize
    · have passed : queue.send data = queue.sendBody data := by
        simp [TrickCFSQueue.send, TrickCFSQueue.sendCheck, layout.enabled, short]
      rw [passed]
      by_cases room : fifo.queued.length < fifo.depth
      · obtain ⟨answer, after, next⟩ := sendBody_layout layout (layout.maxSize ▸ short) room
        have accepts : Accepts queue data.length := by
          refine ⟨layout.enabled, short, ?_⟩
          rw [layout.count, layout.depth]
          exact room
        refine ⟨by simp [answer, QueueOutcome.isAccepted, accepts], fun _ => ⟨next.enabled, ?_, ?_, ?_⟩⟩
        · exact next.maxSize.trans layout.maxSize.symm
        · exact next.depth.trans layout.depth.symm
        · rw [next.count, layout.count]
          simp [BoundedFifo.enqueue]
      · have full : ¬ Accepts queue data.length := by
          rintro ⟨_, _, more⟩
          rw [layout.count, layout.depth] at more
          exact room more
        rw [sendBody_full layout room]
        exact ⟨by simp [QueueOutcome.isAccepted, full], fun accepts => False.elim (full accepts)⟩
    · have long : ¬ Accepts queue data.length := fun accepts => short accepts.2.1
      have failed : queue.send data = (.sent (.error .error), queue) := by
        simp [TrickCFSQueue.send, TrickCFSQueue.sendCheck, layout.enabled, short]
      rw [failed]
      exact ⟨by simp [QueueOutcome.isAccepted, long], fun accepts => False.elim (long accepts)⟩

private theorem accepted_sublist (data : List UInt8) (pipes : List Nat) (queues : Nat → TrickCFSQueue) :
    (osQueuePutAll (pipes.map (fun pipeId => (pipeId, data))) queues).1.Sublist pipes := by
  induction pipes generalizing queues with
  | nil => exact List.Sublist.refl []
  | cons pipeId pipes ih =>
    simp only [List.map_cons, osQueuePutAll]
    split
    · exact (ih _).cons_cons pipeId
    · exact (ih _).cons pipeId

private theorem room_cons {pipeId : Nat} {pipes : List Nat} (accepts : Accepts (queues pipeId) data.length)
    (sent : ((queues pipeId).send data).2.isEnabled = true ∧
      ((queues pipeId).send data).2.maxSize = (queues pipeId).maxSize ∧
      ((queues pipeId).send data).2.maxMsgs = (queues pipeId).maxMsgs ∧
      ((queues pipeId).send data).2.numMessages = (queues pipeId).numMessages + 1) :
    Room queues data.length (pipeId :: pipes) ↔
      Room (Function.update queues pipeId ((queues pipeId).send data).2) data.length pipes := by
  obtain ⟨enabled, maxSize, maxMsgs, count⟩ := sent
  constructor
  · intro room other member
    obtain ⟨opened, short, space⟩ := room other (List.mem_cons_of_mem _ member)
    by_cases same : other = pipeId
    · subst other
      rw [Function.update_self, maxSize, maxMsgs, count]
      rw [List.count_cons_self] at space
      exact ⟨enabled, short, by omega⟩
    · rw [Function.update_of_ne same]
      rw [List.count_cons_of_ne (Ne.symm same)] at space
      exact ⟨opened, short, space⟩
  · intro room other member
    by_cases same : other = pipeId
    · subst other
      refine ⟨accepts.1, accepts.2.1, ?_⟩
      rw [List.count_cons_self]
      by_cases again : pipeId ∈ pipes
      · obtain ⟨_, _, space⟩ := room pipeId again
        rw [Function.update_self, maxMsgs, count] at space
        omega
      · rw [List.count_eq_zero.mpr again]
        exact accepts.2.2
    · obtain ⟨opened, short, space⟩ := room other ((List.mem_cons.mp member).resolve_left same)
      rw [Function.update_of_ne same] at opened short space
      rw [List.count_cons_of_ne (Ne.symm same)]
      exact ⟨opened, short, space⟩

private theorem all_accepted_iff (pipes : List Nat) (proper : ∀ pipeId, ∃ spec, Represents (queues pipeId) spec) :
    (osQueuePutAll (pipes.map (fun pipeId => (pipeId, data))) queues).1 = pipes ↔
      Room queues data.length pipes := by
  induction pipes generalizing queues with
  | nil => simp [osQueuePutAll, Room]
  | cons pipeId pipes ih =>
    obtain ⟨spec, represents⟩ := proper pipeId
    obtain ⟨answer, sent⟩ := send_accepted data represents
    by_cases accepts : Accepts (queues pipeId) data.length
    · have proper' : ∀ other, ∃ spec,
          Represents (Function.update queues pipeId ((queues pipeId).send data).2 other) spec := by
        intro other
        by_cases same : other = pipeId
        · subst other
          rw [Function.update_self]
          exact ⟨_, (call_refines (.send data) represents).2⟩
        · rw [Function.update_of_ne same]
          exact proper other
      rw [room_cons accepts (sent accepts), ← ih proper']
      simp only [List.map_cons, osQueuePutAll, answer.mpr accepts, ite_true, List.cons.injEq, true_and]
    · have rejected : ((queues pipeId).send data).1.isAccepted = false := by
        simpa [accepts] using answer
      constructor
      · intro all
        simp only [List.map_cons, osQueuePutAll, rejected, Bool.false_eq_true, ite_false] at all
        have shorter := (accepted_sublist data pipes
          (Function.update queues pipeId ((queues pipeId).send data).2)).length_le
        rw [all, List.length_cons] at shorter
        omega
      · intro room
        obtain ⟨opened, short, space⟩ := room pipeId List.mem_cons_self
        rw [List.count_cons_self] at space
        exact False.elim (accepts ⟨opened, short, by omega⟩)

end Puts

/-- A sublist that agrees with the list in the number of elements of every
class is the list itself. -/
private theorem sublist_eq_of_classes {accepted pipes : List Nat} (owner : Nat → Nat)
    (sublist : accepted.Sublist pipes)
    (same : ∀ taskId, accepted.countP (fun pipeId => owner pipeId = taskId) =
      pipes.countP (fun pipeId => owner pipeId = taskId)) : accepted = pipes := by
  have owners : (accepted.map owner).Perm (pipes.map owner) := by
    refine List.perm_iff_count.mpr (fun taskId => ?_)
    simpa [List.count, List.countP_map, Function.comp_def, beq_eq_decide] using same taskId
  have length := owners.length_eq
  simp only [List.length_map] at length
  exact sublist.eq_of_length length

/-- The triggers left by a scheduled message match the copies enqueued exactly
when every targeted queue has room, whatever traffic the queues have seen. -/
theorem triggers_match_iff (scheduler : BaseTrickCFSScheduler) (bus : SoftwareBus) (msgId : Nat)
    (sim : Simulation) (running : ∀ taskId, (sim.es.locateAppRecord taskId).running = true)
    (reached : ∀ pipeId, ∃ myId calls,
      sim.queues pipeId = (Responses.respond TrickCFSQueue.call { myId } calls).2)
    (data : List UInt8)
    (onePut : bus.transmitMsg msgId =
      (targets scheduler bus (bus.destListHead msgId)).map (fun pipeId => (pipeId, data))) :
    TriggersMatch scheduler bus msgId sim ↔
      Room sim.queues data.length (targets scheduler bus (bus.destListHead msgId)) := by
  have proper (pipeId : Nat) : ∃ spec, Represents (sim.queues pipeId) spec := by
    obtain ⟨myId, calls, same⟩ := reached pipeId
    rw [same]
    exact ⟨_, (respond_refines myId calls).2⟩
  simp only [TriggersMatch, BaseTrickCFSScheduler.sendScheduledMessage, onePut, marks_triggered running,
    List.append_cancel_left_eq, List.replicate_inj]
  rw [← all_accepted_iff _ proper]
  constructor
  · intro same
    refine sublist_eq_of_classes sim.iface.prevPipeTaskOwner (accepted_sublist _ _ _) (fun taskId => ?_)
    exact (same taskId).1.symm
  · intro all taskId
    rw [all]
    exact ⟨rfl, Or.inr trivial⟩

def onePipeBus : SoftwareBus where
  destListHead := fun _ => [⟨true, 0⟩]
  pipeTable := fun _ => ⟨false, 1, 0⟩
  transmitMsg := fun _ => [(0, List.replicate 8 0)]

def schTrick : BaseTrickCFSScheduler where
  appId := 0
  perfectScheduleMode := false

def queuesAfter (calls : List QueueCall) : Simulation where
  iface := {}
  es := { registeredTasks := 1, taskTable := fun _ => 1, appTable := fun _ => ⟨true, 0⟩ }
  queues := fun _ => (Responses.respond TrickCFSQueue.call {} calls).2

theorem triggers_match_open :
    TriggersMatch schTrick onePipeBus 7 (queuesAfter [.openQueue 1 8]) := by
  refine (triggers_match_iff schTrick onePipeBus 7 (queuesAfter [.openQueue 1 8]) (fun _ => rfl)
    (fun _ => ⟨-1, [.openQueue 1 8], rfl⟩) (List.replicate 8 0) rfl).mpr ?_
  intro pipeId member
  have only : pipeId = 0 := List.mem_singleton.mp member
  subst only
  decide

/-- A queue of depth one that already holds a message rejects the copy, and the
trigger stays behind on the owner. -/
theorem full_queue_leaves_trigger :
    ¬ ∀ (scheduler : BaseTrickCFSScheduler) (bus : SoftwareBus) (msgId : Nat) (sim : Simulation),
      (∀ taskId, (sim.es.locateAppRecord taskId).running = true) →
      (∀ pipeId, ∃ myId calls,
        sim.queues pipeId = (Responses.respond TrickCFSQueue.call { myId } calls).2) →
      ∀ data, bus.transmitMsg msgId =
        (targets scheduler bus (bus.destListHead msgId)).map (fun pipeId => (pipeId, data)) →
      TriggersMatch scheduler bus msgId sim := by
  intro always
  have same := always schTrick onePipeBus 7 (queuesAfter [.openQueue 1 8, .send [1]]) (fun _ => rfl)
    (fun _ => ⟨-1, [.openQueue 1 8, .send [1]], rfl⟩) (List.replicate 8 0) rfl 0
  revert same
  decide

end TrickCFS.Proofs.ScheduledMessages
