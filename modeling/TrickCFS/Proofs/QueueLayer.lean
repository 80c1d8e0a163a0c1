import TrickCFS.Library.Families
import TrickCFS.OsQueues
import TrickCFS.Proofs.QueueRefinement

/-! The queue layer keeps the queues apart. The OSAL addresses a queue by its
index, the manager by the index of the slot, and a deletion by the descriptor
that the creation has stored; for a queue that has been created they agree. -/

namespace TrickCFS.Proofs.QueueLayer
open Responses QueueRefinement TrickCFSQueueManager

variable {maxQueues truncateQueueDepth : Nat} {manager : TrickCFSQueueManager maxQueues} {queueId : Fin maxQueues}

def Creates (queueId : Fin maxQueues) (request : Fin maxQueues × OsQueueCall) : Prop :=
  request.1 = queueId ∧ ∃ taskId maxDepth maxSize, request.2 = .create taskId maxDepth maxSize

def DeletesCreated (past : List (Fin maxQueues × OsQueueCall)) (request : Fin maxQueues × OsQueueCall) : Prop :=
  request.2 = .delete → ∃ creation ∈ past, Creates request.1 creation

def Slot (manager : TrickCFSQueueManager maxQueues) (queueId : Fin maxQueues) (fifo : Option BoundedFifo) : Prop :=
  Represents manager.queues[queueId] fifo ∧ manager.queues[queueId].myId = (queueId : Nat)

theorem slot_new : Slot (.new : TrickCFSQueueManager maxQueues) queueId none := by
  simp [Slot, new, Represents]

/-- A call on a slot is answered by the specified queue, and the other slots stay as they are. -/
theorem onQueue_slot {fifo : Option BoundedFifo} (rejected : QueueOutcome) (call : QueueCall)
    (slot : Slot manager queueId fifo) :
    (manager.onQueue rejected queueId call).1 = (BoundedFifo.call (queueId : Nat) fifo call).1 ∧
      Slot (manager.onQueue rejected queueId call).2 queueId (BoundedFifo.call (queueId : Nat) fifo call).2 ∧
      ∀ other fifo', other ≠ queueId → Slot manager other fifo' →
        Slot (manager.onQueue rejected queueId call).2 other fifo' := by
  obtain ⟨represents, identified⟩ := slot
  obtain ⟨answer, next⟩ := call_refines call represents
  rw [identified] at answer next
  simp only [onQueue, queueId.isLt, dite_true]
  refine ⟨answer, ?_, ?_⟩
  · simpa [Slot] using ⟨next, (call_myId call).trans identified⟩
  · intro other fifo' different slot
    have apart : (queueId : Nat) ≠ other := fun same => different (Fin.ext same.symm)
    simpa [Slot, apart] using slot

/-- The layer stands for the specified queues. A queue that has been created
stores its own index as its descriptor. -/
structure Stands (past : List (Fin maxQueues × OsQueueCall)) (layer : OsQueues maxQueues)
    (queues : Fin maxQueues → OsQueue) : Prop where
  slots : ∀ queueId, Slot layer.manager queueId (queues queueId).fifo
  owners : ∀ queueId : Fin maxQueues, layer.prevPipeTaskOwner queueId = (queues queueId).owner
  stored : ∀ queueId, (∃ creation ∈ past, Creates queueId creation) → layer.implId queueId = (queueId : Nat)

variable {past : List (Fin maxQueues × OsQueueCall)} {layer : OsQueues maxQueues} {queues : Fin maxQueues → OsQueue}

theorem stands_new : Stands [] ({} : OsQueues maxQueues) (fun _ => {}) :=
  ⟨fun _ => slot_new, fun _ => rfl, by simp⟩

/-- What a call on one queue has to establish for all queues to stay as specified. -/
theorem Stands.moved {request : Fin maxQueues × OsQueueCall} {next : OsQueues maxQueues} {queue : OsQueue}
    (stands : Stands past layer queues) (slot : Slot next.manager request.1 queue.fifo)
    (others : ∀ other fifo, other ≠ request.1 → Slot layer.manager other fifo → Slot next.manager other fifo)
    (owner : next.prevPipeTaskOwner request.1 = queue.owner)
    (owners : ∀ other : Fin maxQueues, other ≠ request.1 → next.prevPipeTaskOwner other = layer.prevPipeTaskOwner other)
    (stored : next.implId = layer.implId ∧ (∀ taskId maxDepth maxSize, request.2 ≠ .create taskId maxDepth maxSize) ∨
      next.implId = Function.update layer.implId request.1 ((request.1 : Nat) : Int)) :
    Stands (past ++ [request]) next (Function.update queues request.1 queue) := by
  refine ⟨?_, ?_, ?_⟩
  · intro other
    by_cases same : other = request.1
    · subst same
      simpa using slot
    · rw [Function.update_of_ne same]
      exact others other _ same (stands.slots other)
  · intro other
    by_cases same : other = request.1
    · subst same
      simpa using owner
    · rw [Function.update_of_ne same, owners other same]
      exact stands.owners other
  · intro other ⟨creation, member, creates⟩
    rcases stored with ⟨kept, uncreated⟩ | updated
    · rw [kept]
      apply stands.stored
      rcases List.mem_append.mp member with old | new
      · exact ⟨creation, old, creates⟩
      · obtain ⟨taskId, maxDepth, maxSize, create⟩ := creates.2
        rw [List.mem_singleton.mp new] at create
        exact absurd create (uncreated taskId maxDepth maxSize)
    · rw [updated]
      by_cases same : other = request.1
      · subst same
        exact Function.update_self ..
      · rw [Function.update_of_ne same]
        apply stands.stored
        rcases List.mem_append.mp member with old | new
        · exact ⟨creation, old, creates⟩
        · rw [List.mem_singleton.mp new] at creates
          exact absurd creates.1.symm same

theorem claimed_owner (taskId : Nat) :
    (layer.setPipeOwner queueId taskId).prevPipeTaskOwner queueId = taskId := Function.update_self ..

theorem claimed_other {other : Fin maxQueues} (taskId : Nat) (different : other ≠ queueId) :
    (layer.setPipeOwner queueId taskId).prevPipeTaskOwner other = layer.prevPipeTaskOwner other :=
  Function.update_of_ne (fun same => different (Fin.ext same)) ..

def Answers (truncateQueueDepth : Nat) (past : List (Fin maxQueues × OsQueueCall)) (layer : OsQueues maxQueues)
    (queues : Fin maxQueues → OsQueue) (request : Fin maxQueues × OsQueueCall) : Prop :=
  (layer.call truncateQueueDepth request).1 = (family (OsQueue.call truncateQueueDepth) queues request).1 ∧
    Stands (past ++ [request]) (layer.call truncateQueueDepth request).2
      (family (OsQueue.call truncateQueueDepth) queues request).2

private theorem create_answers (stands : Stands past layer queues) (taskId maxDepth maxSize : Nat) :
    Answers truncateQueueDepth past layer queues (queueId, .create taskId maxDepth maxSize) := by
  obtain ⟨answer, slot, others⟩ := onQueue_slot (.opened (-1))
    (.openQueue (truncatedDepth truncateQueueDepth maxDepth) maxSize) (stands.slots queueId)
  have created : layer.call truncateQueueDepth (queueId, .create taskId maxDepth maxSize) =
      (.status none,
        { layer with
          manager := (layer.manager.openQueue queueId (truncatedDepth truncateQueueDepth maxDepth) maxSize).2
          implId := Function.update layer.implId queueId ((queueId : Nat) : Int) }.setPipeOwner queueId taskId) := by
    have valid : ((queueId : Nat) : Int) ≠ -1 := by omega
    simp only [OsQueues.call, OsQueues.create, openQueue, answer, BoundedFifo.call, valid, ite_false]
  rw [Answers, created]
  refine ⟨rfl, stands.moved ?_ ?_ ?_ ?_ ?_⟩
  · exact slot
  · exact others
  · exact claimed_owner taskId
  · intro other different
    exact claimed_other taskId different
  · exact Or.inr rfl

private theorem delete_answers (few : maxQueues ≤ 2 ^ 31) (stands : Stands past layer queues)
    (created : ∃ creation ∈ past, Creates queueId creation) :
    Answers truncateQueueDepth past layer queues (queueId, .delete) := by
  have descriptor : (layer.implId queueId % 2 ^ 64).toNat = (queueId : Nat) := by
    rw [stands.stored queueId created]
    omega
  obtain ⟨answer, slot, others⟩ := onQueue_slot (.closed (-1)) .close (stands.slots queueId)
  have deleted : layer.call truncateQueueDepth (queueId, .delete) =
      (.ofClose (layer.manager.close queueId).1, { layer with manager := (layer.manager.close queueId).2 }) := by
    simp only [OsQueues.call, OsQueues.delete, descriptor]
  rw [Answers, deleted]
  refine ⟨?_, stands.moved ?_ ?_ ?_ ?_ ?_⟩
  · simp only [close, answer, BoundedFifo.call, family, OsQueue.call, OsQueueAnswer.ofClose]
    cases (queues queueId).fifo <;> rfl
  · exact slot
  · exact others
  · exact stands.owners queueId
  · exact fun _ _ => rfl
  · exact Or.inl ⟨rfl, by simp⟩

private theorem get_answers (stands : Stands past layer queues) (taskId : Nat) (kind : ReceiveKind) (size : Nat) :
    Answers truncateQueueDepth past layer queues (queueId, .get taskId kind size) := by
  obtain ⟨answer, slot, others⟩ := onQueue_slot (.received (.error .error)) (.receive size (kind ≠ .pend))
    (stands.slots queueId)
  refine ⟨?_, stands.moved ?_ ?_ ?_ ?_ ?_⟩
  · exact congrArg (OsQueueAnswer.ofReceive kind) answer
  · exact slot
  · exact others
  · exact claimed_owner taskId
  · intro other different
    exact claimed_other taskId different
  · exact Or.inl ⟨rfl, by simp⟩

private theorem put_answers (stands : Stands past layer queues) (data : List UInt8) :
    Answers truncateQueueDepth past layer queues (queueId, .put data) := by
  obtain ⟨answer, slot, others⟩ := onQueue_slot (.sent (.error .error)) (.send data) (stands.slots queueId)
  refine ⟨?_, stands.moved ?_ ?_ ?_ ?_ ?_⟩
  · exact congrArg OsQueueAnswer.ofSend answer
  · exact slot
  · exact others
  · exact stands.owners queueId
  · exact fun _ _ => rfl
  · exact Or.inl ⟨rfl, by simp⟩

theorem call_answers (few : maxQueues ≤ 2 ^ 31) {request : Fin maxQueues × OsQueueCall}
    (stands : Stands past layer queues) (allowed : DeletesCreated past request) :
    Answers truncateQueueDepth past layer queues request := by
  obtain ⟨queueId, call⟩ := request
  cases call with
  | create taskId maxDepth maxSize => exact create_answers stands taskId maxDepth maxSize
  | delete => exact delete_answers few stands (allowed rfl)
  | get taskId kind size => exact get_answers stands taskId kind size
  | put data => exact put_answers stands data

theorem messages_of_slot {queue : OsQueue} (slot : Slot manager queueId queue.fifo) :
    manager.getNumMessages queueId = queue.numMessages ∧ manager.getMaxMessages queueId = queue.maxMessages := by
  have represents := slot.1
  simp only [getNumMessages, getMaxMessages, queueId.isLt, dite_true, TrickCFSQueue.getNumMessages,
    TrickCFSQueue.getMaxMessages, OsQueue.numMessages, OsQueue.maxMessages]
  cases held : queue.fifo with
  | none =>
    rw [held] at represents
    have closed : manager.queues[(queueId : Nat)].isEnabled = false := represents.1
    simp [closed]
  | some fifo =>
    rw [held] at represents
    obtain ⟨ring, layout⟩ := represents
    have enabled : manager.queues[(queueId : Nat)].isEnabled = true := layout.enabled
    have count : manager.queues[(queueId : Nat)].numMessages = fifo.queued.length := layout.count
    have depth : manager.queues[(queueId : Nat)].maxMsgs = fifo.depth := layout.depth
    simp [enabled, count, depth]

/-- Whatever is asked of the queues of the OSAL, and in whatever order, each of
them answers as a bounded FIFO of its own that only the requests to it reach, and
its pipe belongs to the last task that created it or asked it for a message. -/
theorem queues_independent (maxQueues : Nat) (few : maxQueues ≤ 2 ^ 31) (truncateQueueDepth : Nat)
    (requests : List (Fin maxQueues × OsQueueCall)) (orderly : Orderly DeletesCreated requests)
    (queueId : Fin maxQueues) :
    let layer := respond (OsQueues.call truncateQueueDepth) {} requests
    let queue := respond (OsQueue.call truncateQueueDepth) {} (addressed queueId requests)
    answersTo queueId requests layer.1 = queue.1 ∧
      layer.2.manager.getNumMessages queueId = queue.2.numMessages ∧
      layer.2.manager.getMaxMessages queueId = queue.2.maxMessages ∧
      layer.2.prevPipeTaskOwner queueId = queue.2.owner := by
  have step (past : List (Fin maxQueues × OsQueueCall)) (layer : OsQueues maxQueues)
      (queues : Fin maxQueues → OsQueue) (request : Fin maxQueues × OsQueueCall) (stands : Stands past layer queues)
      (allowed : DeletesCreated past request) : Answers truncateQueueDepth past layer queues request :=
    call_answers few stands allowed
  obtain ⟨answers, stands⟩ := simulation_orderly Stands step orderly stands_new
  obtain ⟨alone, final⟩ := family_independent (OsQueue.call truncateQueueDepth) (fun _ => {}) requests queueId
  have slot := stands.slots queueId
  have owner := stands.owners queueId
  rw [final] at slot owner
  obtain ⟨num, max⟩ := messages_of_slot slot
  exact ⟨(congrArg (answersTo queueId requests) answers).trans alone, num, max, owner⟩

def twoQueues : List (Fin 2 × OsQueueCall) :=
  [(0, .create 5 3 2), (1, .create 6 3 2), (1, .put [7]), (0, .put [8]), (1, .put [9]), (0, .get 6 .check 2),
    (1, .get 4 .pend 2), (0, .delete), (1, .get 4 .check 2)]

theorem twoQueues_orderly : Orderly DeletesCreated twoQueues := by
  refine orderly_cons nofun (orderly_cons nofun (orderly_cons nofun (orderly_cons nofun (orderly_cons nofun
    (orderly_cons nofun (orderly_cons nofun (orderly_cons ?_ (orderly_cons nofun (orderly_nil _)))))))))
  intro _
  exact ⟨(0, .create 5 3 2), by simp, rfl, 5, 3, 2, rfl⟩

/-- It drops the second message, returns the first and is empty then. -/
theorem queues_independent_truncated :
    answersTo 1 twoQueues (respond (OsQueues.call 1) {} twoQueues).1 =
        [.status none, .status none, .status (some .queueFull), .got .success [7], .got .queueEmpty []] ∧
      (respond (OsQueues.call 1) {} twoQueues).2.prevPipeTaskOwner 1 = 4 := by
  obtain ⟨answers, _, _, owner⟩ := queues_independent 2 (by decide) 1 twoQueues twoQueues_orderly 1
  exact ⟨answers, owner⟩

end TrickCFS.Proofs.QueueLayer
