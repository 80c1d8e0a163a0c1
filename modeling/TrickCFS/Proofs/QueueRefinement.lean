import TrickCFS.Library.Machine
import TrickCFS.Library.Ring
import TrickCFS.BoundedFifo

/-! `TrickCFSQueue` refines the bounded FIFO through every lifetime of the queue.
The head index, the count and the slot flags agree in every reachable state, so
the improper-state branch of `receive` is dead code. -/

namespace TrickCFS.Proofs.QueueRefinement
open TrickCFSQueue

def Carries (slot : Message) (msg : List UInt8) : Prop :=
  slot.hasData = true ∧ slot.size = msg.length ∧ slot.data.take slot.size = msg

/-- The ring of an open queue lays out exactly the queued messages. -/
structure Layout (queue : TrickCFSQueue) (fifo : BoundedFifo) (ring : List Message) : Prop where
  enabled : queue.isEnabled = true
  allocated : queue.messages = some ring
  depth : queue.maxMsgs = fifo.depth
  maxSize : queue.maxSize = fifo.maxSize
  count : queue.numMessages = fifo.queued.length
  slots : ring.length = fifo.depth
  data : ∀ slot ∈ ring, slot.data.length = fifo.maxSize
  holds : Ring.Holds Carries ring queue.ringBufferIdx fifo.queued

def Represents (queue : TrickCFSQueue) : Option BoundedFifo → Prop
  | none => queue.isEnabled = false ∧ queue.messages = none
  | some fifo => ∃ ring, Layout queue fifo ring

variable {queue : TrickCFSQueue} {fifo : BoundedFifo} {ring : List Message}

theorem fresh_layout (queue : TrickCFSQueue) (depth maxSize : Nat) :
    Layout { queue with
        isEnabled := true
        messages := some (List.replicate depth ⟨List.replicate maxSize 0, 0, false⟩)
        maxMsgs := depth
        maxSize := maxSize
        ringBufferIdx := 0
        numMessages := 0 }
      (.empty depth maxSize) (List.replicate depth ⟨List.replicate maxSize 0, 0, false⟩) := by
  refine ⟨rfl, rfl, rfl, rfl, rfl, List.length_replicate, ?_, Ring.Holds.empty _⟩
  intro slot member
  rw [List.eq_of_mem_replicate member]
  exact List.length_replicate

private theorem stored_data {slot : Message} {idx : Nat} (layout : Layout queue fifo ring)
    (sized : slot.data.length = fifo.maxSize) :
    ∀ other ∈ ring.set idx slot, other.data.length = fifo.maxSize := by
  intro other member
  rcases List.mem_or_eq_of_mem_set member with old | rfl
  · exact layout.data other old
  · exact sized

theorem sendBody_layout {msg : List UInt8} (layout : Layout queue fifo ring)
    (short : msg.length ≤ fifo.maxSize) (room : fifo.queued.length < fifo.depth) :
    (queue.sendBody msg).1 = .sent (.ok ()) ∧
      ∃ ring', Layout (queue.sendBody msg).2 (fifo.enqueue msg room short) ring' := by
  have free : fifo.queued.length < ring.length := by rw [layout.slots]; exact room
  let testIdx := Ring.slot ring.length queue.ringBufferIdx fifo.queued.length
  have inside : testIdx < ring.length := layout.holds.room free
  have present : queue.messageAt testIdx = some ring[testIdx] := by
    simp [messageAt, layout.allocated, inside]
  have wide : msg.length ≤ ring[testIdx].data.length := by
    rw [layout.data _ (List.getElem_mem inside)]
    exact short
  have index : (if queue.ringBufferIdx + queue.numMessages ≥ queue.maxMsgs
      then queue.ringBufferIdx + queue.numMessages - queue.maxMsgs
      else queue.ringBufferIdx + queue.numMessages) = testIdx := by
    simp only [testIdx, Ring.slot, layout.count, layout.depth, layout.slots]
  have notFull : queue.numMessages + 1 ≤ queue.maxMsgs := by
    rw [layout.count, layout.depth]
    exact room
  have ran : queue.sendBody msg = (.sent (.ok ()),
      { queue with
        numMessages := queue.numMessages + 1
        messages := queue.storeAt testIdx
          { data := msg ++ ring[testIdx].data.drop msg.length, size := msg.length, hasData := true } }) := by
    simp only [sendBody, notFull, index, present, wide, ite_true]
  rw [ran]
  refine ⟨rfl, ring.set testIdx ⟨msg ++ ring[testIdx].data.drop msg.length, msg.length, true⟩, ?_⟩
  refine ⟨layout.enabled, by simp [storeAt, layout.allocated], layout.depth, layout.maxSize, ?_, ?_, ?_, ?_⟩
  · simp [BoundedFifo.enqueue, layout.count]
  · exact List.length_set.trans layout.slots
  · apply stored_data layout
    have sized := layout.data _ (List.getElem_mem inside)
    simp only [List.length_append, List.length_drop]
    omega
  · exact layout.holds.push free ⟨rfl, rfl, List.take_left⟩

theorem sendBody_full {msg : List UInt8} (layout : Layout queue fifo ring)
    (full : ¬ fifo.queued.length < fifo.depth) :
    queue.sendBody msg = (.sent (.error .queueFull), queue) := by
  have notRoom : ¬ queue.numMessages + 1 ≤ queue.maxMsgs := by
    rw [layout.count, layout.depth]
    omega
  simp only [sendBody, notRoom, ite_false]

theorem front_slot {msg : List UInt8} {rest : List (List UInt8)} (layout : Layout queue fifo ring)
    (oldest : fifo.queued = msg :: rest) :
    queue.ringBufferIdx < ring.length ∧
      ∃ slot, queue.messageAt queue.ringBufferIdx = some slot ∧ slot ∈ ring ∧ Carries slot msg := by
  have holds := layout.holds
  rw [oldest] at holds
  obtain ⟨inside, slot, present, carries⟩ := holds.front
  refine ⟨inside, slot, by simp [messageAt, layout.allocated, present], ?_, carries⟩
  exact List.mem_of_getElem? present

theorem receiveBody_layout {msg : List UInt8} {rest : List (List UInt8)} {buffSize : Nat}
    (layout : Layout queue fifo ring) (oldest : fifo.queued = msg :: rest)
    (wide : msg.length ≤ buffSize) :
    (queue.receiveBody buffSize).1 = .received (.ok msg) ∧
      ∃ ring', Layout (queue.receiveBody buffSize).2 fifo.dequeue ring' := by
  obtain ⟨inside, slot, present, member, hasData, size, bytes⟩ := front_slot layout oldest
  have ran : queue.receiveBody buffSize = (.received (.ok msg),
      { queue with
        messages := queue.storeAt queue.ringBufferIdx { slot with hasData := false }
        numMessages := queue.numMessages - 1
        ringBufferIdx :=
          if queue.ringBufferIdx + 1 ≥ queue.maxMsgs then 0 else queue.ringBufferIdx + 1 }) := by
    have fitting : slot.size ≤ buffSize := by omega
    simp only [receiveBody, present, hasData, fitting, bytes, ite_true]
  rw [ran]
  refine ⟨rfl, ring.set queue.ringBufferIdx { slot with hasData := false }, ?_⟩
  refine ⟨layout.enabled, by simp [storeAt, layout.allocated], layout.depth, layout.maxSize, ?_, ?_, ?_, ?_⟩
  · simp [BoundedFifo.dequeue, layout.count]
  · exact List.length_set.trans layout.slots
  · change ∀ other ∈ _, (Message.data other).length = fifo.maxSize
    exact stored_data layout (layout.data slot member)
  · have holds := layout.holds
    rw [oldest] at holds
    have popped : Ring.Holds Carries (ring.set queue.ringBufferIdx { slot with hasData := false }) _ rest :=
      holds.pop
    simpa only [BoundedFifo.dequeue, oldest, List.tail_cons, Ring.advance, layout.slots, layout.depth]
      using popped

theorem proper_of_represents {spec : Option BoundedFifo} (represents : Represents queue spec) :
    queue.improper = false := by
  cases spec with
  | none => simp [improper, represents.1]
  | some fifo =>
    obtain ⟨ring, layout⟩ := represents
    cases queued : fifo.queued with
    | nil => simp [improper, layout.count, queued]
    | cons msg rest =>
      obtain ⟨_, slot, present, _, hasData, _⟩ := front_slot layout queued
      simp [improper, present, hasData]

private theorem open_refines {spec : Option BoundedFifo} (depth maxSize : Nat)
    (represents : Represents queue spec) :
    (queue.openQueue depth maxSize).1 = .opened queue.myId ∧
      Represents (queue.openQueue depth maxSize).2 (some (spec.getD (.empty depth maxSize))) := by
  cases spec with
  | none =>
    simp only [openQueue, represents.1]
    exact ⟨rfl, _, fresh_layout queue depth maxSize⟩
  | some fifo =>
    obtain ⟨ring, layout⟩ := represents
    simp only [openQueue, layout.enabled, ite_true]
    exact ⟨trivial, ring, layout⟩

private theorem close_refines {spec : Option BoundedFifo} (represents : Represents queue spec) :
    queue.close.1 = .closed (if spec.isSome then 0 else -1) ∧ Represents queue.close.2 none := by
  cases spec with
  | none =>
    simp only [close, represents.1]
    exact ⟨rfl, represents⟩
  | some fifo =>
    obtain ⟨ring, layout⟩ := represents
    simp only [close, layout.enabled, ite_true]
    exact ⟨rfl, rfl, rfl⟩

private theorem send_refines {spec : Option BoundedFifo} (msg : List UInt8)
    (represents : Represents queue spec) :
    (queue.send msg).1 = (BoundedFifo.send msg spec).1 ∧
      Represents (queue.send msg).2 (BoundedFifo.send msg spec).2 := by
  cases spec with
  | none =>
    simp only [TrickCFSQueue.send, sendCheck, represents.1]
    exact ⟨rfl, represents⟩
  | some fifo =>
    obtain ⟨ring, layout⟩ := represents
    by_cases short : msg.length ≤ fifo.maxSize
    · have passed : queue.sendCheck msg.length = none := by
        simp only [sendCheck, layout.enabled, layout.maxSize, short, ite_true]
      by_cases room : fifo.queued.length < fifo.depth
      · simp only [TrickCFSQueue.send, passed, BoundedFifo.send, short, room, dite_true]
        exact sendBody_layout layout short room
      · simp only [TrickCFSQueue.send, passed, BoundedFifo.send, short, room, dite_true, dite_false,
          sendBody_full layout room]
        exact ⟨trivial, ring, layout⟩
    · simp only [TrickCFSQueue.send, sendCheck, layout.enabled, layout.maxSize, short,
        BoundedFifo.send, ite_true, ite_false, dite_false]
      exact ⟨trivial, ring, layout⟩

private theorem receive_refines {spec : Option BoundedFifo} (buffSize : Nat) (timed : Bool)
    (represents : Represents queue spec) :
    (queue.receive buffSize timed).1 = (BoundedFifo.receive buffSize timed spec).1 ∧
      Represents (queue.receive buffSize timed).2 (BoundedFifo.receive buffSize timed spec).2 := by
  cases spec with
  | none =>
    simp only [TrickCFSQueue.receive, receiveCheck, represents.1]
    exact ⟨rfl, represents⟩
  | some fifo =>
    obtain ⟨ring, layout⟩ := represents
    by_cases wide : fifo.maxSize ≤ buffSize
    · have passed : queue.receiveCheck buffSize = none := by
        simp only [receiveCheck, layout.enabled, layout.maxSize, wide, ite_true]
      cases queued : fifo.queued with
      | nil =>
        have none : queue.numMessages = 0 := by simp [layout.count, queued]
        simp only [TrickCFSQueue.receive, passed, none, BoundedFifo.receive, wide, queued, ite_true]
        cases timed <;> exact ⟨rfl, ring, layout⟩
      | cons msg rest =>
        have some : queue.numMessages ≠ 0 := by simp [layout.count, queued]
        have short := fifo.sized msg (by simp [queued])
        have taken := receiveBody_layout layout queued (Nat.le_trans short wide)
        simp only [TrickCFSQueue.receive, passed, some, BoundedFifo.receive, wide, queued,
          ite_true, ite_false]
        exact taken
    · simp only [TrickCFSQueue.receive, receiveCheck, layout.enabled, layout.maxSize, wide,
        BoundedFifo.receive, ite_true, ite_false]
      exact ⟨trivial, ring, layout⟩

theorem call_myId (call : QueueCall) : (queue.call call).2.myId = queue.myId := by
  cases call with
  | openQueue depth maxSize => simp only [TrickCFSQueue.call, openQueue]; split <;> rfl
  | close => simp only [TrickCFSQueue.call, close]; split <;> rfl
  | send msg =>
    simp only [TrickCFSQueue.call, TrickCFSQueue.send, sendBody]
    repeat' split
    all_goals rfl
  | receive buffSize timed =>
    simp only [TrickCFSQueue.call, TrickCFSQueue.receive, receiveBody]
    repeat' split
    all_goals rfl

theorem call_refines {spec : Option BoundedFifo} (call : QueueCall) (represents : Represents queue spec) :
    (queue.call call).1 = (BoundedFifo.call queue.myId spec call).1 ∧
      Represents (queue.call call).2 (BoundedFifo.call queue.myId spec call).2 := by
  cases call with
  | openQueue depth maxSize => exact open_refines depth maxSize represents
  | close => exact close_refines represents
  | send msg => exact send_refines msg represents
  | receive buffSize timed => exact receive_refines buffSize timed represents

theorem respond_refines (myId : Int) (calls : List QueueCall) :
    (Responses.respond TrickCFSQueue.call { myId } calls).1 =
        (Responses.respond (BoundedFifo.call myId) none calls).1 ∧
      Represents (Responses.respond TrickCFSQueue.call { myId } calls).2
        (Responses.respond (BoundedFifo.call myId) none calls).2 := by
  have related : ∀ queue spec call, queue.myId = myId ∧ Represents queue spec →
      (queue.call call).1 = (BoundedFifo.call myId spec call).1 ∧
        (queue.call call).2.myId = myId ∧
        Represents (queue.call call).2 (BoundedFifo.call myId spec call).2 := by
    intro queue spec call ⟨same, represents⟩
    obtain ⟨answer, next⟩ := call_refines call represents
    rw [same] at answer next
    exact ⟨answer, (call_myId call).trans same, next⟩
  have fresh : ({ myId } : TrickCFSQueue).myId = myId ∧ Represents { myId } none := ⟨rfl, rfl, rfl⟩
  obtain ⟨answers, _, final⟩ := Responses.simulation _ related calls fresh
  exact ⟨answers, final⟩

/-- Every sequence of calls on a new queue gets the answers of the bounded FIFO
and leaves the queue representing it, never in the improper state. -/
theorem queue_refines_fifo (myId : Int) (calls : List QueueCall) :
    let concrete := Responses.respond TrickCFSQueue.call { myId } calls
    let specified := Responses.respond (BoundedFifo.call myId) none calls
    concrete.1 = specified.1 ∧ Represents concrete.2 specified.2 ∧ concrete.2.improper = false := by
  obtain ⟨answers, final⟩ := respond_refines myId calls
  exact ⟨answers, final, proper_of_represents final⟩

end TrickCFS.Proofs.QueueRefinement
