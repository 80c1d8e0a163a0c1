import TrickCFS.TrickCFSQueue

/-! What a queue is for: a bounded first-in first-out list of byte strings. This
is the specification that `TrickCFSQueue` is compared with; it has no ring, no
head index and no slot flags. -/

namespace TrickCFS

structure BoundedFifo where
  depth : Nat
  maxSize : Nat
  queued : List (List UInt8)
  fits : queued.length ≤ depth
  sized : ∀ msg ∈ queued, msg.length ≤ maxSize

namespace BoundedFifo

def empty (depth maxSize : Nat) : BoundedFifo :=
  ⟨depth, maxSize, [], Nat.zero_le _, by simp⟩

def enqueue (fifo : BoundedFifo) (msg : List UInt8) (room : fifo.queued.length < fifo.depth)
    (short : msg.length ≤ fifo.maxSize) : BoundedFifo where
  depth := fifo.depth
  maxSize := fifo.maxSize
  queued := fifo.queued ++ [msg]
  fits := by simpa [Nat.succ_le_iff] using room
  sized := by
    intro other member
    rcases List.mem_append.mp member with old | new
    · exact fifo.sized other old
    · exact List.mem_singleton.mp new ▸ short

def dequeue (fifo : BoundedFifo) : BoundedFifo where
  depth := fifo.depth
  maxSize := fifo.maxSize
  queued := fifo.queued.tail
  fits := by
    have := fifo.fits
    simp only [List.length_tail]
    omega
  sized := fun msg member => fifo.sized msg (List.mem_of_mem_tail member)

def send (msg : List UInt8) : Option BoundedFifo → QueueOutcome × Option BoundedFifo
  | none => (.sent (.error .error), none)
  | some fifo =>
    if short : msg.length ≤ fifo.maxSize then
      if room : fifo.queued.length < fifo.depth then
        (.sent (.ok ()), some (fifo.enqueue msg room short))
      else (.sent (.error .queueFull), some fifo)
    else (.sent (.error .error), some fifo)

def receive (buffSize : Nat) (timed : Bool) : Option BoundedFifo → QueueOutcome × Option BoundedFifo
  | none => (.received (.error .queueIdError), none)
  | some fifo =>
    if fifo.maxSize ≤ buffSize then
      match fifo.queued with
      | [] => (if timed then .received (.error .queueTimeout) else .waits, some fifo)
      | msg :: _ => (.received (.ok msg), some fifo.dequeue)
    else (.received (.error .queueInvalidSize), some fifo)

/-- `none` is a closed queue. -/
def call (myId : Int) (state : Option BoundedFifo) : QueueCall → QueueOutcome × Option BoundedFifo
  | .openQueue depth maxSize => (.opened myId, some (state.getD (empty depth maxSize)))
  | .close => (.closed (if state.isSome then 0 else -1), none)
  | .send msg => send msg state
  | .receive buffSize timed => receive buffSize timed state

end BoundedFifo
end TrickCFS
