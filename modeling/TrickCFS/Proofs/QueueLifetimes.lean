import TrickCFS.QueueThreads
import TrickCFS.Proofs.QueueRefinement

/-! Calls that overlap a close. The entry checks of `send` and `receive` are made
without the mutex, so a close and a re-open may come between them and the copy.
The copies of a run are valid exactly when the checks still hold at each body. -/

namespace TrickCFS.Proofs.QueueLifetimes
open QueueRefinement QueueThreads

variable {myId : Int} {state next : QueueThreads}

/-- A body that copies a message uses an open queue, a slot of the allocated
ring, and a length within the slot or within the caller's buffer. -/
def CopyValid (state : QueueThreads) : QueueEvent → Prop
  | .sendLocked thread _ => ∀ msg, state.threads thread = .sending msg →
      state.queue.numMessages + 1 ≤ state.queue.maxMsgs →
      state.queue.isEnabled = true ∧ msg.length ≤ state.queue.maxSize ∧
      ∃ ring, state.queue.messages = some ring ∧
        Ring.slot state.queue.maxMsgs state.queue.ringBufferIdx state.queue.numMessages < ring.length
  | .receiveLocked thread => ∀ buffSize timed,
      (state.threads thread).receiver = some (buffSize, timed) → state.queue.numMessages ≠ 0 →
      state.queue.isEnabled = true ∧
      ∃ ring slot, state.queue.messages = some ring ∧
        ring[state.queue.ringBufferIdx]? = some slot ∧ slot.size ≤ buffSize
  | _ => True

/-- The entry checks would pass again when the body runs: a send's in full, a
receive's for the message that it takes. -/
def StillChecked (state : QueueThreads) : QueueEvent → Prop
  | .sendLocked thread _ => ∀ msg, state.threads thread = .sending msg →
      state.queue.numMessages + 1 ≤ state.queue.maxMsgs → state.queue.sendCheck msg.length = none
  | .receiveLocked thread => ∀ buffSize timed,
      (state.threads thread).receiver = some (buffSize, timed) → state.queue.numMessages ≠ 0 →
      state.queue.isEnabled = true ∧
      ∀ slot, state.queue.messageAt state.queue.ringBufferIdx = some slot → slot.size ≤ buffSize
  | _ => True

/-- The queue is in the representation of some lifetime. -/
def Sound (state : QueueThreads) : Prop := ∃ spec, Represents state.queue spec

theorem sendCheck_none {queue : TrickCFSQueue} {msgLen : Nat} :
    queue.sendCheck msgLen = none ↔ queue.isEnabled = true ∧ msgLen ≤ queue.maxSize := by
  simp only [TrickCFSQueue.sendCheck]
  split
  · split <;> simp_all
  · simp_all

theorem receiveCheck_none {queue : TrickCFSQueue} {buffSize : Nat} :
    queue.receiveCheck buffSize = none ↔ queue.isEnabled = true ∧ queue.maxSize ≤ buffSize := by
  simp only [TrickCFSQueue.receiveCheck]
  split
  · split <;> simp_all
  · simp_all

theorem Sound.layout (sound : Sound state) (enabled : state.queue.isEnabled = true) :
    ∃ fifo ring, Layout state.queue fifo ring := by
  obtain ⟨spec, represents⟩ := sound
  cases spec with
  | none => simp [represents.1] at enabled
  | some fifo => exact ⟨fifo, represents⟩

theorem Sound.call {queue : TrickCFSQueue} (sound : Sound state) (call : QueueCall)
    (same : queue = (state.queue.call call).2) : Sound { state with queue } := by
  obtain ⟨spec, represents⟩ := sound
  exact ⟨_, same ▸ (call_refines call represents).2⟩

@[simp] theorem setThread_queue (thread : Nat) (control : QueueThread) :
    (state.setThread thread control).queue = state.queue := rfl

theorem wake_queue {thread : Nat} (woke : state.wake thread = some next) :
    next.queue = state.queue := by
  unfold wake at woke
  split at woke <;> cases woke
  rfl

theorem signal_queue {signalled : Option Nat} (sent : state.signal signalled = some next) :
    next.queue = state.queue := by
  unfold signal at sent
  split at sent
  · split at sent <;> cases sent
    rfl
  · split at sent
    · exact wake_queue sent
    · cases sent

theorem sendLocked_queue {thread : Nat} {msg : List UInt8} {signalled : Option Nat}
    (sent : state.sendLocked thread msg signalled = some next) :
    next.queue = (state.queue.sendBody msg).2 := by
  unfold QueueThreads.sendLocked at sent
  dsimp only at sent
  split at sent
  · exact signal_queue sent
  · cases sent
    rfl

private theorem send_sound {thread : Nat} {msg : List UInt8} {signalled : Option Nat}
    (sound : Sound state) (checked : state.queue.numMessages + 1 ≤ state.queue.maxMsgs →
      state.queue.sendCheck msg.length = none)
    (sent : state.sendLocked thread msg signalled = some next) : Sound next := by
  have same := sendLocked_queue sent
  by_cases room : state.queue.numMessages + 1 ≤ state.queue.maxMsgs
  · obtain ⟨enabled, short⟩ := sendCheck_none.mp (checked room)
    obtain ⟨fifo, ring, layout⟩ := sound.layout enabled
    obtain ⟨_, ring', written⟩ := sendBody_layout layout (layout.maxSize ▸ short)
      (by rw [← layout.count, ← layout.depth]; exact room)
    exact ⟨some _, ring', same ▸ written⟩
  · obtain ⟨spec, represents⟩ := sound
    have unchanged : (state.queue.sendBody msg).2 = state.queue := by
      simp only [TrickCFSQueue.sendBody, room, ite_false]
    exact ⟨spec, by rw [same, unchanged]; exact represents⟩

private theorem receive_sound {thread buffSize : Nat} {timed : Bool} (sound : Sound state)
    (checked : state.queue.numMessages ≠ 0 → state.queue.isEnabled = true ∧
      ∀ slot, state.queue.messageAt state.queue.ringBufferIdx = some slot → slot.size ≤ buffSize) :
    Sound (state.receiveLocked thread buffSize timed) := by
  unfold QueueThreads.receiveLocked
  split
  · exact sound
  next some =>
    obtain ⟨enabled, short⟩ := checked some
    obtain ⟨fifo, ring, layout⟩ := sound.layout enabled
    obtain ⟨msg, rest, oldest⟩ := List.exists_cons_of_ne_nil
      (fun none => some (by rw [layout.count, none]; rfl) : fifo.queued ≠ [])
    obtain ⟨_, slot, present, _, _, size, _⟩ := front_slot layout oldest
    have wide : msg.length ≤ buffSize := size ▸ short slot present
    obtain ⟨_, ring', taken⟩ := receiveBody_layout layout oldest wide
    exact ⟨Option.some _, ring', taken⟩

inductive QueueStep (state : QueueThreads) : QueueEvent → QueueThreads → Prop
  | opened (depthIn maxSizeIn : Nat) :
      QueueStep state (.openQueue depthIn maxSizeIn)
        { state with queue := (state.queue.openQueue depthIn maxSizeIn).2 }
  | closed : QueueStep state .close { state with queue := state.queue.close.2 }
  | sendRefused (thread : Nat) (msg : List UInt8) : QueueStep state (.send thread msg) state
  | sendPassed {thread msg} (idle : state.threads thread = .idle)
      (passed : state.queue.sendCheck msg.length = none) :
      QueueStep state (.send thread msg) (state.setThread thread (.sending msg))
  | sent {thread msg signalled next} (sending : state.threads thread = .sending msg)
      (locked : state.sendLocked thread msg signalled = some next) :
      QueueStep state (.sendLocked thread signalled) next
  | receiveRefused (thread buffSize : Nat) (timed : Bool) : QueueStep state (.receive thread buffSize timed) state
  | receivePassed {thread buffSize timed} (idle : state.threads thread = .idle)
      (passed : state.queue.receiveCheck buffSize = none) :
      QueueStep state (.receive thread buffSize timed) (state.setThread thread (.receiving buffSize timed))
  | received {thread buffSize timed} (receiving : (state.threads thread).receiver = some (buffSize, timed)) :
      QueueStep state (.receiveLocked thread) (state.receiveLocked thread buffSize timed)
  | timedOut {thread buffSize} (waiting : state.threads thread = .waiting buffSize true) :
      QueueStep state (.timeout thread)
        { state.setThread thread .idle with waiters := state.waiters.erase thread }
  | resumed {thread next} (woke : state.wake thread = some next) : QueueStep state (.spurious thread) next

theorem queueStep_cases {event : QueueEvent} (taken : (queueThreads myId).step state event = some next) :
    QueueStep state event next := by
  simp only [queueThreads] at taken
  cases event with
  | openQueue depthIn maxSizeIn =>
    cases taken
    exact .opened depthIn maxSizeIn
  | close =>
    cases taken
    exact .closed
  | send thread msg =>
    simp only [QueueThreads.step] at taken
    split at taken
    next idle =>
      split at taken <;> cases taken
      next => exact .sendRefused thread msg
      next passed => exact .sendPassed idle passed
    next => cases taken
  | sendLocked thread signalled =>
    simp only [QueueThreads.step] at taken
    split at taken
    next msg sending => exact .sent sending taken
    next => cases taken
  | receive thread buffSize timed =>
    simp only [QueueThreads.step] at taken
    split at taken
    next idle =>
      split at taken <;> cases taken
      next => exact .receiveRefused thread buffSize timed
      next passed => exact .receivePassed idle passed
    next => cases taken
  | receiveLocked thread =>
    simp only [QueueThreads.step] at taken
    split at taken
    next buffSize timed receiving =>
      cases taken
      exact .received receiving
    next => cases taken
  | timeout thread =>
    simp only [QueueThreads.step] at taken
    split at taken <;> cases taken
    next buffSize waiting => exact .timedOut waiting
  | spurious thread => exact .resumed taken

/-- Checked bodies keep the representation; the other steps never break it. -/
theorem step_sound {event : QueueEvent} (sound : Sound state) (checked : StillChecked state event)
    (taken : (queueThreads myId).step state event = some next) : Sound next := by
  cases queueStep_cases taken with
  | opened depth maxSize => exact sound.call (.openQueue depth maxSize) rfl
  | closed => exact sound.call .close rfl
  | sent sending locked => exact send_sound sound (checked _ sending) locked
  | received receiving => exact receive_sound sound (checked _ _ receiving)
  | resumed woke =>
    have same := wake_queue woke
    obtain ⟨spec, represents⟩ := sound
    exact ⟨spec, same ▸ represents⟩
  | sendRefused | sendPassed | receiveRefused | receivePassed | timedOut => exact sound

/-- On a sound queue a copy is valid exactly when its checks still hold. -/
theorem copy_valid_iff {event : QueueEvent} (sound : Sound state) :
    CopyValid state event ↔ StillChecked state event := by
  cases event with
  | sendLocked thread signalled =>
    constructor
    · intro valid msg sending room
      obtain ⟨enabled, short, _⟩ := valid msg sending room
      exact sendCheck_none.mpr ⟨enabled, short⟩
    · intro checked msg sending room
      obtain ⟨enabled, short⟩ := sendCheck_none.mp (checked msg sending room)
      obtain ⟨fifo, ring, layout⟩ := sound.layout enabled
      refine ⟨enabled, short, ring, layout.allocated, ?_⟩
      have free : fifo.queued.length < ring.length := by
        rw [layout.slots, ← layout.count, ← layout.depth]
        exact room
      have inside := layout.holds.room free
      have capacity : ring.length = state.queue.maxMsgs := layout.slots.trans layout.depth.symm
      rw [capacity, ← layout.count] at inside
      rw [capacity]
      exact inside
  | receiveLocked thread =>
    constructor
    · intro valid buffSize timed receiving some
      obtain ⟨enabled, ring, slot, allocated, present, short⟩ := valid buffSize timed receiving some
      refine ⟨enabled, ?_⟩
      intro other found
      have same : Option.some slot = Option.some other := by
        simpa only [TrickCFSQueue.messageAt, allocated, Option.bind_some, present] using found
      cases same
      exact short
    · intro checked buffSize timed receiving some
      obtain ⟨enabled, short⟩ := checked buffSize timed receiving some
      obtain ⟨fifo, ring, layout⟩ := sound.layout enabled
      obtain ⟨msg, rest, oldest⟩ := List.exists_cons_of_ne_nil
        (fun none => some (by rw [layout.count, none]; rfl) : fifo.queued ≠ [])
      obtain ⟨_, slot, present, _⟩ := front_slot layout oldest
      refine ⟨enabled, ring, slot, layout.allocated, ?_, short slot present⟩
      simpa only [TrickCFSQueue.messageAt, layout.allocated, Option.bind_some] using present
  | openQueue | close | send | receive | timeout | spurious => exact Iff.rfl

/-- For every interleaving of senders, receivers, closes and re-opens, all
copies are valid if and only if the checks still hold at every body. -/
theorem copies_valid_iff (myId : Int) (events : List QueueEvent) :
    (queueThreads myId).Steps CopyValid (queueThreads myId).initial events ↔
      (queueThreads myId).Steps StillChecked (queueThreads myId).initial events := by
  apply Machine.steps_iff_steps _ Sound
  · exact fun _ _ _ sound checked taken => step_sound sound checked taken
  · exact fun _ _ _ sound _ => copy_valid_iff sound
  · exact ⟨none, rfl, rfl⟩

/-- A close comes only when no call is between its checks and its return. -/
def QuietClose (state : QueueThreads) : QueueEvent → Prop
  | .close => ∀ thread, state.threads thread = .idle
  | _ => True

/-- What the entry checks established for a thread still holds. -/
def Admitted (queue : TrickCFSQueue) : QueueThread → Prop
  | .idle => True
  | .sending msg => queue.isEnabled = true ∧ msg.length ≤ queue.maxSize
  | .receiving buffSize _ | .waiting buffSize _ | .woken buffSize _ =>
    queue.isEnabled = true ∧ queue.maxSize ≤ buffSize

def AllAdmitted (state : QueueThreads) : Prop :=
  ∀ thread, Admitted state.queue (state.threads thread)

private theorem Admitted.frame {queue after : TrickCFSQueue} {control : QueueThread}
    (admitted : Admitted queue control) (enabled : after.isEnabled = queue.isEnabled)
    (maxSize : after.maxSize = queue.maxSize) : Admitted after control := by
  cases control with
  | idle => trivial
  | sending | receiving | waiting | woken =>
    simp only [Admitted] at admitted ⊢
    rwa [enabled, maxSize]

theorem Admitted.receiver {queue : TrickCFSQueue} {control : QueueThread} {buffSize : Nat}
    {timed : Bool} (admitted : Admitted queue control)
    (receiving : control.receiver = some (buffSize, timed)) :
    queue.isEnabled = true ∧ queue.maxSize ≤ buffSize := by
  cases control with
  | idle | sending | waiting => cases receiving
  | receiving | woken =>
    cases receiving
    exact admitted

private theorem AllAdmitted.set (admitted : AllAdmitted state) (thread : Nat) {control : QueueThread}
    (now : Admitted state.queue control) : AllAdmitted (state.setThread thread control) := by
  intro other
  by_cases same : other = thread
  · subst other
    simpa [QueueThreads.setThread] using now
  · simpa [QueueThreads.setThread, Function.update_of_ne same] using admitted other

private theorem AllAdmitted.returned (admitted : AllAdmitted state) (thread : Nat) :
    AllAdmitted (state.setThread thread .idle) := admitted.set thread trivial

private theorem AllAdmitted.replace {queue : TrickCFSQueue} (admitted : AllAdmitted state)
    (enabled : queue.isEnabled = state.queue.isEnabled) (maxSize : queue.maxSize = state.queue.maxSize) :
    AllAdmitted { state with queue } :=
  fun thread => (admitted thread).frame enabled maxSize

private theorem wake_admitted {thread : Nat} (admitted : AllAdmitted state)
    (woke : state.wake thread = some next) : AllAdmitted next := by
  have before := admitted thread
  unfold wake at woke
  split at woke
  next buffSize timed waiting =>
    cases woke
    rw [waiting] at before
    exact admitted.set thread before
  next => cases woke

private theorem signal_admitted {signalled : Option Nat} (admitted : AllAdmitted state)
    (sent : state.signal signalled = some next) : AllAdmitted next := by
  unfold signal at sent
  split at sent
  · split at sent <;> cases sent
    exact admitted
  · split at sent
    · exact wake_admitted admitted sent
    · cases sent

private theorem sendBody_keeps (queue : TrickCFSQueue) (msg : List UInt8) :
    (queue.sendBody msg).2.isEnabled = queue.isEnabled ∧
      (queue.sendBody msg).2.maxSize = queue.maxSize := by
  unfold TrickCFSQueue.sendBody
  dsimp only
  repeat' split
  all_goals exact ⟨rfl, rfl⟩

private theorem receiveBody_keeps (queue : TrickCFSQueue) (buffSize : Nat) :
    (queue.receiveBody buffSize).2.isEnabled = queue.isEnabled ∧
      (queue.receiveBody buffSize).2.maxSize = queue.maxSize := by
  unfold TrickCFSQueue.receiveBody
  dsimp only
  repeat' split
  all_goals exact ⟨rfl, rfl⟩

private theorem sendLocked_admitted {thread : Nat} {msg : List UInt8} {signalled : Option Nat}
    (admitted : AllAdmitted state) (sent : state.sendLocked thread msg signalled = some next) :
    AllAdmitted next := by
  have kept := sendBody_keeps state.queue msg
  have returned := (admitted.returned thread).replace kept.1 kept.2
  unfold QueueThreads.sendLocked at sent
  dsimp only at sent
  split at sent
  · exact signal_admitted returned sent
  · cases sent
    exact returned

private theorem receiveLocked_admitted {thread buffSize : Nat} {timed : Bool} (admitted : AllAdmitted state)
    (receiving : (state.threads thread).receiver = some (buffSize, timed)) :
    AllAdmitted (state.receiveLocked thread buffSize timed) := by
  unfold QueueThreads.receiveLocked
  split
  · exact admitted.set thread ((admitted thread).receiver receiving)
  · have kept := receiveBody_keeps state.queue buffSize
    exact (admitted.returned thread).replace kept.1 kept.2

theorem step_admitted {event : QueueEvent} (admitted : AllAdmitted state)
    (quiet : QuietClose state event)
    (taken : (queueThreads myId).step state event = some next) : AllAdmitted next := by
  cases queueStep_cases taken with
  | opened depth maxSize =>
    by_cases enabled : state.queue.isEnabled = true
    · simpa only [TrickCFSQueue.openQueue, enabled, ite_true] using admitted
    · intro thread
      have before := admitted thread
      cases control : state.threads thread <;> simp only [control, Admitted] at before ⊢
      all_goals exact False.elim (enabled before.1)
  | closed =>
    intro thread
    simp only [quiet thread, Admitted]
  | sendPassed _ passed => exact admitted.set _ (sendCheck_none.mp passed)
  | receivePassed _ passed => exact admitted.set _ (receiveCheck_none.mp passed)
  | sendRefused | receiveRefused => exact admitted
  | sent _ locked => exact sendLocked_admitted admitted locked
  | received receiving => exact receiveLocked_admitted admitted receiving
  | timedOut => exact admitted.returned _
  | resumed woke => exact wake_admitted admitted woke

theorem admitted_checked {event : QueueEvent} (sound : Sound state)
    (admitted : AllAdmitted state) : StillChecked state event := by
  cases event with
  | sendLocked thread signalled =>
    intro msg sending _
    have now := admitted thread
    rw [sending] at now
    exact sendCheck_none.mpr now
  | receiveLocked thread =>
    intro buffSize timed receiving some
    have now := (admitted thread).receiver receiving
    obtain ⟨fifo, ring, layout⟩ := sound.layout now.1
    obtain ⟨msg, rest, oldest⟩ := List.exists_cons_of_ne_nil
      (fun none => some (by rw [layout.count, none]; rfl) : fifo.queued ≠ [])
    obtain ⟨_, front, present, _, _, size, _⟩ := front_slot layout oldest
    refine ⟨now.1, ?_⟩
    intro slot found
    cases present.symm.trans found
    have short := fifo.sized msg (by simp [oldest])
    rw [size]
    exact Nat.le_trans short (layout.maxSize ▸ now.2)
  | openQueue | close | send | receive | timeout | spurious => trivial

/-- A queue is opened again only so that the calls under way still fit it, and a
call that was under way at the close runs its body only after that. -/
def FittingReopen (state : QueueThreads) : QueueEvent → Prop
  | .openQueue depthIn maxSizeIn => state.queue.isEnabled = false →
      ∀ thread, Admitted (state.queue.openQueue depthIn maxSizeIn).2 (state.threads thread)
  | .sendLocked thread _ | .receiveLocked thread =>
      state.threads thread ≠ .idle → state.queue.isEnabled = true
  | _ => True

/-- While the queue is open, whatever the checks established still holds. -/
def AdmittedOpen (state : QueueThreads) : Prop := state.queue.isEnabled = true → AllAdmitted state

private theorem receiver_busy {control : QueueThread} {buffSize : Nat} {timed : Bool}
    (receiving : control.receiver = some (buffSize, timed)) : control ≠ .idle := by
  rintro rfl
  cases receiving

private theorem sendLocked_keeps {thread : Nat} {msg : List UInt8} {signalled : Option Nat}
    (sent : state.sendLocked thread msg signalled = some next) :
    next.queue.isEnabled = state.queue.isEnabled := by
  rw [sendLocked_queue sent]
  exact (sendBody_keeps state.queue msg).1

private theorem step_admittedOpen {event : QueueEvent} (admitted : AdmittedOpen state)
    (fitting : FittingReopen state event)
    (taken : (queueThreads myId).step state event = some next) : AdmittedOpen next := by
  cases queueStep_cases taken with
  | opened depth maxSize =>
    intro enabled
    cases before : state.queue.isEnabled with
    | false => exact fitting before
    | true =>
      have same : (state.queue.openQueue depth maxSize).2 = state.queue := by
        simp only [TrickCFSQueue.openQueue, before, ite_true]
      simpa only [same] using admitted before
  | closed =>
    intro enabled
    cases before : state.queue.isEnabled <;> simp [TrickCFSQueue.close, before] at enabled
  | sendPassed _ passed =>
    intro enabled
    exact (admitted enabled).set _ (sendCheck_none.mp passed)
  | receivePassed _ passed =>
    intro enabled
    exact (admitted enabled).set _ (receiveCheck_none.mp passed)
  | sendRefused | receiveRefused => exact admitted
  | sent _ locked =>
    intro enabled
    exact sendLocked_admitted (admitted (sendLocked_keeps locked ▸ enabled)) locked
  | received receiving =>
    intro _
    exact receiveLocked_admitted (admitted (fitting (receiver_busy receiving))) receiving
  | timedOut =>
    intro enabled
    exact (admitted enabled).returned _
  | resumed woke =>
    intro enabled
    exact wake_admitted (admitted (wake_queue woke ▸ enabled)) woke

private theorem fitting_checked {event : QueueEvent} (sound : Sound state) (admitted : AdmittedOpen state)
    (fitting : FittingReopen state event) : StillChecked state event := by
  cases event with
  | sendLocked thread signalled =>
    intro msg sending
    have enabled := fitting (by rw [sending]; exact nofun)
    have checked : StillChecked state (.sendLocked thread signalled) := admitted_checked sound (admitted enabled)
    exact checked msg sending
  | receiveLocked thread =>
    intro buffSize timed receiving
    have enabled := fitting (receiver_busy receiving)
    have checked : StillChecked state (.receiveLocked thread) := admitted_checked sound (admitted enabled)
    exact checked buffSize timed receiving
  | openQueue | close | send | receive | timeout | spurious => trivial

/-- A close with a re-open between the checks of a call and its body is harmless
when the call fits the new ring and its body comes after the re-open. -/
theorem fitting_reopens_valid {myId : Int} {events : List QueueEvent}
    (fitting : (queueThreads myId).Steps FittingReopen (queueThreads myId).initial events) :
    (queueThreads myId).Steps CopyValid (queueThreads myId).initial events := by
  refine Machine.Steps.imp _ (fun state => Sound state ∧ AdmittedOpen state) ?_ ?_ ?_ fitting
  · intro state event next ⟨sound, admitted⟩ fitting taken
    exact ⟨step_sound sound (fitting_checked sound admitted fitting) taken,
      step_admittedOpen admitted fitting taken⟩
  · intro state event ⟨sound, admitted⟩ fitting
    exact (copy_valid_iff sound).mpr (fitting_checked sound admitted fitting)
  · exact ⟨⟨none, rfl, rfl⟩, fun _ _ => trivial⟩

private theorem quiet_fitting {event : QueueEvent} (admitted : AllAdmitted state) : FittingReopen state event := by
  have open_unless_idle : ∀ thread, state.threads thread ≠ .idle → state.queue.isEnabled = true := by
    intro thread busy
    have now := admitted thread
    cases control : state.threads thread with
    | idle => exact False.elim (busy control)
    | sending | receiving | waiting | woken =>
      rw [control] at now
      exact now.1
  cases event with
  | openQueue depthIn maxSizeIn =>
    intro disabled thread
    by_cases idle : state.threads thread = .idle
    · rw [idle]
      trivial
    · cases disabled.symm.trans (open_unless_idle thread idle)
  | sendLocked thread signalled => exact open_unless_idle thread
  | receiveLocked thread => exact open_unless_idle thread
  | close | send | receive | timeout | spurious => trivial

/-- As long as a queue is closed only when no call is under way on it, every
copy is valid, whatever depth and size it is opened with again. -/
theorem quiet_closes_valid {myId : Int} {events : List QueueEvent}
    (quiet : (queueThreads myId).Steps QuietClose (queueThreads myId).initial events) :
    (queueThreads myId).Steps CopyValid (queueThreads myId).initial events := by
  apply fitting_reopens_valid
  refine Machine.Steps.imp _ AllAdmitted ?_ ?_ (fun _ => trivial) quiet
  · exact fun _ _ _ admitted quiet taken => step_admitted admitted quiet taken
  · exact fun _ _ admitted _ => quiet_fitting admitted

/-- A message checked against one ring is written into a smaller one. -/
theorem reopened_queue_overrun :
    ¬ ∀ events, (queueThreads 0).Steps CopyValid (queueThreads 0).initial events := by
  intro always
  have steps := always [.openQueue 1 8, .send 0 [1, 2, 3, 4, 5, 6, 7, 8], .close, .openQueue 1 4,
    .sendLocked 0 none]
  obtain ⟨_, steps⟩ := steps _ rfl
  obtain ⟨_, steps⟩ := steps _ rfl
  obtain ⟨_, steps⟩ := steps _ rfl
  obtain ⟨_, steps⟩ := steps _ rfl
  obtain ⟨valid, _⟩ := steps _ rfl
  have short := (valid [1, 2, 3, 4, 5, 6, 7, 8] rfl (by decide)).2.1
  revert short
  decide

end TrickCFS.Proofs.QueueLifetimes
