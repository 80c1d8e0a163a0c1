import Mathlib.Data.Finset.Card
import TrickCFS.Proofs.QueueLifetimes

/-! One open queue under any interleaving of senders and receivers. Nothing is
lost or delivered twice, and no receiver sleeps while a message waits for it:
each queued message has a woken receiver, as long as there are sleeping ones. -/

namespace TrickCFS.Proofs.QueueDeliveries
open QueueRefinement QueueLifetimes QueueThreads

variable {myId : Int} {state next : QueueThreads} {threads : Nat → QueueThread} {waiters : List Nat}
  {woken : Finset Nat} {thread : Nat}

/-- The waiting threads are those on the condition, and the woken ones those on
their way back from it. -/
structure Roster (threads : Nat → QueueThread) (waiters : List Nat) (woken : Finset Nat) : Prop where
  waiting : ∀ thread, thread ∈ waiters ↔ (threads thread).isWaiting = true
  distinct : waiters.Nodup
  resuming : ∀ thread, thread ∈ woken ↔ (threads thread).isWoken = true

namespace Roster

private theorem waiting_not_woken {control : QueueThread} (waits : control.isWaiting = true) :
    control.isWoken = false := by
  cases control <;> first | rfl | cases waits

theorem leave (roster : Roster threads waiters woken) {control : QueueThread}
    (awake : (threads thread).isWaiting = false) (stays : control.isWaiting = false)
    (plain : control.isWoken = false) :
    Roster (Function.update threads thread control) waiters (woken.erase thread) := by
  refine ⟨fun other => ?_, roster.distinct, fun other => ?_⟩
  all_goals by_cases same : other = thread
  · subst other
    simp [roster.waiting, awake, stays]
  · simp [roster.waiting, Function.update_of_ne same]
  · subst other
    simp [plain]
  · simp [roster.resuming, same]

theorem proceed (roster : Roster threads waiters woken) {control : QueueThread}
    (awake : (threads thread).isWaiting = false) (active : (threads thread).isWoken = false)
    (stays : control.isWaiting = false) (plain : control.isWoken = false) :
    Roster (Function.update threads thread control) waiters woken := by
  have absent : thread ∉ woken := by simp [roster.resuming, active]
  have left := roster.leave awake stays plain
  rwa [Finset.erase_eq_of_notMem absent] at left

theorem park (roster : Roster threads waiters woken) {buffSize : Nat} {timed : Bool}
    (awake : (threads thread).isWaiting = false) :
    Roster (Function.update threads thread (.waiting buffSize timed)) (waiters ++ [thread])
      (woken.erase thread) := by
  have absent : thread ∉ waiters := by simp [roster.waiting, awake]
  refine ⟨fun other => ?_, ?_, fun other => ?_⟩
  · by_cases same : other = thread
    · subst other
      simp [QueueThread.isWaiting]
    · simp [roster.waiting, same]
  · exact roster.distinct.append (List.nodup_singleton _) (by simpa using absent)
  · by_cases same : other = thread
    · subst other
      simp [QueueThread.isWoken]
    · simp [roster.resuming, same]

theorem depart (roster : Roster threads waiters woken) (thread : Nat) {control : QueueThread}
    (stays : control.isWaiting = false) :
    (∀ other, other ∈ waiters.erase thread ↔
        (Function.update threads thread control other).isWaiting = true) ∧
      (waiters.erase thread).Nodup := by
  refine ⟨fun other => ?_, roster.distinct.erase _⟩
  rw [roster.distinct.mem_erase_iff]
  by_cases same : other = thread
  · subst other
    simp [stays]
  · simp [roster.waiting, same]

theorem resume (roster : Roster threads waiters woken) (buffSize : Nat) (timed : Bool)
    (waits : (threads thread).isWaiting = true) :
    Roster (Function.update threads thread (.woken buffSize timed)) (waiters.erase thread)
        (insert thread woken) ∧ thread ∉ woken := by
  have ⟨waiting, distinct⟩ := roster.depart thread (rfl : (QueueThread.woken buffSize timed).isWaiting = false)
  refine ⟨⟨waiting, distinct, fun other => ?_⟩, ?_⟩
  · by_cases same : other = thread
    · subst other
      simp [QueueThread.isWoken]
    · simp [roster.resuming, same]
  · simp [roster.resuming, waiting_not_woken waits]

theorem timeOut (roster : Roster threads waiters woken) (waits : (threads thread).isWaiting = true) :
    Roster (Function.update threads thread .idle) (waiters.erase thread) woken := by
  have ⟨waiting, distinct⟩ := roster.depart thread (rfl : QueueThread.idle.isWaiting = false)
  refine ⟨waiting, distinct, fun other => ?_⟩
  by_cases same : other = thread
  · subst other
    rw [roster.resuming, waiting_not_woken waits, Function.update_self]
    rfl
  · simp [roster.resuming, Function.update_of_ne same]

theorem wake (roster : Roster state.threads state.waiters woken) (woke : state.wake thread = some next) :
    next.queue = state.queue ∧ thread ∈ state.waiters ∧
      ∃ woken', Roster next.threads next.waiters woken' ∧ woken.card + 1 = woken'.card := by
  simp only [QueueThreads.wake] at woke
  split at woke
  next buffSize timed waits =>
    cases woke
    have waiting : (state.threads thread).isWaiting = true := by
      rw [waits]
      rfl
    obtain ⟨resumed, absent⟩ := roster.resume buffSize timed waiting
    exact ⟨rfl, (roster.waiting thread).mpr waiting, _, resumed, (Finset.card_insert_of_notMem absent).symm⟩
  next => cases woke

end Roster

/-- Every returned message is one of the accepted ones, each once and in order;
the rest are in the queue. While someone waits, each of these has a woken
receiver. -/
structure Delivering (state : QueueThreads) (history : Deliveries) (fifo : BoundedFifo) (ring : List Message)
    (woken : Finset Nat) : Prop where
  admitted : AllAdmitted state
  layout : Layout state.queue fifo ring
  history : history.accepted = history.returned.map Prod.snd ++ fifo.queued
  roster : Roster state.threads state.waiters woken
  enough : state.waiters ≠ [] → fifo.queued.length ≤ woken.card

namespace Delivering
variable {history : Deliveries} {fifo : BoundedFifo} {ring : List Message}

theorem opened (queue : TrickCFSQueue) (depth maxSize : Nat) (closed : queue.isEnabled = false) :
    Delivering
      { queue := (queue.openQueue depth maxSize).2, threads := fun _ => .idle, waiters := [] }
      {} (.empty depth maxSize) (List.replicate depth ⟨List.replicate maxSize 0, 0, false⟩) ∅ := by
  refine ⟨fun _ => trivial, ?_, rfl, ⟨fun _ => ?_, List.nodup_nil, fun _ => ?_⟩, fun some => absurd rfl some⟩
  · simpa [TrickCFSQueue.openQueue, closed] using fresh_layout queue depth maxSize
  · simp [QueueThread.isWaiting]
  · simp [QueueThread.isWoken]

theorem proceed (delivering : Delivering state history fifo ring woken) {control : QueueThread}
    (awake : (state.threads thread).isWaiting = false) (active : (state.threads thread).isWoken = false)
    (stays : control.isWaiting = false) (plain : control.isWoken = false)
    (admitted : AllAdmitted (state.setThread thread control)) :
    Delivering (state.setThread thread control) history fifo ring woken :=
  ⟨admitted, delivering.layout, delivering.history,
    delivering.roster.proceed awake active stays plain, delivering.enough⟩

end Delivering

private theorem record_quiet {history : Deliveries} {event : QueueEvent} (accepts : state.accepts event = [])
    (returns : state.returns event = []) : deliveries.record history state event = history := by
  simp only [deliveries, accepts, returns, List.append_nil]

private theorem delivers_send {history : Deliveries} {fifo : BoundedFifo} {ring : List Message}
    {msg : List UInt8} {signalled : Option Nat} (delivering : Delivering state history fifo ring woken)
    (sending : state.threads thread = .sending msg) (admitted : AllAdmitted next)
    (taken : state.sendLocked thread msg signalled = some next) :
    ∃ fifo' ring' woken', Delivering next
      (deliveries.record history state (.sendLocked thread signalled)) fifo' ring' woken' := by
  have roster : Roster (Function.update state.threads thread .idle) state.waiters woken :=
    delivering.roster.proceed (by rw [sending]; rfl) (by rw [sending]; rfl) rfl rfl
  by_cases room : fifo.queued.length < fifo.depth
  · have checked := delivering.admitted thread
    rw [sending] at checked
    obtain ⟨sent, ring', layout⟩ := sendBody_layout delivering.layout (delivering.layout.maxSize ▸ checked.2) room
    have accepted : deliveries.record history state (.sendLocked thread signalled) =
        { history with accepted := history.accepted ++ [msg] } := by
      simp [deliveries, accepts, returns, sending, sent]
    have kept : history.accepted ++ [msg] = history.returned.map Prod.snd ++ (fifo.queued ++ [msg]) := by
      rw [delivering.history, List.append_assoc]
    simp only [QueueThreads.sendLocked, sent, QueueThreads.signal] at taken
    rw [accepted]
    split at taken
    · obtain ⟨nobody, taken⟩ := Option.ite_none_right_eq_some.mp taken
      cases taken
      have asleep : state.waiters = [] := List.isEmpty_iff.mp nobody
      exact ⟨_, ring', woken, admitted, layout, kept, roster, fun some => absurd asleep some⟩
    · obtain ⟨_, woke⟩ := Option.ite_none_right_eq_some.mp taken
      obtain ⟨same, member, woken', resumed, more⟩ := Roster.wake roster woke
      refine ⟨_, ring', woken', admitted, by rw [same]; exact layout, kept, resumed, ?_⟩
      intro _
      have before := delivering.enough (List.ne_nil_of_mem member)
      simp only [BoundedFifo.enqueue, List.length_append, List.length_singleton]
      omega
  · have full : state.queue.sendBody msg = (.sent (.error .queueFull), state.queue) :=
      sendBody_full delivering.layout room
    have rejected : deliveries.record history state (.sendLocked thread signalled) = history := by
      refine record_quiet ?_ rfl
      simp [accepts, sending, full]
    simp only [QueueThreads.sendLocked, full] at taken
    cases taken
    rw [rejected]
    exact ⟨fifo, ring, woken, admitted, delivering.layout, delivering.history, roster, delivering.enough⟩

private theorem delivers_receive {history : Deliveries} {fifo : BoundedFifo} {ring : List Message}
    {buffSize : Nat} {timed : Bool} (delivering : Delivering state history fifo ring woken)
    (receiving : (state.threads thread).receiver = some (buffSize, timed))
    (admitted : AllAdmitted (state.receiveLocked thread buffSize timed)) :
    ∃ fifo' ring' woken', Delivering (state.receiveLocked thread buffSize timed)
      (deliveries.record history state (.receiveLocked thread)) fifo' ring' woken' := by
  have awake : (state.threads thread).isWaiting = false := by
    cases control : state.threads thread <;> first | rfl | simp [control, QueueThread.receiver] at receiving
  by_cases none : state.queue.numMessages = 0
  · have quiet : deliveries.record history state (.receiveLocked thread) = history := by
      apply record_quiet rfl
      simp [returns, receiving, none]
    have queued : fifo.queued.length = 0 := delivering.layout.count ▸ none
    simp only [QueueThreads.receiveLocked, none, ite_true] at admitted ⊢
    rw [quiet]
    exact ⟨fifo, ring, _, admitted, delivering.layout, delivering.history, delivering.roster.park awake,
      fun _ => by omega⟩
  · obtain ⟨msg, rest, oldest⟩ := List.exists_cons_of_ne_nil
      (fun empty => none (by rw [delivering.layout.count, empty]; rfl) : fifo.queued ≠ [])
    have wide : msg.length ≤ buffSize := by
      have short := fifo.sized msg (by simp [oldest])
      have checked := (delivering.admitted thread).receiver receiving
      exact Nat.le_trans short (delivering.layout.maxSize ▸ checked.2)
    obtain ⟨received, ring', layout⟩ := receiveBody_layout delivering.layout oldest wide
    have returned : deliveries.record history state (.receiveLocked thread) =
        { history with returned := history.returned ++ [(thread, msg)] } := by
      simp [deliveries, accepts, returns, receiving, none, received]
    simp only [QueueThreads.receiveLocked, none, ite_false] at admitted ⊢
    rw [returned]
    refine ⟨_, ring', _, admitted, layout, ?_, delivering.roster.leave awake rfl rfl, ?_⟩
    · simp [delivering.history, BoundedFifo.dequeue, oldest]
    · intro some
      have before := delivering.enough some
      have fewer := Finset.pred_card_le_card_erase (s := woken) (a := thread)
      simp only [BoundedFifo.dequeue, List.length_tail]
      omega

theorem step_delivers {event : QueueEvent} {history : Deliveries} {fifo : BoundedFifo} {ring : List Message}
    (stays : event ≠ .close) (delivering : Delivering state history fifo ring woken)
    (taken : (queueThreads myId).step state event = some next) :
    ∃ fifo' ring' woken', Delivering next (deliveries.record history state event) fifo' ring' woken' := by
  have quiet : QuietClose state event := by
    cases event <;> trivial
  have admitted := step_admitted delivering.admitted quiet taken
  cases queueStep_cases taken with
  | opened depth maxSize =>
    have same : (state.queue.openQueue depth maxSize).2 = state.queue := by
      simp [TrickCFSQueue.openQueue, delivering.layout.enabled]
    rw [record_quiet rfl rfl]
    exact ⟨fifo, ring, woken, admitted, by rw [same]; exact delivering.layout, delivering.history,
      delivering.roster, delivering.enough⟩
  | closed => exact False.elim (stays rfl)
  | sendRefused | receiveRefused =>
    rw [record_quiet rfl rfl]
    exact ⟨fifo, ring, woken, delivering⟩
  | sendPassed idle | receivePassed idle =>
    rw [record_quiet rfl rfl]
    exact ⟨fifo, ring, woken, delivering.proceed (by rw [idle]; rfl) (by rw [idle]; rfl) rfl rfl admitted⟩
  | sent sending locked => exact delivers_send delivering sending admitted locked
  | received receiving => exact delivers_receive delivering receiving admitted
  | @timedOut thread _ waits =>
    rw [record_quiet rfl rfl]
    have waiting : (state.threads thread).isWaiting = true := by
      rw [waits]
      rfl
    refine ⟨fifo, ring, woken, admitted, delivering.layout, delivering.history,
      delivering.roster.timeOut waiting, ?_⟩
    intro some
    exact delivering.enough (fun none => some (by simp [none]))
  | resumed woke =>
    rw [record_quiet rfl rfl]
    obtain ⟨same, member, woken', roster, more⟩ := delivering.roster.wake woke
    refine ⟨fifo, ring, woken', admitted, by rw [same]; exact delivering.layout, delivering.history, roster, ?_⟩
    intro _
    have before := delivering.enough (List.ne_nil_of_mem member)
    omega

theorem run_delivers {events : List QueueEvent} {watched final : QueueThreads × Deliveries}
    (stays : .close ∉ events)
    (start : ∃ fifo ring woken, Delivering watched.1 watched.2 fifo ring woken)
    (ran : ((queueThreads myId).watch deliveries).runFrom watched events = some final) :
    ∃ fifo ring woken, Delivering final.1 final.2 fifo ring woken := by
  refine Machine.runFrom_preserves_on _ (· ≠ .close)
    (fun watched => ∃ fifo ring woken, Delivering watched.1 watched.2 fifo ring woken) ?_ start ?_ ran
  · intro watched event after ⟨fifo, ring, woken, delivering⟩ opened taken
    obtain ⟨taken, recorded⟩ := (Machine.watch_step _).mp taken
    rw [recorded]
    exact step_delivers opened delivering taken
  · intro event member same
    subst same
    exact stays member

/-- On a queue that stays open: the returned messages are the first of the
accepted ones and the others are still queued; whenever a receiver waits, there
are at least as many woken receivers as queued messages; and a timeout takes
nothing from the queue. -/
theorem no_receiver_sleeps (myId : Int) (depth maxSize : Nat) (events : List QueueEvent)
    (stays : .close ∉ events) (final : QueueThreads) (history : Deliveries)
    (ran : ((queueThreads myId).watch deliveries).run (.openQueue depth maxSize :: events) =
      some (final, history)) :
    (history.returned.map Prod.snd <+: history.accepted ∧
      history.accepted.length = history.returned.length + final.queue.numMessages) ∧
    ((∃ thread, (final.threads thread).isWaiting = true) →
      ∃ woken : Finset Nat, (∀ thread, thread ∈ woken ↔ (final.threads thread).isWoken = true) ∧
        final.queue.numMessages ≤ woken.card) ∧
    ∀ thread next, (queueThreads myId).step final (.timeout thread) = some next →
      next.queue = final.queue ∧ deliveries.record history final (.timeout thread) = history := by
  obtain ⟨opened, first, rest⟩ := (Machine.runFrom_cons _).mp ran
  cases first
  obtain ⟨fifo, ring, woken, delivering⟩ :=
    run_delivers stays ⟨_, _, _, Delivering.opened { myId } depth maxSize rfl⟩ rest
  refine ⟨⟨⟨fifo.queued, delivering.history.symm⟩, ?_⟩, ?_, ?_⟩
  · rw [delivering.history, List.length_append, List.length_map, delivering.layout.count]
  · intro ⟨thread, waits⟩
    have member : thread ∈ final.waiters := (delivering.roster.waiting thread).mpr waits
    refine ⟨woken, delivering.roster.resuming, ?_⟩
    rw [delivering.layout.count]
    exact delivering.enough (List.ne_nil_of_mem member)
  · intro thread next taken
    refine ⟨?_, record_quiet rfl rfl⟩
    cases queueStep_cases taken
    rfl

/-- Two receivers wait, and a message wakes one of them. -/
theorem no_receiver_sleeps_two_receivers :
    ∃ final history, ((queueThreads 0).watch deliveries).run [.openQueue 2 1, .receive 1 4 false,
        .receiveLocked 1, .receive 2 4 true, .receiveLocked 2, .send 0 [5], .sendLocked 0 (some 1)] =
        some (final, history) ∧
      final.queue.numMessages = 1 ∧ (final.threads 2).isWaiting = true ∧
      ∃ woken : Finset Nat, (∀ thread, thread ∈ woken ↔ (final.threads thread).isWoken = true) ∧
        final.queue.numMessages ≤ woken.card := by
  refine ⟨_, _, rfl, rfl, rfl, ?_⟩
  have law := no_receiver_sleeps 0 2 1 [.receive 1 4 false, .receiveLocked 1, .receive 2 4 true,
    .receiveLocked 2, .send 0 [5], .sendLocked 0 (some 1)] (by simp) _ _ rfl
  exact law.2.1 ⟨2, rfl⟩

end TrickCFS.Proofs.QueueDeliveries
