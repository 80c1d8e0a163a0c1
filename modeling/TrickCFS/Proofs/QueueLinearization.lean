import TrickCFS.Proofs.QueueLifetimes

/-! The shared queue is linearizable. Each body under the mutex is a call of the
sequential queue at that moment, and so is each refusal at the entry checks; a
receive that has to wait is such a call without effect, whose answer it returns
if its wait times out. -/

namespace TrickCFS
open Responses

/-- One call as a monitor records it where it takes effect, with its answer. -/
structure LoggedCall where
  thread : Option Nat
  call : QueueCall
  answer : QueueOutcome

namespace QueueThreads

/-- The answer of a receive to an empty queue: a timed one gives up in time, the
other goes on waiting. -/
def emptyAnswer (timed : Bool) : QueueOutcome := if timed then .received (.error .queueTimeout) else .waits

def logged (state : QueueThreads) : QueueEvent → List LoggedCall
  | .openQueue depthIn maxSizeIn =>
    [⟨none, .openQueue depthIn maxSizeIn, (state.queue.openQueue depthIn maxSizeIn).1⟩]
  | .close => [⟨none, .close, state.queue.close.1⟩]
  | .send thread msg =>
    match state.queue.sendCheck msg.length with
    | some code => [⟨some thread, .send msg, .sent (.error code)⟩]
    | none => []
  | .sendLocked thread _ =>
    match state.threads thread with
    | .sending msg => [⟨some thread, .send msg, (state.queue.sendBody msg).1⟩]
    | _ => []
  | .receive thread buffSize timed =>
    match state.queue.receiveCheck buffSize with
    | some code => [⟨some thread, .receive buffSize timed, .received (.error code)⟩]
    | none => []
  | .receiveLocked thread =>
    match (state.threads thread).receiver with
    | some (buffSize, timed) =>
      [⟨some thread, .receive buffSize timed,
        if state.queue.numMessages = 0 then emptyAnswer timed else (state.queue.receiveBody buffSize).1⟩]
    | none => []
  | .timeout _ | .spurious _ => []

end QueueThreads

def queueLog : Machine.Monitor QueueThreads QueueEvent (List LoggedCall) where
  start := []
  record := fun log state event => log ++ state.logged event

namespace Proofs.QueueLinearization
open QueueThreads QueueRefinement QueueLifetimes

variable {myId : Int} {state next : QueueThreads} {event : QueueEvent} {log : List LoggedCall} {thread : Nat}
  {buffSize : Nat} {timed : Bool}

section Effects

def TakesEffect (state : QueueThreads) (event : QueueEvent) (next : QueueThreads) : Prop :=
  (∃ entry, state.logged event = [entry] ∧ state.queue.call entry.call = (entry.answer, next.queue)) ∨
    state.logged event = [] ∧ next.queue = state.queue

private theorem send_effect {msg : List UInt8} (taken : (queueThreads myId).step state (.send thread msg) = some next) :
    TakesEffect state (.send thread msg) next := by
  simp only [queueThreads, QueueThreads.step] at taken
  split at taken
  next =>
    split at taken <;> cases taken
    next code refused =>
      refine Or.inl ⟨⟨some thread, .send msg, .sent (.error code)⟩, ?_, ?_⟩
      · simp only [logged, refused]
      · simp only [TrickCFSQueue.call, TrickCFSQueue.send, refused]
    next passed =>
      refine Or.inr ⟨?_, rfl⟩
      simp only [logged, passed]
  next => cases taken

private theorem sent_effect {msg : List UInt8} {signalled : Option Nat} (admitted : AllAdmitted state)
    (sending : state.threads thread = .sending msg) (locked : state.sendLocked thread msg signalled = some next) :
    TakesEffect state (.sendLocked thread signalled) next := by
  have passed := admitted thread
  rw [sending] at passed
  refine Or.inl ⟨⟨some thread, .send msg, (state.queue.sendBody msg).1⟩, ?_, ?_⟩
  · simp only [logged, sending]
  · simp only [TrickCFSQueue.call, TrickCFSQueue.send, sendCheck_none.mpr passed, sendLocked_queue locked]

private theorem receive_effect
    (taken : (queueThreads myId).step state (.receive thread buffSize timed) = some next) :
    TakesEffect state (.receive thread buffSize timed) next := by
  simp only [queueThreads, QueueThreads.step] at taken
  split at taken
  next =>
    split at taken <;> cases taken
    next code refused =>
      refine Or.inl ⟨⟨some thread, .receive buffSize timed, .received (.error code)⟩, ?_, ?_⟩
      · simp only [logged, refused]
      · simp only [TrickCFSQueue.call, TrickCFSQueue.receive, refused]
    next passed =>
      refine Or.inr ⟨?_, rfl⟩
      simp only [logged, passed]
  next => cases taken

private theorem received_effect (admitted : AllAdmitted state)
    (receiving : (state.threads thread).receiver = some (buffSize, timed)) :
    TakesEffect state (.receiveLocked thread) (state.receiveLocked thread buffSize timed) := by
  have passed := receiveCheck_none.mpr ((admitted thread).receiver receiving)
  refine Or.inl ⟨⟨some thread, .receive buffSize timed,
    if state.queue.numMessages = 0 then emptyAnswer timed else (state.queue.receiveBody buffSize).1⟩, ?_, ?_⟩
  · simp only [logged, receiving]
  · simp only [TrickCFSQueue.call, TrickCFSQueue.receive, passed, QueueThreads.receiveLocked, emptyAnswer]
    by_cases empty : state.queue.numMessages = 0
    · simp only [empty, ite_true]
      cases timed <;> rfl
    · simp only [empty, ite_false]

theorem step_effect (admitted : AllAdmitted state) (taken : (queueThreads myId).step state event = some next) :
    TakesEffect state event next := by
  cases event with
  | send thread msg => exact send_effect taken
  | receive thread buffSize timed => exact receive_effect taken
  | openQueue depthIn maxSizeIn =>
    cases taken
    exact Or.inl ⟨_, rfl, rfl⟩
  | close =>
    cases taken
    exact Or.inl ⟨_, rfl, rfl⟩
  | sendLocked thread signalled =>
    cases queueStep_cases taken with
    | sent sending locked => exact sent_effect admitted sending locked
  | receiveLocked thread =>
    cases queueStep_cases taken with
    | received receiving => exact received_effect admitted receiving
  | timeout thread =>
    cases queueStep_cases taken with
    | timedOut => exact Or.inr ⟨rfl, rfl⟩
  | spurious thread => exact Or.inr ⟨rfl, wake_queue taken⟩

end Effects

section Waits

def FoundEmpty (log : List LoggedCall) (thread buffSize : Nat) (timed : Bool) : Prop :=
  ∃ earlier later, log = earlier ++ ⟨some thread, .receive buffSize timed, emptyAnswer timed⟩ :: later ∧
    ∀ entry ∈ later, entry.thread ≠ some thread

theorem FoundEmpty.later {entries : List LoggedCall} (found : FoundEmpty log thread buffSize timed)
    (others : ∀ entry ∈ entries, entry.thread ≠ some thread) :
    FoundEmpty (log ++ entries) thread buffSize timed := by
  obtain ⟨earlier, later, split, rest⟩ := found
  refine ⟨earlier, later ++ entries, by simp [split], ?_⟩
  intro entry member
  rcases List.mem_append.mp member with before | new
  · exact rest entry before
  · exact others entry new

private theorem set_waiting {other : Nat} {control : QueueThread} (away : control.isWaiting = false)
    (waiting : (state.setThread other control).threads thread = .waiting buffSize timed) :
    thread ≠ other ∧ state.threads thread = .waiting buffSize timed := by
  by_cases same : thread = other
  · subst other
    simp only [QueueThreads.setThread, Function.update_self] at waiting
    rw [waiting] at away
    cases away
  · simp only [QueueThreads.setThread, Function.update_of_ne same] at waiting
    exact ⟨same, waiting⟩

private theorem wake_waiting {other : Nat} (woke : state.wake other = some next)
    (waiting : next.threads thread = .waiting buffSize timed) : state.threads thread = .waiting buffSize timed := by
  unfold wake at woke
  split at woke
  next =>
    cases woke
    exact (set_waiting rfl waiting).2
  next => cases woke

private theorem signal_waiting {signalled : Option Nat} (sent : state.signal signalled = some next)
    (waiting : next.threads thread = .waiting buffSize timed) : state.threads thread = .waiting buffSize timed := by
  unfold signal at sent
  split at sent
  · split at sent <;> cases sent
    exact waiting
  · split at sent
    · exact wake_waiting sent waiting
    · cases sent

private theorem send_waiting {other : Nat} {msg : List UInt8}
    (taken : (queueThreads myId).step state (.send other msg) = some next)
    (waiting : next.threads thread = .waiting buffSize timed) :
    thread ≠ other ∧ state.threads thread = .waiting buffSize timed := by
  simp only [queueThreads, QueueThreads.step] at taken
  split at taken
  next idle =>
    split at taken <;> cases taken
    · refine ⟨fun same => ?_, waiting⟩
      rw [same, idle] at waiting
      cases waiting
    · exact set_waiting rfl waiting
  next => cases taken

private theorem receive_waiting {other size : Nat} {deadline : Bool}
    (taken : (queueThreads myId).step state (.receive other size deadline) = some next)
    (waiting : next.threads thread = .waiting buffSize timed) :
    thread ≠ other ∧ state.threads thread = .waiting buffSize timed := by
  simp only [queueThreads, QueueThreads.step] at taken
  split at taken
  next idle =>
    split at taken <;> cases taken
    · refine ⟨fun same => ?_, waiting⟩
      rw [same, idle] at waiting
      cases waiting
    · exact set_waiting rfl waiting
  next => cases taken

private theorem sendLocked_waiting {other : Nat} {msg : List UInt8} {signalled : Option Nat}
    (sent : state.sendLocked other msg signalled = some next)
    (waiting : next.threads thread = .waiting buffSize timed) :
    thread ≠ other ∧ state.threads thread = .waiting buffSize timed := by
  unfold QueueThreads.sendLocked at sent
  dsimp only at sent
  split at sent
  · have before := signal_waiting sent waiting
    exact set_waiting rfl before
  · cases sent
    exact set_waiting rfl waiting

private theorem receiveLocked_waiting {other size : Nat} {deadline : Bool}
    (waiting : (state.receiveLocked other size deadline).threads thread = .waiting buffSize timed) :
    (thread ≠ other ∧ state.threads thread = .waiting buffSize timed) ∨
      (thread = other ∧ size = buffSize ∧ deadline = timed ∧ state.queue.numMessages = 0) := by
  unfold QueueThreads.receiveLocked at waiting
  split at waiting
  next empty =>
    by_cases same : thread = other
    · subst other
      simp only [QueueThreads.setThread, Function.update_self, QueueThread.waiting.injEq] at waiting
      exact Or.inr ⟨rfl, waiting.1, waiting.2, empty⟩
    · simp only [QueueThreads.setThread, Function.update_of_ne same] at waiting
      exact Or.inl ⟨same, waiting⟩
  next => exact Or.inl (set_waiting rfl waiting)

/-- A thread waits since its own last call, and the calls of others do not concern it. -/
theorem waiting_before (taken : (queueThreads myId).step state event = some next)
    (waiting : next.threads thread = .waiting buffSize timed) :
    (state.threads thread = .waiting buffSize timed ∧ ∀ entry ∈ state.logged event, entry.thread ≠ some thread) ∨
      state.logged event = [⟨some thread, .receive buffSize timed, emptyAnswer timed⟩] := by
  cases event with
  | openQueue depthIn maxSizeIn =>
    cases taken
    exact Or.inl ⟨waiting, by simp [logged]⟩
  | close =>
    cases taken
    exact Or.inl ⟨waiting, by simp [logged]⟩
  | send other msg =>
    obtain ⟨different, before⟩ := send_waiting taken waiting
    refine Or.inl ⟨before, ?_⟩
    simp only [logged]
    split <;> simp [Ne.symm different]
  | receive other size deadline =>
    obtain ⟨different, before⟩ := receive_waiting taken waiting
    refine Or.inl ⟨before, ?_⟩
    simp only [logged]
    split <;> simp [Ne.symm different]
  | sendLocked other signalled =>
    cases queueStep_cases taken with
    | sent sending locked =>
      obtain ⟨different, before⟩ := sendLocked_waiting locked waiting
      exact Or.inl ⟨before, by simp [logged, sending, Ne.symm different]⟩
  | receiveLocked other =>
    cases queueStep_cases taken with
    | received receiving =>
      rcases receiveLocked_waiting waiting with ⟨different, before⟩ | ⟨rfl, rfl, rfl, empty⟩
      · exact Or.inl ⟨before, by simp [logged, receiving, Ne.symm different]⟩
      · exact Or.inr (by simp only [logged, receiving, empty, ite_true])
  | timeout other =>
    cases queueStep_cases taken with
    | timedOut => exact Or.inl ⟨(set_waiting rfl waiting).2, by simp [logged]⟩
  | spurious other => exact Or.inl ⟨wake_waiting taken waiting, by simp [logged]⟩

end Waits

structure Linear (myId : Int) (state : QueueThreads) (log : List LoggedCall) : Prop where
  named : state.queue.myId = myId
  admitted : AllAdmitted state
  explained : ∃ spec, Explains (BoundedFifo.call myId) none (log.map (fun entry => (entry.call, entry.answer))) spec ∧
    Represents state.queue spec
  waits : ∀ thread buffSize timed, state.threads thread = .waiting buffSize timed →
    FoundEmpty log thread buffSize timed

theorem step_linear (linear : Linear myId state log) (quiet : QuietClose state event)
    (taken : (queueThreads myId).step state event = some next) : Linear myId next (log ++ state.logged event) := by
  have effect := step_effect linear.admitted taken
  obtain ⟨spec, explains, represents⟩ := linear.explained
  refine ⟨?_, step_admitted linear.admitted quiet taken, ?_, ?_⟩
  · rcases effect with ⟨entry, _, called⟩ | ⟨_, same⟩
    · have kept : (state.queue.call entry.call).2.myId = state.queue.myId := call_myId entry.call
      rw [called] at kept
      exact kept.trans linear.named
    · rw [same]
      exact linear.named
  · rcases effect with ⟨entry, logged, called⟩ | ⟨unlogged, same⟩
    · obtain ⟨answer, after⟩ := call_refines entry.call represents
      rw [called, linear.named] at answer after
      refine ⟨_, ?_, after⟩
      rw [logged, List.map_append]
      exact explains.snoc (Prod.ext answer.symm rfl)
    · rw [unlogged, List.append_nil, same]
      exact ⟨spec, explains, represents⟩
  · intro thread buffSize timed waiting
    rcases waiting_before taken waiting with ⟨before, others⟩ | now
    · exact (linear.waits thread buffSize timed before).later others
    · rw [now]
      exact ⟨log, [], rfl, fun _ member => absurd member List.not_mem_nil⟩

/-- The queue is linearizable as long as it is closed only when no call is under
way on it: the calls in the order in which they take effect, each between its first step and
its return, have the answers of the sequential bounded FIFO, and a receive that can
time out now found it empty when it last took the mutex. -/
theorem calls_linearize (myId : Int) {events : List QueueEvent} {state : QueueThreads} {log : List LoggedCall}
    (ran : ((queueThreads myId).watch queueLog).run events = some (state, log))
    (quiet : (queueThreads myId).Steps QuietClose (queueThreads myId).initial events) :
    (∃ spec, Explains (BoundedFifo.call myId) none (log.map (fun entry => (entry.call, entry.answer))) spec ∧
      Represents state.queue spec) ∧
      ∀ thread next, (queueThreads myId).step state (.timeout thread) = some next →
        ∃ buffSize earlier later, log = earlier ++
            ⟨some thread, .receive buffSize true, .received (.error .queueTimeout)⟩ :: later ∧
          ∀ entry ∈ later, entry.thread ≠ some thread := by
  have linear : Linear myId state log := by
    refine Machine.Steps.last _ (fun watched : QueueThreads × List LoggedCall => Linear myId watched.1 watched.2)
      ?_ ?_ (Machine.Steps.watched _ quiet _) ran
    · intro watched event after linear quiet taken
      obtain ⟨taken, recorded⟩ := (Machine.watch_step _).mp taken
      rw [recorded]
      exact step_linear linear quiet taken
    · exact ⟨rfl, fun _ => trivial, ⟨none, rfl, rfl, rfl⟩, nofun⟩
  refine ⟨linear.explained, ?_⟩
  intro thread next taken
  cases queueStep_cases taken with
  | @timedOut _ buffSize waiting =>
    obtain ⟨earlier, later, split, others⟩ := linear.waits thread buffSize true waiting
    exact ⟨buffSize, earlier, later, split, others⟩

/-- Two timed receives wait, a message comes, and it is the first one that is signalled. -/
def lateTimeout : List QueueEvent :=
  [.openQueue 2 1, .receive 1 4 true, .receiveLocked 1, .receive 2 4 true, .receiveLocked 2, .send 0 [5],
    .sendLocked 0 (some 1)]

private theorem lateTimeout_runs : (((queueThreads 0).watch queueLog).run lateTimeout).isSome = true := rfl

private theorem lateTimeout_quiet : (queueThreads 0).Steps QuietClose (queueThreads 0).initial lateTimeout := by
  iterate 7
    intro next _
    refine ⟨trivial, ?_⟩
  trivial

/-- The second one may still time out with the message in the queue. -/
theorem calls_linearize_late_timeout :
    let final := (((queueThreads 0).watch queueLog).run lateTimeout).get lateTimeout_runs
    final.1.queue.numMessages = 1 ∧
      ∃ buffSize earlier later, final.2 = earlier ++
          ⟨some 2, .receive buffSize true, .received (.error .queueTimeout)⟩ :: later ∧
        ∀ entry ∈ later, entry.thread ≠ some 2 := by
  refine ⟨rfl, ?_⟩
  exact (calls_linearize 0 (Option.some_get lateTimeout_runs).symm lateTimeout_quiet).2 2 _ rfl

end Proofs.QueueLinearization
end TrickCFS
