import TrickCFS.PipeOwnership
import TrickCFS.Proofs.TaskRecords

/-! On which task a trigger is recorded. `prevPipeTaskOwner` names the last task
that created the pipe or began a receive on it, which is a guess at the task
that will dequeue the message. The guess is right as long as a pipe changes
hands only while nothing is on its way through it. -/

namespace TrickCFS.Proofs.TriggerOwnership
open Pipes

variable {perfect : Bool} {es : EsGlobal} {depth : Nat → Nat} {state next : Pipes} {event : PipeEvent}

/-- The task that last created each pipe or began a receive on it, task 0
before any has. -/
def lastClaims : Machine.Monitor Pipes PipeEvent (Nat → Nat) where
  start := fun _ => 0
  record := fun claims _ event =>
    match event with
    | .createQueue taskId pipeId | .receive taskId pipeId => Function.update claims pipeId taskId
    | _ => claims

def entries (state : Pipes) : List (Nat × ScheduledMessage) :=
  state.marking.toList ++ (state.inFlight ++ state.queued)

/-- Nothing is on its way through the pipe and no task receives on it. -/
def Quiet (state : Pipes) (pipeId : Nat) : Prop :=
  (∀ entry ∈ entries state, entry.1 ≠ pipeId) ∧
    ∀ taskId, state.tasks taskId ≠ .completing pipeId ∧ state.tasks taskId ≠ .receiving pipeId

/-- A pipe changes hands only while it is quiet, and no full queue drops a copy. -/
def QuietHandOver (depth : Nat → Nat) (state : Pipes) : PipeEvent → Prop
  | .createQueue taskId pipeId | .receive taskId pipeId =>
    state.owner pipeId = taskId ∨ Quiet state pipeId
  | .put => ∀ entry rest, state.inFlight = entry :: rest → state.length entry.1 < depth entry.1
  | _ => True

/-- A task dequeues and acknowledges only messages recorded on itself, and the
acknowledgement finds them. -/
def Consumed (es : EsGlobal) (state : Pipes) : PipeEvent → Prop
  | .dequeue taskId => ∀ pipeId, state.tasks taskId = .receiving pipeId →
    ∀ entry, state.queued.find? (fun entry => entry.1 = pipeId) = some entry →
      entry.2.recordedOn = taskId
  | .acknowledge taskId _ => ∀ message, state.tasks taskId = .acknowledging message →
    message.recordedOn = taskId ∧
      ((es.locateAppRecord taskId).running = true → message.mid ∈ (state.task taskId).triggeredMIDs)
  | _ => True

def isFor (taskId mid : Nat) (entry : Nat × ScheduledMessage) : Bool :=
  entry.2.recordedOn = taskId && entry.2.mid = mid

/-- The messages marked on a task that it has not acknowledged yet. -/
def waiting (state : Pipes) (taskId mid : Nat) : Nat :=
  (state.inFlight ++ state.queued).countP (isFor taskId mid) + (state.tasks taskId).holding mid

/-- Every trigger that a task holds is for a message on a pipe that it owns, in
its hands, or acknowledged. -/
def Accounted (es : EsGlobal) (state : Pipes) : Prop :=
  (∀ entry ∈ entries state, entry.2.recordedOn = state.owner entry.1) ∧
    ∀ taskId, (es.locateAppRecord taskId).running = true → ∀ mid,
      (state.task taskId).triggeredMIDs.count mid =
        waiting state taskId mid + (state.task taskId).acknowledgedMIDs.count mid

private theorem lookUp_some {pipeId mid : Nat} (taken : state.lookUp pipeId mid = some next) :
    next = { state with marking := some (pipeId, ⟨mid, state.owner pipeId⟩) } := by
  simp only [Pipes.lookUp] at taken
  split at taken
  next => exact (Option.some.inj taken).symm
  next => cases taken

private theorem step_owner (taken : state.step perfect es depth event = some next) :
    next.owner = lastClaims.record state.owner state event := by
  cases event with
  | createQueue taskId pipeId =>
    obtain ⟨_, taken⟩ := Option.ite_none_right_eq_some.mp taken
    cases taken
    rfl
  | lookUp pipeId mid =>
    obtain rfl := lookUp_some taken
    rfl
  | mark =>
    simp only [Pipes.step, Pipes.mark] at taken
    split at taken
    next => cases taken; exact TrickCFSInterface.markTask_owner ..
    next => cases taken
  | put =>
    simp only [Pipes.step, Pipes.put] at taken
    split at taken
    next => cases taken
    next => split at taken <;> (cases taken; rfl)
  | receive taskId pipeId =>
    obtain ⟨_, taken⟩ := Option.ite_none_right_eq_some.mp taken
    cases taken
    rfl
  | dequeue taskId =>
    simp only [Pipes.step, Pipes.dequeue] at taken
    split at taken
    next => split at taken <;> cases taken; rfl
    next => cases taken
  | complete | noMessage | acknowledge =>
    simp only [Pipes.step] at taken
    split at taken
    next => cases taken; rfl
    next => cases taken

private theorem owner_lastClaims {watched : Pipes × (Nat → Nat)}
    (reachable : ((pipes perfect es depth).watch lastClaims).Reachable watched) :
    watched.1.owner = watched.2 := by
  refine Machine.invariant _ (fun watched => watched.1.owner = watched.2) rfl ?_ reachable
  intro watched event after same taken
  obtain ⟨taken, recorded⟩ := (Machine.watch_step _).mp taken
  rw [recorded, step_owner taken, same]

structure Owned (es : EsGlobal) (state : Pipes) : Prop where
  recorded : ∀ entry ∈ entries state, entry.2.recordedOn = state.owner entry.1
  inside : ∀ taskId pipeId, state.tasks taskId = .completing pipeId ∨ state.tasks taskId = .receiving pipeId →
    state.owner pipeId = taskId
  inHand : ∀ taskId message, state.tasks taskId = .acknowledging message → message.recordedOn = taskId
  counts : ∀ taskId, (es.locateAppRecord taskId).running = true → ∀ mid,
    (state.task taskId).triggeredMIDs.count mid =
      waiting state taskId mid + (state.task taskId).acknowledgedMIDs.count mid

namespace Owned

theorem initial : Owned es (pipes perfect es depth).initial where
  recorded := by simp [entries, pipes]
  inside := by simp [pipes]
  inHand := by simp [pipes]
  counts := fun _ _ _ => rfl

private theorem claimed (owned : Owned es state) {taskId pipeId : Nat}
    (quiet : state.owner pipeId = taskId ∨ Quiet state pipeId) : Owned es (state.claim pipeId taskId) := by
  have kept (other : Nat) (used : other = pipeId → ¬ Quiet state pipeId) :
      (state.claim pipeId taskId).owner other = state.owner other := by
    by_cases same : other = pipeId
    · subst other
      have own := quiet.resolve_right (used rfl)
      simp [Pipes.claim, Pipes.owner, TrickCFSInterface.setPipeOwner, ← own]
    · simp [Pipes.claim, Pipes.owner, TrickCFSInterface.setPipeOwner, Function.update_of_ne same]
  refine ⟨?_, ?_, owned.inHand, owned.counts⟩
  · intro entry member
    rw [kept entry.1 (fun same idle => idle.1 entry member same)]
    exact owned.recorded entry member
  · intro other pipe inside
    rw [kept pipe (fun same idle => ?_)]
    · exact owned.inside other pipe inside
    · subst same
      exact inside.elim (idle.2 other).1 (idle.2 other).2

private theorem inside_setPc (owned : Owned es state) {taskId : Nat} {pc : ReceivePc}
    (own : ∀ pipeId, pc = .completing pipeId ∨ pc = .receiving pipeId → state.owner pipeId = taskId)
    (other pipeId : Nat)
    (placed : (state.setPc taskId pc).tasks other = .completing pipeId ∨
      (state.setPc taskId pc).tasks other = .receiving pipeId) : state.owner pipeId = other := by
  by_cases same : other = taskId
  · subst other
    rw [setPc_tasks_same] at placed
    exact own pipeId placed
  · rw [setPc_tasks_other _ _ same] at placed
    exact owned.inside other pipeId placed

private theorem inHand_setPc (owned : Owned es state) {taskId : Nat} {pc : ReceivePc}
    (own : ∀ message, pc = .acknowledging message → message.recordedOn = taskId)
    (other : Nat) (message : ScheduledMessage)
    (holds : (state.setPc taskId pc).tasks other = .acknowledging message) :
    message.recordedOn = other := by
  by_cases same : other = taskId
  · subst other
    rw [setPc_tasks_same] at holds
    exact own message holds
  · rw [setPc_tasks_other _ _ same] at holds
    exact owned.inHand other message holds

private theorem holding_none {pc : ReceivePc} (empty : ∀ message, pc ≠ .acknowledging message) (mid : Nat) :
    pc.holding mid = 0 := by
  cases pc with
  | acknowledging message => exact False.elim (empty message rfl)
  | running => rfl
  | completing => rfl
  | receiving => rfl

private theorem moved (owned : Owned es state) {taskId : Nat} {pc : ReceivePc}
    (before : ∀ message, state.tasks taskId ≠ .acknowledging message)
    (after : ∀ message, pc ≠ .acknowledging message)
    (inside : ∀ pipeId, pc = .completing pipeId ∨ pc = .receiving pipeId → state.owner pipeId = taskId) :
    Owned es (state.setPc taskId pc) := by
  refine ⟨owned.recorded, owned.inside_setPc inside,
    owned.inHand_setPc (fun message holds => False.elim (after message holds)), ?_⟩
  intro other running mid
  have counts := owned.counts other running mid
  have kept : ((state.setPc taskId pc).tasks other).holding mid = (state.tasks other).holding mid := by
    by_cases same : other = taskId
    · subst other
      rw [setPc_tasks_same, holding_none after, holding_none before]
    · rw [setPc_tasks_other _ _ same]
  simp only [waiting, kept] at counts ⊢
  exact counts

private theorem markTask_triggered (perfect : Bool) (iface : TrickCFSInterface) (record : AppRecord)
    (entry : Nat × ScheduledMessage) (taskId : Nat)
    (running : taskId = entry.2.recordedOn → record.running = true) (mid : Nat) :
    let marked := iface.markTask perfect record entry.2.recordedOn entry.2.mid
    (marked.taskStates taskId).triggeredMIDs.count mid =
        (iface.taskStates taskId).triggeredMIDs.count mid + [entry].countP (isFor taskId mid) ∧
      (marked.taskStates taskId).acknowledgedMIDs = (iface.taskStates taskId).acknowledgedMIDs := by
  intro marked
  by_cases same : taskId = entry.2.recordedOn
  · have marked : marked.taskStates taskId = (iface.taskStates taskId).markPipeAsTriggered entry.2.mid := by
      subst same
      exact TrickCFSInterface.markTask_same perfect entry.2.mid iface (running rfl)
    rw [marked]
    simp [isFor, List.count_singleton, ← same]
  · have kept : marked.taskStates taskId = iface.taskStates taskId :=
      TrickCFSInterface.markTask_other perfect entry.2.mid iface same
    rw [kept]
    simp [isFor, Ne.symm same]

private theorem marked (owned : Owned es state) (taken : state.mark perfect es = some next) :
    Owned es next := by
  simp only [Pipes.mark] at taken
  split at taken
  next entry marking =>
    cases taken
    refine ⟨?_, ?_, owned.inHand, ?_⟩
    · intro other member
      have known : other ∈ entries state := by
        simp only [entries, marking, Option.toList, List.mem_append, List.mem_singleton] at member ⊢
        simp only [List.not_mem_nil, false_or] at member
        tauto
      simp only [Pipes.owner, TrickCFSInterface.markTask_owner]
      exact owned.recorded other known
    · intro other pipe inside
      simp only [Pipes.owner, TrickCFSInterface.markTask_owner]
      exact owned.inside other pipe inside
    · intro taskId running mid
      have counts := owned.counts taskId running mid
      obtain ⟨triggered, acknowledged⟩ :=
        markTask_triggered perfect state.iface (es.locateAppRecord entry.2.recordedOn) entry taskId
          (fun same => same ▸ running) mid
      simp only [Pipes.task, waiting, triggered, acknowledged, List.countP_append] at counts ⊢
      omega
  next => cases taken

private theorem transmitted (owned : Owned es state) (room : QuietHandOver depth state .put)
    (taken : state.put depth = some next) : Owned es next := by
  simp only [Pipes.put] at taken
  split at taken
  next => cases taken
  next entry rest flying =>
    rw [if_pos (room entry rest flying)] at taken
    cases taken
    refine ⟨?_, owned.inside, owned.inHand, ?_⟩
    · intro other member
      apply owned.recorded other
      simp only [entries, flying, List.mem_append, List.mem_cons, List.not_mem_nil, or_false] at member ⊢
      tauto
    · intro taskId running mid
      have counts := owned.counts taskId running mid
      simp only [Pipes.task, waiting, flying, List.countP_append, List.countP_cons, List.countP_nil] at counts ⊢
      omega

theorem countP_eraseP {α : Type} {chosen : α → Bool} {items : List α} {item : α}
    (kind : α → Bool) (first : items.find? chosen = some item) :
    (items.eraseP chosen).countP kind + (if kind item then 1 else 0) = items.countP kind := by
  obtain ⟨found, before, after, rfl, skipped⟩ := List.find?_eq_some_iff_append.mp first
  have missed : ∀ other ∈ before, ¬ chosen other = true := by simpa using skipped
  rw [List.eraseP_append_right _ missed, List.eraseP_cons_of_pos found]
  simp only [List.countP_append, List.countP_cons]
  omega

/-- The task that receives on a pipe owns it, so the message it dequeues is its own. -/
private theorem own (owned : Owned es state) {taskId pipeId : Nat} {entry : Nat × ScheduledMessage}
    (inside : state.tasks taskId = .receiving pipeId)
    (found : state.queued.find? (fun entry => entry.1 = pipeId) = some entry) :
    entry.2.recordedOn = taskId := by
  have pipe : entry.1 = pipeId := by simpa using List.find?_some found
  have member : entry ∈ entries state :=
    List.mem_append_right _ (List.mem_append_right _ (List.mem_of_find?_eq_some found))
  rw [owned.recorded entry member, pipe]
  exact owned.inside taskId pipeId (.inr inside)

private theorem dequeued (owned : Owned es state) {taskId pipeId : Nat}
    (inside : state.tasks taskId = .receiving pipeId)
    (taken : state.dequeue taskId pipeId = some next) : Owned es next := by
  simp only [Pipes.dequeue] at taken
  split at taken
  next entry found =>
    cases taken
    have own := owned.own inside found
    refine ⟨?_, ?_, ?_, ?_⟩
    · intro other known
      apply owned.recorded other
      simp only [entries, setPc, List.mem_append] at known ⊢
      exact known.imp id (Or.imp id List.mem_of_mem_eraseP)
    · exact owned.inside_setPc (by simp)
    · apply owned.inHand_setPc
      intro message holds
      cases holds
      exact own
    · intro other running mid
      have counts := owned.counts other running mid
      have erased := countP_eraseP (isFor other mid) found
      have held : (Function.update state.tasks taskId (.acknowledging entry.2) other).holding mid =
          (state.tasks other).holding mid + if isFor other mid entry then 1 else 0 := by
        by_cases same : other = taskId
        · subst other
          simp [ReceivePc.holding, inside, isFor, own]
        · simp [Function.update_of_ne same, isFor, own, Ne.symm same]
      simp only [waiting, setPc, Pipes.task, held, List.countP_append] at counts ⊢
      omega
  next => cases taken

private theorem completed (owned : Owned es state) (taskId : Nat) (currStack : StackInfo) :
    Owned es (state.setTask taskId (TaskIPC.markPipeAsComplete currStack)) := by
  refine ⟨owned.recorded, owned.inside, owned.inHand, ?_⟩
  intro other running mid
  have counts := owned.counts other running mid
  simp only [Pipes.task, setTask, waiting] at counts ⊢
  by_cases same : other = taskId
  · subst other
    have retired := TaskIPC.complete_counts currStack (state.iface.taskStates taskId) mid
    rw [TrickCFSInterface.updateTask_same]
    omega
  · rw [TrickCFSInterface.updateTask_other _ _ same]
    exact counts

private theorem found (owned : Owned es state) {taskId : Nat} {message : ScheduledMessage}
    (holds : state.tasks taskId = .acknowledging message)
    (running : (es.locateAppRecord taskId).running = true) :
    message.mid ∈ (state.task taskId).triggeredMIDs := by
  have counts := owned.counts taskId running message.mid
  simp only [waiting, holds, ReceivePc.holding, ite_true] at counts
  exact List.count_pos_iff.mp (by omega)

private theorem acknowledged (owned : Owned es state) {taskId : Nat} {message : ScheduledMessage}
    (holds : state.tasks taskId = .acknowledging message) (newStack : StackInfo) :
    Owned es ((state.setTask taskId
      (TaskIPC.acknowledgePipeTrigger perfect message.mid newStack)).setPc taskId .running) := by
  refine ⟨owned.recorded, owned.inside_setPc (by simp), owned.inHand_setPc (by simp), ?_⟩
  intro other running mid
  have counts := owned.counts other running mid
  simp only [waiting, Pipes.task] at counts ⊢
  by_cases same : other = taskId
  · subst other
    have found := owned.found holds running
    simp only [Pipes.task] at found
    rw [setPc_tasks_same]
    simp only [holds, ReceivePc.holding] at counts ⊢
    simp only [setPc, setTask, TrickCFSInterface.updateTask_same,
      TaskIPC.acknowledge_found perfect message.mid newStack found, List.count_append,
      List.count_singleton, beq_iff_eq]
    omega
  · rw [setPc_tasks_other _ _ same]
    simp only [setPc, setTask, TrickCFSInterface.updateTask_other _ _ same]
    exact counts

theorem step (owned : Owned es state) (good : QuietHandOver depth state event)
    (taken : state.step perfect es depth event = some next) : Owned es next := by
  cases event with
  | createQueue taskId pipeId =>
    obtain ⟨_, taken⟩ := Option.ite_none_right_eq_some.mp taken
    cases taken
    exact owned.claimed good
  | lookUp pipeId mid =>
    obtain rfl := lookUp_some taken
    refine ⟨?_, owned.inside, owned.inHand, owned.counts⟩
    intro entry member
    rcases List.mem_cons.mp member with rfl | old
    · rfl
    · exact owned.recorded entry (List.mem_append_right _ old)
  | mark => exact owned.marked taken
  | put => exact owned.transmitted good taken
  | receive taskId pipeId =>
    obtain ⟨running, taken⟩ := Option.ite_none_right_eq_some.mp taken
    cases taken
    apply (owned.claimed good).moved (by simp [Pipes.claim, running]) (by simp)
    intro pipe inside
    simp only [ReceivePc.completing.injEq, reduceCtorEq, or_false] at inside
    subst pipe
    exact Function.update_self ..
  | complete taskId currStack =>
    simp only [Pipes.step] at taken
    split at taken
    next pipeId inside =>
      cases taken
      apply (owned.completed taskId currStack).moved (by simp [setTask, inside]) (by simp)
      intro pipe same
      simp only [ReceivePc.receiving.injEq, reduceCtorEq, false_or] at same
      subst pipe
      exact owned.inside taskId pipeId (.inl inside)
    next => cases taken
  | dequeue taskId =>
    simp only [Pipes.step] at taken
    split at taken
    next pipeId inside => exact owned.dequeued inside taken
    next => cases taken
  | noMessage taskId =>
    simp only [Pipes.step] at taken
    split at taken
    next pipeId inside =>
      cases taken
      exact owned.moved (by simp [inside]) (by simp) (by simp)
    next => cases taken
  | acknowledge taskId newStack =>
    simp only [Pipes.step] at taken
    split at taken
    next message holds =>
      cases taken
      exact owned.acknowledged holds newStack
    next => cases taken

theorem consumed (owned : Owned es state) (event : PipeEvent) : Consumed es state event := by
  cases event with
  | dequeue taskId => exact fun pipeId inside entry found => owned.own inside found
  | acknowledge taskId newStack =>
    exact fun message holds => ⟨owned.inHand taskId message holds, owned.found holds⟩
  | createQueue | lookUp | mark | put | receive | complete | noMessage => trivial

end Owned

/-- A MID is recorded on the task that last claimed the pipe when the scheduler
looks it up. That task consumes the message, and no trigger is left without one,
as long as pipes change hands only while they are quiet. -/
theorem triggers_follow_messages (perfect : Bool) (es : EsGlobal) (depth : Nat → Nat) :
    (∀ watched, ((pipes perfect es depth).watch lastClaims).Reachable watched →
      ∀ pipeId mid next, (pipes perfect es depth).step watched.1 (.lookUp pipeId mid) = some next →
        next.marking = some (pipeId, ⟨mid, watched.2 pipeId⟩)) ∧
      ∀ events, (pipes perfect es depth).Steps (QuietHandOver depth) (pipes perfect es depth).initial events →
        (pipes perfect es depth).Steps (Consumed es) (pipes perfect es depth).initial events ∧
          (pipes perfect es depth).States (Accounted es) (pipes perfect es depth).initial events := by
  refine ⟨?_, ?_⟩
  · intro watched reachable pipeId mid next taken
    obtain rfl := lookUp_some taken
    rw [← owner_lastClaims reachable]
  · intro events steps
    have kept : ∀ state event next, Owned es state → QuietHandOver depth state event →
        (pipes perfect es depth).step state event = some next → Owned es next :=
      fun _ _ _ owned good taken => owned.step good taken
    exact ⟨Machine.Steps.imp _ (Owned es) kept (fun _ event owned _ => owned.consumed event) .initial steps,
      Machine.Steps.states _ (Owned es) kept (fun _ owned => ⟨owned.recorded, owned.counts⟩) .initial steps⟩

private def site : StackInfo := .backtrace [0, 1, 2, 100]

private def runningApps : EsGlobal where
  registeredTasks := 3
  taskTable := id
  appTable := fun _ => ⟨true, 0⟩

private def sentTo (taskId : Nat) : List PipeEvent :=
  [.createQueue 1 0, .lookUp 0 7, .mark, .put, .receive taskId 0, .complete taskId site,
    .dequeue taskId, .acknowledge taskId site]

private theorem sentTo_creator : (pipes false runningApps (fun _ => 1)).Steps (QuietHandOver (fun _ => 1))
    (pipes false runningApps (fun _ => 1)).initial (sentTo 1) := by
  intro next taken
  cases taken
  refine ⟨.inr ⟨by simp [entries, pipes], by simp [pipes]⟩, ?_⟩
  intro next taken
  cases taken
  refine ⟨trivial, ?_⟩
  intro next taken
  cases taken
  refine ⟨trivial, ?_⟩
  intro next taken
  cases taken
  refine ⟨fun entry rest _ => Nat.one_pos, ?_⟩
  intro next taken
  cases taken
  refine ⟨.inl rfl, ?_⟩
  intro next taken
  cases taken
  refine ⟨trivial, ?_⟩
  intro next taken
  cases taken
  refine ⟨trivial, ?_⟩
  intro next taken
  exact ⟨trivial, trivial⟩

theorem triggers_follow_messages_creator :
    (∃ watched next, ((pipes false runningApps (fun _ => 1)).watch lastClaims).Reachable watched ∧
      (pipes false runningApps (fun _ => 1)).step watched.1 (.lookUp 0 7) = some next ∧
        next.marking = some (0, ⟨7, 1⟩)) ∧
      (pipes false runningApps (fun _ => 1)).Steps (Consumed runningApps)
          (pipes false runningApps (fun _ => 1)).initial (sentTo 1) ∧
        (pipes false runningApps (fun _ => 1)).States (Accounted runningApps)
          (pipes false runningApps (fun _ => 1)).initial (sentTo 1) := by
  refine ⟨?_, (triggers_follow_messages false runningApps (fun _ => 1)).2 (sentTo 1) sentTo_creator⟩
  have created : ((pipes false runningApps (fun _ => 1)).watch lastClaims).Reachable _ :=
    ⟨[.createQueue 1 0], rfl⟩
  have recorded := (triggers_follow_messages false runningApps (fun _ => 1)).1 _ created 0 7 _ rfl
  exact ⟨_, _, created, rfl, recorded⟩

/-- The creator of a pipe is marked, and another task receives the message. -/
theorem another_task_receives :
    ¬ ∀ (perfect : Bool) (es : EsGlobal) (depth : Nat → Nat) (events : List PipeEvent),
      (pipes perfect es depth).Steps (Consumed es) (pipes perfect es depth).initial events := by
  intro always
  have steps := always false runningApps (fun _ => 1) (sentTo 2)
  obtain ⟨_, steps⟩ := steps _ rfl
  obtain ⟨_, steps⟩ := steps _ rfl
  obtain ⟨_, steps⟩ := steps _ rfl
  obtain ⟨_, steps⟩ := steps _ rfl
  obtain ⟨_, steps⟩ := steps _ rfl
  obtain ⟨_, steps⟩ := steps _ rfl
  obtain ⟨consumed, _⟩ := steps _ rfl
  have same := consumed 0 rfl (0, ⟨7, 1⟩) rfl
  revert same
  decide

end TrickCFS.Proofs.TriggerOwnership
