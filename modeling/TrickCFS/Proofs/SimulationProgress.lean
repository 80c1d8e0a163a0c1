import TrickCFS.Library.Behaviour
import TrickCFS.Proofs.PipeAccounts
import TrickCFS.Proofs.StateWrites

/-! What the threads have to do for the simulation to go on, and the parts of a
frame that need nothing else: the hand-over between the main thread and the
scheduler by their event counters. -/

namespace TrickCFS.Proofs.SimulationProgress
open Threads PipeThreads

variable {config : Config} {depth : Nat → Nat} {registeredTasks : Nat} {taskTable priority : Nat → Nat}
  {use : PipeUse}

def InPass (state : PipeThreads) : Prop :=
  state.threads.scheduler = .processing ∨ ∃ taskId mid, state.threads.scheduler = .marking taskId mid

/-- The pipes are used in order, the threads are scheduled fairly, and the apps do
their part unless the interface holds them up: an app that handles a message asks
for the next one in the end, and no message stays in a queue for ever. -/
structure Live (use : PipeUse)
    (behaviour : (pipeThreads config depth registeredTasks taskTable priority).Behaviour) : Prop where
  orderly : ∀ time, use.Orderly depth (behaviour.state time) (behaviour.event time)
  main : behaviour.WeaklyFair (fun event => event = .thread .main)
  scheduler : behaviour.WeaklyFair (fun event => event = .thread .scheduler)
  passes : behaviour.LeadsTo InPass (fun state => ¬ InPass state)
  leaves : ∀ taskId, behaviour.WeaklyFair (fun event => event = .thread (.leave taskId))
  completes : ∀ taskId, behaviour.WeaklyFair (fun event => ∃ stack, event = .thread (.complete taskId stack))
  acknowledges : ∀ taskId,
    behaviour.WeaklyFair (fun event => ∃ mid stack, event = .thread (.acknowledge taskId mid stack))
  returns : ∀ time, ∀ taskId < config.maxTasks, (behaviour.state time).threads.tasks taskId = .running →
    ((behaviour.state time).threads.task taskId).stackList ≠ [] →
    ∃ later, time ≤ later ∧ ((∃ pipeId, behaviour.event later = .thread (.receive taskId pipeId)) ∨
      (behaviour.state later).threads.HeldUp taskId)
  attends : ∀ time, ∀ copy ∈ (behaviour.state time).queued, ∃ later, time ≤ later ∧
    (behaviour.event later = .dequeue (use.owner copy.1) ∧
        (behaviour.state later).receivingOn (use.owner copy.1) = copy.1 ∨
      (behaviour.state later).threads.HeldUp (use.owner copy.1))

theorem threads_step {state next : PipeThreads} {event : PipeThreadEvent}
    (taken : state.step config depth event = some next) :
    (∃ threadEvent, event = .thread threadEvent ∧ state.allows threadEvent = true ∧
        state.threads.step config threadEvent = some next.threads) ∨
      next.threads = state.threads ∧ ∀ threadEvent, event ≠ .thread threadEvent := by
  cases step_cases taken with
  | thread allowed stepped => exact Or.inl ⟨_, rfl, allowed, stepped⟩
  | put | dropped | post | lost | dequeue => exact Or.inr ⟨rfl, by simp⟩

theorem thread_taken {state next : PipeThreads} {event : PipeThreadEvent} {threadEvent : ThreadEvent}
    (taken : state.step config depth event = some next) (byThread : event = .thread threadEvent) :
    state.allows threadEvent = true ∧ state.threads.step config threadEvent = some next.threads := by
  subst byThread
  rcases threads_step taken with ⟨_, same, allowed, stepped⟩ | ⟨_, none⟩
  · cases same
    exact ⟨allowed, stepped⟩
  · exact absurd rfl (none threadEvent)

def Placeable (config : Config) (threads : Threads) : Prop :=
  ∀ taskId, threads.tasks taskId ≠ .running ∨ (threads.task taskId).stackList ≠ [] → taskId < config.maxTasks

private theorem unplaced_move {threads : Threads} {event : ThreadEvent} {taskId : Nat} {record : TaskIPC} {pc : TaskPc}
    (others : event.taskOf ≠ some taskId) (moved : Move config threads event taskId record pc) :
    pc = threads.tasks taskId ∧ record.stackList = (threads.task taskId).stackList := by
  cases moved with
  | stay | cleared | marked | continued | abandoned => exact ⟨rfl, rfl⟩
  | updated => exact ⟨rfl, ((threads.task taskId).updateTaskTimes_lists config.cycleTics).2.1⟩
  | received | completed | acknowledged | noMessage | undelayed | delayed | left => exact absurd rfl others

def Announced (threads : Threads) : Prop :=
  ∀ taskId announced, (threads.tasks taskId).announced = some announced →
    (threads.task taskId).state = announced ∨ (threads.task taskId).state = .taskContinue

private theorem announced_move {threads : Threads} {event : ThreadEvent} {taskId : Nat} {record : TaskIPC}
    {pc : TaskPc} (running : ∀ taskId, (threads.es.locateAppRecord taskId).running = true)
    (announced : Announced threads) (moved : Move config threads event taskId record pc) {value : TaskState}
    (asks : pc.announced = some value) : record.state = value ∨ record.state = .taskContinue := by
  have before := announced taskId value
  cases moved with
  | stay | cleared | marked => exact before asks
  | updated =>
    rcases (threads.task taskId).updateTaskTimes_state config.cycleTics with same | ⟨_, released⟩
    · rw [same]
      exact before asks
    · exact Or.inr released
  | continued => exact Or.inr rfl
  | abandoned _ dead => cases (running taskId).symm.trans dead
  | received | noMessage | undelayed => simp [TaskPc.announced] at asks
  | completed =>
    rw [TaskIPC.complete_state]
    split at asks
    next waits =>
      cases asks
      rw [Bool.and_eq_true] at waits
      exact Or.inl (if_pos waits.2)
    next => simp [TaskPc.announced] at asks
  | acknowledged =>
    rw [TaskIPC.acknowledge_state]
    split at asks
    next waits =>
      cases asks
      rw [Bool.and_eq_true, decide_eq_true_eq] at waits
      exact Or.inl (if_pos ⟨waits.2, waits.1⟩)
    next => simp [TaskPc.announced] at asks
  | delayed =>
    cases asks
    exact Or.inl rfl
  | left _ loop =>
    rw [loop.away] at asks
    cases asks

structure Sound (config : Config) (use : PipeUse) (state : PipeThreads) : Prop where
  reconciled : Reconciled use state
  locked : LockStep state.threads
  untimed : Untimed config state.threads.main
  unstopped : state.threads.exitCmd = false
  placeable : Placeable config state.threads
  announced : Announced state.threads

theorem Sound.step {state next : PipeThreads} {event : PipeThreadEvent} (sound : Sound config use state)
    (orderly : use.Orderly depth state event) (taken : state.step config depth event = some next) :
    Sound config use next := by
  have reconciled := reconciled_step sound.untimed.unexpired sound.reconciled orderly taken
  rcases threads_step taken with ⟨threadEvent, rfl, _, stepped⟩ | ⟨same, _⟩
  · refine ⟨reconciled, sound.locked.step_preserves stepped, untimed_step sound.untimed stepped, ?_, ?_, ?_⟩
    · rw [(step_fixed stepped).2]
      exact sound.unstopped
    · intro taskId away
      by_cases byTask : threadEvent.taskOf = some taskId
      · exact task_inside byTask stepped
      · have kept := unplaced_move byTask (step_moves stepped taskId)
        rw [kept.1, kept.2] at away
        exact sound.placeable taskId away
    · intro taskId value asks
      exact announced_move sound.reconciled.running sound.announced (step_moves stepped taskId) asks
  · refine ⟨reconciled, ?_, ?_, ?_, ?_, ?_⟩
    all_goals rw [same]
    · exact sound.locked
    · exact sound.untimed
    · exact sound.unstopped
    · exact sound.placeable
    · exact sound.announced

def recordsLeft (config : Config) : MainPc → Nat
  | .updating ii => config.maxTasks + 1 - ii
  | _ => 0

section Steps
variable {state next : PipeThreads} {event : PipeThreadEvent}

def Unblocked : MainPc → Prop
  | .scanning _ | .woken _ | .timedOut _ _ | .updating _ => True
  | .reading | .waiting _ _ | .returned => False

theorem mainStep_enabled {threads : Threads} (unblocked : Unblocked threads.main) :
    (threads.mainStep config).isSome = true := by
  cases main : threads.main with
  | scanning | woken | timedOut | updating => simp [mainStep, main]
  | reading | waiting | returned =>
    rw [main] at unblocked
    exact unblocked.elim

theorem schedulerStep_enabled {threads : Threads}
    (posted : threads.scheduler = .waiting → threads.iface.triggerMain ≠ 0) :
    (threads.schedulerStep config).isSome = true := by
  cases scheduler : threads.scheduler with
  | waiting => simp [schedulerStep, scheduler, posted scheduler]
  | checking =>
    simp only [schedulerStep, scheduler]
    split <;> rfl
  | iterating entries => cases entries <;> simp [schedulerStep, scheduler]
  | starting | processing | marking | polling | completing => simp [schedulerStep, scheduler]

/-- Only its own steps move the scheduler, but for the sends of a pass. -/
theorem scheduler_kept (taken : state.step config depth event = some next) (away : event ≠ .thread .scheduler)
    (outside : state.threads.scheduler ≠ .processing) : next.threads.scheduler = state.threads.scheduler := by
  rcases threads_step taken with ⟨threadEvent, rfl, _, stepped⟩ | ⟨same, _⟩
  · have notScheduler : threadEvent ≠ .scheduler := by
      rintro rfl
      exact away rfl
    rcases (step_scheduler notScheduler stepped).2 with same | ⟨processing, _⟩
    · exact same
    · exact absurd processing outside
  · rw [same]

theorem main_kept (taken : state.step config depth event = some next) (away : event ≠ .thread .main)
    (awake : ∀ ii remainingTime, state.threads.main ≠ .waiting ii remainingTime) :
    next.threads.main = state.threads.main := by
  rcases threads_step taken with ⟨threadEvent, rfl, _, stepped⟩ | ⟨same, _⟩
  · have notMain : threadEvent ≠ .main := by
      rintro rfl
      exact away rfl
    rcases step_main notMain stepped with same | ⟨_, _, waiting, _⟩
    · exact same
    · exact absurd waiting (awake _ _)
  · rw [same]

theorem counters_kept (taken : state.step config depth event = some next) (notMain : event ≠ .thread .main)
    (notScheduler : event ≠ .thread .scheduler) :
    next.threads.iface.isMainCompleteTrigger = state.threads.iface.isMainCompleteTrigger ∧
      next.threads.iface.triggerMain = state.threads.iface.triggerMain := by
  rcases threads_step taken with ⟨threadEvent, rfl, _, stepped⟩ | ⟨same, _⟩
  · cases byTask : threadEvent.taskOf with
    | some taskId =>
      have roles := taskEvent_roles byTask stepped
      exact ⟨roles.isMainCompleteTrigger, roles.triggerMain⟩
    | none =>
      cases threadEvent with
      | main => exact absurd rfl notMain
      | scheduler => exact absurd rfl notScheduler
      | mainTimeout | mainSpurious | startRun | send =>
        simp only [Threads.step] at stepped
        split at stepped <;> simp only [reduceCtorEq, Option.some.injEq] at stepped
        rw [← stepped]
        exact ⟨rfl, rfl⟩
      | createQueue | receive | complete | acknowledge | noMessage | delay | leave => cases byTask
  · rw [same]
    exact ⟨rfl, rfl⟩

theorem pass_ends (taken : state.step config depth event = some next) (inside : InPass state)
    (outside : ¬ InPass next) : next.threads.scheduler = (state.threads.beginSignal config).scheduler := by
  rcases threads_step taken with ⟨threadEvent, _, _, stepped⟩ | ⟨same, _⟩
  · by_cases byScheduler : threadEvent = .scheduler
    · subst byScheduler
      simp only [InPass] at outside
      generalize next.threads = threads at stepped outside ⊢
      cases schedulerStep_cases stepped with
      | began => rfl
      | woken | marked => exact absurd (Or.inl rfl) outside
      | finished same | entered same | visited same | undelayed same | granted same | acknowledged same
      | polled same | checked same | abandoned same | completed same => simp [InPass, same] at inside
    · rcases (step_scheduler byScheduler stepped).2 with same | ⟨_, marking⟩
      · exact absurd (by simpa only [InPass, same] using inside) outside
      · exact absurd (Or.inr marking) outside
  · exact absurd (by simpa only [InPass, same] using inside) outside

end Steps

theorem step_beyond {state : PipeThreads} {threadEvent : ThreadEvent} {taskId : Nat}
    (byTask : threadEvent.taskOf = some taskId) (beyond : config.maxTasks ≤ taskId) :
    state.step config depth (.thread threadEvent) = none := by
  cases taken : state.step config depth (.thread threadEvent) with
  | none => rfl
  | some next => exact absurd (task_inside byTask (thread_taken taken rfl).2) (Nat.not_lt.mpr beyond)

theorem task_moves {state next : PipeThreads} {event : PipeThreadEvent}
    (taken : state.step config depth event = some next) (taskId : Nat) :
    (∃ threadEvent, event = .thread threadEvent ∧ state.allows threadEvent = true ∧
        Move config state.threads threadEvent taskId (next.threads.task taskId) (next.threads.tasks taskId)) ∨
      next.threads = state.threads := by
  rcases threads_step taken with ⟨threadEvent, isThread, allowed, stepped⟩ | ⟨same, _⟩
  · exact Or.inl ⟨threadEvent, isThread, allowed, step_moves stepped taskId⟩
  · exact Or.inr same

theorem released_move {threads : Threads} {event : ThreadEvent} {taskId : Nat} {record : TaskIPC}
    {pc after : TaskPc} (running : ∀ taskId, (threads.es.locateAppRecord taskId).running = true)
    (waits : pc.announced.isSome = true) (here : threads.tasks taskId = pc)
    (released : (threads.task taskId).state = .taskContinue) (stays : event ≠ .leave taskId)
    (moved : Move config threads event taskId record after) : after = pc ∧ record.state = .taskContinue := by
  subst here
  cases moved with
  | stay | cleared | marked => exact ⟨rfl, released⟩
  | updated => exact ⟨rfl, by simp [TaskIPC.updateTaskTimes, released]⟩
  | continued => exact ⟨rfl, rfl⟩
  | abandoned _ dead => cases (running taskId).symm.trans dead
  | received place | completed place | acknowledged place | noMessage place | undelayed place | delayed place =>
    rw [place] at waits
    cases waits
  | left => exact absurd rfl stays

theorem acknowledge_enabled {state : PipeThreads} {taskId mid : Nat} (sound : Sound config use state)
    (dequeued : state.dequeued taskId = some mid) :
    ∃ event, (∃ read stack, event = .thread (.acknowledge taskId read stack)) ∧
      (state.step config depth event).isSome = true := by
  have receiving := (sound.reconciled.tended taskId).reading (by simp [dequeued])
  have inside : taskId < config.maxTasks := sound.placeable taskId (Or.inl (by simp [receiving]))
  refine ⟨_, ⟨mid, use.callSite taskId, rfl⟩, ?_⟩
  simp [PipeThreads.step, allows, Threads.step, taskStep, inside, receiving, dequeued]

theorem dequeued_kept {state next : PipeThreads} {event : PipeThreadEvent} {taskId mid : Nat}
    (taken : state.step config depth event = some next) (dequeued : state.dequeued taskId = some mid)
    (unread : ∀ read stack, event ≠ .thread (.acknowledge taskId read stack)) :
    next.dequeued taskId = some mid := by
  cases step_cases taken with
  | @thread threadEvent threads =>
    change (state.follow threadEvent).dequeued taskId = some mid
    cases threadEvent with
    | acknowledge target read stack =>
      have different : taskId ≠ target := by
        rintro rfl
        exact unread read stack rfl
      simpa [follow, different] using dequeued
    | _ => exact dequeued
  | put | dropped | post | lost => exact dequeued
  | @dequeue target copy _ _ free =>
    have different : taskId ≠ target := by
      rintro rfl
      cases free.symm.trans dequeued
    simpa [different] using dequeued

theorem handles_step {state next : PipeThreads} {event : PipeThreadEvent} {taskId : Nat}
    (taken : state.step config depth event = some next) (handles : (state.threads.task taskId).stackList ≠ [])
    (incomplete : ∀ stack, event ≠ .thread (.complete taskId stack)) :
    (next.threads.task taskId).stackList ≠ [] := by
  rcases task_moves taken taskId with ⟨threadEvent, rfl, _, moved⟩ | unmoved
  · generalize next.threads.task taskId = record at moved ⊢
    generalize next.threads.tasks taskId = pc at moved
    cases moved with
    | updated =>
      rw [((state.threads.task taskId).updateTaskTimes_lists config.cycleTics).2.1]
      exact handles
    | completed => exact absurd rfl (incomplete _)
    | @acknowledged _ mid newStack =>
      by_cases found : mid ∈ (state.threads.task taskId).triggeredMIDs
      · rw [TaskIPC.acknowledge_found _ mid newStack found]
        simp
      · rw [TaskIPC.acknowledge_missing _ mid newStack found]
        exact handles
    | stay | cleared | marked | continued | abandoned | received | noMessage | undelayed | delayed | left =>
      exact handles
  · rw [unmoved]
    exact handles

theorem filter_eraseP {items : List (Nat × Nat)} {chosen : Nat × Nat → Bool} {item : Nat × Nat}
    (found : items.find? chosen = some item) :
    items.filter chosen = item :: (items.eraseP chosen).filter chosen ∧
      ∀ kind : Nat × Nat → Bool, kind item = false → (items.eraseP chosen).filter kind = items.filter kind := by
  obtain ⟨isChosen, first, rest, rfl, earlier⟩ := List.find?_eq_some_iff_append.mp found
  have missed : ∀ copy ∈ first, ¬ chosen copy = true := fun copy member => by simpa using earlier copy member
  rw [List.eraseP_append_right _ missed, List.eraseP_cons_of_pos isChosen]
  have none : first.filter chosen = [] := List.filter_eq_nil_iff.mpr missed
  exact ⟨by simp [none, isChosen], fun kind other => by simp [other]⟩

/-- At most `count` messages of the pipe are taken out before a copy of the message. -/
def Ahead (pipeId mid count : Nat) (state : PipeThreads) : Prop :=
  ∃ before after, state.queued.filter (fun copy => copy.1 = pipeId) = before ++ (pipeId, mid) :: after ∧
    before.length ≤ count

theorem Ahead.of_mem {state : PipeThreads} {copy : Nat × Nat} (member : copy ∈ state.queued) :
    ∃ count, Ahead copy.1 copy.2 count state := by
  have kept : copy ∈ state.queued.filter (fun other => other.1 = copy.1) := by simp [member]
  obtain ⟨before, after, split⟩ := List.append_of_mem kept
  exact ⟨before.length, before, after, split, Nat.le_refl _⟩

theorem Ahead.mem {state : PipeThreads} {pipeId mid count : Nat} (ahead : Ahead pipeId mid count state) :
    (pipeId, mid) ∈ state.queued := by
  obtain ⟨before, after, front, _⟩ := ahead
  have kept : (pipeId, mid) ∈ state.queued.filter (fun copy => copy.1 = pipeId) := by simp [front]
  exact List.mem_of_mem_filter kept

theorem Ahead.falls {state next : PipeThreads} {taskId pipeId mid count : Nat}
    (ahead : Ahead pipeId mid count state) (on : state.receivingOn taskId = pipeId)
    (taken : state.step config depth (.dequeue taskId) = some next) :
    next.dequeued taskId = some mid ∨ ∃ fewer, fewer < count ∧ Ahead pipeId mid fewer next := by
  obtain ⟨before, after, front, few⟩ := ahead
  cases step_cases taken with
  | @dequeue _ copy _ _ _ found =>
    have first := (filter_eraseP found).1
    rw [on, front] at first
    cases before with
    | nil =>
      simp only [List.nil_append, List.cons.injEq] at first
      exact Or.inl (by simp [← first.1])
    | cons head before =>
      simp only [List.cons_append, List.cons.injEq] at first
      have shorter : before.length < count := by
        simp only [List.length_cons] at few
        omega
      refine Or.inr ⟨before.length, shorter, before, after, ?_, Nat.le_refl _⟩
      simpa [on] using first.2.symm

theorem Ahead.step {state next : PipeThreads} {event : PipeThreadEvent} {pipeId mid count : Nat}
    (ahead : Ahead pipeId mid count state) (reconciled : Reconciled use state)
    (taken : state.step config depth event = some next) :
    Ahead pipeId mid count next ∨ next.dequeued (use.owner pipeId) = some mid := by
  by_cases reads : ∃ target, event = .dequeue target ∧ state.receivingOn target = pipeId
  · obtain ⟨target, rfl, on⟩ := reads
    have owned : use.owner pipeId = target := by
      cases step_cases taken with
      | dequeue _ receiving =>
        rw [← on]
        exact (reconciled.tended target).placed (Or.inr (Or.inl receiving))
    rw [owned]
    rcases ahead.falls on taken with done | ⟨fewer, less, before, after, front, few⟩
    · exact Or.inr done
    · exact Or.inl ⟨before, after, front, Nat.le_trans few (Nat.le_of_lt less)⟩
  · left
    obtain ⟨before, after, front, few⟩ := ahead
    have later (copy : Nat × Nat) :
        ∃ after, (state.queued ++ [copy]).filter (fun copy => copy.1 = pipeId) =
          before ++ (pipeId, mid) :: after := by
      rw [List.filter_append, front, List.append_assoc]
      exact ⟨_, rfl⟩
    cases step_cases taken with
    | @thread threadEvent =>
      refine ⟨before, after, ?_, few⟩
      cases threadEvent <;> exact front
    | @put copy =>
      obtain ⟨after, front⟩ := later copy
      exact ⟨before, after, front, few⟩
    | @post target posted =>
      obtain ⟨after, front⟩ := later (target, posted)
      exact ⟨before, after, front, few⟩
    | dropped | lost => exact ⟨before, after, front, few⟩
    | @dequeue target copy _ _ _ found =>
      have other : copy.1 ≠ pipeId := by
        have pipe : copy.1 = state.receivingOn target := by simpa using List.find?_some found
        exact fun same => reads ⟨target, rfl, pipe.symm.trans same⟩
      refine ⟨before, after, ?_, few⟩
      rw [← front]
      exact (filter_eraseP found).2 _ (by simp [other])

/-- A task beyond the table is scheduled fairly, for it has nothing to do. -/
theorem fair_beyond (behaviour : (pipeThreads config depth registeredTasks taskTable priority).Behaviour)
    {helpful : PipeThreadEvent → Prop} {taskId : Nat} (beyond : config.maxTasks ≤ taskId)
    (byTask : ∀ event, helpful event → ∃ threadEvent, event = .thread threadEvent ∧ threadEvent.taskOf = some taskId) :
    behaviour.WeaklyFair helpful := by
  refine behaviour.fair_of_disabled (fun state event helps => ?_)
  obtain ⟨threadEvent, rfl, its⟩ := byTask event helps
  change state.step config depth (.thread threadEvent) = none
  exact step_beyond its beyond

section Behaviours
variable {behaviour : (pipeThreads config depth registeredTasks taskTable priority).Behaviour}

theorem taken_at (time : Nat) : (behaviour.state time).step config depth (behaviour.event time) =
    some (behaviour.state (time + 1)) := behaviour.taken time

theorem sound_at (patient : config.perfectScheduleMode = true ∨ config.msWaitTimeForCFSApps = -1)
    (live : Live use behaviour) (time : Nat) : Sound config use (behaviour.state time) := by
  apply behaviour.always (Sound config use)
  · refine ⟨reconciled_initial config depth registeredTasks taskTable priority, .initial config, ?_, rfl, ?_, ?_⟩
    · exact patient.imp (fun perfect => ⟨perfect, trivial⟩) (fun forever => ⟨forever, trivial⟩)
    · rintro taskId (away | handles)
      · exact absurd rfl away
      · exact absurd rfl handles
    · intro taskId value asks
      cases asks
  · exact fun time sound => sound.step (live.orderly time) (taken_at time)

theorem scheduler_acts (live : Live use behaviour) {time : Nat} {pc : SchedulerPc}
    (here : (behaviour.state time).threads.scheduler = pc) (busy : pc ≠ .waiting) (passed : pc ≠ .processing) :
    ∃ later, time ≤ later ∧ (behaviour.state later).threads.scheduler = pc ∧
      behaviour.event later = .thread .scheduler := by
  refine behaviour.ensures live.scheduler (fun state => state.threads.scheduler = pc) here ?_ ?_
  · intro later _ same
    refine ⟨_, rfl, ?_⟩
    have allowed : (behaviour.state later).allows .scheduler = true := by simp [allows, same, passed]
    have enabled : ((behaviour.state later).threads.schedulerStep config).isSome = true :=
      schedulerStep_enabled (fun waits => absurd (same.symm.trans waits) busy)
    change ((behaviour.state later).step config depth (.thread .scheduler)).isSome = true
    simp only [PipeThreads.step, allowed, ite_true, Option.isSome_map]
    exact enabled
  · intro later _ same unscheduled
    exact (scheduler_kept (taken_at later) unscheduled (same ▸ passed)).trans same

theorem main_acts (live : Live use behaviour) {time : Nat} {pc : MainPc}
    (here : (behaviour.state time).threads.main = pc) (unblocked : Unblocked pc) :
    ∃ later, time ≤ later ∧ (behaviour.state later).threads.main = pc ∧
      behaviour.event later = .thread .main := by
  refine behaviour.ensures live.main (fun state => state.threads.main = pc) here ?_ ?_
  · intro later _ same
    refine ⟨_, rfl, ?_⟩
    have enabled : ((behaviour.state later).threads.mainStep config).isSome = true :=
      mainStep_enabled (same ▸ unblocked)
    change ((behaviour.state later).step config depth (.thread .main)).isSome = true
    simp only [PipeThreads.step, allows, ite_true, Option.isSome_map]
    exact enabled
  · intro later _ same elsewhere
    refine (main_kept (taken_at later) elsewhere ?_).trans same
    intro ii remainingTime waiting
    rw [← same, waiting] at unblocked
    exact unblocked

def Triggered (state : PipeThreads) : Prop :=
  state.threads.scheduler = .waiting ∧ state.threads.iface.triggerMain ≠ 0

def Completed (state : PipeThreads) : Prop :=
  state.threads.main = .reading ∧ state.threads.iface.isMainCompleteTrigger ≠ 0

section HandOver
variable (patient : config.perfectScheduleMode = true ∨ config.msWaitTimeForCFSApps = -1)
  (live : Live use behaviour)
include patient live

theorem updates : behaviour.LeadsTo (fun state => ∃ ii, state.threads.main = .updating ii) Triggered := by
  refine Machine.Behaviour.LeadsTo.of_rank (fun state => recordsLeft config state.threads.main) ?_
  rintro _ time ⟨⟨ii, updating⟩, rfl⟩
  obtain ⟨later, order, same, isMain⟩ := main_acts live updating trivial
  have stepped := (thread_taken (taken_at later) isMain).2
  have locked := (sound_at patient live later).locked
  have waits := locked.waits (by simp [same])
  refine ⟨later + 1, Nat.le_succ_of_le order, ?_⟩
  simp only [Triggered]
  generalize (behaviour.state (later + 1)).threads = next at stepped ⊢
  cases mainStep_cases stepped with
  | @updated jj place inside =>
    cases same.symm.trans place
    refine Or.inr ⟨⟨ii + 1, rfl⟩, ?_⟩
    simp only [updating, recordsLeft, setMain_main]
    omega
  | triggered => exact Or.inl ⟨waits, Nat.succ_ne_zero _⟩
  | read place | scanned place | passed place | blocked place | rescanned place | exited place | expired place
  | resumed place | called place => cases same.symm.trans place

theorem wakes : behaviour.LeadsTo Triggered InPass := by
  intro time now
  have enabled : ∀ later, time ≤ later → Triggered (behaviour.state later) →
      ∃ event, event = .thread .scheduler ∧
        ((pipeThreads config depth registeredTasks taskTable priority).step (behaviour.state later) event).isSome := by
    intro later _ ⟨waits, posted⟩
    refine ⟨_, rfl, ?_⟩
    have allowed : (behaviour.state later).allows .scheduler = true := by simp [allows, waits]
    change ((behaviour.state later).step config depth (.thread .scheduler)).isSome = true
    simp only [PipeThreads.step, allowed, ite_true, Option.isSome_map]
    exact schedulerStep_enabled (fun _ => posted)
  have kept : ∀ later, time ≤ later → Triggered (behaviour.state later) →
      behaviour.event later ≠ .thread .scheduler → Triggered (behaviour.state (later + 1)) := by
    intro later _ ⟨waits, posted⟩ away
    have notMain : behaviour.event later ≠ .thread .main := by
      intro isMain
      obtain ⟨⟨reading, _⟩, tokens⟩ := (sound_at patient live later).locked.posted (Or.inr posted)
      have none : (behaviour.state later).threads.iface.isMainCompleteTrigger = 0 := by omega
      have stepped := (thread_taken (taken_at later) isMain).2
      simp [Threads.step, mainStep, reading, none] at stepped
    refine ⟨(scheduler_kept (taken_at later) away (by simp [waits])).trans waits, ?_⟩
    rw [(counters_kept (taken_at later) notMain away).2]
    exact posted
  obtain ⟨later, order, ⟨waits, posted⟩, byScheduler⟩ := behaviour.ensures live.scheduler Triggered now enabled kept
  have stepped := (thread_taken (taken_at later) byScheduler).2
  refine ⟨later + 1, Nat.le_succ_of_le order, Or.inl ?_⟩
  simp only [Threads.step, schedulerStep, waits, if_neg posted, Option.some.injEq] at stepped
  rw [← stepped]

theorem posts : behaviour.LeadsTo (fun state => state.threads.scheduler = .completing) Completed := by
  intro time completing
  obtain ⟨later, order, same, byScheduler⟩ := scheduler_acts live completing (by simp) (by simp)
  have reading := (sound_at patient live later).locked.busy (by simp [same])
  have stepped := (thread_taken (taken_at later) byScheduler).2
  refine ⟨later + 1, Nat.le_succ_of_le order, ?_⟩
  simp only [Threads.step, schedulerStep, same, Option.some.injEq] at stepped
  rw [Completed, ← stepped]
  exact ⟨reading, Nat.succ_ne_zero _⟩

theorem reads : behaviour.LeadsTo Completed (fun state =>
    state.threads.main = if config.perfectScheduleMode then .returned else .scanning 0) := by
  intro time now
  have enabled : ∀ later, time ≤ later → Completed (behaviour.state later) →
      ∃ event, event = .thread .main ∧
        ((pipeThreads config depth registeredTasks taskTable priority).step (behaviour.state later) event).isSome := by
    intro later _ ⟨reading, posted⟩
    refine ⟨_, rfl, ?_⟩
    change ((behaviour.state later).step config depth (.thread .main)).isSome = true
    simp only [PipeThreads.step, allows, ite_true, Option.isSome_map]
    simp [Threads.step, mainStep, reading, posted]
  have kept : ∀ later, time ≤ later → Completed (behaviour.state later) →
      behaviour.event later ≠ .thread .main → Completed (behaviour.state (later + 1)) := by
    intro later _ ⟨reading, posted⟩ away
    have notScheduler : behaviour.event later ≠ .thread .scheduler := by
      intro byScheduler
      obtain ⟨⟨_, waits⟩, tokens⟩ := (sound_at patient live later).locked.posted (Or.inl posted)
      have none : (behaviour.state later).threads.iface.triggerMain = 0 := by omega
      have stepped := (thread_taken (taken_at later) byScheduler).2
      simp [Threads.step, schedulerStep, waits, none] at stepped
    refine ⟨(main_kept (taken_at later) away (by simp [reading])).trans reading, ?_⟩
    rw [(counters_kept (taken_at later) away notScheduler).1]
    exact posted
  obtain ⟨later, order, ⟨reading, posted⟩, isMain⟩ := behaviour.ensures live.main Completed now enabled kept
  have stepped := (thread_taken (taken_at later) isMain).2
  refine ⟨later + 1, Nat.le_succ_of_le order, ?_⟩
  simp only [Threads.step, mainStep, reading, if_neg posted, Option.some.injEq] at stepped
  change (behaviour.state (later + 1)).threads.main = _
  rw [← stepped]

end HandOver

section Tasks
variable (patient : config.perfectScheduleMode = true ∨ config.msWaitTimeForCFSApps = -1)
  (live : Live use behaviour) {taskId : Nat}
include patient live

theorem resumes {time : Nat} {pc : TaskPc} (waits : pc.announced.isSome = true)
    (here : (behaviour.state time).threads.tasks taskId = pc)
    (released : ((behaviour.state time).threads.task taskId).state = .taskContinue) :
    ∃ later, time ≤ later ∧ ((behaviour.state later).threads.tasks taskId = pc ∧
      ((behaviour.state later).threads.task taskId).state = .taskContinue) ∧
      behaviour.event later = .thread (.leave taskId) := by
  refine behaviour.ensures (live.leaves taskId)
    (fun state => state.threads.tasks taskId = pc ∧ (state.threads.task taskId).state = .taskContinue)
    ⟨here, released⟩ ?_ ?_
  · intro later _ ⟨same, released⟩
    refine ⟨_, rfl, ?_⟩
    have inside : taskId < config.maxTasks := by
      apply (sound_at patient live later).placeable
      refine Or.inl (fun running => ?_)
      rw [← same, running] at waits
      cases waits
    change ((behaviour.state later).step config depth (.thread (.leave taskId))).isSome = true
    simp only [PipeThreads.step, allows, ite_true, Option.isSome_map, Threads.step, inside, leaveStep, released,
      true_or, same]
    cases pc <;> first | rfl | cases waits
  · intro later _ ⟨same, released⟩ away
    rcases task_moves (taken_at later) taskId with ⟨threadEvent, isThread, _, moved⟩ | unmoved
    · have notLeave : threadEvent ≠ .leave taskId := fun equal => away (equal ▸ isThread)
      exact released_move (sound_at patient live later).reconciled.running waits same released notLeave moved
    · rw [unmoved]
      exact ⟨same, released⟩

theorem finishes {time : Nat} (completing : (behaviour.state time).threads.tasks taskId = .completing) :
    ∃ later, time ≤ later ∧ (behaviour.state later).threads.tasks taskId = .completing ∧
      ∃ stack, behaviour.event later = .thread (.complete taskId stack) := by
  refine behaviour.ensures (live.completes taskId) (fun state => state.threads.tasks taskId = .completing)
    completing ?_ ?_
  · intro later _ same
    have inside : taskId < config.maxTasks := (sound_at patient live later).placeable taskId (Or.inl (by simp [same]))
    refine ⟨_, ⟨use.callSite taskId, rfl⟩, ?_⟩
    change ((behaviour.state later).step config depth (.thread (.complete taskId (use.callSite taskId)))).isSome = true
    simp [PipeThreads.step, allows, Threads.step, taskStep, inside, same]
  · intro later _ same away
    rcases task_moves (taken_at later) taskId with ⟨threadEvent, isThread, _, moved⟩ | unmoved
    · generalize (behaviour.state (later + 1)).threads.task taskId = record at moved
      generalize (behaviour.state (later + 1)).threads.tasks taskId = pc at moved ⊢
      cases moved with
      | stay | updated | cleared | marked | continued | abandoned => exact same
      | received => rfl
      | completed => exact absurd ⟨_, isThread⟩ away
      | acknowledged place | noMessage place | undelayed place | delayed place => cases same.symm.trans place
      | left _ loop =>
        rw [same] at loop
        cases loop
    · rw [unmoved]
      exact same

theorem acknowledged {time mid : Nat} (dequeued : (behaviour.state time).dequeued taskId = some mid) :
    ∃ later, time ≤ later ∧ (behaviour.state later).dequeued taskId = some mid ∧
      ∃ stack, behaviour.event later = .thread (.acknowledge taskId mid stack) := by
  obtain ⟨later, order, same, read, stack, acknowledges⟩ : ∃ later, time ≤ later ∧
      (behaviour.state later).dequeued taskId = some mid ∧
      ∃ read stack, behaviour.event later = .thread (.acknowledge taskId read stack) := by
    refine behaviour.ensures (live.acknowledges taskId) (fun state => state.dequeued taskId = some mid)
      dequeued ?_ ?_
    · exact fun later _ same => acknowledge_enabled (sound_at patient live later) same
    · exact fun later _ same away => dequeued_kept (taken_at later) same (fun read stack acknowledges =>
        away ⟨read, stack, acknowledges⟩)
  have allowed := (thread_taken (taken_at later) acknowledges).1
  have equal : mid = read := by simpa [allows, same] using allowed
  exact ⟨later, order, same, stack, equal ▸ acknowledges⟩

/-- A message in a pipe is taken out in the end, unless its task is held up. -/
theorem taken_out {time : Nat} (free : ∀ later, time ≤ later → ¬ (behaviour.state later).threads.HeldUp taskId)
    {copy : Nat × Nat} (member : copy ∈ (behaviour.state time).queued) (owned : use.owner copy.1 = taskId) :
    ∃ later, time ≤ later ∧ (behaviour.state later).dequeued taskId = some copy.2 := by
  obtain ⟨count, ahead⟩ := Ahead.of_mem member
  subst owned
  induction count using Nat.strongRecOn generalizing time with
  | ind count ih =>
    obtain ⟨late, order, ⟨reads, on⟩ | held⟩ := live.attends time copy member
    · by_cases still : Ahead copy.1 copy.2 count (behaviour.state late)
      · have taken : (behaviour.state late).step config depth (.dequeue (use.owner copy.1)) =
            some (behaviour.state (late + 1)) := reads ▸ taken_at late
        rcases still.falls on taken with done | ⟨fewer, less, closer⟩
        · exact ⟨late + 1, Nat.le_succ_of_le order, done⟩
        · have free : ∀ later, late + 1 ≤ later → ¬ (behaviour.state later).threads.HeldUp (use.owner copy.1) :=
            fun later beyond => free later (by omega)
          obtain ⟨later, beyond, done⟩ := ih fewer less closer.mem closer free
          exact ⟨later, by omega, done⟩
      · obtain ⟨later, beyond, here, gone⟩ :=
          behaviour.exists_exit (Ahead copy.1 copy.2 count) order ahead still
        rcases here.step (sound_at patient live later).reconciled (taken_at later) with onward | done
        · exact absurd onward gone
        · exact ⟨later + 1, Nat.le_succ_of_le beyond, done⟩
    · exact absurd held (free late order)

/-- A message that a task handles is completed, if the task is let go from its
waits and begins no delay. -/
theorem completes_handled {now : Nat} (handles : ((behaviour.state now).threads.task taskId).stackList ≠ [])
    (stays : ∀ later, now ≤ later → (behaviour.state later).threads.tasks taskId = .running →
      (¬ ∃ pipeId, behaviour.event later = .thread (.receive taskId pipeId)) →
      (behaviour.state (later + 1)).threads.tasks taskId = .running)
    (let_go : ∀ later, now ≤ later → (behaviour.state later).threads.tasks taskId = .delayed ∨
      (behaviour.state later).threads.tasks taskId = .awaitingPermission →
      ∃ last, later ≤ last ∧ (behaviour.state last).threads.tasks taskId = .running) :
    ∃ later, now ≤ later ∧ ((behaviour.state later).threads.task taskId).stackList ≠ [] ∧
      ∃ stack, behaviour.event later = .thread (.complete taskId stack) := by
  refine behaviour.meets (fun event => ∃ stack, event = .thread (.complete taskId stack))
    (fun state => (state.threads.task taskId).stackList ≠ []) handles
    (fun later _ handles incomplete => handles_step (taken_at later) handles
      (fun stack completes => incomplete ⟨stack, completes⟩)) ?_
  refine Classical.byContradiction (fun never => ?_)
  simp only [not_exists, not_and, not_or, not_not] at never
  have handles_on (later : Nat) (order : now ≤ later) := (never later order).2
  have completing {later : Nat} (order : now ≤ later)
      (place : (behaviour.state later).threads.tasks taskId = .completing) : False := by
    obtain ⟨last, beyond, _, stack, completes⟩ := finishes patient live place
    exact (never last (Nat.le_trans order beyond)).1 stack completes
  have running {later : Nat} (order : now ≤ later)
      (place : (behaviour.state later).threads.tasks taskId = .running) : False := by
    have inside : taskId < config.maxTasks :=
      (sound_at patient live later).placeable taskId (Or.inr (handles_on later order))
    obtain ⟨last, beyond, here, pipeId, receives⟩ := behaviour.meets
      (fun event => ∃ pipeId, event = .thread (.receive taskId pipeId))
      (fun state => state.threads.tasks taskId = .running) place
      (fun later order here keeps => stays later (by omega) here keeps) (by
        obtain ⟨last, beyond, receives | ⟨held, _⟩⟩ := live.returns later taskId inside place (handles_on later order)
        · exact ⟨last, beyond, Or.inl receives⟩
        · refine ⟨last, beyond, Or.inr (fun running => ?_)⟩
          simp [running] at held)
    have moved := (thread_taken (taken_at last) receives).2
    simp only [Threads.step] at moved
    obtain ⟨_, _, stepped⟩ := taskStep_some moved
    have place : (behaviour.state (last + 1)).threads.tasks taskId = .completing := by
      rw [← stepped]
      exact setPc_tasks ..
    exact completing (by omega) place
  have handling := ((sound_at patient live now).reconciled.tended taskId).handling
  cases place : (behaviour.state now).threads.tasks taskId with
  | running => exact running (Nat.le_refl now) place
  | completing => exact completing (Nat.le_refl now) place
  | receiving => exact handles (handling.none_held (Or.inl place)).2
  | awaitingAcknowledgement => exact handles (handling.none_held (Or.inr place)).2
  | delayed =>
    obtain ⟨later, order, place⟩ := let_go now (Nat.le_refl now) (Or.inl place)
    exact running order place
  | awaitingPermission =>
    obtain ⟨later, order, place⟩ := let_go now (Nat.le_refl now) (Or.inr place)
    exact running order place

/-- A trigger of a task that handles no message is read and acknowledged, unless the task is held up. -/
theorem acknowledges_triggered {now : Nat} (free : ∀ later, now ≤ later → ¬ (behaviour.state later).threads.HeldUp taskId)
    (outside : ¬ InPass (behaviour.state now))
    (triggered : ((behaviour.state now).threads.task taskId).triggeredMIDs ≠ [])
    (idle : ((behaviour.state now).threads.task taskId).stackList = []) :
    ∃ later, now ≤ later ∧ ∃ mid ∈ ((behaviour.state later).threads.task taskId).triggeredMIDs,
      ∃ stack, behaviour.event later = .thread (.acknowledge taskId mid stack) := by
  have sound := sound_at patient live now
  have tended := sound.reconciled.tended taskId
  obtain ⟨mid, triggered⟩ := List.exists_mem_of_ne_nil _ triggered
  have scheduled := tended.scheduled mid triggered
  have read {time : Nat} (order : now ≤ time) (dequeued : (behaviour.state time).dequeued taskId = some mid) :
      ∃ later, now ≤ later ∧ ∃ mid ∈ ((behaviour.state later).threads.task taskId).triggeredMIDs,
        ∃ stack, behaviour.event later = .thread (.acknowledge taskId mid stack) := by
    obtain ⟨later, beyond, same, stack, acknowledges⟩ := acknowledged patient live dequeued
    have reconciled := (sound_at patient live later).reconciled
    exact ⟨later, by omega, mid, Tended.triggered_of_dequeued reconciled same scheduled, stack, acknowledges⟩
  by_cases dequeued : (behaviour.state now).dequeued taskId = some mid
  · exact read (Nat.le_refl now) dequeued
  · have counts := tended.counts mid scheduled
    have some : 0 < ((behaviour.state now).threads.task taskId).triggeredMIDs.count mid :=
      List.count_pos_iff.mpr triggered
    have landed : (behaviour.state now).inFlight = [] :=
      Classical.byContradiction (fun inFlight => outside (sound.reconciled.landed inFlight))
    have unheld : ((behaviour.state now).threads.task taskId).acknowledgedMIDs = [] := by
      rcases tended.handling.held with none | ⟨_, _, _, handles, _⟩
      · exact none.1
      · simp [idle] at handles
    simp only [PipeUse.unread, landed, unheld, dequeued, List.countP_nil, List.count_nil, ite_false] at counts
    have queued : 0 < (behaviour.state now).queued.countP (use.isFor taskId mid) := by omega
    obtain ⟨copy, member, copyFor⟩ := List.countP_pos_iff.mp queued
    obtain ⟨owned, rfl⟩ : use.owner copy.1 = taskId ∧ copy.2 = mid := by simpa [PipeUse.isFor] using copyFor
    obtain ⟨later, order, dequeued⟩ := taken_out patient live free member owned
    exact read order dequeued

end Tasks
end Behaviours
end TrickCFS.Proofs.SimulationProgress
