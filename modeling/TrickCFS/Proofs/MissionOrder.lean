import TrickCFS.Proofs.CommandSlots
import TrickCFS.Proofs.FiringLaw
import TrickCFS.Proofs.PerfectOrder
import TrickCFS.Proofs.PipeAccounts
import TrickCFS.SchedulerLoop

/-! The order of a whole mission in perfect mode. The table of the scheduler says
what each frame marks and the marks say in which order the tasks go on, so the
interleaving of the threads has no part in it. -/

namespace TrickCFS.Proofs.MissionOrder
open Threads StableOrder PerfectSerialisation PerfectOrder

variable {σ : Type} {config : Config} {depth : Nat → Nat} {processScheduleTable : σ → List Nat × σ}
  {marks : List Nat → List (Nat × Nat)} {start : σ} {owner : Nat → Nat} {priorityOf : Nat → Nat}
  {state next : SchedulerLoop σ} {history : FrameHistory} {event : PipeThreadEvent}

section Steps

/-- A step of the loop takes a step of the pipes, and keeps to the table. -/
inductive LoopStep (config : Config) (processScheduleTable : σ → List Nat × σ)
    (marks : List Nat → List (Nat × Nat)) (state : SchedulerLoop σ) : PipeThreadEvent → SchedulerLoop σ → Prop
  | called {pipes} (waiting : state.pipes.threads.scheduler = .waiting)
      (taken : state.pipes.threads.schedulerStep config = some pipes.threads) :
      LoopStep config processScheduleTable marks state (.thread .scheduler)
        ({ state with pipes }.process processScheduleTable marks)
  | turned {pipes} (away : state.pipes.threads.scheduler ≠ .waiting)
      (finished : state.pipes.threads.scheduler = .processing → state.toMark = [])
      (taken : state.pipes.threads.schedulerStep config = some pipes.threads) :
      LoopStep config processScheduleTable marks state (.thread .scheduler) { state with pipes }
  | sent {pipes pipeId mid rest} (next : state.toMark = (pipeId, mid) :: rest)
      (taken : state.pipes.threads.step config (.send pipeId mid) = some pipes.threads) :
      LoopStep config processScheduleTable marks state (.thread (.send pipeId mid)) { state with pipes, toMark := rest }
  | other {pipes event} (notScheduler : event ≠ .scheduler) (notSend : ∀ pipeId mid, event ≠ .send pipeId mid)
      (taken : state.pipes.threads.step config event = some pipes.threads) :
      LoopStep config processScheduleTable marks state (.thread event) { state with pipes }
  | moved {pipes event} (notThread : ∀ threadEvent, event ≠ .thread threadEvent)
      (threads : pipes.threads = state.pipes.threads) :
      LoopStep config processScheduleTable marks state event { state with pipes }

theorem pipeStep_threads {pipes after : PipeThreads} (taken : pipes.step config depth event = some after) :
    (∃ threadEvent, event = .thread threadEvent ∧ pipes.threads.step config threadEvent = some after.threads) ∨
      (∀ threadEvent, event ≠ .thread threadEvent) ∧ after.threads = pipes.threads := by
  cases PipeThreads.step_cases taken with
  | thread _ stepped => exact Or.inl ⟨_, rfl, stepped⟩
  | put | dropped | post | lost | dequeue => exact Or.inr ⟨by simp, rfl⟩

theorem step_cases (taken : state.step config depth processScheduleTable marks event = some next) :
    LoopStep config processScheduleTable marks state event next := by
  simp only [SchedulerLoop.step] at taken
  obtain ⟨pipes, piped, taken⟩ := Option.bind_eq_some_iff.mp taken
  rcases pipeStep_threads piped with ⟨threadEvent, rfl, stepped⟩ | ⟨notThread, threads⟩
  · cases threadEvent with
    | scheduler =>
      by_cases waiting : state.pipes.threads.scheduler = .waiting
      · simp only [waiting, SchedulerLoop.schedulerTurn] at taken
        cases taken
        exact .called waiting stepped
      · by_cases processing : state.pipes.threads.scheduler = .processing
        · simp only [processing, SchedulerLoop.schedulerTurn] at taken
          split at taken
          next finished => cases taken; exact .turned waiting (fun _ => finished) stepped
          next => cases taken
        · have turned : next = { state with pipes } := by
            cases scheduler : state.pipes.threads.scheduler with
            | waiting => exact absurd scheduler waiting
            | processing => exact absurd scheduler processing
            | starting | marking | iterating | polling | checking | completing =>
              simp only [scheduler, SchedulerLoop.schedulerTurn, Option.some.injEq] at taken
              exact taken.symm
          subst turned
          exact .turned waiting (fun place => absurd place processing) stepped
    | send pipeId mid =>
      simp only [SchedulerLoop.markNext] at taken
      split at taken
      next copy rest upcoming =>
        split at taken
        next same =>
          cases taken
          exact .sent (upcoming.trans (by rw [same])) stepped
        next => cases taken
      next => cases taken
    | main | mainTimeout | mainSpurious | startRun | createQueue | receive | complete | acknowledge | noMessage
    | delay | leave =>
      cases taken
      exact .other (by simp) (by simp) stepped
  · have moved : next = { state with pipes } := by
      cases event with
      | thread threadEvent => exact absurd rfl (notThread threadEvent)
      | put | post | dequeue =>
        cases taken
        rfl
    subst moved
    exact .moved notThread threads

theorem loopStep_threads (taken : LoopStep config processScheduleTable marks state event next) :
    (∃ threadEvent, event = .thread threadEvent ∧
      state.pipes.threads.step config threadEvent = some next.pipes.threads) ∨
      (∀ threadEvent, event ≠ .thread threadEvent) ∧ next.pipes.threads = state.pipes.threads ∧
        next = { state with pipes := next.pipes } := by
  cases taken with
  | called _ stepped | turned _ _ stepped | sent _ stepped | other _ _ stepped => exact Or.inl ⟨_, rfl, stepped⟩
  | moved notThread threads => exact Or.inr ⟨notThread, threads, rfl⟩

end Steps

section Frames
variable (processScheduleTable marks start owner)

def tableAfter : Nat → σ
  | 0 => start
  | calls + 1 => (processScheduleTable (tableAfter calls)).2

/-- The tasks that the frame of the given call marks. Before the first call
nothing is marked. -/
def frameTasks : Nat → List Nat
  | 0 => []
  | calls + 1 =>
    (marks (processScheduleTable (tableAfter processScheduleTable start calls)).1).map (fun copy => owner copy.1)

/-- The order of the grants of the frame. -/
def frameOrder (priorityOf : Nat → Nat) (call : Nat) : List Nat :=
  grouped (sorted priorityOf (frameTasks processScheduleTable marks start owner call))

end Frames

def begun : SchedulerPc → List Nat
  | .marking taskId _ => [taskId]
  | _ => []

def Passing : SchedulerPc → Prop
  | .processing | .marking _ _ => True
  | _ => False

/-- The frames that are over: `signalMainAppComplete` has returned once for each
call, and once at the end of `init`. -/
def framesOver (calls : Nat) : SchedulerPc → Nat
  | .waiting => calls + 1
  | _ => calls

structure Follows (processScheduleTable : σ → List Nat × σ) (marks : List Nat → List (Nat × Nat)) (start : σ)
    (owner priorityOf : Nat → Nat) (state : SchedulerLoop σ) (history : FrameHistory) : Prop where
  table : state.table = tableAfter processScheduleTable start history.calls
  marked : history.ledger.marks ++ (begun state.pipes.threads.scheduler ++
    state.toMark.map (fun copy => owner copy.1)) = frameTasks processScheduleTable marks start owner history.calls
  passing : state.toMark ≠ [] → Passing state.pipes.threads.scheduler
  frames : history.frames =
    (List.range (framesOver history.calls state.pipes.threads.scheduler)).map
      (frameOrder processScheduleTable marks start owner priorityOf)

/-- The pipes that the scheduler marks are owned as they are throughout the mission. -/
def Claimed (owner : Nat → Nat) (state : SchedulerLoop σ) : PipeThreadEvent → Prop
  | .thread (.send pipeId _) => state.pipes.threads.iface.prevPipeTaskOwner pipeId = owner pipeId
  | _ => True

def markedPipe : PipeThreadEvent → Option Nat
  | .thread (.send pipeId _) => some pipeId
  | _ => none

theorem claimed_iff : (markedPipe event).all (fun pipeId =>
    decide (state.pipes.threads.iface.prevPipeTaskOwner pipeId = owner pipeId)) = true ↔ Claimed owner state event := by
  cases event with
  | thread threadEvent =>
    cases threadEvent with
    | send pipeId mid => exact decide_eq_true_iff
    | _ => exact iff_of_true rfl trivial
  | _ => exact iff_of_true rfl trivial

instance (state : SchedulerLoop σ) (event : PipeThreadEvent) : Decidable (Claimed owner state event) :=
  decidable_of_iff _ claimed_iff

section Turns
variable {threads after : Threads} {ledger later : Ledger}

private theorem scheduler_called (waiting : threads.scheduler = .waiting)
    (taken : threads.schedulerStep config = some after) : after.scheduler = .processing := by
  simp only [schedulerStep, waiting] at taken
  split at taken <;> cases taken
  rfl

private theorem scheduler_sent {pipeId mid : Nat} (taken : threads.step config (.send pipeId mid) = some after) :
    threads.scheduler = .processing ∧ after.scheduler = .marking (threads.iface.prevPipeTaskOwner pipeId) mid := by
  simp only [Threads.step] at taken
  split at taken
  next processing =>
    cases taken
    exact ⟨processing, rfl⟩
  next => cases taken

private theorem scheduler_elsewhere {threadEvent : ThreadEvent} (notScheduler : threadEvent ≠ .scheduler)
    (notSend : ∀ pipeId mid, threadEvent ≠ .send pipeId mid) (taken : threads.step config threadEvent = some after) :
    after.scheduler = threads.scheduler := by
  cases byTask : threadEvent.taskOf with
  | some taskId => exact (taskEvent_roles byTask taken).scheduler
  | none => exact (mainEvent_scheduler byTask notScheduler notSend taken).1

/-- Within a frame a turn of the scheduler marks what it has begun to mark, and
the pass goes on until the scheduler itself ends it. -/
theorem turn_within (turn : Turn threads ledger after later) (away : threads.scheduler ≠ .waiting)
    (unfinished : threads.scheduler ≠ .completing) :
    later.marks ++ begun after.scheduler = ledger.marks ++ begun threads.scheduler ∧ after.scheduler ≠ .waiting ∧
      (threads.scheduler ≠ .processing → Passing threads.scheduler → Passing after.scheduler) := by
  cases turn with
  | began gathered =>
    rcases gathered with place | place
    · rw [place]
      exact ⟨rfl, by simp, fun _ passing => False.elim passing⟩
    · rw [place]
      exact ⟨rfl, by simp, fun notProcessing => absurd rfl notProcessing⟩
  | woken place => exact absurd place away
  | completed place => exact absurd place unfinished
  | marked place =>
    rw [place]
    exact ⟨List.append_nil _, by simp, fun _ _ => trivial⟩
  | finished place | entered place | visited place | undelayed place | granted place | acknowledged place
  | polled place | checked place =>
    rw [place]
    exact ⟨rfl, by simp, fun _ passing => False.elim passing⟩

theorem turn_ends (turn : Turn threads ledger after later) (completing : threads.scheduler = .completing) :
    after.scheduler = .waiting ∧ later = ledger := by
  cases turn with
  | completed => exact ⟨rfl, rfl⟩
  | began gathered => rcases gathered with place | place <;> cases place.symm.trans completing
  | woken place | marked place | finished place | entered place | visited place | undelayed place | granted place
  | acknowledged place | polled place | checked place => cases place.symm.trans completing

end Turns

namespace Follows

theorem all_marked (follows : Follows processScheduleTable marks start owner priorityOf state history)
    (notPassing : ¬ Passing state.pipes.threads.scheduler) : state.toMark = [] :=
  Classical.byContradiction (fun more => notPassing (follows.passing more))

private theorem called {pipes : PipeThreads}
    (follows : Follows processScheduleTable marks start owner priorityOf state history)
    (waiting : state.pipes.threads.scheduler = .waiting) (processing : pipes.threads.scheduler = .processing) :
    Follows processScheduleTable marks start owner priorityOf
      ({ state with pipes }.process processScheduleTable marks)
      { history with
        ledger := history.ledger.newFrame
        calls := history.calls + 1 } where
  table := congrArg (fun table => (processScheduleTable table).2) follows.table
  marked := by
    simp only [SchedulerLoop.process, processing, begun, Ledger.newFrame, List.nil_append, frameTasks, follows.table]
  passing := fun _ => by
    simp only [SchedulerLoop.process, processing, Passing]
  frames := by
    have frames := follows.frames
    rw [waiting] at frames
    simp only [SchedulerLoop.process, processing]
    exact frames

private theorem turned {pipes : PipeThreads} {later : Ledger}
    (follows : Follows processScheduleTable marks start owner priorityOf state history)
    (away : state.pipes.threads.scheduler ≠ .waiting) (unfinished : state.pipes.threads.scheduler ≠ .completing)
    (finished : state.pipes.threads.scheduler = .processing → state.toMark = [])
    (turn : Turn state.pipes.threads history.ledger pipes.threads later) :
    Follows processScheduleTable marks start owner priorityOf { state with pipes }
      { history with ledger := later } := by
  obtain ⟨kept, notWaiting, passing⟩ := turn_within turn away unfinished
  refine ⟨follows.table, ?_, ?_, ?_⟩
  · rw [← List.append_assoc, kept, List.append_assoc]
    exact follows.marked
  · intro more
    exact passing (fun processing => more (finished processing)) (follows.passing more)
  · have frames := follows.frames
    have here : framesOver history.calls state.pipes.threads.scheduler = history.calls := by
      cases place : state.pipes.threads.scheduler <;> simp_all [framesOver]
    have there : framesOver history.calls pipes.threads.scheduler = history.calls := by
      cases place : pipes.threads.scheduler <;> simp_all [framesOver]
    rw [here] at frames
    exact frames.trans (by rw [there])

private theorem ended {pipes : PipeThreads}
    (follows : Follows processScheduleTable marks start owner priorityOf state history)
    (completing : state.pipes.threads.scheduler = .completing) (waiting : pipes.threads.scheduler = .waiting)
    (grants : history.ledger.grants = grouped (sorted priorityOf history.ledger.marks)) :
    Follows processScheduleTable marks start owner priorityOf { state with pipes }
      { history with frames := history.frames ++ [history.ledger.grants] } := by
  have none := follows.all_marked (by rw [completing]; exact id)
  have marked := follows.marked
  have frames := follows.frames
  rw [completing, none] at marked
  simp only [begun, List.map_nil, List.append_nil] at marked
  rw [completing] at frames
  refine ⟨follows.table, ?_, ?_, ?_⟩
  · simp only [waiting, none, begun, List.map_nil, List.append_nil]
    exact marked
  · intro more
    exact absurd none more
  · simp only [waiting, framesOver, List.range_succ, List.map_append, List.map_singleton]
    rw [frames, grants, marked]
    rfl

private theorem sent {pipes : PipeThreads} {copy : Nat × Nat} {rest : List (Nat × Nat)}
    (follows : Follows processScheduleTable marks start owner priorityOf state history)
    (upcoming : state.toMark = copy :: rest) (processing : state.pipes.threads.scheduler = .processing)
    (marking : ∃ mid, pipes.threads.scheduler = .marking (owner copy.1) mid) {ledger : Ledger}
    (sameMarks : ledger.marks = history.ledger.marks) :
    Follows processScheduleTable marks start owner priorityOf { state with pipes, toMark := rest }
      { history with ledger } := by
  obtain ⟨mid, marking⟩ := marking
  have marked := follows.marked
  have frames := follows.frames
  rw [processing, upcoming] at marked
  rw [processing] at frames
  refine ⟨follows.table, ?_, ?_, ?_⟩
  · simp only [marking, begun, sameMarks, List.singleton_append]
    exact marked
  · intro _
    simp only [marking, Passing]
  · simp only [marking]
    exact frames

private theorem elsewhere {pipes : PipeThreads} {ledger : Ledger}
    (follows : Follows processScheduleTable marks start owner priorityOf state history)
    (scheduler : pipes.threads.scheduler = state.pipes.threads.scheduler)
    (sameMarks : ledger.marks = history.ledger.marks) :
    Follows processScheduleTable marks start owner priorityOf { state with pipes } { history with ledger } := by
  refine ⟨follows.table, ?_, ?_, ?_⟩
  · simp only [scheduler, sameMarks]
    exact follows.marked
  · intro more
    simp only [scheduler]
    exact follows.passing more
  · simp only [scheduler]
    exact follows.frames

end Follows

section Records
variable {threads : Threads} {threadEvent : ThreadEvent}

private theorem record_called (waiting : threads.scheduler = .waiting) :
    history.record threads .scheduler =
      { history with
        ledger := history.ledger.newFrame
        calls := history.calls + 1 } := by
  simp [FrameHistory.record, Ledger.record, waiting]

private theorem record_ended (completing : threads.scheduler = .completing) :
    history.record threads .scheduler = { history with frames := history.frames ++ [history.ledger.grants] } := by
  simp [FrameHistory.record, Ledger.record, completing]

private theorem record_turned (away : threads.scheduler ≠ .waiting) (unfinished : threads.scheduler ≠ .completing) :
    history.record threads .scheduler = { history with ledger := history.ledger.record threads .scheduler } := by
  simp [FrameHistory.record, away, unfinished]

private theorem record_elsewhere (notScheduler : threadEvent ≠ .scheduler) :
    history.record threads threadEvent = { history with ledger := history.ledger.record threads threadEvent } := by
  simp [FrameHistory.record, notScheduler]

end Records

structure InOrder (processScheduleTable : σ → List Nat × σ) (marks : List Nat → List (Nat × Nat)) (start : σ)
    (owner priorityOf : Nat → Nat) (state : SchedulerLoop σ) (history : FrameHistory) : Prop where
  serial : Serial priorityOf state.pipes.threads history.ledger
  order : Order priorityOf state.pipes.threads.iface.perfectFDMap history.ledger.toSchedulerLedger
    state.pipes.threads.scheduler
  follows : Follows processScheduleTable marks start owner priorityOf state history

theorem InOrder.grants (inOrder : InOrder processScheduleTable marks start owner priorityOf state history) :
    history.ledger.grants <+: frameOrder processScheduleTable marks start owner priorityOf history.calls := by
  have order := inOrder.order
  by_cases passing : Passing state.pipes.threads.scheduler
  · have none : history.ledger.grants = [] := by
      cases place : state.pipes.threads.scheduler with
      | processing | marking =>
        rw [place] at order
        exact order.2
      | starting | waiting | iterating | polling | checking | completing =>
        rw [place] at passing
        exact False.elim passing
    rw [none]
    exact List.nil_prefix
  · have marked := inOrder.follows.marked
    have all : begun state.pipes.threads.scheduler = [] := by
      cases place : state.pipes.threads.scheduler with
      | marking =>
        rw [place] at passing
        exact absurd trivial passing
      | starting | waiting | processing | iterating | polling | checking | completing => rfl
    rw [all, inOrder.follows.all_marked passing, List.map_nil, List.append_nil, List.append_nil] at marked
    rw [frameOrder, ← marked]
    exact (grants_of_marks inOrder.serial order).1

section Run
variable (perfect : config.perfectScheduleMode = true)
  (inOrder : InOrder processScheduleTable marks start owner priorityOf state history)
include perfect inOrder

private theorem scheduler_follows {pipes : PipeThreads} (away : state.pipes.threads.scheduler ≠ .waiting)
    (finished : state.pipes.threads.scheduler = .processing → state.toMark = [])
    (taken : state.pipes.threads.schedulerStep config = some pipes.threads) :
    Follows processScheduleTable marks start owner priorityOf { state with pipes }
      (history.record state.pipes.threads .scheduler) := by
  have turn : Turn state.pipes.threads history.ledger pipes.threads _ :=
    schedulerStep_turn perfect inOrder.serial.running taken
  by_cases completing : state.pipes.threads.scheduler = .completing
  · rw [record_ended completing]
    apply inOrder.follows.ended completing (turn_ends turn completing).1
    exact (grants_of_marks inOrder.serial inOrder.order).2 (Or.inl completing)
  · rw [record_turned away completing]
    exact inOrder.follows.turned away completing finished turn

private theorem thread_follows {threadEvent : ThreadEvent} (claimed : Claimed owner state event)
    (thread : event = .thread threadEvent)
    (taken : LoopStep config processScheduleTable marks state event next) :
    Follows processScheduleTable marks start owner priorityOf next (history.record state.pipes.threads threadEvent) := by
  cases taken with
  | moved notThread => exact absurd thread (notThread threadEvent)
  | called waiting taken =>
    cases thread
    rw [record_called waiting]
    exact inOrder.follows.called waiting (scheduler_called waiting taken)
  | turned away finished taken =>
    cases thread
    exact scheduler_follows perfect inOrder away finished taken
  | sent upcoming taken =>
    cases thread
    obtain ⟨processing, marking⟩ := scheduler_sent taken
    rw [record_elsewhere (by simp)]
    exact inOrder.follows.sent upcoming processing ⟨_, marking.trans (by rw [claimed])⟩ rfl
  | other notScheduler notSend taken =>
    cases thread
    rw [record_elsewhere notScheduler]
    exact inOrder.follows.elsewhere (scheduler_elsewhere notScheduler notSend taken)
      (congrArg SchedulerLedger.marks (record_other notScheduler))

theorem step_inOrder (claimed : Claimed owner state event)
    (taken : state.step config depth processScheduleTable marks event = some next) :
    InOrder processScheduleTable marks start owner priorityOf next (frameHistory.record history state event) := by
  have looped := step_cases taken
  rcases loopStep_threads looped with ⟨threadEvent, thread, stepped⟩ | ⟨notThread, threads, same⟩
  · have follows := thread_follows perfect inOrder claimed thread looped
    subst thread
    exact ⟨step_serial perfect inOrder.serial stepped, step_order perfect inOrder.serial inOrder.order stepped, follows⟩
  · have unrecorded : (frameHistory : Machine.Monitor (SchedulerLoop σ) _ _).record history state event = history := by
      cases event with
      | thread threadEvent => exact absurd rfl (notThread threadEvent)
      | put | post | dequeue => rfl
    have follows : Follows processScheduleTable marks start owner priorityOf next history := by
      rw [same]
      exact inOrder.follows.elsewhere (congrArg Threads.scheduler threads) rfl
    have serial := inOrder.serial
    have order := inOrder.order
    rw [← threads] at serial order
    rw [unrecorded]
    exact ⟨serial, order, follows⟩

end Run

/-- In every run in which the scheduler's pipes keep their owners, the frames that
are over have granted in the order of their tables, and the current one is on its way. -/
theorem inOrder_run (perfect : config.perfectScheduleMode = true) (registeredTasks : Nat)
    (taskTable priority : Nat → Nat) {events : List PipeThreadEvent}
    (ran : (mission config depth registeredTasks taskTable priority processScheduleTable marks start).run events =
      some (state, history))
    (claimed : (schedulerLoop config depth registeredTasks taskTable priority processScheduleTable marks start).Steps
      (Claimed owner)
      (schedulerLoop config depth registeredTasks taskTable priority processScheduleTable marks start).initial events) :
    InOrder processScheduleTable marks start owner (fun taskId => priority (taskTable taskId)) state history := by
  refine Machine.Steps.last _ (fun watched : SchedulerLoop σ × FrameHistory => InOrder processScheduleTable marks
    start owner (fun taskId => priority (taskTable taskId)) watched.1 watched.2)
    ?_ ?_ (Machine.Steps.watched _ claimed _) ran
  · intro watched event after inOrder claimed taken
    obtain ⟨taken, recorded⟩ := (Machine.watch_step _).mp taken
    rw [recorded]
    exact step_inOrder perfect inOrder claimed taken
  · refine ⟨serial_initial config registeredTasks taskTable priority, ⟨rfl, rfl⟩, rfl, rfl, ?_, rfl⟩
    intro more
    exact absurd rfl more

/-- The order of the frames is that of their tasks, however these come about. -/
theorem frames_replay (perfect : config.perfectScheduleMode = true) (registeredTasks : Nat)
    (taskTable priority : Nat → Nat) {events : List PipeThreadEvent}
    (ran : (mission config depth registeredTasks taskTable priority processScheduleTable marks start).run events =
      some (state, history))
    (claimed : (schedulerLoop config depth registeredTasks taskTable priority processScheduleTable marks start).Steps
      (Claimed owner)
      (schedulerLoop config depth registeredTasks taskTable priority processScheduleTable marks start).initial events)
    {tasks : Nat → List Nat} (same : frameTasks processScheduleTable marks start owner = tasks) :
    let order := fun call => grouped (sorted (fun taskId => priority (taskTable taskId)) (tasks call))
    history.frames = (List.range history.frames.length).map order ∧
      history.ledger.grants <+: order history.calls ∧
      history.frames.length = framesOver history.calls state.pipes.threads.scheduler := by
  have inOrder := inOrder_run perfect registeredTasks taskTable priority ran claimed
  subst same
  have frames := inOrder.follows.frames
  have count := congrArg List.length frames
  rw [List.length_map, List.length_range] at count
  refine ⟨?_, inOrder.grants, count⟩
  rw [count]
  exact frames

section SchLab
open SchLabTrickCFSScheduler FiringLaw
variable {cfe : CfeMessages} {scheduler : SchLabTrickCFSScheduler}

/-- The tasks that the given call marks: the owners of the pipes of each entry
that is due, in table order. -/
def tasksAt (base : BaseTrickCFSScheduler) (bus : SoftwareBus) (owner : Nat → Nat) (state : List SchLabStateEntry)
    (call : Nat) : List Nat :=
  if call = 0 then []
  else (dueSends state call).flatMap (fun send => (base.markedQueues bus (bus.destListHead send.msgId)).map owner)

theorem tableAfter_after (calls : Nat) :
    tableAfter SchLabTrickCFSScheduler.process scheduler calls = scheduler.after calls := by
  induction calls with
  | zero => rfl
  | succ calls ih =>
    rw [tableAfter, ih]
    rfl

theorem frameTasks_tasksAt (fresh : ∀ entry ∈ scheduler.state, entry.counter = 0) (base : BaseTrickCFSScheduler)
    (bus : SoftwareBus) (call : Nat) :
    frameTasks SchLabTrickCFSScheduler.process (base.marksOf bus) scheduler owner call =
      tasksAt base bus owner scheduler.state call := by
  cases call with
  | zero => rfl
  | succ calls =>
    have sent : (SchLabTrickCFSScheduler.process (scheduler.after calls)).1 =
        (dueSends scheduler.state (calls + 1)).map ScheduledSend.msgId :=
      congrArg (List.map ScheduledSend.msgId) (sentAt_due fresh calls)
    simp only [frameTasks, tableAfter_after, sent, tasksAt, Nat.add_one_ne_zero, ite_false,
      BaseTrickCFSScheduler.marksOf, List.flatMap_map, List.map_flatMap, List.map_map]
    rfl

theorem loadEntries_fresh {configs : List ScheduleTableEntry} {entries : List SchLabStateEntry}
    (fresh : ∀ entry ∈ entries, entry.counter = 0) :
    ∀ entry ∈ loadEntries cfe configs entries, entry.counter = 0 := by
  induction configs generalizing entries with
  | nil => exact fresh
  | cons config configs ih =>
    cases entries with
    | nil => exact fresh
    | cons first entries =>
      obtain ⟨zero, others⟩ := List.forall_mem_cons.mp fresh
      have loaded : (first.load cfe config).counter = 0 := by
        by_cases unused : config.packetRate = 0
        · rw [SchLabStateEntry.load_unused cfe unused, zero]
        · rw [SchLabStateEntry.load_used cfe unused, zero]
      exact List.forall_mem_cons.mpr ⟨loaded, ih others⟩

theorem installCmds_fresh {frame : Nat} {newEntries state installed : List SchLabStateEntry}
    (new : ∀ entry ∈ newEntries, entry.counter = 0) (fresh : ∀ entry ∈ state, entry.counter = 0)
    (done : installCmds cfe frame newEntries state = some installed) : ∀ entry ∈ installed, entry.counter = 0 := by
  induction newEntries generalizing state with
  | nil =>
    cases done
    exact fresh
  | cons newEntry rest ih =>
    obtain ⟨zero, others⟩ := List.forall_mem_cons.mp new
    obtain ⟨next, placed, done⟩ := Option.bind_eq_some_iff.mp done
    apply ih others ?_ done
    simp only [installCmd] at placed
    split at placed
    · split at placed
      · cases placed
      · cases placed
        intro entry member
        rcases List.mem_or_eq_of_mem_set member with before | new
        · exact fresh entry before
        · rw [new]
          exact zero
    · cases placed
      exact fresh

theorem makeReady_fresh {maxScheduleEntries : Nat} {table : ScheduleTable} {cmds : List AddedCmd}
    (ready : makeReady cfe maxScheduleEntries table cmds = some scheduler) :
    ∀ entry ∈ scheduler.state, entry.counter = 0 := by
  rw [makeReady, CommandSlots.addScheduledCmds_eq, initTables] at ready
  obtain ⟨installed, done, rfl⟩ := Option.map_eq_some_iff.mp ready
  apply installCmds_fresh ?_ ?_ done
  · intro entry member
    obtain ⟨cmd, _, rfl⟩ := List.mem_map.mp ((List.mem_append.mp member).resolve_left List.not_mem_nil)
    rw [CommandSlots.cmdEntry, SchLabStateEntry.ofCmd_eq]
  · apply loadEntries_fresh
    intro entry member
    rw [List.eq_of_mem_replicate member]

/-- Perfect mode replays. The configured table, the routes, the owners of the pipes
and the priorities of the apps determine the order in which each frame of a mission lets
the tasks go on, whatever the interleaving: the frames that are over have granted
in that order, and the current one has granted a first part of it. -/
theorem perfect_mode_replays (config : Config) (perfect : config.perfectScheduleMode = true) (depth : Nat → Nat)
    (registeredTasks : Nat) (taskTable priority : Nat → Nat) (base : BaseTrickCFSScheduler) (bus : SoftwareBus)
    (cfe : CfeMessages) (maxScheduleEntries : Nat) (table : ScheduleTable) (cmds : List AddedCmd)
    {scheduler : SchLabTrickCFSScheduler} (ready : makeReady cfe maxScheduleEntries table cmds = some scheduler)
    (owner : Nat → Nat) {events : List PipeThreadEvent} {state : SchedulerLoop SchLabTrickCFSScheduler}
    {history : FrameHistory}
    (ran : (mission config depth registeredTasks taskTable priority SchLabTrickCFSScheduler.process
      (base.marksOf bus) scheduler).run events = some (state, history))
    (claimed : (schedulerLoop config depth registeredTasks taskTable priority SchLabTrickCFSScheduler.process
      (base.marksOf bus) scheduler).Steps (Claimed owner)
      (schedulerLoop config depth registeredTasks taskTable priority SchLabTrickCFSScheduler.process
        (base.marksOf bus) scheduler).initial events) :
    let order := fun call => grouped (sorted (fun taskId => priority (taskTable taskId))
      (tasksAt base bus owner scheduler.state call))
    history.frames = (List.range history.frames.length).map order ∧
      history.ledger.grants <+: order history.calls ∧
      history.frames.length = framesOver history.calls state.pipes.threads.scheduler := by
  apply frames_replay perfect registeredTasks taskTable priority ran claimed
  funext call
  exact frameTasks_tasksAt (makeReady_fresh ready) base bus call

/-- Task 0 receives message 7 in every frame, and task 1, of smaller priority
number, message 8 in every second one. -/
def everySecond : ScheduleTable where
  tickRate := 1
  config := [⟨7, 0, 1, 0, []⟩, ⟨8, 0, 2, 0, []⟩]

def onePipeEach : SoftwareBus where
  destListHead := fun msgId => [⟨true, msgId - 7⟩]
  pipeTable := fun pipeId => ⟨false, pipeId, pipeId⟩
  transmitMsg := fun msgId => [(msgId - 7, [])]

def everySecondReady : SchLabTrickCFSScheduler where
  state := CommandSlots.loadedState UserCommands.plainMessages everySecond
  schedRateInMicros := 1000000
  schedFreq := 1

def everySecondLoop : Machine (SchedulerLoop SchLabTrickCFSScheduler) PipeThreadEvent :=
  schedulerLoop { oneTaskConfig with perfectScheduleMode := true, maxTasks := 2 } (fun _ => 4) 2 id
    (fun appId => 20 - 10 * appId) SchLabTrickCFSScheduler.process
    ((⟨9, true⟩ : BaseTrickCFSScheduler).marksOf onePipeEach) everySecondReady

def twoFrames : List PipeThreadEvent :=
  let site := StackInfo.backtrace [0, 1, 2, 3]
  [.thread (.createQueue 0 0), .thread (.createQueue 1 1), .thread .scheduler, .thread .scheduler, .thread .scheduler,
    .thread .main, .thread .startRun, .thread .main, .thread .main, .thread .main, .thread .main,
    .thread .scheduler, .thread (.send 0 7), .thread .scheduler, .put, .thread .scheduler,
    .thread (.receive 0 0), .thread (.complete 0 site), .dequeue 0, .thread (.acknowledge 0 7 site),
    .thread .scheduler, .thread .scheduler, .thread (.leave 0), .thread .scheduler, .thread (.receive 0 0),
    .thread (.complete 0 site), .thread .scheduler, .thread .scheduler, .thread .scheduler, .thread .scheduler,
    .thread .scheduler, .thread (.leave 0), .thread .main, .thread .main, .thread .main, .thread .main, .thread .main,
    .thread .scheduler, .thread (.send 0 7), .thread .scheduler, .put, .thread (.send 1 8), .thread .scheduler, .put,
    .thread .scheduler, .dequeue 0, .thread (.acknowledge 0 7 site), .thread (.receive 1 1),
    .thread (.complete 1 site), .dequeue 1, .thread (.acknowledge 1 8 site),
    .thread .scheduler, .thread .scheduler, .thread (.leave 1), .thread .scheduler, .thread (.receive 1 1),
    .thread (.complete 1 site), .thread .scheduler, .thread .scheduler, .thread .scheduler, .thread .scheduler,
    .thread .scheduler, .thread (.leave 0), .thread .scheduler, .thread (.receive 0 0), .thread (.complete 0 site),
    .thread .scheduler, .thread .scheduler, .thread .scheduler, .thread .scheduler, .thread .scheduler]

private theorem twoFrames_run : ((everySecondLoop.watch frameHistory).run twoFrames).isSome = true := by decide

private theorem twoFrames_claimed : everySecondLoop.Steps (Claimed id)
    everySecondLoop.initial twoFrames := by decide +kernel

theorem perfect_mode_replays_two_frames :
    (((everySecondLoop.watch frameHistory).run twoFrames).get twoFrames_run).2.frames = [[], [0], [1, 0]] := by
  have three : (((everySecondLoop.watch frameHistory).run twoFrames).get twoFrames_run).2.frames.length = 3 := rfl
  have ready : SchLabTrickCFSScheduler.makeReady UserCommands.plainMessages 2 everySecond [] = some everySecondReady := rfl
  obtain ⟨frames, _, _⟩ := perfect_mode_replays { oneTaskConfig with perfectScheduleMode := true, maxTasks := 2 } rfl
    (fun _ => 4) 2 id (fun appId => 20 - 10 * appId) ⟨9, true⟩ onePipeEach UserCommands.plainMessages 2 everySecond []
    ready id (Option.some_get twoFrames_run).symm twoFrames_claimed
  have order : (List.range 3).map (fun call => grouped (sorted (fun taskId => 20 - 10 * taskId)
      (tasksAt ⟨9, true⟩ onePipeEach id everySecondReady.state call))) = [[], [0], [1, 0]] := by decide +kernel
  exact frames.trans ((congrArg (fun count => (List.range count).map _) three).trans order)

end SchLab

end TrickCFS.Proofs.MissionOrder
