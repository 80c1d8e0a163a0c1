import TrickCFS.BaseTrickCFSScheduler
import TrickCFS.Ledger
import TrickCFS.PipeThreads
import TrickCFS.SchLabTrickCFSScheduler
import TrickCFS.TrickCFSScheduler

/-! `BaseTrickCFSScheduler::loop` among the threads and pipes. A pass of the loop
calls the class's `processScheduleTable` once, and every message that the call
sends marks the pipes of its destinations before the pass can end. -/

namespace TrickCFS
namespace BaseTrickCFSScheduler
variable (scheduler : BaseTrickCFSScheduler) (bus : SoftwareBus)

def markedQueues : List DestinationD → List Nat
  | [] => []
  | dest :: dests =>
    if dest.active = false then markedQueues dests
    else
      let pipe := bus.pipeTable dest.pipeId
      if pipe.ignoreMine = true ∧ pipe.appId = scheduler.appId then markedQueues dests
      else pipe.sysQueueId :: markedQueues dests

theorem markDestinations_eq (es : EsGlobal) (msgId : Nat) (dests : List DestinationD) (iface : TrickCFSInterface) :
    scheduler.markDestinations bus es msgId dests iface =
      (scheduler.markedQueues bus dests).foldl
        (fun iface pipeId => iface.markPipeAsTriggered scheduler.perfectScheduleMode es pipeId msgId) iface := by
  induction dests generalizing iface with
  | nil => rfl
  | cons dest dests ih =>
    simp only [markDestinations, markedQueues]
    split
    · exact ih iface
    · split
      · exact ih iface
      · exact ih _

def marksOf (msgIds : List Nat) : List (Nat × Nat) :=
  msgIds.flatMap (fun msgId =>
    (scheduler.markedQueues bus (bus.destListHead msgId)).map (fun pipeId => (pipeId, msgId)))

end BaseTrickCFSScheduler

/-- A mark that nobody interrupts is a call of `markPipeAsTriggered`. -/
theorem Threads.uninterrupted_mark (config : Config) {state : Threads} (processing : state.scheduler = .processing)
    (pipeId mid : Nat) :
    (state.step config (.send pipeId mid)).bind (fun marking => marking.step config .scheduler) =
      some { state with
        iface := state.iface.markPipeAsTriggered config.perfectScheduleMode state.es pipeId mid } := by
  simp only [step, processing, ite_true, Option.bind_some, schedulerStep, setScheduler]
  rfl

/-- The marks of a message that nobody interrupts are the loop over its destinations. -/
theorem uninterrupted_marks {config : Config} {registeredTasks : Nat} {taskTable priority : Nat → Nat}
    (scheduler : BaseTrickCFSScheduler) (same : scheduler.perfectScheduleMode = config.perfectScheduleMode)
    (bus : SoftwareBus) (msgId : Nat) (dests : List DestinationD) {state : Threads}
    (processing : state.scheduler = .processing) :
    (threads config registeredTasks taskTable priority).runFrom state
        ((scheduler.markedQueues bus dests).flatMap (fun pipeId => [.send pipeId msgId, .scheduler])) =
      some { state with iface := scheduler.markDestinations bus state.es msgId dests state.iface } := by
  rw [BaseTrickCFSScheduler.markDestinations_eq, same]
  induction scheduler.markedQueues bus dests generalizing state with
  | nil => rfl
  | cons pipeId queues ih =>
    have marked := Threads.uninterrupted_mark config processing pipeId msgId
    obtain ⟨marking, sent, acknowledged⟩ := Option.bind_eq_some_iff.mp marked
    refine (Machine.runFrom_cons _).mpr ⟨marking, sent, (Machine.runFrom_cons _).mpr ⟨_, acknowledged, ?_⟩⟩
    exact ih processing

/-- `table` is the state of the scheduler's class. -/
structure SchedulerLoop (σ : Type) where
  pipes : PipeThreads
  table : σ
  /-- What the pass over the table has still to mark: pipes with their messages. -/
  toMark : List (Nat × Nat)

namespace SchedulerLoop
variable {σ : Type} (config : Config) (depth : Nat → Nat) (processScheduleTable : σ → List Nat × σ)
  (marks : List Nat → List (Nat × Nat))

/-- The scheduler has been triggered and calls `processScheduleTable`. -/
def process (state : SchedulerLoop σ) : SchedulerLoop σ :=
  let processed := processScheduleTable state.table
  { state with
    table := processed.2
    toMark := marks processed.1 }

/-- What the scheduler's own step does in the loop, from where it stands. -/
def schedulerTurn (moved : SchedulerLoop σ) : SchedulerPc → Option (SchedulerLoop σ)
  | .waiting => some (moved.process processScheduleTable marks)
  | .processing => if moved.toMark = [] then some moved else none
  | _ => some moved

def markNext (copy : Nat × Nat) (moved : SchedulerLoop σ) : Option (SchedulerLoop σ) :=
  match moved.toMark with
  | next :: rest => if next = copy then some { moved with toMark := rest } else none
  | [] => none

def step (state : SchedulerLoop σ) (event : PipeThreadEvent) : Option (SchedulerLoop σ) :=
  (state.pipes.step config depth event).bind (fun pipes =>
    let moved := { state with pipes }
    match event with
    | .thread .scheduler => moved.schedulerTurn processScheduleTable marks state.pipes.threads.scheduler
    | .thread (.send pipeId mid) => moved.markNext (pipeId, mid)
    | _ => some moved)

end SchedulerLoop

/-- The simulation with a scheduler of any class derived from `BaseTrickCFSScheduler`,
whose `init` gives the first signal, at the given table. -/
def schedulerLoop {σ : Type} (config : Config) (depth : Nat → Nat) (registeredTasks : Nat)
    (taskTable priority : Nat → Nat) (processScheduleTable : σ → List Nat × σ)
    (marks : List Nat → List (Nat × Nat)) (table : σ) : Machine (SchedulerLoop σ) PipeThreadEvent where
  initial :=
    { pipes := (pipeThreads config depth registeredTasks taskTable priority).initial
      table
      toMark := [] }
  step := SchedulerLoop.step config depth processScheduleTable marks

/-- The message IDs that one call of `SchLabTrickCFSScheduler::processScheduleTable` sends. -/
def SchLabTrickCFSScheduler.process (scheduler : SchLabTrickCFSScheduler) : List Nat × SchLabTrickCFSScheduler :=
  let processed := scheduler.processScheduleTable
  (processed.1.map ScheduledSend.msgId, processed.2)

structure TimedScheduler where
  scheduler : TrickCFSScheduler
  calls : Nat := 0

/-- The message IDs that one call of `TrickCFSScheduler::processScheduleTable` sends,
call `k` at the time `timeOf k`. -/
def TimedScheduler.process (context : ScheduleContext) (timeOf : Nat → Nat) (ticsPerSec : Nat) (timed : TimedScheduler) :
    List Nat × TimedScheduler :=
  let pass := timed.scheduler.processScheduleTable context (timeOf timed.calls) ticsPerSec
  let sent := pass.scheduler.transmissions.drop timed.scheduler.transmissions.length
  (sent.map (fun transmission => context.messageTable transmission.messageIndex),
    { scheduler := pass.scheduler, calls := timed.calls + 1 })

/-- The simulation with the slot scheduler. `TrickCFSScheduler::init` gives no
signal: from the load of the tables it goes on to the wait of its loop. -/
def slotLoop (config : Config) (depth : Nat → Nat) (registeredTasks : Nat) (taskTable priority : Nat → Nat)
    (context : ScheduleContext) (timeOf : Nat → Nat) (ticsPerSec : Nat) (scheduler : TrickCFSScheduler) :
    Machine (SchedulerLoop TimedScheduler) PipeThreadEvent where
  initial :=
    let pipes := (pipeThreads config depth registeredTasks taskTable priority).initial
    { pipes := { pipes with threads := pipes.threads.setScheduler .waiting }
      table := { scheduler }
      toMark := [] }
  step := SchedulerLoop.step config depth (TimedScheduler.process context timeOf ticsPerSec)
    (context.base.marksOf context.bus)

/-- The frames of a mission as a monitor records them. -/
structure FrameHistory where
  ledger : Ledger := {}
  /-- The calls of `processScheduleTable` so far. -/
  calls : Nat := 0
  /-- The grants of each frame whose `signalMainAppComplete` has returned. -/
  frames : List (List Nat) := []

def FrameHistory.record (history : FrameHistory) (state : Threads) (event : ThreadEvent) : FrameHistory where
  ledger := history.ledger.record state event
  calls := if event = .scheduler ∧ state.scheduler = .waiting then history.calls + 1 else history.calls
  frames :=
    if event = .scheduler ∧ state.scheduler = .completing then history.frames ++ [history.ledger.grants]
    else history.frames

def frameHistory {σ : Type} : Machine.Monitor (SchedulerLoop σ) PipeThreadEvent FrameHistory where
  start := {}
  record := fun history state event =>
    match event with
    | .thread event => history.record state.pipes.threads event
    | _ => history

def mission {σ : Type} (config : Config) (depth : Nat → Nat) (registeredTasks : Nat) (taskTable priority : Nat → Nat)
    (processScheduleTable : σ → List Nat × σ) (marks : List Nat → List (Nat × Nat)) (table : σ) :
    Machine (SchedulerLoop σ × FrameHistory) PipeThreadEvent :=
  (schedulerLoop config depth registeredTasks taskTable priority processScheduleTable marks table).watch frameHistory

end TrickCFS
