import TrickCFS.TrickCFSInterface
import TrickCFS.TrickCFSQueue

/-! `BaseTrickCFSScheduler::sendScheduledMessage`: one pass over the software
bus's destinations that marks the owners of the pipes, and then the
transmission, whose result is discarded. -/

namespace TrickCFS

/-- What is read of a `CFE_SB_PipeD_t`. `sysQueueId` is an array index here. -/
structure PipeD where
  ignoreMine : Bool
  appId : Nat
  sysQueueId : Nat

/-- What is read of a `CFE_SB_DestinationD_t`. -/
structure DestinationD where
  active : Bool
  pipeId : Nat

/-- The software bus: its routes and pipes, and the calls of `OS_QueuePut_Impl`
that `CFE_SB_TransmitMsg` makes for a message. That function is part of cFE. -/
structure SoftwareBus where
  destListHead : Nat → List DestinationD
  pipeTable : Nat → PipeD
  transmitMsg : Nat → List (Nat × List UInt8)

structure Simulation where
  iface : TrickCFSInterface
  es : EsGlobal
  queues : Nat → TrickCFSQueue

namespace TrickCFSInterface

def markPipeAsTriggered (perfectScheduleMode : Bool) (es : EsGlobal) (pipeId mid : Nat)
    (iface : TrickCFSInterface) : TrickCFSInterface :=
  let taskId := iface.prevPipeTaskOwner pipeId
  iface.markTask perfectScheduleMode (es.locateAppRecord taskId) taskId mid

end TrickCFSInterface

def QueueOutcome.isAccepted : QueueOutcome → Bool
  | .sent (.ok ()) => true
  | _ => false

/-- The puts of one transmission, in order, with the pipes that accepted their
copy. A copy that its queue rejects is dropped. -/
def osQueuePutAll : List (Nat × List UInt8) → (Nat → TrickCFSQueue) → List Nat × (Nat → TrickCFSQueue)
  | [], queues => ([], queues)
  | (queueId, data) :: puts, queues =>
    let put := (queues queueId).send data
    let later := osQueuePutAll puts (Function.update queues queueId put.2)
    (if put.1.isAccepted then queueId :: later.1 else later.1, later.2)

structure BaseTrickCFSScheduler where
  appId : Nat
  perfectScheduleMode : Bool

namespace BaseTrickCFSScheduler
variable (scheduler : BaseTrickCFSScheduler) (bus : SoftwareBus)

def markDestinations (es : EsGlobal) (msgId : Nat) :
    List DestinationD → TrickCFSInterface → TrickCFSInterface
  | [], iface => iface
  | dest :: dests, iface =>
    if dest.active = false then markDestinations es msgId dests iface
    else
      let pipe := bus.pipeTable dest.pipeId
      if pipe.ignoreMine = true ∧ pipe.appId = scheduler.appId then
        markDestinations es msgId dests iface
      else
        markDestinations es msgId dests
          (iface.markPipeAsTriggered scheduler.perfectScheduleMode es pipe.sysQueueId msgId)

/-- The state after the call, and the pipes whose queues accepted a copy. The
source does not look at the latter. -/
def sendScheduledMessage (msgId : Nat) (sim : Simulation) : List Nat × Simulation :=
  let iface := scheduler.markDestinations bus sim.es msgId (bus.destListHead msgId) sim.iface
  let sent := osQueuePutAll (bus.transmitMsg msgId) sim.queues
  (sent.1, { sim with iface, queues := sent.2 })

end BaseTrickCFSScheduler
end TrickCFS
