import TrickCFS.BaseTrickCFSScheduler

/-! `TrickCFSScheduler`: a schedule table that is divided into the slots of a
second. The simulation time selects the slot, and an entry of the slot is active
in the seconds of its own frequency and remainder. -/

namespace TrickCFS

/-- The constants of the schedule app's headers. `initTables` registers a table
of `SCH_TOTAL_SLOTS * SCH_ENTRIES_PER_SLOT` entries. -/
structure SchConstants where
  totalSlots : Nat
  entriesPerSlot : Nat
  tableEntries : Nat
  tableEntries_eq : tableEntries = totalSlots * entriesPerSlot
  maxMessages : Nat
  unused : Nat
  enabled : Nat
  enabled_ne_unused : enabled ≠ unused
  disabled : Nat
  activitySendMsg : Nat

/-- `Generic_ScheduleEntry_t`. -/
structure ScheduleEntry where
  enableState : Nat
  type : Nat
  frequency : Nat
  remainder : Nat
  messageIndex : Nat
  groupData : Nat
  deriving DecidableEq

/-- The codes `SCH_SDT_*`, all of them different from `CFE_SUCCESS`. -/
inductive ScheduleDataError
  | garbageEntry
  | noFrequency
  | badRemainder
  | badActivity
  | badMsgIndex
  | badEnableState
  deriving DecidableEq

structure ScheduleDataResult where
  tableResult : Option ScheduleDataError := none
  goodCount : Nat := 0
  badCount : Nat := 0
  unusedCount : Nat := 0

inductive ActivityError
  | corruptData (slot entry : Nat) (data : ScheduleEntry)
  | activity (slot entry : Nat) (status : Int)

/-- A message of `messageTable` that is handed to `CFE_SB_TransmitMsg`, with the
table index of the entry that sends it. -/
structure Transmission where
  index : Nat
  messageIndex : Nat
  deriving DecidableEq

structure TrickCFSScheduler where
  scheduleTable : Nat → ScheduleEntry
  nextSlotNumber : Nat := 0
  simTimeSecs : Nat := 0
  simTimeMicros : Nat := 0
  /-- Whether `CFE_TBL_Modified` has been called on the table. -/
  tableModified : Bool := false
  sim : Simulation
  /-- The calls of `CFE_SB_TransmitMsg` so far. -/
  transmissions : List Transmission := []

/-- The outcome of a pass, with the error that ended it early. -/
structure SchedulePass where
  error : Option ActivityError := none
  scheduler : TrickCFSScheduler

/-- What a pass reads besides the schedule table. `CFE_SB_TransmitMsg` is part of
cFE; it is given the message ID and answers with its status. -/
structure ScheduleContext where
  constants : SchConstants
  base : BaseTrickCFSScheduler
  bus : SoftwareBus
  messageTable : Nat → Nat
  transmitMsg : Nat → Simulation → Int × Simulation

namespace SchConstants
variable (constants : SchConstants)

theorem entry_inside {slot entryNumber : Nat} (below : slot < constants.totalSlots)
    (inside : entryNumber < constants.entriesPerSlot) :
    slot * constants.entriesPerSlot + entryNumber < constants.tableEntries := by
  rw [constants.tableEntries_eq]
  calc slot * constants.entriesPerSlot + entryNumber
      < (slot + 1) * constants.entriesPerSlot := by
        rw [Nat.succ_mul]
        omega
    _ ≤ constants.totalSlots * constants.entriesPerSlot := Nat.mul_le_mul_right _ below

def validateEntry (entry : ScheduleEntry) : Option ScheduleDataError :=
  if entry.enableState = constants.unused then
    if entry.frequency ≠ constants.unused ∨ entry.remainder ≠ constants.unused ∨
        entry.groupData ≠ constants.unused ∨ entry.type ≠ constants.unused ∨
        entry.messageIndex ≠ constants.unused then some .garbageEntry
    else none
  else if entry.enableState = constants.enabled ∨ entry.enableState = constants.disabled then
    if entry.frequency = constants.unused then some .noFrequency
    else if entry.remainder ≥ entry.frequency then some .badRemainder
    else if entry.type ≠ constants.activitySendMsg then some .badActivity
    else if entry.messageIndex = 0 then some .badMsgIndex
    else if entry.messageIndex ≥ constants.maxMessages then some .badMsgIndex
    else none
  else some .badEnableState

/-- One round of the validation loop. The first error is the one returned. -/
def countEntry (entry : ScheduleEntry) (result : ScheduleDataResult) : ScheduleDataResult :=
  match constants.validateEntry entry with
  | some code =>
    { result with
      badCount := result.badCount + 1
      tableResult := result.tableResult.or (some code) }
  | none =>
    if entry.enableState = constants.unused then { result with unusedCount := result.unusedCount + 1 }
    else { result with goodCount := result.goodCount + 1 }

def validateScheduleData (table : Nat → ScheduleEntry) : ScheduleDataResult :=
  (List.range constants.tableEntries).foldl
    (fun result tableIndex => constants.countEntry (table tableIndex) result) {}

/-- The entries that no load accepts, and that a pass checks for again. -/
def isCorrupt (entry : ScheduleEntry) : Prop :=
  entry.messageIndex ≥ constants.maxMessages ∨ entry.frequency = constants.unused ∨
    entry.type ≠ constants.activitySendMsg ∨ entry.remainder ≥ entry.frequency

instance (entry : ScheduleEntry) : Decidable (constants.isCorrupt entry) :=
  inferInstanceAs (Decidable (_ ∨ _))

end SchConstants

namespace TrickCFSScheduler

def disableEntry (constants : SchConstants) (index : Nat) (scheduler : TrickCFSScheduler) :
    TrickCFSScheduler :=
  { scheduler with
    scheduleTable := Function.update scheduler.scheduleTable index
      { scheduler.scheduleTable index with enableState := constants.disabled }
    tableModified := true }

variable (context : ScheduleContext)

/-- The slot of a time. One tic is added to see whether that reaches the next slot. -/
def updateTimeTics (tics ticsPerSec : Nat) (scheduler : TrickCFSScheduler) : Nat × TrickCFSScheduler :=
  let schNormalSlotPeriod := 1000000 / context.constants.totalSlots
  let simTimeSecs := tics / ticsPerSec
  let simTimeMicros := tics % ticsPerSec
  let schSlot := simTimeMicros / schNormalSlotPeriod
  let remainder := simTimeMicros - schSlot * schNormalSlotPeriod + 1
  let schSlot := schSlot + remainder / schNormalSlotPeriod
  (if schSlot = context.constants.totalSlots then 0 else schSlot,
    { scheduler with simTimeSecs, simTimeMicros })

/-- The message of an active entry: the owners of its pipes are marked, and it
is transmitted. -/
def sendEntry (index : Nat) (scheduler : TrickCFSScheduler) : Int × TrickCFSScheduler :=
  let messageIndex := (scheduler.scheduleTable index).messageIndex
  let msgId := context.messageTable messageIndex
  let sim := scheduler.sim
  let iface := context.base.markDestinations context.bus sim.es msgId (context.bus.destListHead msgId) sim.iface
  let sent := context.transmitMsg msgId { sim with iface }
  (sent.1,
    { scheduler with
      sim := sent.2
      transmissions := scheduler.transmissions ++ [{ index, messageIndex }] })

def processNextEntry (index entryNumber : Nat) (scheduler : TrickCFSScheduler) : SchedulePass :=
  let nextEntry := scheduler.scheduleTable index
  if context.constants.isCorrupt nextEntry then
    { error := some (.corruptData scheduler.nextSlotNumber entryNumber nextEntry)
      scheduler := scheduler.disableEntry context.constants index }
  else if scheduler.simTimeSecs % nextEntry.frequency = nextEntry.remainder then
    let sent := sendEntry context index scheduler
    { error := if sent.1 ≠ 0 then some (.activity scheduler.nextSlotNumber entryNumber sent.1) else none
      scheduler := sent.2 }
  else { scheduler }

def processEntries : List Nat → TrickCFSScheduler → SchedulePass
  | [], scheduler => { scheduler }
  | entryNumber :: rest, scheduler =>
    let index := scheduler.nextSlotNumber * context.constants.entriesPerSlot + entryNumber
    if (scheduler.scheduleTable index).enableState = context.constants.enabled then
      let pass := processNextEntry context index entryNumber scheduler
      match pass.error with
      | some _ => pass
      | none => processEntries rest pass.scheduler
    else processEntries rest scheduler

def processNextSlot (scheduler : TrickCFSScheduler) : SchedulePass :=
  let pass := processEntries context (List.range context.constants.entriesPerSlot) scheduler
  match pass.error with
  | some _ => pass
  | none =>
    { pass with
      scheduler := { pass.scheduler with nextSlotNumber := pass.scheduler.nextSlotNumber + 1 } }

/-- One call at the given time. It fails exactly when the pass has an error. -/
def processScheduleTable (tics ticsPerSec : Nat) (scheduler : TrickCFSScheduler) : SchedulePass :=
  let updated := scheduler.updateTimeTics context tics ticsPerSec
  processNextSlot context { updated.2 with nextSlotNumber := updated.1 }

/-- The scheduler after a number of calls, call `k` at the time `timeOf k`. -/
def after (timeOf : Nat → Nat) (ticsPerSec : Nat) (scheduler : TrickCFSScheduler) :
    Nat → TrickCFSScheduler
  | 0 => scheduler
  | calls + 1 =>
    ((scheduler.after timeOf ticsPerSec calls).processScheduleTable context (timeOf calls) ticsPerSec).scheduler

/-- The table indices of the entries that a scheduler has transmitted since. -/
def transmittedSince (before now : TrickCFSScheduler) : List Nat :=
  (now.transmissions.drop before.transmissions.length).map Transmission.index

/-- What call `k` transmits, counting from zero. -/
def transmittedAt (timeOf : Nat → Nat) (ticsPerSec : Nat) (scheduler : TrickCFSScheduler) (call : Nat) :
    List Nat :=
  transmittedSince (scheduler.after context timeOf ticsPerSec call)
    (scheduler.after context timeOf ticsPerSec (call + 1))

end TrickCFSScheduler
end TrickCFS
