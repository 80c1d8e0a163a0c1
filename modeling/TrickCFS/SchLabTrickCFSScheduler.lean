import Mathlib.Data.Rat.Floor
import TrickCFS.BaseTrickCFSScheduler
import TrickCFS.Library.Binary64

/-! `SchLabTrickCFSScheduler`: a table of packet rates with one tick counter per
entry. `SchLabTrickCFSSchedulerEquuleusRC1` has the same table, the same tick loop
and the same user-added commands. The cFE table services are taken to succeed. -/

namespace TrickCFS

structure CommandHeader where
  msgId : Nat := 0
  size : Nat := 0
  fcnCode : Nat := 0
  deriving DecidableEq

structure SchLabStateEntry where
  commandHeader : CommandHeader := {}
  messageBuffer : List UInt16 := []
  payloadLength : UInt16 := 0
  msgId : Nat := 0
  packetRate : UInt32 := 0
  counter : UInt32 := 0
  deriving DecidableEq

def SchLabStateEntry.setHeader (msgId size : Nat) (entry : SchLabStateEntry) : SchLabStateEntry :=
  { entry with commandHeader := { msgId, size } }

theorem SchLabStateEntry.setHeader_lawful (msgId size : Nat) (entry : SchLabStateEntry) :
    setHeader msgId size entry = entry.setHeader msgId size ∨
      setHeader msgId size entry = { entry.setHeader msgId size with messageBuffer := [] } := Or.inl rfl

/-- What is used of cFE's messages. `CFE_MSG_Init` is given an entry, a message ID
and a size. It sets the header and may clear the message behind it. That it leaves
the fields behind the message buffer alone is assumed for every size, also for one
that reaches beyond the buffer. -/
structure CfeMessages where
  invalidMsgId : Nat
  valueToMsgId : Nat → Nat
  commandHeaderSize : Nat
  msgInit : Nat → Nat → SchLabStateEntry → SchLabStateEntry := SchLabStateEntry.setHeader
  msgInit_header : ∀ msgId size entry,
      msgInit msgId size entry = entry.setHeader msgId size ∨
      msgInit msgId size entry = { entry.setHeader msgId size with messageBuffer := [] } := by
    exact SchLabStateEntry.setHeader_lawful

/-- `SCH_LAB_ScheduleTableEntry_t`. -/
structure ScheduleTableEntry where
  messageID : Nat
  fcnCode : Nat
  packetRate : UInt32
  payloadLength : UInt16
  messageBuffer : List UInt16

/-- `SCH_LAB_ScheduleTable_t`. -/
structure ScheduleTable where
  tickRate : UInt32
  config : List ScheduleTableEntry

structure ScheduledSend where
  index : Nat
  msgId : Nat
  message : CommandHeader
  deriving DecidableEq

/-- The arguments of one call of `addScheduledCmd`. The rate is the value of a `double`. -/
structure AddedCmd where
  mid : Nat
  cmdRate : ℚ
  cmdCode : Nat
  payloadLength : Nat

structure SchLabTrickCFSScheduler where
  state : List SchLabStateEntry
  schedRateInMicros : Nat := 0
  schedFreq : UInt32 := 0
  userAddedCmds : List SchLabStateEntry := []

namespace SchLabStateEntry

def tick (entry : SchLabStateEntry) : SchLabStateEntry × Bool :=
  if entry.packetRate ≠ 0 then
    let counter := entry.counter + 1
    if counter ≥ entry.packetRate then ({ entry with counter := 0 }, true)
    else ({ entry with counter }, false)
  else (entry, false)

variable (cfe : CfeMessages)

/-- The slots that `initTables` gives to user-added commands. -/
def isFree (entry : SchLabStateEntry) : Bool :=
  entry.packetRate == 0 && entry.msgId == cfe.invalidMsgId

def setFcnCode (fcnCode : Nat) (entry : SchLabStateEntry) : SchLabStateEntry :=
  { entry with commandHeader := { entry.commandHeader with fcnCode } }

def load (config : ScheduleTableEntry) (entry : SchLabStateEntry) : SchLabStateEntry :=
  if config.packetRate ≠ 0 then
    let entry := { entry with msgId := config.messageID }
    let entry := cfe.msgInit config.messageID (cfe.commandHeaderSize + config.payloadLength.toNat) entry
    { entry.setFcnCode config.fcnCode with
      packetRate := config.packetRate
      payloadLength := config.payloadLength
      messageBuffer := config.messageBuffer }
  else entry

/-- The entry that `addScheduledCmd` makes. Its rate is in microseconds until
`initTables` converts it to ticks; the product of the `double` is rounded before
the conversion to an integer cuts off its fraction. -/
def ofCmd (mid : Nat) (cmdRate : ℚ) (cmdCode payloadLength : Nat) : SchLabStateEntry :=
  let cfsMid := cfe.valueToMsgId mid
  let newEntry := cfe.msgInit cfsMid (cfe.commandHeaderSize + payloadLength) {}
  { newEntry.setFcnCode cmdCode with
    payloadLength := UInt16.ofNat payloadLength
    msgId := cfsMid
    packetRate := UInt32.ofNat ⌊Binary64.round (cmdRate * 1000000)⌋₊ }

/-- Whatever `CFE_MSG_Init` does to the message buffer, the entry is written over it. -/
theorem load_used {config : ScheduleTableEntry} (used : config.packetRate ≠ 0) (entry : SchLabStateEntry) :
    entry.load cfe config =
      { commandHeader :=
          { msgId := config.messageID
            size := cfe.commandHeaderSize + config.payloadLength.toNat
            fcnCode := config.fcnCode }
        messageBuffer := config.messageBuffer
        payloadLength := config.payloadLength
        msgId := config.messageID
        packetRate := config.packetRate
        counter := entry.counter } := by
  simp only [load, if_pos used]
  rcases cfe.msgInit_header config.messageID (cfe.commandHeaderSize + config.payloadLength.toNat)
    { entry with msgId := config.messageID } with same | same <;> rw [same] <;> rfl

theorem load_unused {config : ScheduleTableEntry} (unused : config.packetRate = 0) (entry : SchLabStateEntry) :
    entry.load cfe config = entry := by
  simp only [load, unused, ne_eq, not_true_eq_false, ite_false]

theorem ofCmd_eq (mid : Nat) (cmdRate : ℚ) (cmdCode payloadLength : Nat) :
    ofCmd cfe mid cmdRate cmdCode payloadLength =
      { commandHeader :=
          { msgId := cfe.valueToMsgId mid
            size := cfe.commandHeaderSize + payloadLength
            fcnCode := cmdCode }
        payloadLength := UInt16.ofNat payloadLength
        msgId := cfe.valueToMsgId mid
        packetRate := UInt32.ofNat ⌊Binary64.round (cmdRate * 1000000)⌋₊ } := by
  simp only [ofCmd]
  rcases cfe.msgInit_header (cfe.valueToMsgId mid) (cfe.commandHeaderSize + payloadLength) {} with same | same <;>
    rw [same] <;> rfl

end SchLabStateEntry

namespace SchLabTrickCFSScheduler
variable (cfe : CfeMessages)

def construct (maxScheduleEntries : Nat) : SchLabTrickCFSScheduler where
  state := List.replicate maxScheduleEntries {}

def addScheduledCmd (mid : Nat) (cmdRate : ℚ) (cmdCode payloadLength : Nat)
    (scheduler : SchLabTrickCFSScheduler) : SchLabTrickCFSScheduler :=
  { scheduler with
    userAddedCmds := scheduler.userAddedCmds ++ [.ofCmd cfe mid cmdRate cmdCode payloadLength] }

def addScheduledCmds : List AddedCmd → SchLabTrickCFSScheduler → SchLabTrickCFSScheduler
  | [], scheduler => scheduler
  | cmd :: cmds, scheduler =>
    addScheduledCmds cmds
      (scheduler.addScheduledCmd cfe cmd.mid cmd.cmdRate cmd.cmdCode cmd.payloadLength)

/-- The minor frame in microseconds. A rate that does not divide a second is
only warned about. -/
def timerPeriod (tickRate : UInt32) : UInt32 :=
  if tickRate = 0 then 1000000 else 1000000 / tickRate

def loadEntries : List ScheduleTableEntry → List SchLabStateEntry → List SchLabStateEntry
  | config :: configs, entry :: entries => entry.load cfe config :: loadEntries configs entries
  | _, entries => entries

/-- The part of `initTables` that reads the configured table. -/
def loadTable (table : ScheduleTable) (scheduler : SchLabTrickCFSScheduler) : SchLabTrickCFSScheduler :=
  { scheduler with
    state := loadEntries cfe table.config scheduler.state
    schedRateInMicros := (timerPeriod table.tickRate).toNat
    schedFreq := table.tickRate }

/-- One user-added command goes to the first free slot, if there is one. `none`
is a division by zero. -/
def installCmd (schedRateInMicros : Nat) (newEntry : SchLabStateEntry) (state : List SchLabStateEntry) :
    Option (List SchLabStateEntry) :=
  match state.findIdx? (SchLabStateEntry.isFree cfe) with
  | some i =>
    if schedRateInMicros = 0 then none
    else
      some (state.set i
        { newEntry with packetRate := UInt32.ofNat (newEntry.packetRate.toNat / schedRateInMicros) })
  | none => some state

def installCmds (schedRateInMicros : Nat) :
    List SchLabStateEntry → List SchLabStateEntry → Option (List SchLabStateEntry)
  | [], state => some state
  | newEntry :: rest, state =>
    (installCmd cfe schedRateInMicros newEntry state).bind (installCmds schedRateInMicros rest)

/-- The part of `initTables` after the configured table is released. -/
def installUserCmds (loaded : SchLabTrickCFSScheduler) : Option SchLabTrickCFSScheduler :=
  (installCmds cfe loaded.schedRateInMicros loaded.userAddedCmds loaded.state).map
    (fun state => { loaded with state })

def initTables (table : ScheduleTable) (scheduler : SchLabTrickCFSScheduler) :
    Option SchLabTrickCFSScheduler :=
  (scheduler.loadTable cfe table).installUserCmds cfe

/-- A scheduler as the input file makes it ready: it is constructed, commands are
added, and the configured table is loaded. -/
def makeReady (maxScheduleEntries : Nat) (table : ScheduleTable) (cmds : List AddedCmd) :
    Option SchLabTrickCFSScheduler :=
  ((construct maxScheduleEntries).addScheduledCmds cfe cmds).initTables cfe table

def getMinorFrameMsTics (scheduler : SchLabTrickCFSScheduler) : Nat :=
  ⌊(scheduler.schedRateInMicros : ℚ) / 1000⌋₊

/-- The tick loop from index `i` on: the calls of `sendScheduledMessage` that it
makes, and the entries it leaves. -/
def processEntries : Nat → List SchLabStateEntry → List ScheduledSend × List SchLabStateEntry
  | _, [] => ([], [])
  | i, entry :: rest =>
    let ticked := entry.tick
    let later := processEntries (i + 1) rest
    (if ticked.2 then ⟨i, entry.msgId, entry.commandHeader⟩ :: later.1 else later.1, ticked.1 :: later.2)

def processScheduleTable (scheduler : SchLabTrickCFSScheduler) :
    List ScheduledSend × SchLabTrickCFSScheduler :=
  let processed := processEntries 0 scheduler.state
  (processed.1, { scheduler with state := processed.2 })

def after (scheduler : SchLabTrickCFSScheduler) : Nat → SchLabTrickCFSScheduler
  | 0 => scheduler
  | calls + 1 => (scheduler.after calls).processScheduleTable.2

/-- What the call of the given number sends. The first call has number one. -/
def sentAt (scheduler : SchLabTrickCFSScheduler) (call : Nat) : List ScheduledSend :=
  (scheduler.after (call - 1)).processScheduleTable.1

end SchLabTrickCFSScheduler
end TrickCFS
