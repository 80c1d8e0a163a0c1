import TrickCFS.Library.ByteMemory

/-! The message table of `TrickCFSScheduler` in memory. Its validation turns every
used entry into a message, in place: the payload is moved behind the header. -/

namespace TrickCFS

/-- A field of the given place lies in its entry and apart from `MessageBuffer`. -/
def FieldApart (offset size bufferOffset bufferSize entrySize : Nat) : Prop :=
  offset + size ≤ entrySize ∧ (offset + size ≤ bufferOffset ∨ bufferOffset + bufferSize ≤ offset)

/-- The layout of `Generic_MessageEntry_t`, which the flight software defines. -/
structure MessageLayout where
  entrySize : Nat
  midOffset : Nat
  midSize : Nat
  cmdCodeOffset : Nat
  payloadLengthOffset : Nat
  bufferOffset : Nat
  maxMsgWords : Nat
  mid_apart : FieldApart midOffset midSize bufferOffset (2 * maxMsgWords) entrySize
  cmdCode_apart : FieldApart cmdCodeOffset 2 bufferOffset (2 * maxMsgWords) entrySize
  payloadLength_apart : FieldApart payloadLengthOffset 2 bufferOffset (2 * maxMsgWords) entrySize
  buffer_inside : bufferOffset + 2 * maxMsgWords ≤ entrySize

/-- The message functions of cFE. `init`, `setSize` and `setFcnCode` write the
bytes of a header and nothing else; a size that a header cannot hold is refused. -/
structure MessageApi where
  msgIdToValue : List UInt8 → Nat
  invalidMsgId : Nat
  highestValidMsgId : Nat
  isCommand : Nat → Bool
  commandHeaderSize : Nat
  telemetryHeaderSize : Nat
  init : Nat → Nat → List UInt8
  setSize : Nat → List UInt8 → List UInt8
  setFcnCode : Nat → List UInt8 → List UInt8
  getSize : List UInt8 → Nat
  init_length : ∀ msgId size, (init msgId size).length = size
  setSize_length : ∀ size header, (setSize size header).length = header.length
  setFcnCode_length : ∀ code header, (setFcnCode code header).length = header.length
  getSize_init : ∀ msgId size, size = commandHeaderSize ∨ size = telemetryHeaderSize →
    getSize (init msgId size) = size
  getSize_setSize : ∀ size header,
    getSize (setSize size header) = size ∨ getSize (setSize size header) = getSize header
  getSize_setFcnCode : ∀ code header, getSize (setFcnCode code header) = getSize header

/-- The codes `SCH_MDT_*`, all of them different from `CFE_SUCCESS`. -/
inductive MessageDataError
  | garbageEntry
  | invalidLength
  | badMsgId
  deriving DecidableEq

structure MessageDataResult where
  tableResult : Option MessageDataError := none
  memory : ByteMemory

structure MessageTable where
  layout : MessageLayout
  cfe : MessageApi
  maxMessages : Nat
  unusedMid : Nat
  unused : UInt8

def littleEndian : List UInt8 → Nat
  | [] => 0
  | byte :: rest => byte.toNat + 256 * littleEndian rest

namespace MessageTable
variable (table : MessageTable) (memory : ByteMemory) (index : Nat)

def entryAt : Nat := index * table.layout.entrySize

def bufferAt : Nat := table.entryAt index + table.layout.bufferOffset

def bufferSize : Nat := 2 * table.layout.maxMsgWords

def messageID : Nat :=
  table.cfe.msgIdToValue (memory.read (table.entryAt index + table.layout.midOffset) table.layout.midSize)

def cmdCode : Nat := littleEndian (memory.read (table.entryAt index + table.layout.cmdCodeOffset) 2)

def payloadLength : Nat :=
  littleEndian (memory.read (table.entryAt index + table.layout.payloadLengthOffset) 2)

def Valid : Prop :=
  table.messageID memory index ≠ table.unusedMid ∧
    table.messageID memory index ≤ table.cfe.highestValidMsgId ∧
    table.cfe.invalidMsgId ≤ table.messageID memory index

instance : Decidable (table.Valid memory index) := inferInstanceAs (Decidable (_ ∧ _))

def headerSize : Nat :=
  if table.cfe.isCommand (table.messageID memory index) then table.cfe.commandHeaderSize
  else table.cfe.telemetryHeaderSize

/-- The header that `CFE_MSG_Init`, `CFE_MSG_SetSize` and, for a command,
`CFE_MSG_SetFcnCode` leave at the start of the buffer. -/
def header : List UInt8 :=
  let messageID := table.messageID memory index
  let sized := table.cfe.setSize (table.headerSize memory index + table.payloadLength memory index)
    (table.cfe.init messageID (table.headerSize memory index))
  if table.cfe.isCommand messageID then table.cfe.setFcnCode (table.cmdCode memory index) sized else sized

/-- `TempBuffer`. -/
def payload : List UInt8 := memory.read (table.bufferAt index) (table.payloadLength memory index)

def entryResult : Option MessageDataError :=
  if table.messageID memory index = table.unusedMid then
    if ∃ byte ∈ memory.read (table.bufferAt index) table.bufferSize, byte ≠ table.unused then
      some .garbageEntry
    else none
  else if table.messageID memory index ≤ table.cfe.highestValidMsgId ∧
      table.messageID memory index ≥ table.cfe.invalidMsgId then
    if table.payloadLength memory index > table.bufferSize then some .invalidLength else none
  else some .badMsgId

def entryWrites : List (Nat × List UInt8) :=
  if table.Valid memory index ∧ table.payloadLength memory index ≤ table.bufferSize then
    [(table.bufferAt index, table.header memory index),
      (table.bufferAt index + table.headerSize memory index, table.payload memory index)]
  else []

def validateEntry : ByteMemory := ByteMemory.writeAll (table.entryWrites memory index) memory

/-- The loop over the first entries. The first error is the one returned. -/
def validateEntries : Nat → MessageDataResult
  | 0 => { memory }
  | index + 1 =>
    let result := validateEntries index
    { tableResult := result.tableResult.or (table.entryResult result.memory index)
      memory := table.validateEntry result.memory index }

def validateMessageData : MessageDataResult := table.validateEntries memory table.maxMessages

/-- The size of the message that is transmitted for the entry. -/
def messageSize : Nat :=
  table.cfe.getSize (memory.read (table.bufferAt index) (table.headerSize memory index))

end MessageTable
end TrickCFS
