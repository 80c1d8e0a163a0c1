import TrickCFS.Library.ByteMemory
import TrickCFS.SchLabTrickCFSScheduler

/-! The `State` array of `SchLabTrickCFSScheduler` in memory. A message is
transmitted from its `CommandHeader` on, over as many bytes as the header
declares, whatever lies there. -/

namespace TrickCFS

/-- The layout of `SchLabStateEntry_t`. The header and the message ID are types of
cFE; `messageSize` is what `CFE_MSG_GetSize` reads of a header. -/
structure EntryLayout where
  headerSize : Nat
  headerBytes : CommandHeader → List UInt8
  headerBytes_length : ∀ header, (headerBytes header).length = headerSize
  messageSize : CommandHeader → Nat
  maxArgsPerEntry : Nat
  msgIdPadding : Nat
  msgIdSize : Nat
  msgIdBytes : Nat → List UInt8
  msgIdBytes_length : ∀ msgId, (msgIdBytes msgId).length = msgIdSize
  ratePadding : Nat
  endPadding : Nat

def uint16Bytes (value : UInt16) : List UInt8 := [value.toUInt8, (value >>> 8).toUInt8]

def uint32Bytes (value : UInt32) : List UInt8 :=
  [value.toUInt8, (value >>> 8).toUInt8, (value >>> 16).toUInt8, (value >>> 24).toUInt8]

namespace EntryLayout
variable (layout : EntryLayout)

/-- The array `MessageBuffer`. The words behind the list are zero. -/
def bufferBytes (messageBuffer : List UInt16) : List UInt8 :=
  (List.range layout.maxArgsPerEntry).flatMap (fun x => uint16Bytes (messageBuffer.getD x 0))

def frontBytes (entry : SchLabStateEntry) : List UInt8 :=
  layout.headerBytes entry.commandHeader ++ layout.bufferBytes entry.messageBuffer ++
    uint16Bytes entry.payloadLength ++ List.replicate layout.msgIdPadding 0 ++
    layout.msgIdBytes entry.msgId ++ List.replicate layout.ratePadding 0

def entryBytes (entry : SchLabStateEntry) : List UInt8 :=
  layout.frontBytes entry ++
    (uint32Bytes entry.packetRate ++ uint32Bytes entry.counter ++ List.replicate layout.endPadding 0)

def rateOffset : Nat :=
  layout.headerSize + 2 * layout.maxArgsPerEntry + 2 + layout.msgIdPadding + layout.msgIdSize +
    layout.ratePadding

def entrySize : Nat := layout.rateOffset + 8 + layout.endPadding

/-- The array from address zero on, and what lies behind it. -/
def stateMemory (behind : Nat → UInt8) (state : List SchLabStateEntry) : ByteMemory := fun address =>
  match state[address / layout.entrySize]? with
  | some entry => (layout.entryBytes entry).getD (address % layout.entrySize) 0
  | none => behind address

end EntryLayout

namespace SchLabTrickCFSScheduler
variable (layout : EntryLayout) (behind : Nat → UInt8)

/-- The tick loop behind the entries that it has done, with the bytes that
`CFE_SB_TransmitMsg` copies for each entry. -/
def transmitEntries : List SchLabStateEntry → List SchLabStateEntry → List (Nat × List UInt8)
  | _, [] => []
  | done, entry :: rest =>
    let ticked := entry.tick
    let memory := layout.stateMemory behind (done ++ ticked.1 :: rest)
    let message := memory.read (done.length * layout.entrySize) (layout.messageSize ticked.1.commandHeader)
    let later := transmitEntries (done ++ [ticked.1]) rest
    if ticked.2 then (done.length, message) :: later else later

/-- What the call of the given number transmits, with the table index of each
message. The first call has number one. -/
def transmittedAt (scheduler : SchLabTrickCFSScheduler) (call : Nat) : List (Nat × List UInt8) :=
  transmitEntries layout behind [] (scheduler.after (call - 1)).state

end SchLabTrickCFSScheduler
end TrickCFS
