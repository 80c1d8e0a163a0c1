import TrickCFS.MessageTable

/-! What the validation of one message entry reads and writes. An entry whose
header and payload fit in its buffer changes its own buffer only, so the entries
are validated independently of each other. -/

namespace TrickCFS.Proofs.MessageTables
open MessageTable

variable {table : MessageTable} {memory memory' : ByteMemory} {index other : Nat}

/-- The address lies in the entry. -/
def InEntry (table : MessageTable) (index address : Nat) : Prop :=
  table.entryAt index ≤ address ∧ address < table.entryAt index + table.layout.entrySize

instance (table : MessageTable) (index address : Nat) : Decidable (InEntry table index address) :=
  inferInstanceAs (Decidable (_ ∧ _))

/-- The address lies in the entry's `MessageBuffer`. -/
def InBuffer (table : MessageTable) (index address : Nat) : Prop :=
  table.bufferAt index ≤ address ∧ address < table.bufferAt index + table.bufferSize

instance (table : MessageTable) (index address : Nat) : Decidable (InBuffer table index address) :=
  inferInstanceAs (Decidable (_ ∧ _))

/-- The header and the payload fit in the buffer, if they are written at all. -/
def Fits (table : MessageTable) (memory : ByteMemory) (index : Nat) : Prop :=
  table.Valid memory index → table.payloadLength memory index ≤ table.bufferSize →
    table.headerSize memory index + table.payloadLength memory index ≤ table.bufferSize

instance (table : MessageTable) (memory : ByteMemory) (index : Nat) : Decidable (Fits table memory index) :=
  inferInstanceAs (Decidable (_ → _))

def SameEntry (table : MessageTable) (index : Nat) (memory memory' : ByteMemory) : Prop :=
  ∀ address, InEntry table index address → memory address = memory' address

def SameFields (table : MessageTable) (index : Nat) (memory memory' : ByteMemory) : Prop :=
  ∀ address, InEntry table index address → ¬ InBuffer table index address → memory address = memory' address

section Places

theorem InBuffer.entry {address : Nat} (inside : InBuffer table index address) :
    InEntry table index address := by
  have bound := table.layout.buffer_inside
  obtain ⟨low, high⟩ := inside
  simp only [bufferAt, bufferSize] at low high
  exact ⟨by omega, by omega⟩

theorem InEntry.unique {address : Nat} (first : InEntry table index address)
    (second : InEntry table other address) : index = other := by
  obtain ⟨low, high⟩ := first
  obtain ⟨low', high'⟩ := second
  simp only [entryAt] at low high low' high'
  rcases Nat.lt_trichotomy index other with less | same | less
  · have apart : (index + 1) * table.layout.entrySize ≤ other * table.layout.entrySize :=
      Nat.mul_le_mul_right _ less
    rw [Nat.succ_mul] at apart
    omega
  · exact same
  · have apart : (other + 1) * table.layout.entrySize ≤ index * table.layout.entrySize :=
      Nat.mul_le_mul_right _ less
    rw [Nat.succ_mul] at apart
    omega

theorem SameEntry.symm (same : SameEntry table index memory memory') : SameEntry table index memory' memory :=
  fun address inside => (same address inside).symm

theorem SameEntry.trans {memory'' : ByteMemory} (first : SameEntry table index memory memory')
    (second : SameEntry table index memory' memory'') : SameEntry table index memory memory'' :=
  fun address inside => (first address inside).trans (second address inside)

theorem SameEntry.fields (same : SameEntry table index memory memory') :
    SameFields table index memory memory' := fun address inside _ => same address inside

theorem read_field (same : SameFields table index memory memory') {offset size : Nat}
    (field : FieldApart offset size table.layout.bufferOffset (2 * table.layout.maxMsgWords)
      table.layout.entrySize) :
    memory.read (table.entryAt index + offset) size = memory'.read (table.entryAt index + offset) size := by
  obtain ⟨inside, apart⟩ := field
  rw [ByteMemory.read_eq_iff]
  intro position bound
  apply same
  · exact ⟨by omega, by omega⟩
  · intro ⟨low, high⟩
    simp only [bufferAt, bufferSize] at low high
    omega

end Places

section Fields
variable (same : SameFields table index memory memory')
include same

theorem same_messageID : table.messageID memory index = table.messageID memory' index := by
  rw [messageID, messageID, read_field same table.layout.mid_apart]

theorem same_payloadLength : table.payloadLength memory index = table.payloadLength memory' index := by
  rw [payloadLength, payloadLength, read_field same table.layout.payloadLength_apart]

theorem same_cmdCode : table.cmdCode memory index = table.cmdCode memory' index := by
  rw [cmdCode, cmdCode, read_field same table.layout.cmdCode_apart]

theorem same_valid : table.Valid memory index ↔ table.Valid memory' index := by
  simp only [Valid, same_messageID same]

theorem same_headerSize : table.headerSize memory index = table.headerSize memory' index := by
  simp only [headerSize, same_messageID same]

theorem same_header : table.header memory index = table.header memory' index := by
  simp only [header, same_messageID same, same_headerSize same, same_payloadLength same, same_cmdCode same]

theorem same_fits : Fits table memory index ↔ Fits table memory' index := by
  simp only [Fits, same_valid same, same_payloadLength same, same_headerSize same]

end Fields

theorem header_length : (table.header memory index).length = table.headerSize memory index := by
  simp only [header]
  split
  · rw [table.cfe.setFcnCode_length, table.cfe.setSize_length, table.cfe.init_length]
  · rw [table.cfe.setSize_length, table.cfe.init_length]

theorem payload_length : (table.payload memory index).length = table.payloadLength memory index :=
  ByteMemory.read_length

theorem validateEntry_written (valid : table.Valid memory index)
    (short : table.payloadLength memory index ≤ table.bufferSize) :
    table.validateEntry memory index = ByteMemory.write (table.bufferAt index)
      (table.header memory index ++ table.payload memory index) memory := by
  rw [validateEntry, entryWrites, if_pos ⟨valid, short⟩, ← header_length, ← ByteMemory.write_append]
  rfl

theorem read_written (valid : table.Valid memory index)
    (short : table.payloadLength memory index ≤ table.bufferSize) :
    (table.validateEntry memory index).read (table.bufferAt index) (table.headerSize memory index) =
        table.header memory index ∧
      (table.validateEntry memory index).read (table.bufferAt index + table.headerSize memory index)
        (table.payloadLength memory index) = table.payload memory index := by
  rw [validateEntry_written valid short, ← header_length, ← payload_length, ← ByteMemory.write_append]
  constructor
  · rw [ByteMemory.read_write_other (Or.inl (Nat.le_refl _)), ByteMemory.read_write_same]
  · exact ByteMemory.read_write_same

theorem validateEntry_unwritten
    (refused : ¬ (table.Valid memory index ∧ table.payloadLength memory index ≤ table.bufferSize)) :
    table.validateEntry memory index = memory := by
  rw [validateEntry, entryWrites, if_neg refused]
  rfl

theorem validateEntry_outside (fits : Fits table memory index) {address : Nat}
    (outside : ¬ InBuffer table index address) :
    table.validateEntry memory index address = memory address := by
  by_cases written : table.Valid memory index ∧ table.payloadLength memory index ≤ table.bufferSize
  · have bound := fits written.1 written.2
    rw [validateEntry_written written.1 written.2]
    apply ByteMemory.write_outside
    rw [List.length_append, header_length, payload_length]
    have apart : address < table.bufferAt index ∨ table.bufferAt index + table.bufferSize ≤ address := by
      by_cases low : address < table.bufferAt index
      · exact Or.inl low
      · right
        apply Nat.le_of_not_lt
        exact fun high => outside ⟨Nat.le_of_not_lt low, high⟩
    omega
  · rw [validateEntry_unwritten written]

theorem validateEntry_other (fits : Fits table memory index) (different : other ≠ index) :
    SameEntry table other (table.validateEntry memory index) memory := by
  intro address inside
  apply validateEntry_outside fits
  exact fun buffer => different (inside.unique buffer.entry)

theorem validateEntry_fields (fits : Fits table memory index) :
    SameFields table other (table.validateEntry memory index) memory := by
  intro address inside outside
  apply validateEntry_outside fits
  intro buffer
  cases inside.unique buffer.entry
  exact outside buffer

theorem same_validateEntry (same : SameEntry table index memory memory') :
    SameEntry table index (table.validateEntry memory index) (table.validateEntry memory' index) ∧
      table.entryResult memory index = table.entryResult memory' index := by
  have buffer : ∀ size ≤ table.bufferSize, memory.read (table.bufferAt index) size =
      memory'.read (table.bufferAt index) size := by
    intro size bound
    rw [ByteMemory.read_eq_iff]
    intro offset inside
    exact same _ (InBuffer.entry ⟨by omega, by omega⟩)
  constructor
  · intro address inside
    by_cases written : table.Valid memory index ∧ table.payloadLength memory index ≤ table.bufferSize
    · have written' := written
      rw [same_valid same.fields, same_payloadLength same.fields] at written'
      rw [validateEntry_written written.1 written.2, validateEntry_written written'.1 written'.2,
        same_header same.fields, payload, payload, buffer _ written.2, same_payloadLength same.fields]
      simp only [ByteMemory.write, same address inside]
    · have unwritten := written
      rw [same_valid same.fields, same_payloadLength same.fields] at unwritten
      rw [validateEntry_unwritten written, validateEntry_unwritten unwritten, same address inside]
  · simp only [entryResult, same_messageID same.fields, same_payloadLength same.fields,
      buffer _ (Nat.le_refl table.bufferSize)]

/-- Entries that fit are validated as if each were alone in the table. -/
theorem entries_independent {count : Nat} (fits : ∀ index < count, Fits table memory index) :
    (∀ index, SameEntry table index (table.validateEntries memory count).memory
      (if index < count then table.validateEntry memory index else memory)) ∧
    ((table.validateEntries memory count).tableResult = none ↔
      ∀ index < count, table.entryResult memory index = none) := by
  induction count with
  | zero =>
    refine ⟨?_, ?_⟩
    · intro index address _
      rw [if_neg (Nat.not_lt_zero index)]
      rfl
    · simp [validateEntries]
  | succ count ih =>
    obtain ⟨earlier, last⟩ := Nat.forall_lt_succ_right.mp fits
    obtain ⟨alone, result⟩ := ih earlier
    have untouched : SameEntry table count (table.validateEntries memory count).memory memory := by
      intro address inside
      rw [alone count address inside, if_neg (Nat.lt_irrefl count)]
    have fits' := (same_fits untouched.fields).mpr last
    obtain ⟨same, error⟩ := same_validateEntry untouched
    refine ⟨?_, ?_⟩
    · intro index address inside
      simp only [validateEntries]
      by_cases this : index = count
      · subst this
        rw [same address inside, if_pos (Nat.lt_succ_self index)]
      · rw [validateEntry_other fits' this address inside, alone index address inside]
        have before : index < count + 1 ↔ index < count := by omega
        simp only [before]
    · simp only [validateEntries, Option.or_eq_none_iff, result, error, Nat.forall_lt_succ_right]

theorem entry_alone {count : Nat} (fits : ∀ index < count, Fits table memory index) (bound : index < count) :
    SameEntry table index (table.validateEntries memory count).memory (table.validateEntry memory index) := by
  have same := (entries_independent fits).1 index
  rwa [if_pos bound] at same

/-- Headers in the default CCSDS format: the message ID, a sequence word, the
length and, for a command, the function code. -/
def ccsds : MessageApi where
  msgIdToValue := littleEndian
  invalidMsgId := 0
  highestValidMsgId := 8191
  isCommand := fun msgId => decide (msgId / 4096 % 2 = 1)
  commandHeaderSize := 8
  telemetryHeaderSize := 12
  init := fun msgId size => (List.range size).map (fun offset =>
    ([UInt8.ofNat (msgId / 256), UInt8.ofNat msgId, 192, 0, 0, UInt8.ofNat (size - 7)] : List UInt8).getD
      offset 0)
  setSize := fun size header =>
    if 7 ≤ size ∧ size ≤ 65542 ∧ 6 ≤ header.length then
      (header.set 4 (UInt8.ofNat ((size - 7) / 256))).set 5 (UInt8.ofNat (size - 7))
    else header
  setFcnCode := fun code header => header.set 6 (UInt8.ofNat (code % 128))
  getSize := fun header => 256 * (header.getD 4 0).toNat + (header.getD 5 0).toNat + 7
  init_length := by simp
  setSize_length := by
    intro size header
    split <;> simp
  setFcnCode_length := by simp
  getSize_init := by
    rintro msgId size (rfl | rfl)
    · rfl
    · rfl
  getSize_setSize := by
    intro size header
    split
    next held =>
      left
      obtain ⟨least, most, length⟩ := held
      have high : ((header.set 4 (UInt8.ofNat ((size - 7) / 256))).set 5 (UInt8.ofNat (size - 7))).getD 4 0 =
          UInt8.ofNat ((size - 7) / 256) := by
        rw [List.getD_eq_getElem _ _ (by simp; omega)]
        simp
      have low : ((header.set 4 (UInt8.ofNat ((size - 7) / 256))).set 5 (UInt8.ofNat (size - 7))).getD 5 0 =
          UInt8.ofNat (size - 7) := by
        rw [List.getD_eq_getElem _ _ (by simp; omega)]
        simp
      simp only [high, low, UInt8.toNat_ofNat']
      omega
    next => exact Or.inr rfl
  getSize_setFcnCode := by
    intro code header
    simp only [List.getD_eq_getElem?_getD]
    rw [List.getElem?_set_ne (by decide), List.getElem?_set_ne (by decide)]

def eightWords : MessageTable where
  layout :=
    { entrySize := 24
      midOffset := 0
      midSize := 4
      cmdCodeOffset := 4
      payloadLengthOffset := 6
      bufferOffset := 8
      maxMsgWords := 8
      mid_apart := ⟨by decide, by decide⟩
      cmdCode_apart := ⟨by decide, by decide⟩
      payloadLength_apart := ⟨by decide, by decide⟩
      buffer_inside := by decide }
  cfe := ccsds
  maxMessages := 2
  unusedMid := 0
  unused := 0

end TrickCFS.Proofs.MessageTables
