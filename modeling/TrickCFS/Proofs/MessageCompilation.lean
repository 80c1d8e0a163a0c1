import TrickCFS.Proofs.MessageBounds

/-! What the validation makes of a message table whose entries fit: every used
entry holds its message, the header with the configured payload behind it, and
every other byte is as it was loaded. -/

namespace TrickCFS.Proofs.MessageCompilation
open MessageTable MessageTables MessageBounds

variable {table : MessageTable} {memory memory' : ByteMemory} {index address : Nat}

/-- The entry is turned into a message. -/
def Used (table : MessageTable) (memory : ByteMemory) (index : Nat) : Prop :=
  table.Valid memory index ∧ table.payloadLength memory index ≤ table.bufferSize

/-- The message of an entry, as the table configures it. -/
def message (table : MessageTable) (memory : ByteMemory) (index : Nat) : List UInt8 :=
  table.header memory index ++ table.payload memory index

/-- The address is written by the message of the entry. -/
def InMessage (table : MessageTable) (memory : ByteMemory) (index address : Nat) : Prop :=
  Used table memory index ∧ table.bufferAt index ≤ address ∧
    address < table.bufferAt index + (message table memory index).length

theorem message_length :
    (message table memory index).length = table.headerSize memory index + table.payloadLength memory index := by
  rw [message, List.length_append, header_length, payload_length]

theorem same_inMessage (same : SameFields table index memory memory') :
    InMessage table memory index address ↔ InMessage table memory' index address := by
  simp only [InMessage, Used, message_length, same_valid same, same_payloadLength same, same_headerSize same]

theorem validateEntry_rest (outside : ¬ InMessage table memory index address) :
    table.validateEntry memory index address = memory address := by
  by_cases used : Used table memory index
  · rw [validateEntry_written used.1 used.2]
    apply ByteMemory.write_outside
    have length : (message table memory index).length =
        table.headerSize memory index + table.payloadLength memory index := message_length
    rw [message] at length
    have apart : ¬ (table.bufferAt index ≤ address ∧
        address < table.bufferAt index + (message table memory index).length) := fun inside => outside ⟨used, inside⟩
    rw [message_length] at apart
    omega
  · rw [validateEntry_unwritten used]

theorem validateEntries_rest {count : Nat} (fits : ∀ index < count, Fits table memory index)
    (outside : ∀ index < count, ¬ InMessage table memory index address) :
    (table.validateEntries memory count).memory address = memory address := by
  induction count with
  | zero => rfl
  | succ count ih =>
    obtain ⟨earlier, last⟩ := Nat.forall_lt_succ_right.mp outside
    have fits' := (Nat.forall_lt_succ_right.mp fits).1
    have fields : SameFields table count (table.validateEntries memory count).memory memory :=
      fields_kept ((fits_throughout_iff count).mpr fits') count
    have last' : ¬ InMessage table (table.validateEntries memory count).memory count address :=
      fun inside => last ((same_inMessage fields).mp inside)
    exact (validateEntry_rest last').trans (ih fits' earlier)

theorem tableResult_first {count : Nat} (fits : ∀ index < count, Fits table memory index) :
    (table.validateEntries memory count).tableResult = (List.range count).findSome? (table.entryResult memory) := by
  induction count with
  | zero => rfl
  | succ count ih =>
    obtain ⟨earlier, _⟩ := Nat.forall_lt_succ_right.mp fits
    have untouched : SameEntry table count (table.validateEntries memory count).memory memory := by
      intro address inside
      rw [(entries_independent earlier).1 count address inside, if_neg (Nat.lt_irrefl count)]
    rw [validateEntries, ih earlier, (same_validateEntry untouched).2, List.range_succ, List.findSome?_append]
    simp only [List.findSome?_cons, List.findSome?_nil]
    cases table.entryResult memory count <;> rfl

/-- The entry's message is in its buffer, and all of it unless cFE refuses its size. -/
theorem message_read (fits : ∀ index < table.maxMessages, Fits table memory index) (bound : index < table.maxMessages)
    (used : Used table memory index) :
    let final := (table.validateMessageData memory).memory
    final.read (table.bufferAt index) (message table memory index).length = message table memory index ∧
      (final.read (table.bufferAt index) (table.messageSize final index) = message table memory index ∨
        final.read (table.bufferAt index) (table.messageSize final index) = table.header memory index) := by
  intro final
  have alone : SameEntry table index final (table.validateEntry memory index) := entry_alone fits bound
  have room := fits index bound used.1 used.2
  have fields : SameFields table index final memory :=
    fields_kept ((fits_throughout_iff table.maxMessages).mpr fits) index
  have copied (size : Nat) (inside : size ≤ table.bufferSize) :
      final.read (table.bufferAt index) size = (table.validateEntry memory index).read (table.bufferAt index) size := by
    rw [ByteMemory.read_eq_iff]
    intro offset below
    exact alone _ (InBuffer.entry ⟨by omega, by omega⟩)
  have whole : final.read (table.bufferAt index) (message table memory index).length = message table memory index := by
    rw [copied _ (message_length ▸ room), validateEntry_written used.1 used.2]
    exact ByteMemory.read_write_same
  have front : final.read (table.bufferAt index) (table.headerSize memory index) = table.header memory index := by
    rw [copied _ (by omega)]
    exact (read_written used.1 used.2).1
  refine ⟨whole, ?_⟩
  have size : table.messageSize final index = table.cfe.getSize (table.header memory index) := by
    rw [messageSize, same_headerSize fields, front]
  rw [size]
  rcases getSize_header table memory index with full | refused
  · left
    rw [full, ← message_length]
    exact whole
  · right
    rw [refused]
    exact front

/-- The validation compiles the table. The result is the first error of an entry
as it was loaded; every used entry ends up as its header and its payload, which is
what is transmitted for it, or the header alone where cFE refuses the size; and
no byte outside the messages changes. -/
theorem message_table_compiled (table : MessageTable) (memory : ByteMemory)
    (fits : ∀ index < table.maxMessages, Fits table memory index) :
    let result := table.validateMessageData memory
    result.tableResult = (List.range table.maxMessages).findSome? (table.entryResult memory) ∧
      (∀ index < table.maxMessages, Used table memory index →
        result.memory.read (table.bufferAt index) (message table memory index).length = message table memory index ∧
          (result.memory.read (table.bufferAt index) (table.messageSize result.memory index) =
              message table memory index ∨
            result.memory.read (table.bufferAt index) (table.messageSize result.memory index) =
              table.header memory index)) ∧
      ∀ address, (∀ index < table.maxMessages, ¬ InMessage table memory index address) →
        result.memory address = memory address := by
  refine ⟨tableResult_first fits, ?_, ?_⟩
  · intro index bound used
    exact message_read fits bound used
  · intro address outside
    exact validateEntries_rest fits outside

def shortPayload : ByteMemory := fun address =>
  (List.replicate 24 0 ++ [1, 24, 0, 0, 5, 0, 2, 0, 170, 171] : List UInt8).getD address 0

theorem message_table_compiled_short_payload :
    let result := eightWords.validateMessageData shortPayload
    result.tableResult = none ∧ result.memory.read 32 10 = [24, 1, 192, 0, 0, 3, 5, 0, 170, 171] := by
  obtain ⟨accepted, compiled, _⟩ := message_table_compiled eightWords shortPayload (by decide)
  obtain ⟨message, _⟩ := compiled 1 (by decide) ⟨by decide, by decide⟩
  exact ⟨accepted, message⟩

end TrickCFS.Proofs.MessageCompilation
