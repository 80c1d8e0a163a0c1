import TrickCFS.Proofs.MessageTables

/-! Whether the validation of a message table stays inside the entries. The length
check admits a payload as long as the buffer, and the header is written in front
of it. -/

namespace TrickCFS.Proofs.MessageBounds
open MessageTable MessageTables

variable {table : MessageTable} {memory : ByteMemory} {index : Nat}

/-- The validation of the entry writes inside its own buffer, and changes nothing
else. -/
structure Contained (table : MessageTable) (memory : ByteMemory) (index : Nat) : Prop where
  writes : ∀ block ∈ table.entryWrites memory index, table.bufferAt index ≤ block.1 ∧
    block.1 + block.2.length ≤ table.bufferAt index + table.bufferSize
  others : ∀ address, ¬ InBuffer table index address → table.validateEntry memory index address = memory address

theorem contained_iff : Contained table memory index ↔ Fits table memory index := by
  constructor
  · intro contained valid short
    have written := contained.writes
    rw [entryWrites, if_pos ⟨valid, short⟩] at written
    have last := (written _ (List.mem_cons_of_mem _ (List.mem_singleton_self _))).2
    rw [payload_length] at last
    omega
  · intro fits
    refine ⟨?_, fun _ outside => validateEntry_outside fits outside⟩
    intro block member
    rw [entryWrites] at member
    split at member
    next written =>
      have bound := fits written.1 written.2
      rcases List.mem_cons.mp member with rfl | member
      · rw [header_length]
        omega
      · obtain rfl := List.mem_singleton.mp member
        rw [payload_length]
        omega
    next => cases member

theorem fields_kept {count : Nat}
    (fits : ∀ index < count, Fits table (table.validateEntries memory index).memory index) (index : Nat) :
    SameFields table index (table.validateEntries memory count).memory memory := by
  induction count with
  | zero => exact fun _ _ _ => rfl
  | succ count ih =>
    obtain ⟨earlier, last⟩ := Nat.forall_lt_succ_right.mp fits
    intro address inside outside
    rw [validateEntries]
    exact (validateEntry_fields last address inside outside).trans (ih earlier address inside outside)

/-- Whether the entries fit can be read off the table as it was loaded. -/
theorem fits_throughout_iff (count : Nat) :
    (∀ index < count, Fits table (table.validateEntries memory index).memory index) ↔
      ∀ index < count, Fits table memory index := by
  induction count with
  | zero => exact iff_of_true (by simp) (by simp)
  | succ count ih =>
    rw [Nat.forall_lt_succ_right, Nat.forall_lt_succ_right, ← ih]
    constructor
    · intro ⟨earlier, last⟩
      exact ⟨earlier, (same_fits (fields_kept earlier count)).mp last⟩
    · intro ⟨earlier, last⟩
      exact ⟨earlier, (same_fits (fields_kept earlier count)).mpr last⟩

theorem getSize_header (table : MessageTable) (memory : ByteMemory) (index : Nat) :
    table.cfe.getSize (table.header memory index) =
      table.headerSize memory index + table.payloadLength memory index ∨
    table.cfe.getSize (table.header memory index) = table.headerSize memory index := by
  have initial : table.cfe.getSize (table.cfe.init (table.messageID memory index)
      (table.headerSize memory index)) = table.headerSize memory index := by
    apply table.cfe.getSize_init
    simp only [headerSize]
    split
    · exact Or.inl rfl
    · exact Or.inr rfl
  have sized := table.cfe.getSize_setSize (table.headerSize memory index + table.payloadLength memory index)
    (table.cfe.init (table.messageID memory index) (table.headerSize memory index))
  rw [initial] at sized
  simp only [header]
  split
  · rwa [table.cfe.getSize_setFcnCode]
  · exact sized

theorem messageSize_fits (fits : Fits table memory index) (valid : table.Valid memory index)
    (short : table.payloadLength memory index ≤ table.bufferSize) :
    table.messageSize (table.validateEntry memory index) index ≤ table.bufferSize := by
  have bound := fits valid short
  have fields : SameFields table index (table.validateEntry memory index) memory := validateEntry_fields fits
  rw [messageSize, same_headerSize fields, (read_written valid short).1]
  rcases getSize_header table memory index with size | size
  all_goals
    rw [size]
    omega

theorem same_messageSize {memory' : ByteMemory} (same : SameEntry table index memory memory')
    (fits : table.headerSize memory index ≤ table.bufferSize) :
    table.messageSize memory index = table.messageSize memory' index := by
  have read : memory.read (table.bufferAt index) (table.headerSize memory index) =
      memory'.read (table.bufferAt index) (table.headerSize memory index) := by
    rw [ByteMemory.read_eq_iff]
    intro offset inside
    exact same _ (InBuffer.entry ⟨by omega, by omega⟩)
  rw [messageSize, messageSize, read, same_headerSize same.fields]

/-- Every entry is validated inside its own buffer, and the messages of the
valid entries end up in theirs, exactly when header and payload of each of them
fit in the buffer together. -/
theorem validation_contained_iff (table : MessageTable) (memory : ByteMemory) :
    let final := (table.validateMessageData memory).memory
    ((∀ index < table.maxMessages, Contained table (table.validateEntries memory index).memory index) ∧
      ∀ index < table.maxMessages, table.Valid final index →
        table.payloadLength final index ≤ table.bufferSize →
        table.messageSize final index ≤ table.bufferSize) ↔
      ∀ index < table.maxMessages, Fits table memory index := by
  intro final
  simp only [contained_iff, fits_throughout_iff]
  refine and_iff_left_of_imp (fun fits index bound valid short => ?_)
  have fields : SameFields table index final memory :=
    fields_kept ((fits_throughout_iff table.maxMessages).mpr fits) index
  rw [same_valid fields] at valid
  rw [same_payloadLength fields] at short
  have alone : SameEntry table index final (table.validateEntry memory index) := entry_alone fits bound
  have room := fits index bound valid short
  rw [same_messageSize alone (by rw [same_headerSize fields]; omega)]
  exact messageSize_fits (fits index bound) valid short

def longPayload : ByteMemory := fun address =>
  ([1, 24, 0, 0, 1, 0, 16, 0] ++ List.replicate 16 170 : List UInt8).getD address 0

/-- The header pushes the end of the payload into the next entry. -/
theorem next_entry_overwritten :
    ¬ ∀ (table : MessageTable) (memory : ByteMemory), ∀ index < table.maxMessages,
      Contained table (table.validateEntries memory index).memory index := by
  intro always
  have kept := (always eightWords longPayload 0 (by decide)).others 24 (by decide)
  revert kept
  decide

end TrickCFS.Proofs.MessageBounds
