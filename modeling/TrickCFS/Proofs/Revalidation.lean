import TrickCFS.Proofs.MessageTables

/-! A second validation of a message table. The entries are accepted again, and
the payload of each used entry is moved once more. -/

namespace TrickCFS.Proofs.Revalidation
open MessageTable MessageTables

variable {table : MessageTable} {memory : ByteMemory} {index : Nat}

theorem entryResult_again (fits : Fits table memory index) (accepted : table.entryResult memory index = none) :
    table.entryResult (table.validateEntry memory index) index = none := by
  by_cases written : table.Valid memory index ∧ table.payloadLength memory index ≤ table.bufferSize
  · have fields : SameFields table index (table.validateEntry memory index) memory :=
      validateEntry_fields fits
    obtain ⟨⟨used, most, least⟩, short⟩ := written
    rw [entryResult, same_messageID fields, same_payloadLength fields, if_neg used, if_pos ⟨most, least⟩,
      if_neg (Nat.not_lt.mpr short)]
  · rwa [validateEntry_unwritten written]

theorem written_of_accepted (accepted : table.entryResult memory index = none) :
    table.messageID memory index = table.unusedMid ∨
      table.Valid memory index ∧ table.payloadLength memory index ≤ table.bufferSize := by
  rw [entryResult] at accepted
  split at accepted
  next unused => exact Or.inl unused
  next used =>
    split at accepted
    next valid =>
      split at accepted
      next => cases accepted
      next short => exact Or.inr ⟨⟨used, valid.1, valid.2⟩, Nat.not_lt.mp short⟩
    next => cases accepted

/-- The second time the payload starts with the header. -/
theorem payload_again (fits : Fits table memory index) (valid : table.Valid memory index)
    (short : table.payloadLength memory index ≤ table.bufferSize) :
    table.payload (table.validateEntry memory index) index =
      (table.header memory index ++ table.payload memory index).take (table.payloadLength memory index) := by
  have fields : SameFields table index (table.validateEntry memory index) memory := validateEntry_fields fits
  rw [payload, same_payloadLength fields, validateEntry_written valid short, ByteMemory.read_write_take]
  rw [List.length_append, payload_length]
  exact Nat.le_add_left _ _

theorem written_again_iff (fits : Fits table memory index) (valid : table.Valid memory index)
    (short : table.payloadLength memory index ≤ table.bufferSize) :
    SameEntry table index (table.validateEntry (table.validateEntry memory index) index)
        (table.validateEntry memory index) ↔
      (table.header memory index ++ table.payload memory index).take (table.payloadLength memory index) =
        table.payload memory index := by
  have fields : SameFields table index (table.validateEntry memory index) memory := validateEntry_fields fits
  have valid' := (same_valid fields).mpr valid
  have short' : table.payloadLength (table.validateEntry memory index) index ≤ table.bufferSize := by
    rwa [same_payloadLength fields]
  have room := fits valid short
  rw [← payload_again fits valid short]
  constructor
  · intro same
    have first := (read_written valid short).2
    have second := (read_written valid' short').2
    rw [same_headerSize fields, same_payloadLength fields] at second
    rw [← first, ← second, ByteMemory.read_eq_iff]
    intro offset inside
    refine same _ (InBuffer.entry ⟨?_, ?_⟩)
    all_goals omega
  · intro same address _
    rw [validateEntry_written valid' short', same_header fields, same, validateEntry_written valid short,
      ByteMemory.write_write]

/-- A table whose entries fit is accepted again, and the second validation
leaves an entry as it is exactly when the entry is unused, or its payload repeats
the header and itself. -/
theorem accepted_again (table : MessageTable) (memory : ByteMemory)
    (accepted : (table.validateMessageData memory).tableResult = none)
    (fits : ∀ index < table.maxMessages, Fits table memory index) :
    let first := table.validateMessageData memory
    let second := table.validateMessageData first.memory
    second.tableResult = none ∧ ∀ index < table.maxMessages,
      (SameEntry table index second.memory first.memory ↔
        table.messageID memory index = table.unusedMid ∨
          (table.header memory index ++ table.payload memory index).take (table.payloadLength memory index) =
            table.payload memory index) := by
  intro first second
  have passed := (entries_independent fits).2.mp accepted
  have once : ∀ index < table.maxMessages,
      SameEntry table index first.memory (table.validateEntry memory index) :=
    fun _ bound => entry_alone fits bound
  have fits' : ∀ index < table.maxMessages, Fits table first.memory index := by
    intro index bound
    have fields : SameFields table index (table.validateEntry memory index) memory :=
      validateEntry_fields (fits index bound)
    exact (same_fits (once index bound).fields).mpr ((same_fits fields).mpr (fits index bound))
  refine ⟨(entries_independent fits').2.mpr ?_, ?_⟩
  · intro index bound
    rw [(same_validateEntry (once index bound)).2]
    exact entryResult_again (fits index bound) (passed index bound)
  · intro index bound
    have twice : SameEntry table index second.memory
        (table.validateEntry (table.validateEntry memory index) index) :=
      (entry_alone fits' bound).trans (same_validateEntry (once index bound)).1
    have step : SameEntry table index second.memory first.memory ↔
        SameEntry table index (table.validateEntry (table.validateEntry memory index) index)
          (table.validateEntry memory index) := by
      constructor
      · intro same
        exact twice.symm.trans (same.trans (once index bound))
      · intro same
        exact twice.trans (same.trans (once index bound).symm)
    rw [step]
    rcases written_of_accepted (passed index bound) with unused | ⟨valid, short⟩
    · refine iff_of_true ?_ (Or.inl unused)
      have unwritten : ¬ (table.Valid memory index ∧ table.payloadLength memory index ≤ table.bufferSize) :=
        fun written => written.1.1 unused
      rw [validateEntry_unwritten unwritten, validateEntry_unwritten unwritten]
      exact fun _ _ => rfl
    · rw [written_again_iff (fits index bound) valid short, or_iff_right valid.1]

def shortPayload : ByteMemory := fun address =>
  ([1, 24, 0, 0, 1, 0, 2, 0, 170, 171] : List UInt8).getD address 0

theorem accepted_again_short_payload :
    (eightWords.validateMessageData (eightWords.validateMessageData shortPayload).memory).tableResult = none ∧
      SameEntry eightWords 1
        (eightWords.validateMessageData (eightWords.validateMessageData shortPayload).memory).memory
        (eightWords.validateMessageData shortPayload).memory := by
  obtain ⟨again, same⟩ := accepted_again eightWords shortPayload (by decide) (by decide)
  exact ⟨again, (same 1 (by decide)).mpr (Or.inl (by decide))⟩

/-- The second validation puts the first two bytes of the header where the
payload is. -/
theorem payload_moved_twice :
    ¬ ∀ (table : MessageTable) (memory : ByteMemory),
      (table.validateMessageData memory).tableResult = none →
      let first := table.validateMessageData memory
      let second := table.validateMessageData first.memory
      second.tableResult = none ∧
        ∀ index < table.maxMessages, SameEntry table index second.memory first.memory := by
  intro always
  have same := (always eightWords shortPayload (by decide)).2 0 (by decide) 16 (by decide)
  revert same
  decide

end TrickCFS.Proofs.Revalidation
