import Mathlib.Data.List.GetD

/-! A memory of bytes. Blocks are read and written at an address; what a write
does not cover stays as it was. -/

abbrev ByteMemory := Nat → UInt8

namespace ByteMemory
variable {memory memory' : ByteMemory} {base size : Nat} {bytes : List UInt8}

def read (memory : ByteMemory) (base size : Nat) : List UInt8 :=
  (List.range size).map (fun offset => memory (base + offset))

def write (base : Nat) (bytes : List UInt8) (memory : ByteMemory) : ByteMemory :=
  fun address => if base ≤ address then bytes.getD (address - base) (memory address) else memory address

def writeAll : List (Nat × List UInt8) → ByteMemory → ByteMemory
  | [], memory => memory
  | block :: blocks, memory => writeAll blocks (write block.1 block.2 memory)

@[simp] theorem read_length : (memory.read base size).length = size := by simp [read]

theorem read_getElem? {offset : Nat} (inside : offset < size) :
    (memory.read base size)[offset]? = some (memory (base + offset)) := by
  simp [read, inside]

theorem read_eq_iff {base' : Nat} :
    memory.read base size = memory'.read base' size ↔
      ∀ offset < size, memory (base + offset) = memory' (base' + offset) := by
  simp [read]

theorem write_inside {address : Nat} (start : base ≤ address) (inside : address - base < bytes.length) :
    write base bytes memory address = bytes[address - base] := by
  rw [write, if_pos start, List.getD_eq_getElem _ _ inside]

theorem write_outside {address : Nat} (outside : address < base ∨ base + bytes.length ≤ address) :
    write base bytes memory address = memory address := by
  rw [write]
  split
  next start =>
    rw [List.getD_eq_default]
    omega
  next => rfl

theorem write_append (front back : List UInt8) :
    write (base + front.length) back (write base front memory) = write base (front ++ back) memory := by
  funext address
  by_cases low : address < base + front.length
  · rw [write_outside (Or.inl low)]
    by_cases start : base ≤ address
    · have inFront : address - base < front.length := by omega
      have inside : address - base < (front ++ back).length := by
        rw [List.length_append]
        omega
      rw [write_inside start inFront, write_inside start inside, List.getElem_append_left inFront]
    · rw [write_outside (Or.inl (Nat.lt_of_not_le start)), write_outside (Or.inl (Nat.lt_of_not_le start))]
  · by_cases inBack : address - (base + front.length) < back.length
    · have inside : address - base < (front ++ back).length := by
        rw [List.length_append]
        omega
      rw [write_inside (by omega) inBack, write_inside (by omega) inside,
        List.getElem_append_right (by omega)]
      simp only [Nat.sub_sub]
    · rw [write_outside (Or.inr (by omega)), write_outside (Or.inr (by omega)),
        write_outside (Or.inr (by rw [List.length_append]; omega))]

theorem write_write : write base bytes (write base bytes memory) = write base bytes memory := by
  funext address
  by_cases covered : base ≤ address ∧ address - base < bytes.length
  · rw [write_inside covered.1 covered.2, write_inside covered.1 covered.2]
  · exact write_outside (by omega)

theorem read_write_take (short : size ≤ bytes.length) :
    (write base bytes memory).read base size = bytes.take size := by
  apply List.ext_getElem
  · rw [read_length, List.length_take, Nat.min_eq_left short]
  · intro offset inside inside'
    rw [read_length] at inside
    have covered : base + offset - base < bytes.length := by omega
    simp only [read, List.getElem_map, List.getElem_range, List.getElem_take,
      write_inside (Nat.le_add_right base offset) covered, Nat.add_sub_cancel_left]

theorem read_write_same : (write base bytes memory).read base bytes.length = bytes := by
  rw [read_write_take (Nat.le_refl _), List.take_length]

theorem read_write_other {start : Nat} (apart : start + size ≤ base ∨ base + bytes.length ≤ start) :
    (write base bytes memory).read start size = memory.read start size := by
  rw [read_eq_iff]
  intro offset inside
  exact write_outside (by omega)

end ByteMemory
