import Mathlib.Data.List.Basic

/-! Circular storage. A head index and a list of items are laid out in a fixed
list of cells; the relation between a cell and an item is a parameter. -/

universe u v

namespace Ring

/-- The cell that lies `offset` after the head, wrapping at most once. -/
def slot (capacity head offset : Nat) : Nat :=
  if head + offset ≥ capacity then head + offset - capacity else head + offset

def advance (capacity head : Nat) : Nat :=
  if head + 1 ≥ capacity then 0 else head + 1

theorem slot_lt {capacity head offset : Nat} (inside : head < capacity) (bound : offset < capacity) :
    slot capacity head offset < capacity := by
  unfold slot
  split <;> omega

theorem slot_injective {capacity head first second : Nat} (one : first < capacity) (other : second < capacity)
    (same : slot capacity head first = slot capacity head second) : first = second := by
  unfold slot at same
  split at same <;> split at same <;> omega

theorem slot_zero {capacity head : Nat} (inside : head < capacity) : slot capacity head 0 = head := by
  unfold slot
  split <;> omega

theorem slot_advance {capacity head offset : Nat} (inside : head < capacity)
    (bound : offset + 1 < capacity) :
    slot capacity (advance capacity head) offset = slot capacity head (offset + 1) := by
  unfold slot advance
  split <;> split <;> split <;> omega

section Layout
variable {α : Type u} {β : Type v} (cell : α → β → Prop)

/-- The items lie in consecutive cells from the head on. The head of an empty
capacity is 0, as is that of a fresh ring. -/
structure Holds (ring : List α) (head : Nat) (items : List β) : Prop where
  inside : head < ring.length ∨ ring.length = 0 ∧ head = 0
  fits : items.length ≤ ring.length
  cells : ∀ i item, items[i]? = some item →
    ∃ content, ring[slot ring.length head i]? = some content ∧ cell content item

variable {cell}

theorem Holds.empty (ring : List α) : Holds cell ring 0 [] := by
  refine ⟨by omega, Nat.zero_le _, ?_⟩
  intro i item found
  simp at found

theorem Holds.room {ring : List α} {head : Nat} {items : List β} (holds : Holds cell ring head items)
    (free : items.length < ring.length) : slot ring.length head items.length < ring.length := by
  rcases holds.inside with inside | ⟨none, _⟩
  · exact slot_lt inside free
  · omega

theorem Holds.push {ring : List α} {head : Nat} {items : List β} {content : α} {item : β}
    (holds : Holds cell ring head items) (free : items.length < ring.length)
    (stored : cell content item) :
    Holds cell (ring.set (slot ring.length head items.length) content) head (items ++ [item]) := by
  have inside : head < ring.length := by
    rcases holds.inside with inside | ⟨none, _⟩ <;> omega
  refine ⟨by simpa using Or.inl inside, by simpa [Nat.succ_le_iff] using free, ?_⟩
  intro i actual found
  simp only [List.length_set]
  rcases Nat.lt_trichotomy i items.length with old | new | beyond
  · rw [List.getElem?_append_left old] at found
    obtain ⟨kept, present, same⟩ := holds.cells i actual found
    refine ⟨kept, ?_, same⟩
    rw [List.getElem?_set_ne]
    · exact present
    · intro equal
      have := slot_injective free (by omega) equal
      omega
  · subst new
    simp only [List.getElem?_append_right (Nat.le_refl _), Nat.sub_self, List.getElem?_cons_zero,
      Option.some.injEq] at found
    subst actual
    exact ⟨content, List.getElem?_set_self (holds.room free), stored⟩
  · have short : (items ++ [item]).length ≤ i := by simp; omega
    rw [List.getElem?_eq_none short] at found
    cases found

theorem Holds.front {ring : List α} {head : Nat} {item : β} {items : List β}
    (holds : Holds cell ring head (item :: items)) :
    head < ring.length ∧ ∃ content, ring[head]? = some content ∧ cell content item := by
  have some := holds.fits
  simp only [List.length_cons] at some
  have inside : head < ring.length := by
    rcases holds.inside with inside | ⟨none, _⟩ <;> omega
  obtain ⟨content, present, same⟩ := holds.cells 0 item rfl
  rw [slot_zero inside] at present
  exact ⟨inside, content, present, same⟩

/-- The popped cell may be overwritten: no remaining item lies in it. -/
theorem Holds.pop {ring : List α} {head : Nat} {item : β} {items : List β} {content : α}
    (holds : Holds cell ring head (item :: items)) :
    Holds cell (ring.set head content) (advance ring.length head) items := by
  have inside := holds.front.1
  have fits := holds.fits
  simp only [List.length_cons] at fits
  refine ⟨?_, by simp only [List.length_set]; omega, ?_⟩
  · simp only [List.length_set, advance]
    split <;> omega
  · intro i actual found
    have bound := (List.getElem?_eq_some_iff.mp found).1
    obtain ⟨kept, present, same⟩ := holds.cells (i + 1) actual (by simpa using found)
    refine ⟨kept, ?_, same⟩
    simp only [List.length_set]
    rw [slot_advance inside (by omega), List.getElem?_set_ne]
    · exact present
    · intro equal
      have := slot_injective (Nat.lt_of_le_of_lt (Nat.zero_le _) inside)
        (by omega : i + 1 < ring.length) ((slot_zero inside).trans equal)
      omega

end Layout
end Ring
