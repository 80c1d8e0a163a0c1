import Mathlib.Data.List.Basic

/-! First-fit placement: an item goes to the first free slot, if there is one.
Items that are not free themselves fill the free slots in order, one slot each. -/

universe u

namespace FirstFit
variable {α : Type u} (free : α → Bool)

def place (item : α) (slots : List α) : List α :=
  match slots.findIdx? free with
  | some index => slots.set index item
  | none => slots

def placeAll : List α → List α → List α
  | [], slots => slots
  | item :: items, slots => placeAll items (place free item slots)

variable {free} {item : α} {items slots : List α}

theorem place_cons (slot : α) :
    place free item (slot :: slots) = if free slot then item :: slots else slot :: place free item slots := by
  rw [place, List.findIdx?_cons, place]
  cases free slot with
  | true => rfl
  | false => cases slots.findIdx? free <;> rfl

@[simp] theorem place_length : (place free item slots).length = slots.length := by
  rw [place]
  split
  · exact List.length_set
  · rfl

theorem findIdxs_place (start : Nat) :
    (place free item slots).findIdxs free start =
      if free item then slots.findIdxs free start else (slots.findIdxs free start).tail := by
  induction slots generalizing start with
  | nil => simp only [place, List.findIdx?_nil, List.findIdxs_nil, List.tail_nil, ite_self]
  | cons slot slots ih =>
    rw [place_cons, List.findIdxs_cons]
    split
    · rw [List.findIdxs_cons, List.tail_cons]
    next used => rw [List.findIdxs_cons, if_neg used, ih]

theorem findIdx?_eq_head : slots.findIdx? free = (slots.findIdxs free).head? := by
  induction slots with
  | nil => rfl
  | cons slot slots ih =>
    rw [List.findIdx?_cons, List.findIdxs_cons, List.findIdxs_start, ih]
    split
    · rfl
    · rw [List.head?_map]

theorem findIdxs_replicate (start count : Nat) {slot : α} (clear : free slot = true) :
    (List.replicate count slot).findIdxs free start = List.range' start count := by
  induction count generalizing start with
  | zero => rfl
  | succ count ih => rw [List.replicate_succ, List.findIdxs_cons, if_pos clear, ih, List.range'_succ]

theorem place_head {index : Nat} (first : (slots.findIdxs free).head? = some index) :
    (place free item slots)[index]? = some item := by
  rw [← findIdx?_eq_head] at first
  rw [place, first]
  exact List.getElem?_set_self (List.findIdx?_eq_some_iff_getElem.mp first).1

theorem place_other {index : Nat} (other : (slots.findIdxs free).head? ≠ some index) :
    (place free item slots)[index]? = slots[index]? := by
  rw [← findIdx?_eq_head] at other
  rw [place]
  split
  next first found =>
    have different : first ≠ index := fun same => other (same ▸ found)
    exact List.getElem?_set_ne different
  next => rfl

@[simp] theorem placeAll_length : (placeAll free items slots).length = slots.length := by
  induction items generalizing slots with
  | nil => rfl
  | cons item items ih => rw [placeAll, ih, place_length]

theorem mem_place {entry : α} (member : entry ∈ place free item slots) : entry = item ∨ entry ∈ slots := by
  rw [place] at member
  split at member
  · exact (List.mem_or_eq_of_mem_set member).symm
  · exact Or.inr member

theorem mem_placeAll {entry : α} (member : entry ∈ placeAll free items slots) :
    entry ∈ items ∨ entry ∈ slots := by
  induction items generalizing slots with
  | nil => exact Or.inr member
  | cons item items ih =>
    rcases ih member with later | placed
    · exact Or.inl (List.mem_cons_of_mem _ later)
    · rcases mem_place placed with rfl | held
      · exact Or.inl (List.mem_cons_self ..)
      · exact Or.inr held

theorem placeAll_used {index : Nat} (used : index ∉ slots.findIdxs free) :
    (placeAll free items slots)[index]? = slots[index]? := by
  induction items generalizing slots with
  | nil => rfl
  | cons item items ih =>
    have still : index ∉ (place free item slots).findIdxs free := by
      rw [findIdxs_place]
      split
      · exact used
      · exact fun member => used (List.mem_of_mem_tail member)
    rw [placeAll, ih still]
    exact place_other (fun first => used (List.mem_of_head? first))

theorem placeAll_free {position index : Nat} (filled : ∀ item ∈ items, free item = false)
    (slot : (slots.findIdxs free)[position]? = some index) :
    (placeAll free items slots)[index]? = items[position]?.or slots[index]? := by
  induction items generalizing slots position with
  | nil => rfl
  | cons item items ih =>
    obtain ⟨now, later⟩ := List.forall_mem_cons.mp filled
    have distinct : (slots.findIdxs free).Nodup := List.nodup_findIdxs
    have remaining : (place free item slots).findIdxs free = (slots.findIdxs free).tail := by
      rw [findIdxs_place, now]
      rfl
    rw [placeAll]
    cases position with
    | zero =>
      rw [← List.head?_eq_getElem?] at slot
      rw [placeAll_used, place_head slot, List.getElem?_cons_zero, Option.some_or]
      rw [remaining]
      obtain ⟨rest, split⟩ := List.head?_eq_some_iff.mp slot
      rw [split] at distinct ⊢
      exact (List.nodup_cons.mp distinct).1
    | succ position =>
      rw [← List.getElem?_tail, ← remaining] at slot
      rw [ih later slot, List.getElem?_cons_succ, place_other]
      intro first
      obtain ⟨rest, split⟩ := List.head?_eq_some_iff.mp first
      rw [remaining, split] at slot
      rw [split] at distinct
      exact (List.nodup_cons.mp distinct).1 (List.mem_of_getElem? slot)

end FirstFit
