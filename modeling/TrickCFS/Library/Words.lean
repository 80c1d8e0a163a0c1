import Mathlib.Data.List.DropRight

/-! Words: the maximal runs of characters between blanks. A text is put together
from words and blanks, so its words follow from the parts. -/

namespace Words
variable {α : Type*} (blank : α → Bool)

def words (text : List α) : List (List α) := (text.splitOnP blank).filter (fun word => !word.isEmpty)

/-- Without the blanks at the two ends. -/
def strip (text : List α) : List α := (text.dropWhile blank).rdropWhile blank

def Blanks (text : List α) : Prop := ∀ char ∈ text, blank char = true

def Solid (text : List α) : Prop := ∀ char ∈ text, blank char = false

instance (text : List α) : Decidable (Blanks blank text) := inferInstanceAs (Decidable (∀ char ∈ text, _))

instance (text : List α) : Decidable (Solid blank text) := inferInstanceAs (Decidable (∀ char ∈ text, _))

variable {blank} {gap word rest text : List α}

theorem words_blank_cons {char : α} (isBlank : blank char = true) : words blank (char :: rest) = words blank rest := by
  simp [words, List.splitOnP_cons_eq_if_modifyHead, isBlank]

theorem words_blanks_append (blanks : Blanks blank gap) : words blank (gap ++ rest) = words blank rest := by
  induction gap with
  | nil => rfl
  | cons char gap ih =>
    rw [List.cons_append, words_blank_cons (blanks char (List.mem_cons_self ..))]
    exact ih (fun other member => blanks other (List.mem_cons_of_mem _ member))

theorem words_blanks (blanks : Blanks blank gap) : words blank gap = [] := by
  have empty : words blank (gap ++ []) = words blank [] := words_blanks_append blanks
  rwa [List.append_nil] at empty

theorem words_append_blank_cons {char : α} (isBlank : blank char = true) :
    words blank (text ++ char :: rest) = words blank text ++ words blank rest := by
  simp only [words, List.splitOnP_append_cons text rest isBlank, List.filter_append]

theorem words_append_blanks (blanks : Blanks blank gap) : words blank (text ++ gap) = words blank text := by
  cases gap with
  | nil => rw [List.append_nil]
  | cons char gap =>
    rw [words_append_blank_cons (blanks char (List.mem_cons_self ..)),
      words_blanks (fun other member => blanks other (List.mem_cons_of_mem _ member)), List.append_nil]

theorem words_solid (solid : Solid blank word) (nonempty : word ≠ []) : words blank word = [word] := by
  simp [words, List.splitOnP_eq_singleton solid, nonempty]

theorem words_solid_cons {char : α} (solid : blank char = false) :
    ∃ word others, words blank (char :: text) = (char :: word) :: others := by
  rw [words, List.splitOnP_cons_eq_if_modifyHead, if_neg (by simp [solid])]
  cases pieces : text.splitOnP blank with
  | nil => exact False.elim (List.splitOnP_ne_nil blank text pieces)
  | cons piece others => exact ⟨piece, others.filter (fun word => !word.isEmpty), by simp⟩

theorem words_solid_append (solid : Solid blank word) (nonempty : word ≠ []) (blanks : Blanks blank gap)
    (some : gap ≠ []) : words blank (word ++ gap ++ rest) = word :: words blank rest := by
  cases gap with
  | nil => exact False.elim (some rfl)
  | cons char gap =>
    have tail : Blanks blank gap := fun other member => blanks other (List.mem_cons_of_mem _ member)
    rw [List.append_assoc, List.cons_append, words_append_blank_cons (blanks char (List.mem_cons_self ..)),
      words_solid solid nonempty, words_blanks_append tail, List.singleton_append]

theorem words_parted {parts : List (List α × List α)} (solid : Solid blank word) (nonempty : word ≠ [])
    (solids : ∀ part ∈ parts, Blanks blank part.1 ∧ Solid blank part.2 ∧ part.2 ≠ [])
    (apart : ∀ part ∈ parts, part.1 ≠ []) :
    words blank (word ++ parts.flatMap (fun part => part.1 ++ part.2)) = word :: parts.map Prod.snd := by
  induction parts generalizing word with
  | nil => simpa using words_solid solid nonempty
  | cons part parts ih =>
    obtain ⟨blanks, solidNext, nonemptyNext⟩ := solids part (List.mem_cons_self ..)
    have rest := ih solidNext nonemptyNext (fun other member => solids other (List.mem_cons_of_mem _ member))
      (fun other member => apart other (List.mem_cons_of_mem _ member))
    rw [List.flatMap_cons, List.append_assoc, ← List.append_assoc,
      words_solid_append solid nonempty blanks (apart part (List.mem_cons_self ..)), rest, List.map_cons]

theorem length_words_parted {parts : List (List α × List α)} (solid : Solid blank word) (nonempty : word ≠ [])
    (solids : ∀ part ∈ parts, Blanks blank part.1 ∧ Solid blank part.2 ∧ part.2 ≠ []) :
    (words blank (word ++ parts.flatMap (fun part => part.1 ++ part.2))).length =
      parts.countP (fun part => !part.1.isEmpty) + 1 := by
  induction parts generalizing word with
  | nil => simp [words_solid solid nonempty]
  | cons part parts ih =>
    obtain ⟨blanks, solidNext, nonemptyNext⟩ := solids part (List.mem_cons_self ..)
    have later : ∀ other ∈ parts, Blanks blank other.1 ∧ Solid blank other.2 ∧ other.2 ≠ [] :=
      fun other member => solids other (List.mem_cons_of_mem _ member)
    rw [List.flatMap_cons, List.append_assoc, List.countP_cons]
    by_cases joined : part.1 = []
    · have solidBoth : Solid blank (word ++ part.2) :=
        fun char member => (List.mem_append.mp member).elim (solid char) (solidNext char)
      rw [joined, List.nil_append, ← List.append_assoc, ih solidBoth (by simp [nonempty]) later]
      simp
    · rw [← List.append_assoc, words_solid_append solid nonempty blanks joined, List.length_cons,
        ih solidNext nonemptyNext later]
      simp [joined]

theorem words_strip : words blank (strip blank text) = words blank text := by
  have front : Blanks blank (text.takeWhile blank) := fun char member => List.mem_takeWhile_imp member
  have back : Blanks blank ((text.dropWhile blank).rtakeWhile blank) :=
    fun char member => List.mem_rtakeWhile_imp member
  calc
    words blank (strip blank text) =
        words blank (strip blank text ++ (text.dropWhile blank).rtakeWhile blank) := (words_append_blanks back).symm
    _ = words blank (text.dropWhile blank) := by rw [strip, List.rdropWhile_append_rtakeWhile]
    _ = words blank (text.takeWhile blank ++ text.dropWhile blank) := (words_blanks_append front).symm
    _ = words blank text := by rw [List.takeWhile_append_dropWhile]

theorem strip_blanks_solid (blanks : Blanks blank gap) (solid : Solid blank word) :
    strip blank (gap ++ word) = word := by
  rw [strip, List.dropWhile_append_of_pos blanks]
  have kept : word.dropWhile blank = word := by
    cases word with
    | nil => rfl
    | cons char word => exact List.dropWhile_cons_of_neg (by simp [solid char (List.mem_cons_self ..)])
  rw [kept, List.rdropWhile_eq_self_iff]
  intro nonempty
  simp [solid _ (List.getLast_mem nonempty)]

theorem solid_splitOnP : ∀ piece ∈ text.splitOnP blank, Solid blank piece := by
  induction text with
  | nil => simp [Solid]
  | cons char text ih =>
    intro piece member
    rw [List.splitOnP_cons_eq_if_modifyHead] at member
    split at member
    next =>
      rcases List.mem_cons.mp member with rfl | member
      · simp [Solid]
      · exact ih piece member
    next solid =>
      cases pieces : text.splitOnP blank with
      | nil => exact False.elim (List.splitOnP_ne_nil blank text pieces)
      | cons first others =>
        rw [pieces] at member ih
        rcases List.mem_cons.mp member with rfl | member
        · intro other inside
          rcases List.mem_cons.mp inside with rfl | inside
          · simpa using solid
          · exact ih first (List.mem_cons_self ..) other inside
        · exact ih piece (List.mem_cons_of_mem _ member)

theorem solid_words : ∀ word ∈ words blank text, Solid blank word :=
  fun word member => solid_splitOnP word (List.mem_of_mem_filter member)

/-- Characters may be deleted before or after a text is joined, as long as the
separator is kept. -/
theorem filter_intercalate (keep : α → Bool) {sep : α} (kept : keep sep = true) (pieces : List (List α)) :
    ([sep].intercalate pieces).filter keep = [sep].intercalate (pieces.map (List.filter keep)) := by
  induction pieces with
  | nil => rfl
  | cons piece pieces ih =>
    cases pieces with
    | nil => simp
    | cons second pieces =>
      simp only [List.map_cons, List.intercalate_cons_cons, List.filter_append] at ih ⊢
      rw [ih]
      simp [kept]

theorem mem_intercalate {sep char : α} {pieces : List (List α)} (member : char ∈ [sep].intercalate pieces) :
    char = sep ∨ ∃ piece ∈ pieces, char ∈ piece := by
  induction pieces with
  | nil => cases member
  | cons piece pieces ih =>
    cases pieces with
    | nil => exact Or.inr ⟨piece, List.mem_singleton_self _, by simpa using member⟩
    | cons second pieces =>
      rw [List.intercalate_cons_cons, List.append_assoc] at member
      rcases List.mem_append.mp member with inside | member
      · exact Or.inr ⟨piece, List.mem_cons_self .., inside⟩
      · rcases List.mem_append.mp member with inside | member
        · exact Or.inl (List.mem_singleton.mp inside)
        · exact (ih member).imp_right (fun ⟨other, among, inside⟩ => ⟨other, List.mem_cons_of_mem _ among, inside⟩)

end Words
