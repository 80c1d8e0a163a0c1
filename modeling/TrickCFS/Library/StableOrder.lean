import Mathlib.Data.List.Induction
import Mathlib.Data.List.Sort

/-! Serving in a stable order. A list that is kept sorted by inserting each new
item behind its equals is the stable sort of the items in their order of arrival;
an item that occurs repeatedly is served all at once where it occurs first. -/

universe u

namespace StableOrder
variable {α : Type u}

section Insertion
variable (r : α → α → Prop) [DecidableRel r] {a b : α} {items : List α}

/-- Insertion behind the items that may come before. -/
def insertBehind (a : α) : List α → List α
  | [] => [a]
  | b :: items => if r b a then b :: insertBehind a items else a :: b :: items

variable {r} [IsTrans α r] [Std.Total r]

theorem orderedInsert_insertBehind :
    (insertBehind r a items).orderedInsert r b = insertBehind r a (items.orderedInsert r b) := by
  induction items with
  | nil =>
    simp only [insertBehind, List.orderedInsert_nil, List.orderedInsert_cons]
  | cons c items ih =>
    simp only [insertBehind, List.orderedInsert_cons]
    by_cases behind : r c a
    · by_cases before : r b c
      · have first : r b a := IsTrans.trans b c a before behind
        simp only [behind, before, first, insertBehind, List.orderedInsert_cons, ite_true]
      · simp only [behind, before, insertBehind, List.orderedInsert_cons, ih, ite_true, ite_false]
    · by_cases before : r b c
      · simp only [behind, before, insertBehind, List.orderedInsert_cons, ite_true, ite_false]
      · have after : ¬ r b a := fun first =>
          before (IsTrans.trans b a c first ((Std.Total.total c a).resolve_left behind))
        simp only [behind, before, after, insertBehind, List.orderedInsert_cons, ite_false]

theorem insertionSort_snoc (items : List α) (a : α) :
    (items ++ [a]).insertionSort r = insertBehind r a (items.insertionSort r) := by
  induction items with
  | nil => rfl
  | cons b items ih =>
    rw [List.cons_append, List.insertionSort_cons, ih, orderedInsert_insertBehind, List.insertionSort_cons]

end Insertion

section Grouping
variable [DecidableEq α] {item : α} {items : List α}

/-- Each item where it occurs first. -/
def firsts : List α → List α
  | [] => []
  | item :: items => item :: (firsts items).filter (fun other => other ≠ item)

theorem mem_firsts : item ∈ firsts items ↔ item ∈ items := by
  induction items with
  | nil => rfl
  | cons first items ih =>
    simp only [firsts, List.mem_cons, List.mem_filter, ih, decide_eq_true_eq]
    by_cases same : item = first
    · simp [same]
    · simp [same]

theorem firsts_snoc : firsts (items ++ [item]) = if item ∈ items then firsts items else firsts items ++ [item] := by
  induction items with
  | nil => rfl
  | cons first items ih =>
    simp only [List.cons_append, firsts, ih, List.mem_cons]
    by_cases same : item = first
    · subst same
      by_cases member : item ∈ items
      · simp [member]
      · simp [member]
    · by_cases member : item ∈ items
      · simp [member]
      · simp [same, member]

/-- Each item as often as the count says, where it occurs first. -/
def served (count : α → Nat) (items : List α) : List α :=
  (firsts items).flatMap (fun item => List.replicate (count item) item)

/-- All occurrences of an item, where it occurs first. -/
def grouped (items : List α) : List α := served items.count items

theorem served_again {count : α → Nat} (member : item ∈ items) :
    served count (items ++ [item]) = served count items := by
  rw [served, firsts_snoc, if_pos member, served]

theorem served_snoc {count : α → Nat} (absent : item ∉ items) :
    served count (items ++ [item]) = served count items ++ List.replicate (count item) item := by
  simp [served, firsts_snoc, absent]

theorem mem_served {count : α → Nat} (served_item : item ∈ served count items) : item ∈ items := by
  simp only [served, List.mem_flatMap, List.mem_replicate] at served_item
  obtain ⟨first, member, _, rfl⟩ := served_item
  exact mem_firsts.mp member

theorem count_served {count : α → Nat} (member : item ∈ items) : (served count items).count item = count item := by
  induction items using List.reverseRecOn with
  | nil => cases member
  | append_singleton items last ih =>
    by_cases again : last ∈ items
    · rw [served_again again]
      apply ih
      rcases List.mem_append.mp member with old | new
      · exact old
      · rw [List.mem_singleton.mp new]
        exact again
    · rw [served_snoc again, List.count_append]
      by_cases same : item = last
      · subst same
        have unserved : item ∉ served count items := fun before => again (mem_served before)
        rw [List.count_eq_zero.mpr unserved, List.count_replicate_self, Nat.zero_add]
      · have old : item ∈ items := by simpa [same] using member
        rw [ih old, List.count_replicate, if_neg (by simpa using Ne.symm same), Nat.add_zero]

theorem served_prefix {count : α → Nat} {more : List α} : served count items <+: served count (items ++ more) := by
  induction more generalizing items with
  | nil => simp
  | cons item more ih =>
    have later : served count (items ++ [item]) <+: served count (items ++ [item] ++ more) := ih
    rw [List.append_assoc, List.singleton_append] at later
    refine List.IsPrefix.trans ?_ later
    by_cases member : item ∈ items
    · exact (served_again member).symm ▸ List.prefix_rfl
    · rw [served_snoc member]
      exact List.prefix_append ..

end Grouping
end StableOrder
