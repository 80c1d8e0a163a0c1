import Mathlib.Data.List.Nodup
import TrickCFS.TaskLogs

/-! The recorded call sites of a task are the acknowledgements of its log that
no completion has answered yet, oldest first. -/

namespace TrickCFS

private theorem getElem?_snoc {log : List TaskEvent} {entry found : TaskEvent} {position : Nat}
    (read : (log ++ [entry])[position]? = some found) :
    log[position]? = some found ∨ position = log.length ∧ found = entry := by
  rcases Nat.lt_trichotomy position log.length with inside | last | outside
  · rw [List.getElem?_append_left inside] at read
    exact Or.inl read
  · subst last
    simp only [List.getElem?_concat_length, Option.some.injEq] at read
    exact Or.inr ⟨rfl, read.symm⟩
  · rw [List.getElem?_eq_none (by simp only [List.length_append, List.length_singleton]; omega)] at read
    cases read

private theorem getElem?_kept {log : List TaskEvent} {found : TaskEvent} {position : Nat}
    (entry : TaskEvent) (read : log[position]? = some found) :
    (log ++ [entry])[position]? = some found := by
  obtain ⟨inside, _⟩ := List.getElem?_eq_some_iff.mp read
  rw [List.getElem?_append_left inside, read]

theorem Pairing.snoc {log : List TaskEvent} {partner : Nat → Option Nat}
    (pairing : Pairing log partner) (entry : TaskEvent) : Pairing (log ++ [entry]) partner where
  answers := by
    intro position answer paired
    obtain ⟨mid, stack, currStack, asked, answered, same, later⟩ := pairing.answers position answer paired
    exact ⟨mid, stack, currStack, getElem?_kept entry asked, getElem?_kept entry answered, same, later⟩
  once := pairing.once

/-- A new completion may answer any earlier acknowledgement at its call site. -/
theorem Pairing.answer {log : List TaskEvent} {partner : Nat → Option Nat}
    (pairing : Pairing log partner) {position mid : Nat} {stack currStack : StackInfo}
    (asked : log[position]? = some (.acknowledged mid stack)) (same : currStack.SameCallSite stack) :
    Pairing (log ++ [.completed currStack]) (Function.update partner position (some log.length)) := by
  have extended := pairing.snoc (.completed currStack)
  obtain ⟨inside, _⟩ := List.getElem?_eq_some_iff.mp asked
  have old (other answer : Nat) (paired : partner other = some answer) : answer ≠ log.length := by
    obtain ⟨_, _, _, _, answered, _, _⟩ := pairing.answers other answer paired
    obtain ⟨earlier, _⟩ := List.getElem?_eq_some_iff.mp answered
    omega
  constructor
  · intro other answer paired
    by_cases this : other = position
    · subst other
      simp only [Function.update_self, Option.some.injEq] at paired
      subst paired
      exact ⟨mid, stack, currStack, getElem?_kept _ asked, List.getElem?_concat_length, same, inside⟩
    · rw [Function.update_of_ne this] at paired
      exact extended.answers other answer paired
  · intro first second answer one two
    by_cases atFirst : first = position <;> by_cases atSecond : second = position
    · rw [atFirst, atSecond]
    · subst first
      rw [Function.update_of_ne atSecond] at two
      simp only [Function.update_self, Option.some.injEq] at one
      exact False.elim (old second answer two one.symm)
    · subst second
      rw [Function.update_of_ne atFirst] at one
      simp only [Function.update_self, Option.some.injEq] at two
      exact False.elim (old first answer one two.symm)
    · rw [Function.update_of_ne atFirst] at one
      rw [Function.update_of_ne atSecond] at two
      exact pairing.once first second answer one two

structure AwaitingWith (log : List TaskEvent) (partner : Nat → Option Nat)
    (pending : List (Nat × StackInfo)) : Prop where
  pairing : Pairing log partner
  distinct : (pending.map Prod.fst).Nodup
  asked : ∀ entry ∈ pending, (∃ mid, log[entry.1]? = some (.acknowledged mid entry.2)) ∧
    partner entry.1 = none
  covered : ∀ position mid stack, log[position]? = some (.acknowledged mid stack) →
    (partner position).isSome = true ∨ (position, stack) ∈ pending

/-- `stackList` holds the call sites of exactly the unanswered acknowledgements. -/
def Awaiting (log : List TaskEvent) (stackList : List StackInfo) : Prop :=
  ∃ partner pending, AwaitingWith log partner pending ∧ pending.map Prod.snd = stackList

namespace Awaiting
variable {log : List TaskEvent} {stackList : List StackInfo}

theorem empty : Awaiting [] [] := by
  refine ⟨fun _ => none, [], ⟨⟨?_, ?_⟩, List.nodup_nil, ?_, ?_⟩, rfl⟩
  · intro _ _ paired; cases paired
  · intro _ _ _ paired; cases paired
  · intro _ member; cases member
  · intro _ _ _ read; simp at read

theorem answered (awaiting : Awaiting log []) : Answered log := by
  obtain ⟨partner, pending, holds, none⟩ := awaiting
  refine ⟨partner, holds.pairing, ?_⟩
  intro position mid stack read
  rcases holds.covered position mid stack read with paired | member
  · exact paired
  · rw [List.map_eq_nil_iff.mp none] at member
    cases member

theorem snoc_other (awaiting : Awaiting log stackList) {entry : TaskEvent}
    (other : ∀ mid stack, entry ≠ .acknowledged mid stack) : Awaiting (log ++ [entry]) stackList := by
  obtain ⟨partner, pending, holds, same⟩ := awaiting
  refine ⟨partner, pending, ⟨holds.pairing.snoc entry, holds.distinct, ?_, ?_⟩, same⟩
  · intro pair member
    obtain ⟨⟨mid, read⟩, unpaired⟩ := holds.asked pair member
    exact ⟨⟨mid, getElem?_kept entry read⟩, unpaired⟩
  · intro position mid stack read
    rcases getElem?_snoc read with old | ⟨_, new⟩
    · exact holds.covered position mid stack old
    · exact False.elim (other mid stack new.symm)

theorem snoc_acknowledged (awaiting : Awaiting log stackList) (mid : Nat) (newStack : StackInfo) :
    Awaiting (log ++ [.acknowledged mid newStack]) (stackList ++ [newStack]) := by
  obtain ⟨partner, pending, holds, same⟩ := awaiting
  have inside (position answer : Nat) (paired : partner position = some answer) :
      position < log.length := by
    obtain ⟨_, _, _, asked, _⟩ := holds.pairing.answers position answer paired
    obtain ⟨inside, _⟩ := List.getElem?_eq_some_iff.mp asked
    exact inside
  have unpaired : partner log.length = none := by
    cases paired : partner log.length with
    | none => rfl
    | some answer => exact False.elim (Nat.lt_irrefl _ (inside _ _ paired))
  refine ⟨partner, pending ++ [(log.length, newStack)], ⟨holds.pairing.snoc _, ?_, ?_, ?_⟩, ?_⟩
  · simp only [List.map_append, List.map_cons, List.map_nil]
    apply List.Nodup.append holds.distinct (List.nodup_singleton _)
    intro position old new
    obtain ⟨pair, member, rfl⟩ := List.mem_map.mp old
    obtain ⟨⟨acknowledged, read⟩, _⟩ := holds.asked pair member
    obtain ⟨earlier, _⟩ := List.getElem?_eq_some_iff.mp read
    have last := List.mem_singleton.mp new
    omega
  · intro pair member
    rcases List.mem_append.mp member with old | new
    · obtain ⟨⟨acknowledged, read⟩, free⟩ := holds.asked pair old
      exact ⟨⟨acknowledged, getElem?_kept _ read⟩, free⟩
    · obtain rfl := List.mem_singleton.mp new
      exact ⟨⟨mid, List.getElem?_concat_length⟩, unpaired⟩
  · intro position acknowledged stack read
    rcases getElem?_snoc read with old | ⟨last, new⟩
    · rcases holds.covered position acknowledged stack old with paired | member
      · exact Or.inl paired
      · exact Or.inr (List.mem_append_left _ member)
    · cases new
      subst last
      exact Or.inr (List.mem_append_right _ (List.mem_singleton_self _))
  · rw [List.map_append, same, List.map_cons, List.map_nil]

/-- A completion answers the oldest unanswered acknowledgement at its site. -/
theorem snoc_completed (awaiting : Awaiting log stackList) (currStack : StackInfo) :
    Awaiting (log ++ [.completed currStack]) (stackList.eraseP currStack.foundEntry) := by
  by_cases found : stackList.any currStack.foundEntry = true
  · obtain ⟨partner, pending, holds, rfl⟩ := awaiting
    rw [List.any_map] at found
    obtain ⟨pair, member, matched⟩ := List.any_eq_true.mp found
    obtain ⟨first, before, after, _, site, split, erased⟩ := List.exists_of_eraseP member matched
    have asked := holds.asked first (by simp [split])
    obtain ⟨⟨mid, read⟩, _⟩ := asked
    have distinct := holds.distinct
    rw [split, List.map_append, List.map_cons, List.nodup_middle] at distinct
    obtain ⟨absent, rest⟩ := List.nodup_cons.mp distinct
    refine ⟨Function.update partner first.1 (some log.length), before ++ after,
      ⟨holds.pairing.answer read site, ?_, ?_, ?_⟩, ?_⟩
    · rw [List.map_append]
      exact rest
    · intro entry kept
      have other : entry.1 ≠ first.1 := by
        intro same
        rw [← List.map_append] at absent
        exact absent (List.mem_map.mpr ⟨entry, kept, same⟩)
      have old : entry ∈ pending := by
        rw [split]
        exact List.mem_append.mpr ((List.mem_append.mp kept).imp id (List.mem_cons_of_mem _))
      obtain ⟨⟨acknowledged, earlier⟩, free⟩ := holds.asked entry old
      refine ⟨⟨acknowledged, getElem?_kept _ earlier⟩, ?_⟩
      rw [Function.update_of_ne other, free]
    · intro position acknowledged stack known
      by_cases this : position = first.1
      · subst this
        exact Or.inl (by simp)
      · rcases getElem?_snoc known with old | ⟨_, new⟩
        · rw [Function.update_of_ne this]
          rcases holds.covered position acknowledged stack old with paired | kept
          · exact Or.inl paired
          · rw [split] at kept
            rcases List.mem_append.mp kept with left | right
            · exact Or.inr (List.mem_append_left _ left)
            · rcases List.mem_cons.mp right with same | right
              · exact False.elim (this (by rw [← same]))
              · exact Or.inr (List.mem_append_right _ right)
        · cases new
    · rw [List.eraseP_map, erased]
  · have kept : stackList.eraseP currStack.foundEntry = stackList := by
      apply List.eraseP_of_forall_not
      intro stack member matched
      exact found (List.any_eq_true.mpr ⟨stack, member, matched⟩)
    rw [kept]
    exact awaiting.snoc_other (by simp)

end Awaiting
end TrickCFS
