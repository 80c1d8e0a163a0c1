import Mathlib.Logic.Function.Basic
import TrickCFS.Library.Machine

/-! Families of components that answer every call. A request names the member
that it is for. A family of independent members is one component again, and
what one member answers does not depend on the others. -/

universe u v w x

namespace Responses
variable {ι : Type u} {σ : Type v} {τ : Type v} {ε : Type w} {ρ : Type x}

section Families
variable [DecidableEq ι]

def family (call : σ → ε → ρ × σ) (members : ι → σ) (request : ι × ε) : ρ × (ι → σ) :=
  let answered := call (members request.1) request.2
  (answered.1, Function.update members request.1 answered.2)

def addressed (index : ι) (requests : List (ι × ε)) : List ε :=
  (requests.filter (fun request => request.1 = index)).map Prod.snd

def answersTo (index : ι) (requests : List (ι × ε)) (answers : List ρ) : List ρ :=
  ((requests.zip answers).filter (fun answered => answered.1.1 = index)).map Prod.snd

theorem family_self (call : σ → ε → ρ × σ) (members : ι → σ) (request : ι × ε) :
    (family call members request).2 request.1 = (call (members request.1) request.2).2 :=
  Function.update_self ..

theorem family_other (call : σ → ε → ρ × σ) (members : ι → σ) {request : ι × ε} {index : ι}
    (different : index ≠ request.1) : (family call members request).2 index = members index :=
  Function.update_of_ne different ..

theorem family_independent (call : σ → ε → ρ × σ) (members : ι → σ) (requests : List (ι × ε)) (index : ι) :
    answersTo index requests (respond (family call) members requests).1 =
        (respond call (members index) (addressed index requests)).1 ∧
      (respond (family call) members requests).2 index =
        (respond call (members index) (addressed index requests)).2 := by
  induction requests generalizing members with
  | nil => exact ⟨rfl, rfl⟩
  | cons request requests ih =>
    obtain ⟨answers, final⟩ := ih (family call members request).2
    by_cases same : request.1 = index
    · subst index
      have own : addressed request.1 (request :: requests) = request.2 :: addressed request.1 requests := by
        simp [addressed]
      rw [family_self] at answers final
      rw [own]
      refine ⟨?_, final⟩
      simp only [respond, ← answers]
      simp [answersTo, family]
    · have other : addressed index (request :: requests) = addressed index requests := by
        simp [addressed, same]
      rw [family_other call members (Ne.symm same)] at answers final
      rw [other]
      refine ⟨?_, final⟩
      rw [← answers]
      simp [respond, answersTo, same]

end Families

def Orderly (allowed : List ε → ε → Prop) (requests : List ε) : Prop :=
  ∀ earlier request later, requests = earlier ++ request :: later → allowed earlier request

theorem orderly_nil (allowed : List ε → ε → Prop) : Orderly allowed [] := by
  intro earlier request later split
  simp at split

theorem orderly_cons {allowed : List ε → ε → Prop} {request : ε} {requests : List ε} (first : allowed [] request)
    (rest : Orderly (fun past => allowed (request :: past)) requests) : Orderly allowed (request :: requests) := by
  intro earlier other later split
  cases earlier with
  | nil =>
    simp only [List.nil_append, List.cons.injEq] at split
    exact split.1 ▸ first
  | cons head earlier =>
    simp only [List.cons_append, List.cons.injEq] at split
    obtain ⟨rfl, split⟩ := split
    exact rest earlier other later split

/-- A simulation whose answers agree on the requests that are allowed where they
are made. The relation may depend on what has been requested so far. -/
theorem simulation_orderly {call : σ → ε → ρ × σ} {spec : τ → ε → ρ × τ} {allowed : List ε → ε → Prop}
    (related : List ε → σ → τ → Prop)
    (answers : ∀ past state model request, related past state model → allowed past request →
      (call state request).1 = (spec model request).1 ∧
        related (past ++ [request]) (call state request).2 (spec model request).2)
    {requests : List ε} (orderly : Orderly allowed requests) {state : σ} {model : τ} (start : related [] state model) :
    (respond call state requests).1 = (respond spec model requests).1 ∧
      related requests (respond call state requests).2 (respond spec model requests).2 := by
  -- the past grows while the requests are used up
  suffices later : ∀ rest past state model, requests = past ++ rest → related past state model →
      (respond call state rest).1 = (respond spec model rest).1 ∧
        related requests (respond call state rest).2 (respond spec model rest).2 from
    later requests [] state model rfl start
  intro rest
  induction rest with
  | nil =>
    intro past state model split related
    rw [List.append_nil] at split
    exact ⟨rfl, split ▸ related⟩
  | cons request rest ih =>
    intro past state model split related
    obtain ⟨same, next⟩ := answers past state model request related (orderly past request rest split)
    obtain ⟨others, final⟩ := ih (past ++ [request]) _ _ (by simpa using split) next
    refine ⟨?_, final⟩
    simp only [respond, same, others]

end Responses
