import TrickCFS.Library.Behaviour

/-! Behaviours that repeat themselves: a run to a state, and a run from there that
leads back to it. What its finitely many steps satisfy, the behaviour satisfies
for ever. -/

universe u v

namespace Machine
variable {σ : Type u} {ε : Type v} (machine : Machine σ ε)

def along : σ → List ε → Nat → σ
  | state, [], _ => state
  | state, _ :: _, 0 => state
  | state, event :: events, count + 1 => along ((machine.step state event).getD state) events count

@[simp] theorem along_zero (state : σ) (events : List ε) : machine.along state events 0 = state := by
  cases events <;> rfl

theorem along_step {state final : σ} {events : List ε} (ran : machine.runFrom state events = some final)
    {count : Nat} {event : ε} (present : events[count]? = some event) :
    machine.step (machine.along state events count) event = some (machine.along state events (count + 1)) := by
  induction events generalizing state count with
  | nil => simp at present
  | cons first events ih =>
    obtain ⟨next, taken, rest⟩ := machine.runFrom_cons.mp ran
    cases count with
    | zero =>
      simp only [List.getElem?_cons_zero, Option.some.injEq] at present
      subst event
      simp [along, taken]
    | succ count =>
      simp only [List.getElem?_cons_succ] at present
      simpa [along, taken] using ih rest present

theorem along_length {state final : σ} {events : List ε} (ran : machine.runFrom state events = some final) :
    machine.along state events events.length = final := by
  induction events generalizing state with
  | nil => cases ran; rfl
  | cons first events ih =>
    obtain ⟨next, taken, rest⟩ := machine.runFrom_cons.mp ran
    simpa [along, taken] using ih rest

theorem Steps.at {good : σ → ε → Prop} {state final : σ} {events : List ε}
    (steps : machine.Steps good state events) (ran : machine.runFrom state events = some final)
    {count : Nat} {event : ε} (present : events[count]? = some event) :
    good (machine.along state events count) event := by
  induction events generalizing state count with
  | nil => simp at present
  | cons first events ih =>
    obtain ⟨next, taken, rest⟩ := machine.runFrom_cons.mp ran
    obtain ⟨now, others⟩ := steps next taken
    cases count with
    | zero =>
      simp only [List.getElem?_cons_zero, Option.some.injEq] at present
      subst event
      simpa using now
    | succ count =>
      simp only [List.getElem?_cons_succ] at present
      simpa [along, taken] using ih others rest present

/-- A run to a state from which a further run leads back to it. -/
structure Lasso where
  stem : List ε
  knot : σ
  first : ε
  rest : List ε
  reaches : machine.run stem = some knot
  returns : machine.runFrom knot (first :: rest) = some knot

namespace Lasso
variable {machine} (lasso : machine.Lasso)

def cycle : List ε := lasso.first :: lasso.rest

def place (time : Nat) : Nat := (time - lasso.stem.length) % lasso.cycle.length

theorem place_lt (time : Nat) : lasso.place time < lasso.cycle.length :=
  Nat.mod_lt _ (Nat.succ_pos lasso.rest.length)

def stateAt (time : Nat) : σ :=
  if time < lasso.stem.length then machine.along machine.initial lasso.stem time
  else machine.along lasso.knot lasso.cycle (lasso.place time)

def eventAt (time : Nat) : ε :=
  if time < lasso.stem.length then lasso.stem.getD time lasso.first
  else lasso.cycle.getD (lasso.place time) lasso.first

private theorem place_succ {time : Nat} (beyond : lasso.stem.length ≤ time) :
    machine.along lasso.knot lasso.cycle (lasso.place (time + 1)) =
      machine.along lasso.knot lasso.cycle (lasso.place time + 1) := by
  have inside := lasso.place_lt time
  have shift : time + 1 - lasso.stem.length = time - lasso.stem.length + 1 := by omega
  by_cases last : lasso.place time + 1 = lasso.cycle.length
  · have around : lasso.place (time + 1) = 0 := by
      rw [place, shift, Nat.add_mod]
      change (lasso.place time + 1 % lasso.cycle.length) % lasso.cycle.length = 0
      rw [Nat.add_mod_mod, last, Nat.mod_self]
    have closed : machine.along lasso.knot lasso.cycle lasso.cycle.length = lasso.knot :=
      machine.along_length lasso.returns
    rw [around, last, closed, along_zero]
  · have onward : lasso.place (time + 1) = lasso.place time + 1 := by
      rw [place, shift, Nat.add_mod]
      change (lasso.place time + 1 % lasso.cycle.length) % lasso.cycle.length = lasso.place time + 1
      rw [Nat.add_mod_mod, Nat.mod_eq_of_lt (by omega)]
    rw [onward]

private theorem getD_present {events : List ε} {count : Nat} (inside : count < events.length) (fallback : ε) :
    events[count]? = some (events.getD count fallback) := by
  simp [List.getD, inside]

def behaviour : machine.Behaviour where
  state := lasso.stateAt
  event := lasso.eventAt
  start := by
    cases stem : lasso.stem with
    | nil =>
      have reaches := lasso.reaches
      simp only [stem, run, runFrom_nil, Option.some.injEq] at reaches
      simp [stateAt, stem, place, reaches]
    | cons event events => simp [stateAt, stem]
  taken := by
    intro time
    by_cases inside : time < lasso.stem.length
    · have taken := machine.along_step lasso.reaches (getD_present inside lasso.first)
      simp only [stateAt, eventAt, inside, ite_true]
      rw [taken]
      split
      next => rfl
      next beyond =>
        have last : time + 1 = lasso.stem.length := by omega
        have start : lasso.place (time + 1) = 0 := by simp [place, last]
        rw [start, along_zero, last, machine.along_length lasso.reaches]
    · have beyond : ¬ time + 1 < lasso.stem.length := by omega
      have taken := machine.along_step lasso.returns (getD_present (lasso.place_lt time) lasso.first)
      simp only [stateAt, eventAt, inside, beyond, ite_false]
      rw [lasso.place_succ (by omega)]
      exact taken

theorem always {good : σ → ε → Prop} (stem : machine.Steps good machine.initial lasso.stem)
    (cycle : machine.Steps good lasso.knot lasso.cycle) (time : Nat) :
    good (lasso.behaviour.state time) (lasso.behaviour.event time) := by
  change good (lasso.stateAt time) (lasso.eventAt time)
  simp only [stateAt, eventAt]
  split
  next inside => exact Steps.at machine stem lasso.reaches (getD_present inside lasso.first)
  next => exact Steps.at machine cycle lasso.returns (getD_present (lasso.place_lt time) lasso.first)

theorem recurs (count : Nat) {event : ε} (present : lasso.cycle[count]? = some event) (time : Nat) :
    ∃ later, time ≤ later ∧ lasso.behaviour.event later = event ∧
      lasso.behaviour.state later = machine.along lasso.knot lasso.cycle count := by
  have inside := (List.getElem?_eq_some_iff.mp present).1
  let later := lasso.stem.length + lasso.cycle.length * time + count
  have beyond : ¬ later < lasso.stem.length := by omega
  have place : lasso.place later = count := by
    have shift : later - lasso.stem.length = count + lasso.cycle.length * time := by omega
    rw [Lasso.place, shift, Nat.add_mul_mod_self_left, Nat.mod_eq_of_lt inside]
  refine ⟨later, ?_, ?_, ?_⟩
  · have positive : 1 ≤ lasso.cycle.length := Nat.succ_le_succ (Nat.zero_le _)
    have long : time ≤ lasso.cycle.length * time := Nat.le_mul_of_pos_left time positive
    omega
  · change lasso.eventAt later = event
    simp only [eventAt, beyond, ite_false, place, List.getD, present, Option.getD_some]
  · change lasso.stateAt later = _
    simp only [stateAt, beyond, ite_false, place]

theorem fair {helpful : ε → Prop} (count : Nat) {event : ε} (present : lasso.cycle[count]? = some event)
    (helps : helpful event) : lasso.behaviour.WeaklyFair helpful := by
  intro time _
  obtain ⟨later, order, same, _⟩ := lasso.recurs count present time
  exact ⟨later, order, same ▸ helps⟩

theorem fair_of_disabled {helpful : ε → Prop} (count : Nat) {event : ε} (present : lasso.cycle[count]? = some event)
    (disabled : ∀ event, helpful event → machine.step (machine.along lasso.knot lasso.cycle count) event = none) :
    lasso.behaviour.WeaklyFair helpful := by
  intro time enabled
  obtain ⟨later, order, _, same⟩ := lasso.recurs count present time
  obtain ⟨event, helps, some⟩ := enabled later order
  rw [same, disabled event helps] at some
  cases some

theorem leads_to {before after : σ → Prop} (count : Nat) {event : ε} (present : lasso.cycle[count]? = some event)
    (reached : after (machine.along lasso.knot lasso.cycle count)) : lasso.behaviour.LeadsTo before after := by
  intro time _
  obtain ⟨later, order, _, same⟩ := lasso.recurs count present time
  exact ⟨later, order, same ▸ reached⟩

end Lasso
end Machine
