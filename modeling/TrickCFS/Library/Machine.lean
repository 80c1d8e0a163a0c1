import Mathlib.Logic.Basic

/-! Event-driven machines. An event that is not enabled in a state has no
successor there, so a list of events is one schedule of the parties whose steps
the events name. Runs are executable; invariants are proved once per step. -/

universe u v w

structure Machine (σ : Type u) (ε : Type v) where
  initial : σ
  step : σ → ε → Option σ

namespace Machine
variable {σ : Type u} {ε : Type v} (machine : Machine σ ε)

def runFrom : σ → List ε → Option σ
  | state, [] => some state
  | state, event :: events => (machine.step state event).bind (fun next => runFrom next events)

def run (events : List ε) : Option σ := machine.runFrom machine.initial events

def Reachable (state : σ) : Prop := ∃ events, machine.run events = some state

@[simp] theorem runFrom_nil (state : σ) : machine.runFrom state [] = some state := rfl

theorem runFrom_cons {state final : σ} {event : ε} {events : List ε} :
    machine.runFrom state (event :: events) = some final ↔
      ∃ next, machine.step state event = some next ∧ machine.runFrom next events = some final := by
  simp only [runFrom, Option.bind_eq_some_iff]

theorem runFrom_append {state final : σ} {first rest : List ε} :
    machine.runFrom state (first ++ rest) = some final ↔
      ∃ middle, machine.runFrom state first = some middle ∧ machine.runFrom middle rest = some final := by
  induction first generalizing state with
  | nil => simp
  | cons event first ih =>
    simp only [List.cons_append, runFrom_cons, ih]
    constructor
    · intro ⟨next, taken, middle, reached, rest⟩
      exact ⟨middle, ⟨next, taken, reached⟩, rest⟩
    · intro ⟨middle, ⟨next, taken, reached⟩, rest⟩
      exact ⟨next, taken, middle, reached, rest⟩

theorem Reachable.initial : machine.Reachable machine.initial := ⟨[], rfl⟩

theorem Reachable.runFrom {machine : Machine σ ε} {state final : σ} {events : List ε}
    (reachable : machine.Reachable state) (ran : machine.runFrom state events = some final) :
    machine.Reachable final := by
  obtain ⟨before, reached⟩ := reachable
  exact ⟨before ++ events, machine.runFrom_append.mpr ⟨state, reached, ran⟩⟩

theorem Reachable.step {machine : Machine σ ε} {state next : σ} {event : ε}
    (reachable : machine.Reachable state) (taken : machine.step state event = some next) :
    machine.Reachable next :=
  have ran : machine.runFrom state [event] = some next := machine.runFrom_cons.mpr ⟨next, taken, rfl⟩
  reachable.runFrom ran

theorem runFrom_preserves_on (good : ε → Prop) (inv : σ → Prop)
    (kept : ∀ state event next, inv state → good event → machine.step state event = some next → inv next)
    {state final : σ} {events : List ε} (start : inv state) (all : ∀ event ∈ events, good event)
    (ran : machine.runFrom state events = some final) : inv final := by
  induction events generalizing state with
  | nil => cases ran; exact start
  | cons event events ih =>
    obtain ⟨next, taken, rest⟩ := machine.runFrom_cons.mp ran
    obtain ⟨first, others⟩ := List.forall_mem_cons.mp all
    exact ih (kept state event next start first taken) others rest

theorem runFrom_preserves (inv : σ → Prop)
    (kept : ∀ state event next, inv state → machine.step state event = some next → inv next)
    {state final : σ} {events : List ε} (start : inv state)
    (ran : machine.runFrom state events = some final) : inv final := by
  refine machine.runFrom_preserves_on (fun _ => True) inv ?_ start (fun _ _ => trivial) ran
  intro state event next holds _ taken
  exact kept state event next holds taken

theorem invariant (inv : σ → Prop) (start : inv machine.initial)
    (kept : ∀ state event next, inv state → machine.step state event = some next → inv next)
    {state : σ} (reachable : machine.Reachable state) : inv state := by
  obtain ⟨events, ran⟩ := reachable
  exact machine.runFrom_preserves inv kept start ran

/-- Every step that the schedule takes satisfies the predicate on the state
before it. A schedule that reaches a disabled event is cut off there. -/
def Steps (good : σ → ε → Prop) : σ → List ε → Prop
  | _, [] => True
  | state, event :: events =>
    ∀ next, machine.step state event = some next → good state event ∧ Steps good next events

instance Steps.decidable (good : σ → ε → Prop) [∀ state event, Decidable (good state event)] :
    (state : σ) → (events : List ε) → Decidable (machine.Steps good state events)
  | _, [] => .isTrue trivial
  | state, event :: events =>
    match taken : machine.step state event with
    | none => .isTrue (fun next reached => by rw [taken] at reached; cases reached)
    | some next =>
      have := Steps.decidable good next events
      decidable_of_iff (good state event ∧ machine.Steps good next events)
        ⟨fun both next' reached => by rw [taken] at reached; cases reached; exact both, fun steps => steps next taken⟩

def States (good : σ → Prop) : σ → List ε → Prop
  | state, [] => good state
  | state, event :: events =>
    good state ∧ ∀ next, machine.step state event = some next → States good next events

theorem States.head {good : σ → Prop} {state : σ} {events : List ε}
    (throughout : machine.States good state events) : good state := by
  cases events with
  | nil => exact throughout
  | cons event events => exact throughout.1

theorem States.last {good : σ → Prop} {state final : σ} {events : List ε}
    (throughout : machine.States good state events)
    (ran : machine.runFrom state events = some final) : good final := by
  induction events generalizing state with
  | nil => cases ran; exact throughout
  | cons event events ih =>
    obtain ⟨next, taken, rest⟩ := machine.runFrom_cons.mp ran
    exact ih (throughout.2 next taken) rest

/-- A state predicate that can be lost only by the steps outside `good` holds
throughout a schedule exactly when all its steps are good. The invariant is
needed only while the predicate has not been lost. -/
theorem states_iff_steps (inv : σ → Prop) {holds : σ → Prop} {good : σ → ε → Prop}
    (kept : ∀ state event next, inv state → holds state → machine.step state event = some next →
      holds next → inv next)
    (lost : ∀ state event next, inv state → holds state → machine.step state event = some next →
      (holds next ↔ good state event))
    {state : σ} {events : List ε} (start : inv state) (first : holds state) :
    machine.States holds state events ↔ machine.Steps good state events := by
  induction events generalizing state with
  | nil => exact ⟨fun _ => trivial, fun _ => first⟩
  | cons event events ih =>
    constructor
    · intro throughout next taken
      have rest := throughout.2 next taken
      have now := States.head machine rest
      exact ⟨(lost state event next start first taken).mp now,
        (ih (kept state event next start first taken now) now).mp rest⟩
    · intro steps
      refine ⟨first, ?_⟩
      intro next taken
      obtain ⟨good, rest⟩ := steps next taken
      have now := (lost state event next start first taken).mpr good
      exact (ih (kept state event next start first taken now) now).mpr rest

/-- Two step predicates that agree wherever the invariant holds agree along
whole schedules, as long as the good steps keep the invariant. -/
theorem steps_iff_steps (inv : σ → Prop) {valid good : σ → ε → Prop}
    (kept : ∀ state event next, inv state → good state event →
      machine.step state event = some next → inv next)
    (agree : ∀ state event next, inv state → machine.step state event = some next →
      (valid state event ↔ good state event))
    {state : σ} {events : List ε} (start : inv state) :
    machine.Steps valid state events ↔ machine.Steps good state events := by
  induction events generalizing state with
  | nil => exact Iff.rfl
  | cons event events ih =>
    constructor
    all_goals
      intro steps next taken
      obtain ⟨now, rest⟩ := steps next taken
      have same := agree state event next start taken
    · have good := same.mp now
      exact ⟨good, (ih (kept state event next start good taken)).mp rest⟩
    · exact ⟨same.mpr now, (ih (kept state event next start now taken)).mpr rest⟩

theorem Steps.imp (inv : σ → Prop) {good valid : σ → ε → Prop}
    (kept : ∀ state event next, inv state → good state event →
      machine.step state event = some next → inv next)
    (implies : ∀ state event, inv state → good state event → valid state event)
    {state : σ} {events : List ε} (start : inv state) (steps : machine.Steps good state events) :
    machine.Steps valid state events := by
  induction events generalizing state with
  | nil => trivial
  | cons event events ih =>
    intro next taken
    obtain ⟨now, rest⟩ := steps next taken
    exact ⟨implies state event start now, ih (kept state event next start now taken) rest⟩

theorem Steps.states (inv : σ → Prop) {good : σ → ε → Prop} {holds : σ → Prop}
    (kept : ∀ state event next, inv state → good state event →
      machine.step state event = some next → inv next)
    (implies : ∀ state, inv state → holds state)
    {state : σ} {events : List ε} (start : inv state) (steps : machine.Steps good state events) :
    machine.States holds state events := by
  induction events generalizing state with
  | nil => exact implies state start
  | cons event events ih =>
    refine ⟨implies state start, ?_⟩
    intro next taken
    obtain ⟨now, rest⟩ := steps next taken
    exact ih (kept state event next start now taken) rest

theorem Steps.last (inv : σ → Prop) {good : σ → ε → Prop}
    (kept : ∀ state event next, inv state → good state event → machine.step state event = some next → inv next)
    {state final : σ} {events : List ε} (start : inv state) (steps : machine.Steps good state events)
    (ran : machine.runFrom state events = some final) : inv final :=
  States.last machine (Steps.states machine inv kept (fun _ holds => holds) start steps) ran

/-- A party reaches its goal within as many steps of its own as the rank says, if
its steps lower the rank and no other step raises it. -/
theorem reaches_within (inv goal : σ → Prop) (own : ε → Bool) (rank : σ → Nat)
    (progress : ∀ state event next, inv state → ¬ goal state → machine.step state event = some next →
      inv next ∧ rank next + (if own event then 1 else 0) ≤ rank state)
    (reached : ∀ state, inv state → rank state = 0 → goal state)
    {state final : σ} {events : List ε} (start : inv state) (ran : machine.runFrom state events = some final)
    (many : rank state ≤ events.countP own) :
    ∃ before after middle, events = before ++ after ∧ machine.runFrom state before = some middle ∧ goal middle ∧
      before.countP own ≤ rank state := by
  induction events generalizing state with
  | nil =>
    refine ⟨[], [], state, rfl, rfl, reached state start ?_, Nat.zero_le _⟩
    rw [List.countP_nil] at many
    omega
  | cons event events ih =>
    by_cases done : goal state
    · exact ⟨[], event :: events, state, rfl, rfl, done, Nat.zero_le _⟩
    · obtain ⟨next, taken, rest⟩ := machine.runFrom_cons.mp ran
      obtain ⟨kept, falls⟩ := progress state event next start done taken
      rw [List.countP_cons] at many
      obtain ⟨before, after, middle, split, reaches, found, few⟩ := ih kept rest (by omega)
      refine ⟨event :: before, after, middle, by rw [split]; rfl, ?_, found, ?_⟩
      · exact machine.runFrom_cons.mpr ⟨next, taken, reaches⟩
      · rw [List.countP_cons]
        omega

section Monitors
variable {ω : Type w}

/-- A monitor writes a history of a run without taking part in it. -/
structure Monitor (σ : Type u) (ε : Type v) (ω : Type w) where
  start : ω
  record : ω → σ → ε → ω

def watch (monitor : Monitor σ ε ω) : Machine (σ × ω) ε where
  initial := (machine.initial, monitor.start)
  step := fun watched event =>
    (machine.step watched.1 event).map (fun next => (next, monitor.record watched.2 watched.1 event))

theorem watch_step {monitor : Monitor σ ε ω} {watched after : σ × ω} {event : ε} :
    (machine.watch monitor).step watched event = some after ↔
      machine.step watched.1 event = some after.1 ∧
        after.2 = monitor.record watched.2 watched.1 event := by
  simp only [watch, Option.map_eq_some_iff]
  constructor
  · rintro ⟨next, taken, rfl⟩
    exact ⟨taken, rfl⟩
  · intro ⟨taken, recorded⟩
    exact ⟨after.1, taken, by rw [← recorded]⟩

theorem watch_runFrom (monitor : Monitor σ ε ω) (watched : σ × ω) (events : List ε) :
    ((machine.watch monitor).runFrom watched events).map Prod.fst =
      machine.runFrom watched.1 events := by
  induction events generalizing watched with
  | nil => rfl
  | cons event events ih =>
    cases taken : machine.step watched.1 event with
    | none => simp [runFrom, watch, taken]
    | some next => simpa [runFrom, watch, taken] using ih (next, monitor.record watched.2 watched.1 event)

theorem Reachable.unwatched {machine : Machine σ ε} {monitor : Monitor σ ε ω} {watched : σ × ω}
    (reachable : (machine.watch monitor).Reachable watched) : machine.Reachable watched.1 := by
  obtain ⟨events, ran⟩ := reachable
  refine ⟨events, ?_⟩
  have same := machine.watch_runFrom monitor (machine.watch monitor).initial events
  simp only [run] at ran
  rw [ran] at same
  exact same.symm

theorem Steps.watched {monitor : Monitor σ ε ω} {good : σ → ε → Prop} {state : σ} {events : List ε}
    (steps : machine.Steps good state events) (history : ω) :
    (machine.watch monitor).Steps (fun watched event => good watched.1 event) (state, history) events := by
  induction events generalizing state history with
  | nil => trivial
  | cons event events ih =>
    intro after taken
    obtain ⟨taken, _⟩ := (machine.watch_step).mp taken
    obtain ⟨now, rest⟩ := steps after.1 taken
    exact ⟨now, ih rest after.2⟩

end Monitors
end Machine

/-! Components that answer every call. Two of them related by a simulation give
the same answers to every sequence of calls. -/

namespace Responses
variable {σ : Type u} {τ : Type u} {ε : Type v} {ρ : Type w}

def respond (call : σ → ε → ρ × σ) : σ → List ε → List ρ × σ
  | state, [] => ([], state)
  | state, event :: events =>
    let answered := call state event
    let later := respond call answered.2 events
    (answered.1 :: later.1, later.2)

theorem simulation {call : σ → ε → ρ × σ} {spec : τ → ε → ρ × τ} (related : σ → τ → Prop)
    (answers : ∀ state model event, related state model →
      (call state event).1 = (spec model event).1 ∧ related (call state event).2 (spec model event).2)
    {state : σ} {model : τ} (events : List ε) (start : related state model) :
    (respond call state events).1 = (respond spec model events).1 ∧
      related (respond call state events).2 (respond spec model events).2 := by
  induction events generalizing state model with
  | nil => exact ⟨rfl, start⟩
  | cons event events ih =>
    obtain ⟨same, next⟩ := answers state model event start
    obtain ⟨rest, final⟩ := ih next
    refine ⟨?_, final⟩
    simp only [respond, same, rest]

theorem respond_append (call : σ → ε → ρ × σ) (state : σ) (first rest : List ε) :
    respond call state (first ++ rest) =
      ((respond call state first).1 ++ (respond call (respond call state first).2 rest).1,
        (respond call (respond call state first).2 rest).2) := by
  induction first generalizing state with
  | nil => rfl
  | cons event first ih => simp only [List.cons_append, respond, ih]

theorem respond_answer (call : σ → ε → ρ × σ) (state : σ) (before : List ε) (event : ε) (after : List ε) :
    (respond call state (before ++ event :: after)).1[before.length]? =
      some (call (respond call state before).2 event).1 := by
  induction before generalizing state with
  | nil => rfl
  | cons first before ih => exact ih (call state first).2

theorem respond_preserves {call : σ → ε → ρ × σ} (good : ε → Prop) (inv : σ → Prop)
    (kept : ∀ state event, inv state → good event → inv (call state event).2) {state : σ} {events : List ε}
    (start : inv state) (all : ∀ event ∈ events, good event) : inv (respond call state events).2 := by
  induction events generalizing state with
  | nil => exact start
  | cons event events ih =>
    obtain ⟨first, others⟩ := List.forall_mem_cons.mp all
    exact ih (kept state event start first) others

def Explains (call : σ → ε → ρ × σ) (start : σ) (log : List (ε × ρ)) (final : σ) : Prop :=
  respond call start (log.map Prod.fst) = (log.map Prod.snd, final)

theorem Explains.snoc {call : σ → ε → ρ × σ} {start state next : σ} {log : List (ε × ρ)} {event : ε} {answer : ρ}
    (explains : Explains call start log state) (answers : call state event = (answer, next)) :
    Explains call start (log ++ [(event, answer)]) next := by
  have before : respond call start (log.map Prod.fst) = (log.map Prod.snd, state) := explains
  simp only [Explains, List.map_append, respond_append, before, List.map_cons, List.map_nil, respond, answers]

end Responses
