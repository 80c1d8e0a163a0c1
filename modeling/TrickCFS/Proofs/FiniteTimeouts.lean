import Mathlib.Algebra.Order.Floor.Semiring
import Mathlib.Data.Rat.Floor
import Mathlib.Tactic.Linarith
import TrickCFS.Proofs.SimulatedDelays
import TrickCFS.QueueGet

/-! How long a finite receive timeout lasts on a queue that stays empty. It is
decided by what is left of the timeout after each poll: the loop delays once
less than it polls. -/

namespace TrickCFS.Proofs.FiniteTimeouts
open QueueGet

variable {config : Config} {state next : QueueGet} {event : QueueGetEvent} {schRate polls : Nat}
  {timeout : Int}

def remaining (schRate : Nat) (timeout : Int) : Nat → Int
  | 0 => timeout
  | polls + 1 => subtractRate (remaining schRate timeout polls) schRate

/-- The queue answers every poll with a timeout. -/
def Empty : QueueGetEvent → Prop
  | .receive _ answer => answer = .failed .queueTimeout
  | _ => True

/-- The polls whose delay has not been released: the last one, unless the call
is about to poll again. -/
def unreleased (state : QueueGet) : Nat :=
  match state.pc with
  | .receiving _ => 0
  | .delayed => if state.task.state = .taskDelay then 1 else 0
  | .returned _ => 1

/-- A call that has polled an empty queue a number of times. -/
structure Polled (schRate : Nat) (timeout : Int) (polls : Nat) (state : QueueGet) : Prop where
  rate : state.schRate = schRate
  left : state.timeout = remaining schRate timeout polls
  earlier : ∀ poll < polls, 0 < remaining schRate timeout poll
  phase : match state.pc with
    | .receiving kind => kind = .polling ∧ 0 < remaining schRate timeout polls
    | .delayed => 0 < remaining schRate timeout polls ∧
        (state.task.state = .taskDelay ∧ state.task.usRemaining = 0 ∨ state.task.state = .taskContinue)
    | .returned code => code = .failed .queueTimeout ∧ remaining schRate timeout polls ≤ 0

theorem Polled.initial (config : Config) (positive : 0 < timeout) (minorFrameMs : Nat) (task : TaskIPC) :
    Polled (minorFrameMs % 2 ^ 32) timeout 0 (queueGet config minorFrameMs timeout task).initial where
  rate := rfl
  left := rfl
  earlier := fun _ before => absurd before (Nat.not_lt_zero _)
  phase := by
    have pend : timeout ≠ -1 := by omega
    have check : timeout ≠ 0 := by omega
    simp [queueGet, enter, pend, check, remaining, positive]

theorem Polled.poll {currStack : StackInfo} (polled : Polled schRate timeout polls state)
    (taken : state.step config.cycleTics (.receive currStack (.failed .queueTimeout)) = some next) :
    Polled schRate timeout (polls + 1) next ∧ unreleased state = 0 ∧ unreleased next = 1 ∧
      (next.pc = .delayed ∨ next.pc = .returned (.failed .queueTimeout)) := by
  have phase := polled.phase
  simp only [step] at taken
  split at taken
  next kind receiving =>
    cases taken
    rw [receiving] at phase
    obtain ⟨rfl, positive⟩ := phase
    have earlier : ∀ poll < polls + 1, 0 < remaining schRate timeout poll := by
      intro poll before
      rcases Nat.lt_succ_iff_lt_or_eq.mp before with old | rfl
      · exact polled.earlier poll old
      · exact positive
    simp only [answered, timedOut, polled.rate, polled.left, ite_true, unreleased, receiving]
    split
    next more =>
      exact ⟨⟨rfl, rfl, earlier, ⟨more, Or.inl ⟨rfl, rfl⟩⟩⟩, trivial, rfl, Or.inl rfl⟩
    next ended =>
      exact ⟨⟨rfl, rfl, earlier, ⟨rfl, Int.not_lt.mp ended⟩⟩, trivial, rfl, Or.inr rfl⟩
  next => cases taken

theorem Polled.update (polled : Polled schRate timeout polls state)
    (taken : state.step config.cycleTics .updateTaskTimes = some next) :
    Polled schRate timeout polls next ∧ next.pc = state.pc ∧
      (state.pc = .delayed → next.task.state = .taskContinue) := by
  have tics := SimulatedDelays.cycleTics_nonneg config
  have phase := polled.phase
  cases taken
  cases pc : state.pc with
  | receiving | returned =>
    rw [pc] at phase
    exact ⟨⟨polled.rate, polled.left, polled.earlier, by simpa only [pc] using phase⟩, rfl, by simp⟩
  | delayed =>
    simp only [pc] at phase
    have released : (state.task.updateTaskTimes config.cycleTics).state = .taskContinue := by
      rcases phase.2 with ⟨waits, zero⟩ | continued
      · have ended : state.task.usRemaining - config.cycleTics ≤ 0 := by omega
        exact TaskIPC.updateTaskTimes_released waits ended
      · rw [TaskIPC.updateTaskTimes_kept (by simp [continued])]
        exact continued
    exact ⟨⟨polled.rate, polled.left, polled.earlier, ⟨phase.1, Or.inr released⟩⟩, rfl, fun _ => released⟩

theorem Polled.leave (polled : Polled schRate timeout polls state)
    (taken : state.step config.cycleTics .leave = some next) :
    Polled schRate timeout polls next ∧ state.pc = .delayed ∧ state.task.state = .taskContinue ∧
      next.pc = .receiving .polling := by
  obtain ⟨⟨delayed, continued⟩, taken⟩ := Option.ite_none_right_eq_some.mp taken
  cases taken
  have phase := polled.phase
  rw [delayed] at phase
  exact ⟨⟨polled.rate, polled.left, polled.earlier, ⟨rfl, phase.1⟩⟩, delayed, continued, rfl⟩

theorem Polled.step {releases : Nat} (polled : Polled schRate timeout polls state) (empty : Empty event)
    (count : releases + unreleased state = polls)
    (taken : state.step config.cycleTics event = some next) :
    ∃ polls', Polled schRate timeout polls' next ∧
      delayReleases.record releases state event + unreleased next = polls' := by
  cases event with
  | receive currStack answer =>
    cases empty
    obtain ⟨kept, before, after, _⟩ := polled.poll taken
    refine ⟨polls + 1, kept, ?_⟩
    simp only [delayReleases, reduceCtorEq, false_and, ite_false]
    omega
  | updateTaskTimes =>
    obtain ⟨kept, same, released⟩ := polled.update taken
    refine ⟨polls, kept, ?_⟩
    simp only [delayReleases, true_and]
    cases pc : state.pc with
    | receiving | returned =>
      simp only [unreleased, same, pc] at count ⊢
      simpa using count
    | delayed =>
      simp only [unreleased, same, pc, released pc, reduceCtorEq, ite_false, true_and] at count ⊢
      split <;> simp_all
  | leave =>
    obtain ⟨kept, delayed, continued, polling⟩ := polled.leave taken
    refine ⟨polls, kept, ?_⟩
    simp only [unreleased, delayed, continued, reduceCtorEq, ite_false] at count
    simpa [delayReleases, unreleased, polling] using count

theorem polled_run {minorFrameMs : Nat} {task : TaskIPC} {events : List QueueGetEvent}
    {watched final : QueueGet × Nat} (polled : Polled schRate timeout polls watched.1)
    (empty : ∀ event ∈ events, Empty event) (count : watched.2 + unreleased watched.1 = polls)
    (ran : ((queueGet config minorFrameMs timeout task).watch delayReleases).runFrom watched events =
      some final) :
    ∃ polls', Polled schRate timeout polls' final.1 ∧ final.2 + unreleased final.1 = polls' := by
  refine Machine.runFrom_preserves_on _ Empty
    (fun watched => ∃ polls, Polled schRate timeout polls watched.1 ∧ watched.2 + unreleased watched.1 = polls)
    ?_ ⟨polls, polled, count⟩ empty ran
  intro watched event after ⟨polls, polled, count⟩ empty taken
  obtain ⟨taken, recorded⟩ := (Machine.watch_step _).mp taken
  rw [recorded]
  exact polled.step empty count taken

section Rounds
variable {minorFrameMs : Nat} {task : TaskIPC}

private theorem watched_step {releases : Nat} (taken : state.step config.cycleTics event = some next) :
    ((queueGet config minorFrameMs timeout task).watch delayReleases).step (state, releases) event =
      some (next, delayReleases.record releases state event) :=
  (Machine.watch_step _).mpr ⟨taken, rfl⟩

private theorem poll_taken (config : Config) (currStack : StackInfo) {kind : ReceiveKind}
    (polling : state.pc = .receiving kind) :
    ∃ next, state.step config.cycleTics (.receive currStack (.failed .queueTimeout)) = some next := by
  simp only [QueueGet.step, polling]
  exact ⟨_, rfl⟩

private theorem round_taken (config : Config) (minorFrameMs : Nat) (task : TaskIPC) (currStack : StackInfo)
    (polled : Polled schRate timeout polls state)
    (polling : state.pc = .receiving .polling) (more : 0 < remaining schRate timeout (polls + 1)) :
    ∃ next, ((queueGet config minorFrameMs timeout task).watch delayReleases).runFrom (state, polls)
        [.receive currStack (.failed .queueTimeout), .updateTaskTimes, .leave] = some (next, polls + 1) ∧
      Polled schRate timeout (polls + 1) next ∧ next.pc = .receiving .polling := by
  obtain ⟨delaying, taken⟩ := poll_taken config currStack polling
  obtain ⟨polled, _, unreleased, delayed | returned⟩ := polled.poll taken
  · let released := { delaying with task := delaying.task.updateTaskTimes config.cycleTics }
    have updated : delaying.step config.cycleTics .updateTaskTimes = some released := rfl
    obtain ⟨polled, _, continued⟩ := polled.update updated
    have left : released.step config.cycleTics .leave =
        some { released with pc := .receiving .polling, task := released.task.setState .taskRunning } :=
      if_pos ⟨delayed, continued delayed⟩
    have waits : delaying.task.state = .taskDelay := by
      simpa [FiniteTimeouts.unreleased, delayed] using unreleased
    refine ⟨_, ?_, (polled.leave left).1, rfl⟩
    refine (Machine.runFrom_cons _).mpr ⟨_, watched_step taken, ?_⟩
    refine (Machine.runFrom_cons _).mpr ⟨_, watched_step updated, ?_⟩
    refine (Machine.runFrom_cons _).mpr ⟨_, watched_step left, ?_⟩
    simp [delayReleases, delayed, waits]
  · have ended := polled.phase
    rw [returned] at ended
    exact absurd more (Int.not_lt.mpr ended.2)

private theorem polls_reachable (config : Config) (minorFrameMs : Nat) (task : TaskIPC) (positive : 0 < timeout) (polls : Nat)
    (more : ∀ poll ≤ polls, 0 < remaining (minorFrameMs % 2 ^ 32) timeout poll) :
    ∃ events state, (∀ event ∈ events, Empty event) ∧
      ((queueGet config minorFrameMs timeout task).watch delayReleases).runFrom
        ((queueGet config minorFrameMs timeout task).initial, 0) events = some (state, polls) ∧
      Polled (minorFrameMs % 2 ^ 32) timeout polls state ∧ state.pc = .receiving .polling := by
  induction polls with
  | zero =>
    have start := Polled.initial config positive minorFrameMs task
    have phase := start.phase
    refine ⟨[], _, by simp, rfl, start, ?_⟩
    simp only [queueGet, enter] at phase ⊢
    rw [phase.1]
  | succ polls ih =>
    obtain ⟨events, state, empty, ran, polled, polling⟩ :=
      ih (fun poll before => more poll (Nat.le_succ_of_le before))
    obtain ⟨next, round, polled, polling⟩ :=
      round_taken config minorFrameMs task (.backtrace []) polled polling (more _ (Nat.le_refl _))
    refine ⟨events ++ _, next, ?_, (Machine.runFrom_append _).mpr ⟨_, ran, round⟩, polled, polling⟩
    intro event member
    rcases List.mem_append.mp member with old | new
    · exact empty event old
    · simp only [List.mem_cons, List.not_mem_nil, or_false] at new
      rcases new with rfl | rfl | rfl <;> trivial

end Rounds

structure EndsAfter (schRate : Nat) (timeout : Int) (polls : Nat) : Prop where
  more : ∀ poll ≤ polls, 0 < remaining schRate timeout poll
  ended : remaining schRate timeout (polls + 1) ≤ 0

/-- Whatever the others do, a call on an empty queue returns only after the
requested number of milliseconds, in releases by successive updates. -/
def LastsLongEnough (config : Config) (minorFrameMs : Nat) (timeout : Int) : Prop :=
  ∀ task events final releases, (∀ event ∈ events, Empty event) →
    ((queueGet config minorFrameMs timeout task).watch delayReleases).run events = some (final, releases) →
    final.pc = .returned (.failed .queueTimeout) → ⌈(timeout : ℚ) / minorFrameMs⌉₊ ≤ releases

/-- The call waits for one release less than it polls. -/
theorem lasts_iff_ends {minorFrameMs : Nat} (positive : 0 < timeout) :
    LastsLongEnough config minorFrameMs timeout ↔
      ∀ polls, EndsAfter (minorFrameMs % 2 ^ 32) timeout polls → ⌈(timeout : ℚ) / minorFrameMs⌉₊ ≤ polls := by
  constructor
  · intro lasts polls ends
    obtain ⟨events, state, empty, ran, polled, polling⟩ :=
      polls_reachable config minorFrameMs { taskId := 0 } positive polls ends.more
    obtain ⟨final, taken⟩ := poll_taken config (.backtrace []) polling
    obtain ⟨polled, _, _, delayed | returned⟩ := polled.poll taken
    · have phase := polled.phase
      rw [delayed] at phase
      exact absurd phase.1 (Int.not_lt.mpr ends.ended)
    · refine lasts { taskId := 0 } (events ++ [.receive (.backtrace []) (.failed .queueTimeout)]) final polls ?_ ?_ returned
      · intro event member
        rcases List.mem_append.mp member with old | new
        · exact empty event old
        · cases List.mem_singleton.mp new
          rfl
      · refine (Machine.runFrom_append _).mpr ⟨_, ran, ?_⟩
        exact (Machine.runFrom_cons _).mpr ⟨_, watched_step taken, rfl⟩
  · intro every task events final releases empty ran returned
    have count : 0 + unreleased (queueGet config minorFrameMs timeout task).initial = 0 := by
      simp [unreleased, queueGet, enter]
    obtain ⟨polls, polled, count⟩ :=
      polled_run (.initial config positive minorFrameMs task) empty count ran
    simp only [unreleased, returned] at count
    subst count
    have phase := polled.phase
    rw [returned] at phase
    exact every releases ⟨fun poll before => polled.earlier poll (Nat.lt_succ_of_le before), phase.2⟩

theorem subtractRate_small {left : Int} (low : -2 ^ 31 ≤ left - schRate) (high : left - schRate < 2 ^ 31) :
    subtractRate left schRate = left - schRate := by
  simp only [subtractRate, Int.bmod_def]
  split <;> omega

/-- Below the rate by more than an `int32` can hold, the subtraction wraps. -/
theorem subtractRate_wrapped {left : Int} (positive : 0 < left) (bound : schRate < 2 ^ 32)
    (far : left + 2 ^ 31 < schRate) : 0 < subtractRate left schRate := by
  simp only [subtractRate, Int.bmod_def]
  split <;> omega

theorem remaining_linear (fits : timeout < 2 ^ 31) (near : schRate ≤ timeout + 2 ^ 31) (polls : Nat)
    (more : ∀ poll < polls, 0 < remaining schRate timeout poll) :
    remaining schRate timeout polls = timeout - polls * schRate := by
  induction polls with
  | zero => simp [remaining]
  | succ polls ih =>
    have before := ih (fun poll less => more poll (Nat.lt_succ_of_lt less))
    have positive := more polls (Nat.lt_succ_self _)
    have shape : (timeout : Int) - ((polls + 1 : Nat) : Int) * schRate = timeout - polls * schRate - schRate := by
      push_cast
      ring
    rw [shape, ← before, remaining]
    apply subtractRate_small
    · cases polls with
      | zero => simp only [remaining]; omega
      | succ polls =>
        have rate : (schRate : Int) ≤ ((polls + 1 : Nat) : Int) * schRate := by
          push_cast
          nlinarith
        omega
    · have rate : (0 : Int) ≤ (polls : Int) * schRate := by positivity
      omega

theorem ends_exists (positive : 0 < timeout) (fits : timeout < 2 ^ 31) (rate : 0 < schRate)
    (near : schRate ≤ timeout + 2 ^ 31) : ∃ polls, EndsAfter schRate timeout polls := by
  have some : ∃ polls, remaining schRate timeout polls ≤ 0 := by
    refine Classical.byContradiction (fun never => ?_)
    simp only [not_exists, Int.not_le] at never
    have late := never timeout.toNat
    rw [remaining_linear fits near _ (fun poll _ => never poll)] at late
    have large : timeout ≤ (timeout.toNat : Int) * schRate := by
      rw [Int.toNat_of_nonneg positive.le]
      nlinarith
    omega
  classical
  let first := Nat.find some
  have ended : remaining schRate timeout first ≤ 0 := Nat.find_spec some
  have earlier : ∀ poll < first, 0 < remaining schRate timeout poll :=
    fun poll before => Int.not_le.mp (Nat.find_min some before)
  cases found : first with
  | zero =>
    rw [found] at ended
    exact absurd positive (Int.not_lt.mpr ended)
  | succ polls =>
    rw [found] at ended earlier
    exact ⟨polls, fun poll before => earlier poll (Nat.lt_succ_of_le before), ended⟩

private theorem ceil_le_iff {minorFrameMs releases : Nat} (frame : 1 ≤ minorFrameMs) :
    ⌈(timeout : ℚ) / minorFrameMs⌉₊ ≤ releases ↔ timeout ≤ releases * minorFrameMs := by
  have positive : (0 : ℚ) < minorFrameMs := by exact_mod_cast frame
  rw [Nat.ceil_le, div_le_iff₀ positive]
  exact_mod_cast Iff.rfl

/-- A finite timeout lasts long enough only where the minor frame, as the
`uint32` of the loop, is zero, wraps the remaining timeout, or was truncated to
less than the timeout. A minor frame of ordinary length is one release short. -/
theorem lasts_long_enough_iff (config : Config) (minorFrameMs : Nat) (frame : 1 ≤ minorFrameMs)
    (timeout : Int) (positive : 0 < timeout) (fits : timeout < 2 ^ 31) :
    LastsLongEnough config minorFrameMs timeout ↔
      minorFrameMs % 2 ^ 32 = 0 ∨ timeout + 2 ^ 31 < (minorFrameMs % 2 ^ 32 : Nat) ∨
        2 ^ 32 ≤ minorFrameMs ∧ ((minorFrameMs % 2 ^ 32 : Nat) : Int) < timeout := by
  rw [lasts_iff_ends positive]
  have bound : minorFrameMs % 2 ^ 32 < 2 ^ 32 := Nat.mod_lt _ (by decide)
  have least : minorFrameMs % 2 ^ 32 ≤ minorFrameMs := Nat.mod_le _ _
  have small : minorFrameMs < 2 ^ 32 → minorFrameMs % 2 ^ 32 = minorFrameMs := Nat.mod_eq_of_lt
  generalize minorFrameMs % 2 ^ 32 = schRate at bound least small ⊢
  constructor
  · intro every
    refine or_iff_not_imp_left.mpr (fun rate => or_iff_not_imp_left.mpr (fun near => ?_))
    have near := Int.not_lt.mp near
    obtain ⟨polls, ends⟩ := ends_exists positive fits (Nat.pos_of_ne_zero rate) near
    have long := (ceil_le_iff frame).mp (every polls ends)
    have left := ends.more polls (Nat.le_refl _)
    rw [remaining_linear fits near _ (fun poll before => ends.more poll before.le)] at left
    have some : 1 ≤ polls := by
      apply Nat.pos_of_ne_zero
      rintro rfl
      simp only [Nat.cast_zero, Int.zero_mul] at long
      omega
    refine ⟨Nat.le_of_not_lt (fun short => ?_), ?_⟩
    · rw [small short] at left
      omega
    · have once : (schRate : Int) ≤ polls * schRate := by nlinarith
      omega
  · intro good polls ends
    apply (ceil_le_iff frame).mpr
    have first : remaining schRate timeout 1 = subtractRate timeout schRate := rfl
    have next : 0 < subtractRate timeout schRate → 1 ≤ polls := by
      intro more
      apply Nat.pos_of_ne_zero
      rintro rfl
      exact absurd more (Int.not_lt.mpr ends.ended)
    have enough : 1 ≤ polls → timeout ≤ minorFrameMs → timeout ≤ (polls : Int) * minorFrameMs := by
      intro some long
      have once : (minorFrameMs : Int) ≤ polls * minorFrameMs := by nlinarith
      omega
    rcases good with rfl | far | ⟨large, near⟩
    · have forever : remaining 0 timeout (polls + 1) = timeout - ((polls + 1 : Nat) : Int) * (0 : Nat) :=
        remaining_linear fits (by omega) _ (fun poll before => ends.more poll (Nat.le_of_lt_succ before))
      have ended := ends.ended
      omega
    · exact enough (next (subtractRate_wrapped positive bound far)) (by omega)
    · refine enough (next ?_) (by omega)
      rw [subtractRate_small (by omega) (by omega)]
      omega

/-- A rate of more than an `int32` away wraps the timeout of one millisecond. -/
theorem lasts_long_enough_wrapped : LastsLongEnough oneTaskConfig (2 ^ 31 + 2) 1 := by
  apply (lasts_long_enough_iff oneTaskConfig (2 ^ 31 + 2) (by decide) 1 one_pos (by decide)).mpr
  exact Or.inr (Or.inl (by decide))

/-- A timeout of one frame returns after its first poll, with no delay at all. -/
theorem one_frame_timeout_returns_at_once :
    ¬ ∀ (config : Config) (minorFrameMs : Nat), 1 ≤ minorFrameMs → ∀ (timeout : Int), 0 < timeout →
      timeout < 2 ^ 31 → LastsLongEnough config minorFrameMs timeout := by
  intro always
  have lasts := always oneTaskConfig 1000 (by decide) 1000 (by decide) (by decide)
  have ends : EndsAfter (1000 % 2 ^ 32) 1000 0 := by
    refine ⟨fun poll before => ?_, by decide⟩
    rw [Nat.le_zero.mp before]
    decide
  have none := (ceil_le_iff (by decide)).mp ((lasts_iff_ends (by decide)).mp lasts 0 ends)
  omega

end TrickCFS.Proofs.FiniteTimeouts
