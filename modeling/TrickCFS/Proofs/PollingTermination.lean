import Mathlib.Algebra.Order.Floor.Semifield
import TrickCFS.Library.Behaviour
import TrickCFS.Proofs.FiniteTimeouts
import TrickCFS.SchLabTrickCFSScheduler

/-! Whether the polling loop of a finite timeout ends. The rate that it counts
down by is the minor frame rounded down to whole milliseconds, which is zero for
a table of more than a thousand ticks per second. -/

namespace TrickCFS.Proofs.PollingTermination
open QueueGet FiniteTimeouts

variable {config : Config} {state next : QueueGet} {event : QueueGetEvent} {minorFrameMs polls : Nat}
  {timeout : Int} {task : TaskIPC}

/-- The queue stays empty, the task is always scheduled again, and every delay
is released. -/
structure Fair (behaviour : (queueGet config minorFrameMs timeout task).Behaviour) : Prop where
  empty : ∀ time, Empty (behaviour.event time)
  scheduled : ∀ time kind, (behaviour.state time).pc = .receiving kind →
    ∃ later, time ≤ later ∧ (behaviour.state later).pc ≠ .receiving kind
  released : ∀ time, (behaviour.state time).pc = .delayed →
    ∃ later, time ≤ later ∧ (behaviour.state later).pc ≠ .delayed

def LoopEnds (config : Config) (minorFrameMs : Nat) (timeout : Int) : Prop :=
  ∀ task (behaviour : (queueGet config minorFrameMs timeout task).Behaviour), Fair behaviour →
    ∃ time, (behaviour.state time).pc = .returned (.failed .queueTimeout)

/-- Two for each millisecond that is left, and one for a delay. -/
def rank (state : QueueGet) : Nat := 2 * state.timeout.toNat + if state.pc = .delayed then 1 else 0

theorem remaining_lt (fits : timeout < 2 ^ 31) (schRate polls : Nat) :
    remaining schRate timeout polls < 2 ^ 31 := by
  cases polls with
  | zero => exact fits
  | succ polls =>
    have bound := Int.bmod_lt (x := remaining schRate timeout polls - schRate) (m := 2 ^ 32) (by decide)
    simpa [remaining, subtractRate] using bound

theorem rank_step {schRate : Nat} (fits : timeout < 2 ^ 31) (rate : 1 ≤ schRate) (small : schRate ≤ 1000)
    (polled : Polled schRate timeout polls state) (empty : Empty event)
    (taken : state.step config.cycleTics event = some next) :
    (∃ polls', Polled schRate timeout polls' next) ∧ rank next ≤ rank state ∧
      (next.pc ≠ state.pc → rank next < rank state) := by
  cases event with
  | receive currStack answer =>
    cases empty
    obtain ⟨kept, _⟩ := polled.poll taken
    refine ⟨⟨_, kept⟩, ?_⟩
    have phase := polled.phase
    simp only [QueueGet.step] at taken
    split at taken
    next kind receiving =>
      rw [receiving] at phase
      have bound := remaining_lt fits schRate polls
      have left : next.timeout = remaining schRate timeout polls - schRate :=
        kept.left.trans (subtractRate_small (by omega) (by omega))
      have lower : rank next < rank state := by
        simp only [rank, left, polled.left, receiving, reduceCtorEq, ite_false]
        split <;> omega
      exact ⟨lower.le, fun _ => lower⟩
    next => cases taken
  | updateTaskTimes =>
    obtain ⟨kept, same, _⟩ := polled.update taken
    have still : rank next = rank state := by
      simp only [rank, kept.left, polled.left, same]
    exact ⟨⟨_, kept⟩, still.le, fun moved => absurd same moved⟩
  | leave =>
    obtain ⟨kept, delayed, _, polling⟩ := polled.leave taken
    have lower : rank next < rank state := by
      simp only [rank, kept.left, polled.left, delayed, polling, reduceCtorEq, ite_true, ite_false]
      omega
    exact ⟨⟨_, kept⟩, lower.le, fun _ => lower⟩

theorem loop_ends (config : Config) (positive : 0 < timeout) (fits : timeout < 2 ^ 31)
    (rate : 1 ≤ minorFrameMs) (small : minorFrameMs ≤ 1000) : LoopEnds config minorFrameMs timeout := by
  intro task behaviour fair
  have schRate : minorFrameMs % 2 ^ 32 = minorFrameMs := Nat.mod_eq_of_lt (by omega)
  have polled : ∀ time, ∃ polls, Polled minorFrameMs timeout polls (behaviour.state time) := by
    refine behaviour.always (fun state => ∃ polls, Polled minorFrameMs timeout polls state) ?_ ?_
    · have start := Polled.initial config positive minorFrameMs task
      rw [schRate] at start
      exact ⟨0, start⟩
    · intro time ⟨polls, polled⟩
      exact (rank_step fits rate small polled (fair.empty time) (behaviour.taken time)).1
  have moves : ∀ time, rank (behaviour.state (time + 1)) ≤ rank (behaviour.state time) ∧
      ((behaviour.state (time + 1)).pc ≠ (behaviour.state time).pc →
        rank (behaviour.state (time + 1)) < rank (behaviour.state time)) := by
    intro time
    obtain ⟨polls, polled⟩ := polled time
    exact (rank_step fits rate small polled (fair.empty time) (behaviour.taken time)).2
  have falls : ∀ time later, time ≤ later → (behaviour.state later).pc ≠ (behaviour.state time).pc →
      ∃ lower, rank (behaviour.state lower) < rank (behaviour.state time) := by
    intro time later order different
    obtain ⟨change, after, moved⟩ := behaviour.exists_change QueueGet.pc order different
    have before := behaviour.rank_le rank (fun time => (moves time).1) after
    exact ⟨change + 1, Nat.lt_of_lt_of_le ((moves change).2 moved) before⟩
  apply behaviour.eventually rank (fun state => state.pc = .returned (.failed .queueTimeout))
  intro time waits
  obtain ⟨polls, polled⟩ := polled time
  have phase := polled.phase
  cases pc : (behaviour.state time).pc with
  | receiving kind =>
    obtain ⟨later, order, moved⟩ := fair.scheduled time kind pc
    obtain ⟨lower, less⟩ := falls time later order (pc.symm ▸ moved)
    exact ⟨lower, Or.inr less⟩
  | delayed =>
    obtain ⟨later, order, moved⟩ := fair.released time pc
    obtain ⟨lower, less⟩ := falls time later order (pc.symm ▸ moved)
    exact ⟨lower, Or.inr less⟩
  | returned code =>
    rw [pc] at phase
    exact absurd (pc.trans (congrArg _ phase.1)) waits

def nextEvent (state : QueueGet) : QueueGetEvent :=
  match state.pc with
  | .receiving _ => .receive (.backtrace []) (.failed .queueTimeout)
  | .delayed => if state.task.state = .taskContinue then .leave else .updateTaskTimes
  | .returned _ => .updateTaskTimes

theorem nextEvent_empty (state : QueueGet) : Empty (nextEvent state) := by
  simp only [nextEvent]
  repeat' split
  all_goals first | rfl | trivial

def undisturbed (config : Config) (state : QueueGet) : QueueGet :=
  (state.step config.cycleTics (nextEvent state)).getD state

theorem undisturbed_taken (config : Config) (state : QueueGet) :
    state.step config.cycleTics (nextEvent state) = some (undisturbed config state) := by
  have enabled : ∃ next, state.step config.cycleTics (nextEvent state) = some next := by
    cases pc : state.pc with
    | receiving | returned => simp [nextEvent, QueueGet.step, pc]
    | delayed =>
      simp only [nextEvent, pc]
      split <;> simp_all [QueueGet.step]
  obtain ⟨next, taken⟩ := enabled
  rw [undisturbed, taken, Option.getD_some]

def undisturbedCall (config : Config) (minorFrameMs : Nat) (timeout : Int) (task : TaskIPC) :
    (queueGet config minorFrameMs timeout task).Behaviour where
  state := fun time => (undisturbed config)^[time] (queueGet config minorFrameMs timeout task).initial
  event := fun time =>
    nextEvent ((undisturbed config)^[time] (queueGet config minorFrameMs timeout task).initial)
  start := rfl
  taken := fun time => by
    rw [Function.iterate_succ_apply']
    exact undisturbed_taken config _

theorem remaining_zero (fits : timeout < 2 ^ 31) (positive : 0 < timeout) (polls : Nat) :
    remaining 0 timeout polls = timeout := by
  induction polls with
  | zero => rfl
  | succ polls ih =>
    rw [remaining, ih, subtractRate_small (by omega) (by omega)]
    omega

section Undisturbed
variable (fits : timeout < 2 ^ 31) (positive : 0 < timeout) (polled : Polled 0 timeout polls state)
include fits positive polled

theorem not_returned (code : QueueGetCode) : state.pc ≠ .returned code := by
  intro returned
  have phase := polled.phase
  rw [returned] at phase
  have left := remaining_zero fits positive polls
  omega

theorem poll_delays {kind : ReceiveKind} (polling : state.pc = .receiving kind) :
    Polled 0 timeout (polls + 1) (undisturbed config state) ∧ (undisturbed config state).pc = .delayed := by
  have taken := undisturbed_taken config state
  have polls : nextEvent state = .receive (.backtrace []) (.failed .queueTimeout) := by
    simp [nextEvent, polling]
  rw [polls] at taken
  obtain ⟨kept, _, _, delayed | returned⟩ := polled.poll taken
  · exact ⟨kept, delayed⟩
  · exact absurd returned (not_returned fits positive kept _)

omit fits positive in
theorem delay_ends (config : Config) (delayed : state.pc = .delayed) :
    Polled 0 timeout polls (undisturbed config state) ∧
      if state.task.state = .taskContinue then (undisturbed config state).pc = .receiving .polling
      else (undisturbed config state).pc = .delayed ∧
        (undisturbed config state).task.state = .taskContinue := by
  have taken := undisturbed_taken config state
  split
  next continued =>
    have leaves : nextEvent state = .leave := by simp [nextEvent, delayed, continued]
    rw [leaves] at taken
    obtain ⟨kept, _, _, polling⟩ := polled.leave taken
    exact ⟨kept, polling⟩
  next waits =>
    have updates : nextEvent state = .updateTaskTimes := by simp [nextEvent, delayed, waits]
    rw [updates] at taken
    obtain ⟨kept, same, released⟩ := polled.update taken
    exact ⟨kept, same.trans delayed, released delayed⟩

end Undisturbed

/-- With a rate of zero the loop has a fair behaviour that goes on for ever. -/
theorem loop_runs_on (config : Config) (positive : 0 < timeout) (fits : timeout < 2 ^ 31) :
    ¬ LoopEnds config 0 timeout := by
  intro ends
  let task : TaskIPC := { taskId := 0 }
  let call := undisturbedCall config 0 timeout task
  have next : ∀ time, call.state (time + 1) = undisturbed config (call.state time) :=
    fun time => Function.iterate_succ_apply' ..
  have polled : ∀ time, ∃ polls, Polled 0 timeout polls (call.state time) := by
    refine call.always (fun state => ∃ polls, Polled 0 timeout polls state) ?_ ?_
    · exact ⟨0, Polled.initial config positive 0 task⟩
    · intro time ⟨polls, polled⟩
      rw [next]
      cases pc : (call.state time).pc with
      | receiving kind => exact ⟨_, (poll_delays fits positive polled pc).1⟩
      | delayed => exact ⟨_, (delay_ends polled config pc).1⟩
      | returned code => exact absurd pc (not_returned fits positive polled code)
  have fair : Fair call := by
    refine ⟨?_, ?_, ?_⟩
    · exact fun time => nextEvent_empty (call.state time)
    · intro time kind polling
      obtain ⟨polls, polled⟩ := polled time
      refine ⟨time + 1, Nat.le_succ time, ?_⟩
      rw [next, (poll_delays fits positive polled polling).2]
      simp
    · intro time delayed
      obtain ⟨polls, polled⟩ := polled time
      have ended := delay_ends polled config delayed
      rw [← next] at ended
      obtain ⟨kept, ended⟩ := ended
      split at ended
      · exact ⟨time + 1, Nat.le_succ time, by rw [ended]; simp⟩
      · have left := (delay_ends kept config ended.1).2
        rw [if_pos ended.2, ← next] at left
        exact ⟨time + 2, Nat.le_add_right time 2, by rw [left]; simp⟩
  obtain ⟨time, returned⟩ := ends task call fair
  obtain ⟨polls, polled⟩ := polled time
  exact not_returned fits positive polled _ returned

theorem minorFrameMs_eq {cfe : CfeMessages} {table : ScheduleTable} {scheduler ready : SchLabTrickCFSScheduler}
    (accepted : scheduler.initTables cfe table = some ready) :
    ready.getMinorFrameMsTics =
      if table.tickRate = 0 then 1000 else 1000000 / (table.tickRate.toNat * 1000) := by
  have period : ready.schedRateInMicros = (SchLabTrickCFSScheduler.timerPeriod table.tickRate).toNat := by
    simp only [SchLabTrickCFSScheduler.initTables, SchLabTrickCFSScheduler.installUserCmds,
      Option.map_eq_some_iff] at accepted
    obtain ⟨state, _, rfl⟩ := accepted
    rfl
  have whole : ready.getMinorFrameMsTics = ready.schedRateInMicros / 1000 := by
    have rounded := Nat.floor_div_eq_div (K := ℚ) ready.schedRateInMicros 1000
    rw [Nat.cast_ofNat] at rounded
    exact rounded
  rw [whole, period, SchLabTrickCFSScheduler.timerPeriod]
  split
  · rfl
  · rw [UInt32.toNat_div, Nat.div_div_eq_div_mul]
    rfl

/-- For every table that is accepted, with or without a warning: the polling
loop ends exactly when the table has at most a thousand ticks per second. -/
theorem loop_ends_iff (config : Config) (cfe : CfeMessages) (table : ScheduleTable)
    (scheduler ready : SchLabTrickCFSScheduler) (accepted : scheduler.initTables cfe table = some ready)
    (timeout : Int) (positive : 0 < timeout) (fits : timeout < 2 ^ 31) :
    LoopEnds config ready.getMinorFrameMsTics timeout ↔ table.tickRate ≤ 1000 := by
  rw [minorFrameMs_eq accepted, UInt32.le_iff_toNat_le]
  change _ ↔ table.tickRate.toNat ≤ 1000
  split
  next unset =>
    rw [unset]
    exact ⟨fun _ => by decide, fun _ => loop_ends config positive fits (by decide) (by decide)⟩
  next set =>
    have some : 0 < table.tickRate.toNat := Nat.pos_of_ne_zero (fun zero => set (UInt32.toNat_inj.mp zero))
    constructor
    · intro ends
      refine Nat.le_of_not_lt (fun fast => ?_)
      rw [Nat.div_eq_of_lt (by omega)] at ends
      exact loop_runs_on config positive fits ends
    · intro slow
      apply loop_ends config positive fits
      · exact (Nat.one_le_div_iff (by omega)).mpr (by omega)
      · exact Nat.div_le_of_le_mul (by omega)

def eightByteHeaders : CfeMessages where
  invalidMsgId := 0
  valueToMsgId := id
  commandHeaderSize := 8

def hundredHertz : SchLabTrickCFSScheduler :=
  (SchLabTrickCFSScheduler.construct 1).loadTable eightByteHeaders ⟨100, []⟩

theorem loop_ends_hundred_hertz : LoopEnds oneTaskConfig hundredHertz.getMinorFrameMsTics 2500 :=
  (loop_ends_iff oneTaskConfig eightByteHeaders ⟨100, []⟩ (.construct 1) hundredHertz rfl 2500 (by decide)
    (by decide)).mpr (by decide)

/-- At two thousand ticks per second the loop counts down by nothing. -/
theorem fast_table_polls_for_ever :
    ¬ ∀ (config : Config) (cfe : CfeMessages) (table : ScheduleTable)
      (scheduler ready : SchLabTrickCFSScheduler), scheduler.initTables cfe table = some ready →
      ∀ (timeout : Int), 0 < timeout → timeout < 2 ^ 31 → LoopEnds config ready.getMinorFrameMsTics timeout := by
  intro always
  have accepted : (SchLabTrickCFSScheduler.construct 1).initTables eightByteHeaders ⟨2000, []⟩ =
      some ((SchLabTrickCFSScheduler.construct 1).loadTable eightByteHeaders ⟨2000, []⟩) := rfl
  have ends := always oneTaskConfig _ _ _ _ accepted 1 one_pos (by decide)
  rw [minorFrameMs_eq accepted] at ends
  exact loop_runs_on oneTaskConfig one_pos (by decide) ends

end TrickCFS.Proofs.PollingTermination
