import Mathlib.Tactic.Linarith
import TrickCFS.Library.FirstFit
import TrickCFS.Proofs.FiringLaw

/-! How often a user-added command is sent. `initTables` turns its period into
ticks by an integer division, and the tick loop reads zero ticks as disabled. -/

namespace TrickCFS.Proofs.UserCommands
open SchLabTrickCFSScheduler FiringLaw

variable {cfe : CfeMessages} {frame : Nat} {newEntry : SchLabStateEntry}
  {state next : List SchLabStateEntry}

/-- The entry of the index is sent with a fixed period of calls, and the time
between two consecutive sends is within one minor frame of the requested time. -/
def SentPeriodically (scheduler : SchLabTrickCFSScheduler) (index : Nat) (micros : ℚ) : Prop :=
  ∃ period, 0 < period ∧
    (∀ call, 0 < call → ((∃ send ∈ scheduler.sentAt call, send.index = index) ↔ period ∣ call)) ∧
    |(period : ℚ) * scheduler.schedRateInMicros - micros| < scheduler.schedRateInMicros

def inTicks (frame : Nat) (newEntry : SchLabStateEntry) : SchLabStateEntry :=
  { newEntry with packetRate := UInt32.ofNat (newEntry.packetRate.toNat / frame) }

theorem installCmd_found {index : Nat} (positive : 0 < frame)
    (free : state.findIdx? (SchLabStateEntry.isFree cfe) = some index) :
    installCmd cfe frame newEntry state = some (state.set index (inTicks frame newEntry)) := by
  simp only [installCmd, free, Nat.pos_iff_ne_zero.mp positive, ite_false, inTicks]

theorem installCmd_place (installed : installCmd cfe frame newEntry state = some next) :
    next = FirstFit.place (SchLabStateEntry.isFree cfe) (inTicks frame newEntry) state := by
  simp only [installCmd] at installed
  split at installed
  next index free =>
    split at installed <;> cases installed
    rw [FirstFit.place, free]
    rfl
  next full =>
    cases installed
    rw [FirstFit.place, full]

/-- Installing the commands is first-fit placement. -/
theorem installCmds_placeAll {newEntries : List SchLabStateEntry}
    (installed : installCmds cfe frame newEntries state = some next) :
    next = FirstFit.placeAll (SchLabStateEntry.isFree cfe) (newEntries.map (inTicks frame)) state := by
  induction newEntries generalizing state with
  | nil =>
    cases installed
    rfl
  | cons newEntry newEntries ih =>
    simp only [installCmds, Option.bind_eq_some_iff] at installed
    obtain ⟨middle, first, rest⟩ := installed
    rw [ih rest, installCmd_place first, List.map_cons, FirstFit.placeAll]

theorem installCmds_keeps {later : List SchLabStateEntry} {index : Nat} {entry : SchLabStateEntry}
    (held : state[index]? = some entry) (valid : entry.msgId ≠ cfe.invalidMsgId)
    (installed : installCmds cfe frame later state = some next) : next[index]? = some entry := by
  rw [installCmds_placeAll installed, FirstFit.placeAll_used, held]
  rw [List.mem_findIdxs_iff_exists_getElem_pos]
  intro ⟨inside, free⟩
  obtain ⟨_, rfl⟩ := List.getElem?_eq_some_iff.mp held
  simp [SchLabStateEntry.isFree, valid] at free

theorem installCmds_append (earlier later : List SchLabStateEntry) :
    installCmds cfe frame (earlier ++ later) state =
      (installCmds cfe frame earlier state).bind (installCmds cfe frame later) := by
  induction earlier generalizing state with
  | nil => rfl
  | cons newEntry earlier ih =>
    simp only [List.cons_append, installCmds, Option.bind_assoc]
    congr 1
    funext middle
    exact ih

def FindsSlot (cfe : CfeMessages) (loaded : SchLabTrickCFSScheduler) (earlier : List SchLabStateEntry)
    (index : Nat) : Prop :=
  ∃ middle, installCmds cfe loaded.schedRateInMicros earlier loaded.state = some middle ∧
    middle.findIdx? (SchLabStateEntry.isFree cfe) = some index

theorem installed_entry (loaded : SchLabTrickCFSScheduler) {earlier later : List SchLabStateEntry}
    {index : Nat} (positive : 0 < loaded.schedRateInMicros) (valid : newEntry.msgId ≠ cfe.invalidMsgId)
    (slot : FindsSlot cfe loaded earlier index)
    (installed : installCmds cfe loaded.schedRateInMicros (earlier ++ newEntry :: later) loaded.state =
      some next) :
    next[index]? = some (inTicks loaded.schedRateInMicros newEntry) := by
  obtain ⟨middle, before, free⟩ := slot
  rw [installCmds_append, before, Option.bind_some, installCmds, installCmd_found positive free,
    Option.bind_some] at installed
  refine installCmds_keeps ?_ valid installed
  have inside := (List.findIdx?_eq_some_iff_getElem.mp free).1
  rw [List.getElem?_set_self inside]

/-- The microseconds that `addScheduledCmd` converts to an integer, for a period
that its caller writes in seconds: the quotient and the product are rounded. -/
def requestedMicros (micros : ℚ) : ℚ := Binary64.round (Binary64.round (micros / 1000000) * 1000000)

/-- The greatest multiple of the frame within the period, or one frame. -/
def wholeFrames (frame : Nat) (micros : ℚ) : Nat := max 1 ⌊micros / frame⌋₊ * frame

theorem requestedMicros_nonneg {micros : ℚ} (nonneg : 0 ≤ micros) : 0 ≤ requestedMicros micros := by
  apply Binary64.round_nonneg
  have seconds := Binary64.round_nonneg (show 0 ≤ micros / 1000000 by linarith)
  linarith

/-- Both roundings together move a period of the table's width by less than one
microsecond. -/
theorem requestedMicros_lt {micros : ℚ} (nonneg : 0 ≤ micros) (fits : micros < 2 ^ 32) :
    requestedMicros micros < micros + 1 := by
  have seconds : 0 ≤ micros / 1000000 := by linarith
  have quotient := (abs_le.mp (Binary64.round_error (micros / 1000000))).2
  have product := (abs_le.mp (Binary64.round_error (Binary64.round (micros / 1000000) * 1000000))).2
  have rounded := Binary64.round_nonneg seconds
  rw [abs_of_nonneg seconds] at quotient
  rw [abs_of_nonneg (by linarith)] at product
  simp only [requestedMicros]
  linarith

theorem inTicks_rate (cfe : CfeMessages) (frame mid : Nat) (cmdRate : ℚ) (cmdCode payloadLength : Nat) :
    (inTicks frame (.ofCmd cfe mid cmdRate cmdCode payloadLength)).packetRate.toNat =
      ⌊Binary64.round (cmdRate * 1000000)⌋₊ % 2 ^ 32 / frame := by
  simp only [inTicks, SchLabStateEntry.ofCmd_eq, UInt32.toNat_ofNat']
  apply Nat.mod_eq_of_lt
  exact Nat.lt_of_le_of_lt (Nat.div_le_self _ _) (Nat.mod_lt _ (by decide))

private theorem ticks_iff {micros : ℚ} (positive : 0 < frame) (least : 1 ≤ micros) (fits : micros < 2 ^ 32) :
    (max 1 ⌊micros / frame⌋₊ ≤ ⌊requestedMicros micros⌋₊ % 2 ^ 32 / frame) ↔
      wholeFrames frame micros ≤ requestedMicros micros ∧ requestedMicros micros < 2 ^ 32 := by
  have nonneg : 0 ≤ requestedMicros micros := requestedMicros_nonneg (by linarith)
  have close := requestedMicros_lt (by linarith) fits
  rw [Nat.le_div_iff_mul_le positive, ← wholeFrames]
  by_cases small : requestedMicros micros < 2 ^ 32
  · have below : ⌊requestedMicros micros⌋₊ < 2 ^ 32 := (Nat.floor_lt nonneg).mpr (by exact_mod_cast small)
    rw [Nat.mod_eq_of_lt below, and_iff_left small, Nat.le_floor_iff nonneg]
  · -- The rounding can reach the width of the table, but no further.
    have reached : ⌊requestedMicros micros⌋₊ = 2 ^ 32 := by
      apply (Nat.floor_eq_iff nonneg).mpr
      push_cast
      exact ⟨not_lt.mp small, by linarith⟩
    have some : 0 < wholeFrames frame micros :=
      Nat.mul_pos (Nat.lt_of_lt_of_le Nat.one_pos (Nat.le_max_left ..)) positive
    rw [reached, Nat.mod_self]
    exact iff_of_false (by omega) (fun both => small both.2)

private theorem ticks_within {micros : ℚ} {ticks : Nat} (positive : 0 < frame) (least : 1 ≤ micros)
    (short : ((ticks * frame : Nat) : ℚ) < micros + 1) :
    ⌊micros / frame⌋₊ ≤ ticks ↔ |(ticks : ℚ) * frame - micros| < frame := by
  have frames : (0 : ℚ) < frame := by exact_mod_cast positive
  have one : (1 : ℚ) ≤ frame := by exact_mod_cast positive
  have quotient : 0 ≤ micros / frame := div_nonneg (by linarith) frames.le
  push_cast at short
  rw [← Nat.lt_succ_iff, Nat.floor_lt quotient, div_lt_iff₀ frames, abs_lt]
  push_cast
  constructor
  · intro long
    constructor <;> linarith
  · intro ⟨near, _⟩
    linarith

/-- An installed command keeps its period exactly when the product does not lose
one of its whole frames. -/
theorem entry_periodically_iff {scheduler : SchLabTrickCFSScheduler} {mid cmdCode payloadLength index : Nat}
    {micros : ℚ} (found : scheduler.state[index]? =
      some (inTicks scheduler.schedRateInMicros
        (.ofCmd cfe mid (Binary64.round (micros / 1000000)) cmdCode payloadLength)))
    (frame : 1 ≤ scheduler.schedRateInMicros) (least : 1 ≤ micros) (fits : micros < 2 ^ 32) :
    SentPeriodically scheduler index micros ↔
      wholeFrames scheduler.schedRateInMicros micros ≤ requestedMicros micros ∧
        requestedMicros micros < 2 ^ 32 := by
  have rate := inTicks_rate cfe scheduler.schedRateInMicros mid (Binary64.round (micros / 1000000)) cmdCode
    payloadLength
  have fresh : (inTicks scheduler.schedRateInMicros
      (.ofCmd cfe mid (Binary64.round (micros / 1000000)) cmdCode payloadLength)).counter = 0 := by
    simp only [inTicks, SchLabStateEntry.ofCmd_eq]
  rw [← requestedMicros] at rate
  generalize inTicks scheduler.schedRateInMicros
    (.ofCmd cfe mid (Binary64.round (micros / 1000000)) cmdCode payloadLength) = entry at found rate fresh
  rw [← ticks_iff frame least fits, ← rate]
  have short : ((entry.packetRate.toNat * scheduler.schedRateInMicros : Nat) : ℚ) < micros + 1 := by
    have nonneg : 0 ≤ requestedMicros micros := requestedMicros_nonneg (by linarith)
    have down : entry.packetRate.toNat * scheduler.schedRateInMicros ≤ ⌊requestedMicros micros⌋₊ := by
      rw [rate]
      exact (Nat.div_mul_le_self _ _).trans (Nat.mod_le _ _)
    have cut := (Nat.le_floor_iff nonneg).mp down
    have close := requestedMicros_lt (by linarith) fits
    linarith
  have within := ticks_within frame least short
  have enabled : entry.packetRate ≠ 0 ↔ 1 ≤ entry.packetRate.toNat := by
    rw [Nat.one_le_iff_ne_zero, ne_eq, ← UInt32.toNat_inj, UInt32.toNat_zero]
  rw [Nat.max_le, within]
  constructor
  · intro ⟨period, positive, law, near⟩
    have due := (index_sent_iff found fresh positive).mp ((law period positive).mpr (dvd_refl period))
    have ticking := enabled.mp due.1
    have same : period = entry.packetRate.toNat := by
      apply Nat.dvd_antisymm _ due.2
      exact (law _ ticking).mp ((index_sent_iff found fresh ticking).mpr ⟨due.1, dvd_refl _⟩)
    exact ⟨ticking, same ▸ near⟩
  · intro ⟨ticking, near⟩
    refine ⟨entry.packetRate.toNat, ticking, ?_, near⟩
    intro call positive
    rw [index_sent_iff found fresh positive, Due, and_iff_right (enabled.mpr ticking)]

/-- A user-added command keeps its period exactly when the microseconds that the
`double` yields hold at least one minor frame, and no fewer whole frames than the
period. With less than one frame the ticks are zero and the command is never sent. -/
theorem sent_periodically_iff (cfe : CfeMessages) (scheduler loaded ready : SchLabTrickCFSScheduler)
    (later : List SchLabStateEntry) (mid : Nat) (micros : ℚ) (cmdCode payloadLength index : Nat)
    (listed : loaded.userAddedCmds =
      (scheduler.addScheduledCmd cfe mid (Binary64.round (micros / 1000000)) cmdCode payloadLength).userAddedCmds ++
        later)
    (frame : 1 ≤ loaded.schedRateInMicros) (least : 1 ≤ micros) (fits : micros < 2 ^ 32)
    (valid : cfe.valueToMsgId mid ≠ cfe.invalidMsgId)
    (slot : FindsSlot cfe loaded scheduler.userAddedCmds index)
    (installed : loaded.installUserCmds cfe = some ready) :
    SentPeriodically ready index micros ↔
      wholeFrames loaded.schedRateInMicros micros ≤ requestedMicros micros ∧ requestedMicros micros < 2 ^ 32 := by
  simp only [installUserCmds, Option.map_eq_some_iff] at installed
  obtain ⟨final, placed, rfl⟩ := installed
  rw [listed, addScheduledCmd, List.append_assoc, List.singleton_append] at placed
  have held : (SchLabStateEntry.ofCmd cfe mid (Binary64.round (micros / 1000000)) cmdCode payloadLength).msgId ≠
      cfe.invalidMsgId := by
    rwa [SchLabStateEntry.ofCmd_eq]
  exact entry_periodically_iff (installed_entry loaded frame held slot placed) frame least fits

def plainMessages : CfeMessages where
  invalidMsgId := 0
  valueToMsgId := id
  commandHeaderSize := 8

def oneCommand (micros : ℚ) : SchLabTrickCFSScheduler :=
  ((construct 1).addScheduledCmd plainMessages 5 (Binary64.round (micros / 1000000)) 0 0).loadTable plainMessages
    ⟨1, []⟩

def oneCommandReady (micros : ℚ) : SchLabTrickCFSScheduler :=
  { oneCommand micros with
    state := [inTicks 1000000 (.ofCmd plainMessages 5 (Binary64.round (micros / 1000000)) 0 0)] }

/-- A period of two and a half frames is served every second frame. -/
theorem sent_periodically_two_frames : SentPeriodically (oneCommandReady 2500000) 0 2500000 :=
  (sent_periodically_iff plainMessages (construct 1) (oneCommand 2500000) (oneCommandReady 2500000) []
    5 2500000 0 0 0 rfl (by decide) (by norm_num) (by norm_num) (by decide) ⟨_, rfl, rfl⟩ rfl).mpr
    (by decide +kernel)

/-- A period of exactly one frame of 251 frames a second loses its frame in the product. -/
example : wholeFrames 3984 3984 = 3984 ∧ ⌊requestedMicros 3984⌋₊ = 3983 := by decide +kernel

/-- A command of half a second under a frame of one second is never sent. -/
theorem half_second_command_disabled :
    ¬ ∀ (cfe : CfeMessages) (scheduler loaded ready : SchLabTrickCFSScheduler)
      (later : List SchLabStateEntry) (mid : Nat) (micros : ℚ) (cmdCode payloadLength index : Nat),
      loaded.userAddedCmds =
        (scheduler.addScheduledCmd cfe mid (Binary64.round (micros / 1000000)) cmdCode payloadLength).userAddedCmds ++
          later →
      1 ≤ loaded.schedRateInMicros → 1 ≤ micros → micros < 2 ^ 32 →
      cfe.valueToMsgId mid ≠ cfe.invalidMsgId → FindsSlot cfe loaded scheduler.userAddedCmds index →
      loaded.installUserCmds cfe = some ready →
      SentPeriodically ready index micros := by
  intro always
  have sent := always plainMessages (construct 1) (oneCommand 500000) (oneCommandReady 500000) []
    5 500000 0 0 0 rfl (by decide) (by norm_num) (by norm_num) (by decide) ⟨_, rfl, rfl⟩ rfl
  have found : (oneCommandReady 500000).state[0]? =
      some (inTicks 1000000 (.ofCmd plainMessages 5 (Binary64.round (500000 / 1000000)) 0 0)) := rfl
  have long := (entry_periodically_iff found (by decide) (by norm_num) (by norm_num)).mp sent
  have short : ¬ (wholeFrames 1000000 500000 : ℚ) ≤ requestedMicros 500000 := by decide +kernel
  exact short long.1

end TrickCFS.Proofs.UserCommands
