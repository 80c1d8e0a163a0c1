import TrickCFS.LocalClock
import Mathlib.Tactic.NormNum

/-! Setting and reading the local clock. The setter goes through nanoseconds in 32
bits and the parts of an offset, the getter through milliseconds with one carry. -/

namespace TrickCFS.Proofs.LocalClocks
open Rounding Timespec

variable {osal : OsalClock}

section Offsets

/-- The nanoseconds that a negative offset with a fraction gains when its
remainder is read as a `uint32`. -/
def wrapped (offset : Int) : Int := if 0 ≤ offset ∨ 10000000 ∣ offset then 0 else 4294967296

theorem wrapped_ticks (offset : Int) :
    wrapped offset / 100 = if 0 ≤ offset ∨ 10000000 ∣ offset then 0 else 42949672 := by
  rw [wrapped]
  split <;> rfl

def splitOffset (osal : OsalClock) (offset : Int) : Timespec :=
  ⟨osal.timeGetTotalSeconds offset, (osal.timeGetNanosecondsPart offset).toNat⟩

theorem toNat_ofInt (value : Int) : ((UInt32.ofInt value).toNat : Int) = value % 4294967296 := by
  simp only [UInt32.ofInt, UInt32.toNat_ofNat']
  omega

theorem nanosecondsPart_eq (declared : osal.Declared) (offset : Int) :
    ((osal.timeGetNanosecondsPart offset).toNat : Int) = offset.tmod 10000000 * 100 % 4294967296 := by
  rw [declared.nanosecondsPart, UInt32.toNat_mul]
  have part := toNat_ofInt (offset.tmod 10000000)
  have hundred : (100 : UInt32).toNat = 100 := by rfl
  rw [hundred]
  omega

theorem splitOffset_nanoseconds (declared : osal.Declared) (offset : Int) :
    (splitOffset osal offset).tvSec * 1000000000 + (splitOffset osal offset).tvNsec =
      offset * 100 + wrapped offset := by
  have whole := Int.mul_tdiv_add_tmod offset 10000000
  have least := Int.lt_tmod_of_pos offset (show (0 : Int) < 10000000 by decide)
  have most := Int.tmod_lt_of_pos offset (show (0 : Int) < 10000000 by decide)
  have divides : (10000000 : Int) ∣ offset ↔ offset.tmod 10000000 = 0 := Int.dvd_iff_tmod_eq_zero
  simp only [splitOffset, declared.totalSeconds, nanosecondsPart_eq declared, wrapped, divides]
  rcases Int.le_total 0 offset with ahead | behind
  · have nonneg := Int.tmod_nonneg 10000000 ahead
    rw [if_pos (Or.inl ahead)]
    omega
  · have nonpos : offset.tmod 10000000 ≤ 0 := by
      have mirrored := Int.tmod_nonneg 10000000 (Int.neg_nonneg.mpr behind)
      rw [Int.neg_tmod] at mirrored
      omega
    split <;> omega

theorem tvNsec_nonneg (offset : Int) : 0 ≤ (splitOffset osal offset).tvNsec := by
  simp only [splitOffset]
  omega

theorem tvNsec_lt (offset : Int) : (splitOffset osal offset).tvNsec < 4294967296 := by
  have below := (osal.timeGetNanosecondsPart offset).toNat_lt
  simp only [splitOffset]
  omega

end Offsets

/-- The carry of one second keeps the time and leaves nanoseconds of 32 bits. -/
theorem advance_nanoseconds {tag : Timespec} {msecs : Int} (least : 0 ≤ tag.tvNsec)
    (most : tag.tvNsec < 4294967296) (nonneg : 0 ≤ msecs) :
    (tag.advance msecs).tvSec * 1000000000 + (tag.advance msecs).tvNsec =
        tag.tvSec * 1000000000 + tag.tvNsec + msecs * 1000000 ∧
      0 ≤ (tag.advance msecs).tvNsec ∧ (tag.advance msecs).tvNsec < 4294967296 := by
  rw [advance, Int.tdiv_eq_ediv_of_nonneg nonneg, Int.tmod_eq_emod_of_nonneg nonneg]
  split <;> refine ⟨?_, ?_, ?_⟩ <;> simp only at * <;> omega

theorem read_eq (declared : osal.Declared) (offset : Int) {msecs : Int} (nonneg : 0 ≤ msecs) :
    let time := (splitOffset osal offset).advance msecs
    osal.timeAssembleFromNanoseconds time.tvSec (UInt32.ofInt time.tvNsec) =
      offset + msecs * 10000 + wrapped offset / 100 := by
  obtain ⟨total, least, most⟩ :=
    advance_nanoseconds (@tvNsec_nonneg osal offset) (tvNsec_lt offset) nonneg
  have parts := splitOffset_nanoseconds declared offset
  generalize (splitOffset osal offset).advance msecs = time at total least most ⊢
  have kept : ((UInt32.ofInt time.tvNsec).toNat : Int) = time.tvNsec := by
    rw [toNat_ofInt, Int.emod_eq_of_lt least most]
  simp only [declared.assemble, kept]
  omega

theorem currTimeInSecs_nonneg (exec : ExecTime) : 0 ≤ exec.currTimeInSecs := by
  apply div_nonneg <;> apply Nat.cast_nonneg

section Subtracted
variable {nanosecs : ℚ}

theorem subtracted_close (nonneg : 0 ≤ nanosecs) (fits : nanosecs + 1 / 2 < 4294967296) :
    halfUp nanosecs % 4294967296 = halfUp nanosecs ∧
      |nanosecs / 100 - (halfUp nanosecs / 100 : Int)| ≤ 2 := by
  have below : halfUp nanosecs < 4294967296 := (halfUp_lt_iff nonneg 4294967296).mpr (by exact_mod_cast fits)
  have least := halfUp_nonneg nonneg
  refine ⟨Int.emod_eq_of_lt least below, ?_⟩
  have upper := halfUp_le nonneg
  have lower := lt_halfUp nonneg
  have quotient : (halfUp nanosecs / 100 : Int) * 100 ≤ halfUp nanosecs ∧
      halfUp nanosecs < (halfUp nanosecs / 100 : Int) * 100 + 100 := by omega
  generalize halfUp nanosecs / 100 = ticks at quotient ⊢
  have floor : (ticks : ℚ) * 100 ≤ halfUp nanosecs := by exact_mod_cast quotient.1
  have next : (halfUp nanosecs : ℚ) < ticks * 100 + 100 := by exact_mod_cast quotient.2
  rw [abs_le]
  constructor <;> linarith

theorem subtracted_late (nonneg : 0 ≤ nanosecs) (long : 4294967296 ≤ nanosecs + 1 / 2) :
    42949671 ≤ nanosecs / 100 - (halfUp nanosecs % 4294967296 / 100 : Int) := by
  have reached : (4294967296 : Int) ≤ halfUp nanosecs := by
    refine Int.not_lt.mp (fun below => ?_)
    have less := (halfUp_lt_iff nonneg 4294967296).mp below
    norm_num at less
    linarith
  have upper := halfUp_le nonneg
  have lost : (halfUp nanosecs % 4294967296 / 100 : Int) * 100 + 4294967296 ≤ halfUp nanosecs := by omega
  generalize halfUp nanosecs % 4294967296 / 100 = ticks at lost ⊢
  have lostRat : (ticks : ℚ) * 100 + 4294967296 ≤ halfUp nanosecs := by exact_mod_cast lost
  linarith

end Subtracted

/-- Simulated time to the nearest nanosecond, in whole ticks. -/
def simTicks (exec : ExecTime) : Int := halfUp (exec.currTimeInSecs * 1000000000) / 100

/-- The value read at the second simulated time is the one set at the first plus
the time between them, to within a millisecond. -/
def Agrees (osal : OsalClock) (initialTimeTag : Timespec) (rate setTics getTics : Nat) (time : Int) : Prop :=
  let tag := (setLocalTimeImpl osal ⟨setTics, rate⟩ initialTimeTag (some time)).2
  ∀ pointed, ∃ read, getLocalTimeImpl osal ⟨getTics, rate⟩ tag (some pointed) = (.success, some read) ∧
    |(read : ℚ) - (time + ((getTics : ℚ) - setTics) / rate * 10000000)| ≤ 10000

theorem agrees_iff (declared : osal.Declared) (initialTimeTag : Timespec) (rate setTics getTics : Nat)
    (time : Int) :
    let offset := time - halfUp ((⟨setTics, rate⟩ : ExecTime).currTimeInSecs * 1000000000) % 4294967296 / 100
    Agrees osal initialTimeTag rate setTics getTics time ↔
      |((offset + halfUp ((⟨getTics, rate⟩ : ExecTime).currTimeInSecs * 1000) * 10000 + wrapped offset / 100 : Int) : ℚ) -
        (time + ((getTics : ℚ) - setTics) / rate * 10000000)| ≤ 10000 := by
  intro offset
  have nonneg : 0 ≤ (⟨getTics, rate⟩ : ExecTime).currTimeInSecs * 1000 := by
    apply mul_nonneg (currTimeInSecs_nonneg _)
    norm_num
  have set : (setLocalTimeImpl osal ⟨setTics, rate⟩ initialTimeTag (some time)).2 = splitOffset osal offset := by
    have simTime := toNat_ofInt (halfUp ((⟨setTics, rate⟩ : ExecTime).currTimeInSecs * 1000000000))
    simp only [setLocalTimeImpl, splitOffset, declared.assemble, declared.subtract, simTime, zero_mul, zero_add,
      offset]
  simp only [Agrees, set, getLocalTimeImpl, read_eq declared offset (halfUp_nonneg nonneg)]
  constructor
  · intro agrees
    obtain ⟨read, same, close⟩ := agrees 0
    cases same
    exact close
  · intro close pointed
    exact ⟨_, rfl, close⟩

/-- The clock agrees exactly when the nanoseconds of simulated time at the set fit
in 32 bits and the offset is not negative, or a negative one in whole seconds. -/
theorem clock_agrees_iff (declared : osal.Declared) (initialTimeTag : Timespec)
    (rate setTics getTics : Nat) (time : Int) :
    Agrees osal initialTimeTag rate setTics getTics time ↔
      (setTics : ℚ) / rate * 1000000000 + 1 / 2 < 4294967296 ∧
        (simTicks ⟨setTics, rate⟩ ≤ time ∨ 10000000 ∣ time - simTicks ⟨setTics, rate⟩) := by
  apply (agrees_iff declared initialTimeTag rate setTics getTics time).trans
  have setNonneg := currTimeInSecs_nonneg ⟨setTics, rate⟩
  have getNonneg := currTimeInSecs_nonneg ⟨getTics, rate⟩
  simp only [simTicks, sub_div]
  simp only [ExecTime.currTimeInSecs] at setNonneg getNonneg ⊢
  generalize (setTics : ℚ) / rate = setSecs at setNonneg ⊢
  generalize (getTics : ℚ) / rate = getSecs at getNonneg ⊢
  have upper := halfUp_le (show 0 ≤ getSecs * 1000 by linarith)
  have lower := lt_halfUp (show 0 ≤ getSecs * 1000 by linarith)
  have nonneg : 0 ≤ setSecs * 1000000000 := by linarith
  by_cases fits : setSecs * 1000000000 + 1 / 2 < 4294967296
  · obtain ⟨whole, close⟩ := subtracted_close nonneg fits
    rw [whole]
    generalize (halfUp (setSecs * 1000000000) / 100 : Int) = simTime at close ⊢
    obtain ⟨least, most⟩ := abs_le.mp close
    rw [and_iff_right fits, wrapped_ticks, ← @Int.sub_nonneg time simTime]
    split
    next split =>
      refine iff_of_true ?_ split
      push_cast
      rw [abs_le]
      constructor <;> linarith
    next split =>
      refine iff_of_false (fun agrees => ?_) split
      push_cast at agrees
      linarith [(abs_le.mp agrees).2]
  · have late := subtracted_late nonneg (not_lt.mp fits)
    generalize (halfUp (setSecs * 1000000000) % 4294967296 / 100 : Int) = simTime at late ⊢
    have extra : (0 : ℚ) ≤ (wrapped (time - simTime) / 100 : Int) := by
      rw [wrapped_ticks]
      split <;> norm_num
    refine iff_of_false (fun agrees => ?_) (fun holds => fits holds.1)
    push_cast at agrees extra
    linarith [(abs_le.mp agrees).2]

def osalClock : OsalClock where
  timeAssembleFromNanoseconds seconds nanoseconds := seconds * 10000000 + nanoseconds.toNat / 100
  timeSubtract first second := first - second
  timeGetTotalSeconds ticks := ticks.tdiv 10000000
  timeGetNanosecondsPart ticks := UInt32.ofInt (ticks.tmod 10000000) * 100

theorem osalClock_declared : osalClock.Declared :=
  ⟨fun _ _ => rfl, fun _ _ => rfl, fun _ => rfl, fun _ => rfl⟩

/-- Half a second into the simulation, a time of one second and a half. -/
theorem clock_agrees_half_second : osalClock.Declared ∧ Agrees osalClock {} 1000 500 1700 15000000 := by
  refine ⟨osalClock_declared, (clock_agrees_iff osalClock_declared {} 1000 500 1700 15000000).mpr ⟨?_, Or.inl ?_⟩⟩
  · norm_num
  · decide +kernel

/-- After five seconds the nanoseconds have lost a multiple of 2^32. -/
theorem nanoseconds_lost : osalClock.Declared ∧ ¬ Agrees osalClock {} 1 5 5 100000000 := by
  have nanosecs : halfUp ((⟨5, 1⟩ : ExecTime).currTimeInSecs * 1000000000) = 5000000000 := by decide +kernel
  have msecs : halfUp ((⟨5, 1⟩ : ExecTime).currTimeInSecs * 1000) = 5000 := by decide +kernel
  refine ⟨osalClock_declared, fun agrees => ?_⟩
  have close := (agrees_iff osalClock_declared {} 1 5 5 100000000).mp agrees
  rw [nanosecs, msecs, wrapped_ticks, if_pos (by decide)] at close
  norm_num [abs_le] at close

end TrickCFS.Proofs.LocalClocks
