import TrickCFS.Library.Machine
import TrickCFS.Proofs.LocalClocks

/-! What the local clock measures over whole runs. However wrong the time is that
it has been set to, the time that passes on it is simulated time. -/

namespace TrickCFS
open Responses

inductive ClockCall
  | get (timeStruct : Option Int)
  | set (timeStruct : Option Int)

structure ClockAnswer where
  status : OsStatus
  timeStruct : Option Int

def Timespec.call (osal : OsalClock) (timeTicValue : Nat) (initialTimeTag : Timespec) (request : Nat × ClockCall) :
    ClockAnswer × Timespec :=
  match request.2 with
  | .get timeStruct =>
    let got := initialTimeTag.getLocalTimeImpl osal ⟨request.1, timeTicValue⟩ timeStruct
    (⟨got.1, got.2⟩, initialTimeTag)
  | .set timeStruct =>
    let set := Timespec.setLocalTimeImpl osal ⟨request.1, timeTicValue⟩ initialTimeTag timeStruct
    (⟨set.1, timeStruct⟩, set.2)

namespace Proofs.ClockRuns
open LocalClocks Rounding Timespec

variable {osal : OsalClock} {timeTicValue : Nat} {initialTimeTag : Timespec}

structure Tagged (initialTimeTag : Timespec) : Prop where
  least : 0 ≤ initialTimeTag.tvNsec
  most : initialTimeTag.tvNsec < 4294967296

theorem call_tagged (tagged : Tagged initialTimeTag) (request : Nat × ClockCall) :
    Tagged (initialTimeTag.call osal timeTicValue request).2 := by
  obtain ⟨tics, call⟩ := request
  cases call with
  | get timeStruct => exact tagged
  | set timeStruct =>
    cases timeStruct with
    | none => exact tagged
    | some time => exact ⟨@tvNsec_nonneg osal _, @tvNsec_lt osal _⟩

/-- The call does not set the clock. -/
def KeepsTag (request : Nat × ClockCall) : Prop := ∀ time, request.2 ≠ .set (some time)

theorem call_keeps (request : Nat × ClockCall) (keeps : KeepsTag request) :
    (initialTimeTag.call osal timeTicValue request).2 = initialTimeTag := by
  obtain ⟨tics, call⟩ := request
  cases call with
  | get timeStruct => rfl
  | set timeStruct =>
    cases timeStruct with
    | none => rfl
    | some time => exact absurd rfl (keeps time)

def msecs (timeTicValue tics : Nat) : Int := halfUp ((⟨tics, timeTicValue⟩ : ExecTime).currTimeInSecs * 1000)

theorem msecs_nonneg (tics : Nat) : 0 ≤ msecs timeTicValue tics :=
  halfUp_nonneg (mul_nonneg (currTimeInSecs_nonneg _) (by norm_num))

theorem call_read (declared : osal.Declared) (tagged : Tagged initialTimeTag) (tics : Nat) (pointed : Int) :
    initialTimeTag.call osal timeTicValue (tics, .get (some pointed)) =
      (⟨.success, some (initialTimeTag.tvSec * 10000000 + initialTimeTag.tvNsec / 100 +
        msecs timeTicValue tics * 10000)⟩, initialTimeTag) := by
  have nonneg : 0 ≤ msecs timeTicValue tics := msecs_nonneg tics
  obtain ⟨total, least, most⟩ := advance_nanoseconds tagged.least tagged.most nonneg
  have same : initialTimeTag.call osal timeTicValue (tics, .get (some pointed)) =
      (⟨.success, some (osal.timeAssembleFromNanoseconds (initialTimeTag.advance (msecs timeTicValue tics)).tvSec
        (UInt32.ofInt (initialTimeTag.advance (msecs timeTicValue tics)).tvNsec))⟩, initialTimeTag) := rfl
  rw [same]
  generalize initialTimeTag.advance (msecs timeTicValue tics) = time at total least most ⊢
  have kept : ((UInt32.ofInt time.tvNsec).toNat : Int) = time.tvNsec := by
    rw [toNat_ofInt, Int.emod_eq_of_lt least most]
  have read : time.tvSec * 10000000 + time.tvNsec / 100 =
      initialTimeTag.tvSec * 10000000 + initialTimeTag.tvNsec / 100 + msecs timeTicValue tics * 10000 := by omega
  rw [declared.assemble, kept, read]

theorem msecs_elapsed {first last : Nat} (later : first ≤ last) :
    msecs timeTicValue first ≤ msecs timeTicValue last ∧
      |((msecs timeTicValue last - msecs timeTicValue first : Int) : ℚ) -
        ((last : ℚ) - first) / timeTicValue * 1000| ≤ 1 := by
  have early : 0 ≤ (⟨first, timeTicValue⟩ : ExecTime).currTimeInSecs * 1000 :=
    mul_nonneg (currTimeInSecs_nonneg _) (by norm_num)
  have late : 0 ≤ (⟨last, timeTicValue⟩ : ExecTime).currTimeInSecs * 1000 :=
    mul_nonneg (currTimeInSecs_nonneg _) (by norm_num)
  have order : (⟨first, timeTicValue⟩ : ExecTime).currTimeInSecs ≤ (⟨last, timeTicValue⟩ : ExecTime).currTimeInSecs :=
    div_le_div_of_nonneg_right (Nat.cast_le.mpr later) (Nat.cast_nonneg _)
  have between : ((last : ℚ) - first) / timeTicValue * 1000 =
      (⟨last, timeTicValue⟩ : ExecTime).currTimeInSecs * 1000 -
        (⟨first, timeTicValue⟩ : ExecTime).currTimeInSecs * 1000 := by
    simp only [ExecTime.currTimeInSecs, sub_div, sub_mul]
  constructor
  · rw [msecs, msecs, halfUp_eq_floor early, halfUp_eq_floor late]
    apply Int.floor_le_floor
    linarith
  · rw [between, Int.cast_sub, abs_le]
    have upper := halfUp_le early
    have lower := lt_halfUp early
    have upper' := halfUp_le late
    have lower' := lt_halfUp late
    simp only [msecs]
    constructor <;> linarith

/-- Between two reads with no setting in between the clock advances by the
simulated milliseconds between them, whatever has been set before: it never runs
backwards, and it is never more than a millisecond off. -/
theorem local_clock_elapses (declared : osal.Declared) (timeTicValue : Nat)
    (before between after : List (Nat × ClockCall)) (first last : Nat) (pointed pointed' : Int)
    (unset : ∀ request ∈ between, KeepsTag request) (later : first ≤ last) :
    let requests := before ++ (first, .get (some pointed)) :: between ++ (last, .get (some pointed')) :: after
    let answers := (respond (Timespec.call osal timeTicValue) {} requests).1
    ∃ read read', answers[before.length]? = some ⟨.success, some read⟩ ∧
      answers[before.length + (between.length + 1)]? = some ⟨.success, some read'⟩ ∧
      read ≤ read' ∧ |((read' - read : Int) : ℚ) - ((last : ℚ) - first) / timeTicValue * 10000000| ≤ 10000 := by
  have tagged : Tagged (respond (Timespec.call osal timeTicValue) {} before).2 :=
    respond_preserves (fun _ => True) Tagged (fun _ request tagged _ => call_tagged tagged request)
      ⟨by decide, by decide⟩ (fun _ _ => trivial)
  generalize tag : (respond (Timespec.call osal timeTicValue) {} before).2 = initialTimeTag at tagged
  have kept : (respond (Timespec.call osal timeTicValue) {} (before ++ (first, .get (some pointed)) :: between)).2 =
      initialTimeTag := by
    rw [respond_append, tag, respond, call_read declared tagged]
    refine respond_preserves KeepsTag (fun other => other = initialTimeTag) ?_ rfl unset
    intro other request same keeps
    rw [call_keeps request keeps, same]
  have early := respond_answer (Timespec.call osal timeTicValue) {} before (first, .get (some pointed))
    (between ++ (last, .get (some pointed')) :: after)
  have late := respond_answer (Timespec.call osal timeTicValue) {} (before ++ (first, .get (some pointed)) :: between)
    (last, .get (some pointed')) after
  rw [← List.cons_append, ← List.append_assoc, tag, call_read declared tagged] at early
  rw [kept, call_read declared tagged, List.length_append, List.length_cons] at late
  obtain ⟨order, close⟩ : msecs timeTicValue first ≤ msecs timeTicValue last ∧
      |((msecs timeTicValue last - msecs timeTicValue first : Int) : ℚ) -
        ((last : ℚ) - first) / timeTicValue * 1000| ≤ 1 := msecs_elapsed later
  refine ⟨_, _, early, late, ?_, ?_⟩
  · omega
  · rw [abs_le] at close ⊢
    push_cast at close ⊢
    constructor <;> linarith

/-- Set to a time before the simulation began, the clock is wrong and still passes. -/
theorem local_clock_elapses_wrong_setting :
    osalClock.Declared ∧ ∃ read read' : Int,
      (respond (Timespec.call osalClock 1000) {} [(5000, .set (some 3)), (6000, .get (some 0)), (6500, .set none),
        (8000, .get (some 0))]).1[1]? = some ⟨.success, some read⟩ ∧
      (respond (Timespec.call osalClock 1000) {} [(5000, .set (some 3)), (6000, .get (some 0)), (6500, .set none),
        (8000, .get (some 0))]).1[3]? = some ⟨.success, some read'⟩ ∧
      read ≤ read' ∧ |(read' : ℚ) - read - 20000000| ≤ 10000 := by
  refine ⟨osalClock_declared, ?_⟩
  obtain ⟨read, read', early, late, order, close⟩ := local_clock_elapses osalClock_declared 1000
    [(5000, .set (some 3))] [(6500, .set none)] [] 6000 8000 0 0 (by simp [KeepsTag]) (by decide)
  refine ⟨read, read', early, late, order, ?_⟩
  norm_num at close
  exact close

end Proofs.ClockRuns
end TrickCFS
