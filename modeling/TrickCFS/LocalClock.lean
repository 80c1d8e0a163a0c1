import TrickCFS.Library.Rounding

/-! The local clock of the operating system layer. It follows simulated time from
the initial time that the last call to set it has left. The doubles are exact
rationals here, and the 64-bit integers are unbounded. -/

namespace TrickCFS
open Rounding

/-- The functions of OSAL's clock interface that the local clock uses. An
`OS_time_t` is a count of ticks. -/
structure OsalClock where
  timeAssembleFromNanoseconds : Int → UInt32 → Int
  timeSubtract : Int → Int → Int
  timeGetTotalSeconds : Int → Int
  timeGetNanosecondsPart : Int → UInt32

/-- A tick is 100 nanoseconds, and the parts of a time are C's quotient and
remainder, the latter as a `uint32`. -/
structure OsalClock.Declared (osal : OsalClock) : Prop where
  assemble : ∀ seconds nanoseconds,
    osal.timeAssembleFromNanoseconds seconds nanoseconds = seconds * 10000000 + nanoseconds.toNat / 100
  subtract : ∀ first second, osal.timeSubtract first second = first - second
  totalSeconds : ∀ ticks, osal.timeGetTotalSeconds ticks = ticks.tdiv 10000000
  nanosecondsPart : ∀ ticks, osal.timeGetNanosecondsPart ticks = UInt32.ofInt (ticks.tmod 10000000) * 100

structure ExecTime where
  timeTics : Nat
  timeTicValue : Nat

def ExecTime.currTimeInSecs (exec : ExecTime) : ℚ := exec.timeTics / exec.timeTicValue

inductive OsStatus
  | success
  | invalidPointer
  deriving DecidableEq

structure Timespec where
  tvSec : Int := 0
  tvNsec : Int := 0

namespace Timespec

/-- The time of the clock whose `initial_time_tag` this is. -/
def advance (initialTimeTag : Timespec) (msecs : Int) : Timespec :=
  let time : Timespec :=
    ⟨initialTimeTag.tvSec + msecs.tdiv 1000, initialTimeTag.tvNsec + msecs.tmod 1000 * 1000000⟩
  if 1000000000 ≤ time.tvNsec then ⟨time.tvSec + 1, time.tvNsec - 1000000000⟩ else time

/-- `OS_GetLocalTime_Impl`. The argument is what the pointer points to. -/
def getLocalTimeImpl (osal : OsalClock) (exec : ExecTime) (initialTimeTag : Timespec) :
    Option Int → OsStatus × Option Int
  | none => (.invalidPointer, none)
  | some _ =>
      let msecs := halfUp (exec.currTimeInSecs * 1000)
      let time := initialTimeTag.advance msecs
      (.success, some (osal.timeAssembleFromNanoseconds time.tvSec (UInt32.ofInt time.tvNsec)))

/-- `OS_SetLocalTime_Impl`. The nanoseconds are passed as a `uint32`. -/
def setLocalTimeImpl (osal : OsalClock) (exec : ExecTime) (initialTimeTag : Timespec) :
    Option Int → OsStatus × Timespec
  | none => (.invalidPointer, initialTimeTag)
  | some timeStruct =>
      let nanosecs := halfUp (exec.currTimeInSecs * 1000000000)
      let simTime := osal.timeAssembleFromNanoseconds 0 (UInt32.ofInt nanosecs)
      let newInitTime := osal.timeSubtract timeStruct simTime
      (.success, ⟨osal.timeGetTotalSeconds newInitTime, (osal.timeGetNanosecondsPart newInitTime).toNat⟩)

end Timespec

end TrickCFS
