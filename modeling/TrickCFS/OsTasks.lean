/-! `OS_PriorityRemap` of the OSAL's tasks: the priority of a new thread. An OSAL
priority is the higher the smaller its number is, and the other way round for the
threads. -/

namespace TrickCFS

/-- `POSIX_GlobalVars.PriLimits`, the limits of the operating system's scheduler. -/
structure PriLimits where
  priorityMax : Int
  priorityMin : Int

def osMaxTaskPriority : Nat := 255

/-- `/=` on an `int` drops the fraction. No operation overflows for limits that are
at most 8488079 apart (`priorityRemapInt`). -/
def priorityRemap (limits : PriLimits) (inputPri : Nat) : Int :=
  if inputPri = 0 then limits.priorityMax
  else if inputPri ≥ osMaxTaskPriority then limits.priorityMin
  else
    let outputPri : Int := (osMaxTaskPriority - 1) - inputPri
    let outputPri := outputPri * ((limits.priorityMax - limits.priorityMin) - 2)
    let outputPri := outputPri + (osMaxTaskPriority / 2 : Nat)
    let outputPri := outputPri.tdiv (osMaxTaskPriority - 2)
    outputPri + (limits.priorityMin + 1)

/-- The result of an operation on `int`s, unless it overflows. -/
def asInt (value : Int) : Option Int := if -2147483648 ≤ value ∧ value ≤ 2147483647 then some value else none

/-- `priorityRemap` with every operation on `int`s. -/
def priorityRemapInt (limits : PriLimits) (inputPri : Nat) : Option Int :=
  if inputPri = 0 then some limits.priorityMax
  else if inputPri ≥ osMaxTaskPriority then some limits.priorityMin
  else do
    let outputPri ← asInt ((osMaxTaskPriority - 1) - inputPri)
    let apart ← asInt (limits.priorityMax - limits.priorityMin)
    let steps ← asInt (apart - 2)
    let outputPri ← asInt (outputPri * steps)
    let outputPri ← asInt (outputPri + (osMaxTaskPriority / 2 : Nat))
    let outputPri ← asInt (outputPri.tdiv (osMaxTaskPriority - 2))
    let lowest ← asInt (limits.priorityMin + 1)
    asInt (outputPri + lowest)

end TrickCFS
