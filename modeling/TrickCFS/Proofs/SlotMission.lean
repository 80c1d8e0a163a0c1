import TrickCFS.Proofs.MissionOrder
import TrickCFS.Proofs.SlotSchedule

/-! A mission of the slot scheduler. Its `init` leaves out the signal that
`BaseTrickCFSScheduler::init` ends with, so the main thread and the scheduler wait
for each other and no schedule table is ever processed. -/

namespace TrickCFS.Proofs.SlotMission
open Threads MissionOrder SlotSchedule

/-- The main thread waits in `initialize` for a signal, and the scheduler in its
loop for a trigger. -/
structure Deadlocked (threads : Threads) : Prop where
  main : threads.main = .reading
  scheduler : threads.scheduler = .waiting
  unsignalled : threads.iface.isMainCompleteTrigger = 0
  untriggered : threads.iface.triggerMain = 0

namespace Deadlocked
variable {config : Config} {state next : Threads} {event : ThreadEvent}

theorem main_blocked (deadlocked : Deadlocked state) : state.step config .main = none := by
  simp only [step, mainStep, deadlocked.main, deadlocked.unsignalled, ite_true]

theorem scheduler_blocked (deadlocked : Deadlocked state) : state.step config .scheduler = none := by
  simp only [step, schedulerStep, deadlocked.scheduler, deadlocked.untriggered, ite_true]

/-- The app tasks go on with their own work. They write neither of the counters,
and wake nobody who is not in the timed wait on a record. -/
theorem step_preserves (deadlocked : Deadlocked state) (taken : state.step config event = some next) :
    Deadlocked next ∧ event.taskOf.isSome = true := by
  cases byTask : event.taskOf with
  | some taskId =>
    have roles := taskEvent_roles byTask taken
    refine ⟨⟨?_, ?_, ?_, ?_⟩, rfl⟩
    · rcases taskEvent_main byTask taken with same | ⟨remainingTime, waiting, _⟩
      · rw [same, deadlocked.main]
      · cases deadlocked.main.symm.trans waiting
    · rw [roles.scheduler, deadlocked.scheduler]
    · rw [roles.isMainCompleteTrigger, deadlocked.unsignalled]
    · rw [roles.triggerMain, deadlocked.untriggered]
  | none =>
    cases event with
    | main => cases deadlocked.main_blocked.symm.trans taken
    | scheduler => cases deadlocked.scheduler_blocked.symm.trans taken
    | mainTimeout | mainSpurious | startRun => simp [step, deadlocked.main] at taken
    | send => simp [step, deadlocked.scheduler] at taken
    | createQueue | receive | complete | acknowledge | noMessage | delay | leave => cases byTask

end Deadlocked

variable {config : Config} {depth : Nat → Nat} {context : ScheduleContext} {timeOf : Nat → Nat} {ticsPerSec : Nat}
  {scheduler : TrickCFSScheduler}

structure Stuck (scheduler : TrickCFSScheduler) (state : SchedulerLoop TimedScheduler) : Prop where
  threads : Deadlocked state.pipes.threads
  table : state.table = { scheduler }

private theorem stuck_step {process : TimedScheduler → List Nat × TimedScheduler} {marks : List Nat → List (Nat × Nat)}
    {state next : SchedulerLoop TimedScheduler} {event : PipeThreadEvent} (stuck : Stuck scheduler state)
    (taken : state.step config depth process marks event = some next) : Stuck scheduler next := by
  cases step_cases taken with
  | called _ stepped => cases stuck.threads.scheduler_blocked.symm.trans stepped
  | turned away => exact absurd stuck.threads.scheduler away
  | sent _ stepped => cases (stuck.threads.step_preserves stepped).2
  | other _ _ stepped => exact ⟨(stuck.threads.step_preserves stepped).1, stuck.table⟩
  | moved _ threads => exact ⟨threads ▸ stuck.threads, stuck.table⟩

private theorem loop_blocked {registeredTasks : Nat} {taskTable priority : Nat → Nat}
    {state : SchedulerLoop TimedScheduler} {threadEvent : ThreadEvent}
    (blocked : state.pipes.threads.step config threadEvent = none) :
    (slotLoop config depth registeredTasks taskTable priority context timeOf ticsPerSec scheduler).step state
      (.thread threadEvent) = none := by
  simp only [slotLoop, SchedulerLoop.step, PipeThreads.step, blocked, Option.map_none, ite_self, Option.bind_none]

end TrickCFS.Proofs.SlotMission
