import TrickCFS.Threads

/-! Every step of the main thread and of the scheduler, with what it requires and
what it leads to. The proofs about the machine split on these two relations and
do not unfold the steps again. -/

namespace TrickCFS

def Config.waitTime (config : Config) : Int :=
  if config.msWaitTimeForCFSApps = -1 then 5000 else config.msWaitTimeForCFSApps

namespace Threads
variable {config : Config} {state next : Threads}

inductive MainStep (config : Config) (state : Threads) : Threads → Prop
  | read (reading : state.main = .reading) (posted : state.iface.isMainCompleteTrigger ≠ 0) :
      MainStep config state
        { state with
          iface := { state.iface with isMainCompleteTrigger := 0 }
          main := if config.perfectScheduleMode then .returned else .scanning 0 }
  | scanned {ii} (scanning : state.main = .scanning ii)
      (last : ii < state.es.registeredTasks → state.exitCmd = true) :
      MainStep config state (state.setMain .returned)
  | passed {ii} (scanning : state.main = .scanning ii) (inside : ii < state.es.registeredTasks)
      (unstopped : state.exitCmd = false) (free : (state.task ii).Outstanding → config.waitTime ≤ 0) :
      MainStep config state (state.setMain (.scanning (ii + 1)))
  | blocked {ii} (scanning : state.main = .scanning ii) (inside : ii < state.es.registeredTasks)
      (unstopped : state.exitCmd = false) (outstanding : (state.task ii).Outstanding)
      (granted : 0 < config.waitTime) :
      MainStep config state (state.setMain (.waiting ii config.waitTime))
  | rescanned {ii} (woken : state.main = .woken ii) : MainStep config state (state.setMain (.scanning ii))
  | exited {ii remainingTime} (timedOut : state.main = .timedOut ii remainingTime)
      (stopped : state.exitCmd = true) :
      MainStep config state (state.setMain (.scanning (ii + 1)))
  | expired {ii remainingTime} (timedOut : state.main = .timedOut ii remainingTime)
      (unstopped : state.exitCmd = false) (spent : remainingAfter config remainingTime ≤ 0) :
      MainStep config state ((state.setTask ii TaskIPC.clearTriggered).setMain (.scanning (ii + 1)))
  | resumed {ii remainingTime} (timedOut : state.main = .timedOut ii remainingTime)
      (unstopped : state.exitCmd = false) (left : 0 < remainingAfter config remainingTime) :
      MainStep config state (state.setMain (.waiting ii (remainingAfter config remainingTime)))
  | called (returned : state.main = .returned) (run : state.execMode = .run) :
      MainStep config state (state.setMain (.updating 0))
  | updated {ii} (updating : state.main = .updating ii) (inside : ii < config.maxTasks) :
      MainStep config state
        ((state.setTask ii (TaskIPC.updateTaskTimes config.cycleTics)).setMain (.updating (ii + 1)))
  | triggered {ii} (updating : state.main = .updating ii) (last : config.maxTasks ≤ ii) :
      MainStep config state
        { state with
          iface := { state.iface with triggerMain := state.iface.triggerMain + 1 }
          main := .reading }

theorem mainStep_cases (taken : state.mainStep config = some next) : MainStep config state next := by
  cases main : state.main with
  | reading =>
    simp only [mainStep, main] at taken
    split at taken
    next => cases taken
    next posted => cases taken; exact .read main posted
  | scanning ii =>
    simp only [mainStep, main, scan, Option.some.injEq] at taken
    subst taken
    split
    next inside =>
      split
      next stopped => exact .scanned main (fun _ => stopped)
      next unstopped =>
        have unstopped := Bool.eq_false_of_not_eq_true unstopped
        split
        next outstanding =>
          change MainStep config state (if config.waitTime > 0 then _ else _)
          split
          next granted => exact .blocked main inside unstopped outstanding granted
          next spent => exact .passed main inside unstopped (fun _ => Int.not_lt.mp spent)
        next settled => exact .passed main inside unstopped (fun outstanding => absurd outstanding settled)
    next beyond => exact .scanned main (fun inside => absurd inside beyond)
  | waiting => simp [mainStep, main] at taken
  | woken ii =>
    simp only [mainStep, main] at taken
    cases taken
    exact .rescanned main
  | timedOut ii remainingTime =>
    simp only [mainStep, main, reacquire, Option.some.injEq] at taken
    subst taken
    split
    next stopped => exact .exited main stopped
    next unstopped =>
      have unstopped := Bool.eq_false_of_not_eq_true unstopped
      split
      next spent => exact .expired main unstopped spent
      next left => exact .resumed main unstopped (Int.not_le.mp left)
  | returned =>
    simp only [mainStep, main] at taken
    split at taken
    next run => cases taken; exact .called main run
    next => cases taken
  | updating ii =>
    simp only [mainStep, main, updateRecord, Option.some.injEq] at taken
    subst taken
    split
    next inside => exact .updated main inside
    next last => exact .triggered main (Nat.not_lt.mp last)

inductive SchedulerStep (config : Config) (state : Threads) : Threads → Prop
  | began (gathered : state.scheduler = .starting ∨ state.scheduler = .processing) :
      SchedulerStep config state (state.beginSignal config)
  | woken (waiting : state.scheduler = .waiting) (posted : state.iface.triggerMain ≠ 0) :
      SchedulerStep config state
        { state with
          iface := { state.iface with triggerMain := 0 }
          scheduler := .processing }
  | marked {taskId mid} (marking : state.scheduler = .marking taskId mid) :
      SchedulerStep config state
        { state with
          iface := state.iface.markTask config.perfectScheduleMode (state.es.locateAppRecord taskId) taskId mid
          scheduler := .processing }
  | finished (iterating : state.scheduler = .iterating []) :
      SchedulerStep config state
        { state with
          iface := { state.iface with perfectFDMap := [] }
          scheduler := .completing }
  | entered {entry entries} (iterating : state.scheduler = .iterating (entry :: entries)) :
      SchedulerStep config state
        (state.setScheduler (.polling entry.2 entries (state.task entry.2).triggeredMIDs.length 0 0))
  | visited {taskId entries reqTriggers numTriggers}
      (polling : state.scheduler = .polling taskId entries reqTriggers numTriggers reqTriggers) :
      SchedulerStep config state (state.setScheduler (.iterating entries))
  | undelayed {taskId entries reqTriggers numTriggers numCompletes}
      (polling : state.scheduler = .polling taskId entries reqTriggers numTriggers numCompletes)
      (unfinished : numCompletes ≠ reqTriggers) (read : (state.task taskId).state = .taskDelay) :
      SchedulerStep config state
        ((state.setTask taskId (TaskIPC.setState .taskContinue)).setScheduler
          (.checking taskId entries reqTriggers numTriggers numCompletes))
  | granted {taskId entries reqTriggers numTriggers numCompletes}
      (polling : state.scheduler = .polling taskId entries reqTriggers numTriggers numCompletes)
      (unfinished : numCompletes ≠ reqTriggers) (more : numTriggers ≠ reqTriggers)
      (read : (state.task taskId).state = .msgRcv) :
      SchedulerStep config state
        ((state.setTask taskId (TaskIPC.setState .taskContinue)).setScheduler
          (.checking taskId entries reqTriggers (numTriggers + 1) numCompletes))
  | acknowledged {taskId entries reqTriggers numTriggers numCompletes}
      (polling : state.scheduler = .polling taskId entries reqTriggers numTriggers numCompletes)
      (unfinished : numCompletes ≠ reqTriggers) (read : (state.task taskId).state = .taskComplete) :
      SchedulerStep config state
        ((state.setTask taskId (TaskIPC.setState .taskContinue)).setScheduler
          (.checking taskId entries reqTriggers numTriggers (numCompletes + 1)))
  | polled {taskId entries reqTriggers numTriggers numCompletes}
      (polling : state.scheduler = .polling taskId entries reqTriggers numTriggers numCompletes)
      (unfinished : numCompletes ≠ reqTriggers)
      (undelayed : (state.task taskId).state ≠ .taskDelay)
      (ungranted : (state.task taskId).state = .msgRcv → numTriggers = reqTriggers)
      (unreported : (state.task taskId).state ≠ .taskComplete) :
      SchedulerStep config state
        (state.setScheduler (.checking taskId entries reqTriggers numTriggers numCompletes))
  | checked {taskId entries reqTriggers numTriggers numCompletes}
      (checking : state.scheduler = .checking taskId entries reqTriggers numTriggers numCompletes)
      (running : (state.es.locateAppRecord taskId).running = true) :
      SchedulerStep config state
        (state.setScheduler (.polling taskId entries reqTriggers numTriggers numCompletes))
  | abandoned {taskId entries reqTriggers numTriggers numCompletes}
      (checking : state.scheduler = .checking taskId entries reqTriggers numTriggers numCompletes)
      (dead : (state.es.locateAppRecord taskId).running = false) :
      SchedulerStep config state
        ((state.setTask taskId (fun task => (task.setState .taskComplete).clearTriggered)).setScheduler
          (.polling taskId entries reqTriggers numTriggers reqTriggers))
  | completed (completing : state.scheduler = .completing) :
      SchedulerStep config state
        { state with
          iface := { state.iface with isMainCompleteTrigger := state.iface.isMainCompleteTrigger + 1 }
          scheduler := .waiting }

private theorem poll_cases {taskId : Nat} {entries : List (Nat × Nat)} {req triggers completes : Nat}
    (polling : state.scheduler = .polling taskId entries req triggers completes) :
    SchedulerStep config state (state.poll taskId entries req triggers completes) := by
  by_cases finished : completes = req
  · subst completes
    simp only [poll, ite_true]
    exact .visited polling
  · simp only [poll, if_neg finished]
    cases read : (state.task taskId).state with
    | taskDelay => exact .undelayed polling finished read
    | msgRcv =>
      by_cases more : triggers ≠ req
      · simp only [if_pos more]
        exact .granted polling finished more read
      · simp only [if_neg more]
        exact .polled polling finished (by simp [read]) (fun _ => not_not.mp more) (by simp [read])
    | taskComplete => exact .acknowledged polling finished read
    | none | taskRunning | taskContinue =>
      exact .polled polling finished (by simp [read]) (by simp [read]) (by simp [read])

theorem schedulerStep_cases (taken : state.schedulerStep config = some next) :
    SchedulerStep config state next := by
  cases scheduler : state.scheduler with
  | starting =>
    simp only [schedulerStep, scheduler] at taken
    cases taken
    exact .began (Or.inl scheduler)
  | processing =>
    simp only [schedulerStep, scheduler] at taken
    cases taken
    exact .began (Or.inr scheduler)
  | waiting =>
    simp only [schedulerStep, scheduler] at taken
    split at taken
    next => cases taken
    next posted => cases taken; exact .woken scheduler posted
  | marking taskId mid =>
    simp only [schedulerStep, scheduler] at taken
    cases taken
    exact .marked scheduler
  | iterating entries =>
    cases entries with
    | nil =>
      simp only [schedulerStep, scheduler] at taken
      cases taken
      exact .finished scheduler
    | cons entry entries =>
      simp only [schedulerStep, scheduler] at taken
      cases taken
      exact .entered scheduler
  | polling taskId entries req triggers completes =>
    simp only [schedulerStep, scheduler] at taken
    cases taken
    exact poll_cases scheduler
  | checking taskId entries req triggers completes =>
    simp only [schedulerStep, scheduler] at taken
    split at taken
    next running => cases taken; exact .checked scheduler running
    next dead => cases taken; exact .abandoned scheduler (Bool.eq_false_of_not_eq_true dead)
  | completing =>
    simp only [schedulerStep, scheduler] at taken
    cases taken
    exact .completed scheduler

end Threads
end TrickCFS
