import TrickCFS.TimedWaits
import TrickCFS.Proofs.FreeRunning

/-! The finite wait on a task. What has been waited and what the main thread may
still wait stay within the configured time, unless it is woken in the middle of
the wait without any progress: it then starts the whole wait again. -/

namespace TrickCFS.Proofs.WaitBounds
open Threads

variable {config : Config}

abbrev watched (config : Config) (registeredTasks : Nat) (taskTable priority : Nat → Nat) :
    Machine (TimedThreads × (Nat → Nat)) TimedEvent :=
  (timedThreads config registeredTasks taskTable priority).watch (waitedTimes config)

/-- The task with work outstanding whose wait a step ends without any progress. -/
def idleWake (config : Config) (state : Threads) (event : ThreadEvent) : Option Nat :=
  match state.main with
  | .waiting ii _ =>
    (state.step config event).bind (fun next =>
      if next.main = .woken ii ∧ (next.task ii).progress = (state.task ii).progress ∧
          (next.task ii).Outstanding then some ii
      else none)
  | _ => none

/-- A wake-up without progress comes before any time has been waited. -/
def Prompt (config : Config) (state : TimedThreads × (Nat → Nat)) : TimedEvent → Prop
  | .thread event => ∀ ii ∈ idleWake config state.1.threads event, state.2 ii = 0
  | .elapse _ => True

instance (state : TimedThreads × (Nat → Nat)) (event : TimedEvent) : Decidable (Prompt config state event) :=
  match event with
  | .thread event => inferInstanceAs (Decidable (∀ ii ∈ idleWake config state.1.threads event, state.2 ii = 0))
  | .elapse _ => inferInstanceAs (Decidable True)

/-- The waits on each task stay within the configured time. -/
def Within (config : Config) (state : TimedThreads × (Nat → Nat)) : Prop :=
  ∀ taskId, (state.2 taskId : Int) ≤ config.msWaitTimeForCFSApps

def grant (config : Config) (task : TaskIPC) : Int :=
  if task.Outstanding then config.msWaitTimeForCFSApps else 0

def visit (config : Config) (state : TimedThreads) : Option (Nat × Int) :=
  match state.threads.main with
  | .scanning ii | .woken ii => some (ii, grant config (state.threads.task ii))
  | .waiting ii remainingTime => some (ii, remainingTime - state.polled)
  | .timedOut ii remainingTime => some (ii, remainingTime - pollTime remainingTime)
  | .reading | .returned | .updating _ => none

/-- The time that the main thread may still wait on a task in this frame when
nothing happens to the task. The tasks are visited in their order. -/
def timeLeft (config : Config) (state : TimedThreads) (taskId : Nat) : Int :=
  match visit config state with
  | some (ii, left) =>
    if taskId < ii then 0 else if taskId = ii then left else grant config (state.threads.task taskId)
  | none => 0

def Accounted (config : Config) (state : TimedThreads × (Nat → Nat)) : Prop :=
  ∀ taskId, (state.2 taskId : Int) + timeLeft config state.1 taskId ≤ config.msWaitTimeForCFSApps

def InPoll (state : TimedThreads) : Prop :=
  ∀ ii remainingTime, state.threads.main = .waiting ii remainingTime → state.polled ≤ pollTime remainingTime

theorem pollTime_le (remainingTime : Int) : pollTime remainingTime ≤ remainingTime := by
  rw [pollTime]
  split <;> omega

theorem grant_nonneg (finite : 0 < config.msWaitTimeForCFSApps) (task : TaskIPC) : 0 ≤ grant config task := by
  rw [grant]
  split <;> omega

theorem grant_le (finite : 0 < config.msWaitTimeForCFSApps) (task : TaskIPC) :
    grant config task ≤ config.msWaitTimeForCFSApps := by
  rw [grant]
  split <;> omega

theorem grant_eq_of_progress {before after : TaskIPC} (same : after.progress = before.progress) :
    grant config after = grant config before := by
  simp only [TaskIPC.progress, Prod.mk.injEq, decide_eq_decide] at same
  have tested : after.Outstanding ↔ before.Outstanding := by simp only [TaskIPC.Outstanding, ne_eq, same]
  simp only [grant, tested]

section Visit
variable {state : TimedThreads} {ii : Nat} {remainingTime : Int}

theorem visit_scanning (main : state.threads.main = .scanning ii ∨ state.threads.main = .woken ii) :
    visit config state = some (ii, grant config (state.threads.task ii)) := by
  rcases main with main | main <;> simp only [visit, main]

theorem visit_waiting (main : state.threads.main = .waiting ii remainingTime) :
    visit config state = some (ii, remainingTime - state.polled) := by
  simp only [visit, main]

theorem visit_timedOut (main : state.threads.main = .timedOut ii remainingTime) :
    visit config state = some (ii, remainingTime - pollTime remainingTime) := by
  simp only [visit, main]

end Visit

theorem remainingAfter_eq (finite : 0 < config.msWaitTimeForCFSApps) (remainingTime : Int) :
    remainingAfter config remainingTime = remainingTime - pollTime remainingTime := by
  simp only [remainingAfter, pollTime]
  rw [if_neg (by omega)]

theorem timeLeft_nonneg (finite : 0 < config.msWaitTimeForCFSApps) {state : TimedThreads} (inPoll : InPoll state)
    (taskId : Nat) : 0 ≤ timeLeft config state taskId := by
  have left_nonneg (ii : Nat) (left : Int) (visits : visit config state = some (ii, left)) : 0 ≤ left := by
    simp only [visit] at visits
    split at visits
    next => cases visits; exact grant_nonneg finite _
    next => cases visits; exact grant_nonneg finite _
    next ii remainingTime waiting =>
      cases visits
      have polled := inPoll ii remainingTime waiting
      have short := pollTime_le remainingTime
      omega
    next ii remainingTime _ =>
      cases visits
      have short := pollTime_le remainingTime
      omega
    all_goals cases visits
  rw [timeLeft]
  split
  next ii left visits =>
    split
    · exact le_refl 0
    · split
      · exact left_nonneg ii left visits
      · exact grant_nonneg finite _
  next => exact le_refl 0

section Steps
variable {state next : TimedThreads} {event : ThreadEvent}

theorem idleWake_eq_some {threads : Threads} {ii : Nat} :
    idleWake config threads event = some ii ↔ ∃ remainingTime after,
      threads.main = .waiting ii remainingTime ∧ threads.step config event = some after ∧
        after.main = .woken ii ∧ (after.task ii).progress = (threads.task ii).progress ∧
          (after.task ii).Outstanding := by
  constructor
  · intro idle
    simp only [idleWake] at idle
    split at idle
    next jj remainingTime waiting =>
      obtain ⟨after, taken, chosen⟩ := Option.bind_eq_some_iff.mp idle
      split at chosen
      next holds => cases chosen; exact ⟨remainingTime, after, waiting, taken, holds⟩
      next => cases chosen
    next => cases idle
  · intro ⟨remainingTime, after, waiting, taken, woken, same, outstanding⟩
    simp only [idleWake, waiting, taken, Option.bind_some]
    exact if_pos ⟨woken, same, outstanding⟩

theorem thread_step (taken : state.step config (.thread event) = some next) :
    state.due event = true ∧ state.threads.step config event = some next.threads ∧
      next.polled = if next.threads.main = state.threads.main then state.polled else 0 := by
  simp only [TimedThreads.step] at taken
  split at taken
  next due =>
    obtain ⟨threads, stepped, rfl⟩ := Option.map_eq_some_iff.mp taken
    exact ⟨due, stepped, rfl⟩
  next => cases taken

theorem elapse_step {ms : Nat} (taken : state.step config (.elapse ms) = some next) :
    ∃ ii remainingTime, state.threads.main = .waiting ii remainingTime ∧
      (state.polled + ms : Int) ≤ pollTime remainingTime ∧ next = { state with polled := state.polled + ms } := by
  simp only [TimedThreads.step] at taken
  split at taken
  next ii remainingTime waiting =>
    split at taken
    next fits => cases taken; exact ⟨ii, remainingTime, waiting, fits, rfl⟩
    next => cases taken
  next => cases taken

theorem timeout_event {threads after : Threads} {ii : Nat} {remainingTime : Int} (away : event ≠ .main)
    (taken : threads.step config event = some after) (waiting : threads.main = .waiting ii remainingTime)
    (timedOut : after.main = .timedOut ii remainingTime) : event = .mainTimeout := by
  have moved : after.main ≠ threads.main := by simp [waiting, timedOut]
  cases byTask : event.taskOf with
  | some taskId =>
    rcases taskEvent_main byTask taken with same | ⟨_, _, woken⟩
    · exact False.elim (moved same)
    · rw [timedOut] at woken
      cases woken
  | none =>
    cases event with
    | main => exact False.elim (away rfl)
    | mainTimeout => rfl
    | mainSpurious =>
      simp only [Threads.step, waiting] at taken
      cases taken
      cases timedOut
    | startRun =>
      simp only [Threads.step] at taken
      split at taken <;> cases taken
      exact False.elim (moved rfl)
    | scheduler => exact False.elim (moved (schedulerEvent_main (Or.inl rfl) taken).1)
    | send pipeId mid => exact False.elim (moved (schedulerEvent_main (Or.inr ⟨pipeId, mid, rfl⟩) taken).1)
    | createQueue | receive | complete | acknowledge | noMessage | delay | leave => cases byTask

theorem wait_entered {threads after : Threads} {ii : Nat} {remainingTime : Int}
    (taken : threads.step config event = some after) (waiting : after.main = .waiting ii remainingTime) :
    after.main = threads.main ∨ 0 < remainingTime := by
  by_cases isMain : event = .main
  · subst isMain
    cases mainStep_cases taken with
    | blocked _ _ _ _ granted => cases waiting; exact Or.inr granted
    | resumed _ _ left => cases waiting; exact Or.inr left
    | read => split at waiting <;> cases waiting
    | scanned | passed | rescanned | exited | expired | called | updated | triggered => cases waiting
  · rcases step_main isMain taken with same | ⟨_, _, _, woken | timedOut⟩
    · exact Or.inl same
    · rw [woken] at waiting
      cases waiting
    · rw [timedOut] at waiting
      cases waiting

theorem step_inPoll {event : TimedEvent} (inPoll : InPoll state) (taken : state.step config event = some next) :
    InPoll next := by
  intro ii remainingTime waiting
  cases event with
  | thread event =>
    obtain ⟨_, stepped, restarted⟩ := thread_step taken
    rw [restarted]
    split
    next same => exact inPoll ii remainingTime (same.symm.trans waiting)
    next moved =>
      have positive := (wait_entered stepped waiting).resolve_left moved
      rw [pollTime]
      split <;> omega
  | elapse ms =>
    obtain ⟨jj, total, waiting', fits, rfl⟩ := elapse_step taken
    cases waiting.symm.trans waiting'
    exact fits

theorem thread_record {threads : Threads} (taken : state.threads.step config event = some threads)
    (waited : Nat → Nat) (taskId : Nat) :
    (waitedTimes config).record waited state (.thread event) taskId =
      if state.threads.main = .reading ∨
          (threads.task taskId).progress ≠ (state.threads.task taskId).progress then 0
      else waited taskId := by
  simp only [waitedTimes, taken]

theorem thread_record_le {threads : Threads} (taken : state.threads.step config event = some threads)
    (waited : Nat → Nat) (taskId : Nat) :
    (waitedTimes config).record waited state (.thread event) taskId ≤ waited taskId := by
  rw [thread_record taken]
  split
  · exact Nat.zero_le _
  · exact le_refl _

end Steps

section Accounts
variable {threads after : Threads} {polled later : Nat} {waited waited' : Nat → Nat}

theorem Accounted.current {state : TimedThreads × (Nat → Nat)} {ii : Nat} {left : Int}
    (accounted : Accounted config state) (visits : visit config state.1 = some (ii, left)) :
    state.2 ii + left ≤ config.msWaitTimeForCFSApps := by
  have total := accounted ii
  simpa only [timeLeft, visits, lt_irrefl, if_false, if_true] using total

structure Recorded (threads after : Threads) (waited waited' : Nat → Nat) : Prop where
  kept : ∀ taskId, waited' taskId ≤ waited taskId
  reset : ∀ taskId, (after.task taskId).progress ≠ (threads.task taskId).progress → waited' taskId = 0

theorem Recorded.grant (finite : 0 < config.msWaitTimeForCFSApps) (recorded : Recorded threads after waited waited')
    {taskId : Nat} (before : waited taskId + grant config (threads.task taskId) ≤ config.msWaitTimeForCFSApps) :
    waited' taskId + WaitBounds.grant config (after.task taskId) ≤ config.msWaitTimeForCFSApps := by
  by_cases same : (after.task taskId).progress = (threads.task taskId).progress
  · have kept := recorded.kept taskId
    rw [grant_eq_of_progress same]
    omega
  · have none := recorded.reset taskId same
    have bound := grant_le finite (after.task taskId)
    omega

section Visits
variable {ii : Nat} {left left' : Int}
  (finite : 0 < config.msWaitTimeForCFSApps) (recorded : Recorded threads after waited waited')
  (accounted : Accounted config (⟨threads, polled⟩, waited))
include finite recorded accounted

theorem visit_kept (before : visit config ⟨threads, polled⟩ = some (ii, left))
    (now : visit config ⟨after, later⟩ = some (ii, left'))
    (fits : waited' ii + left' ≤ config.msWaitTimeForCFSApps) : Accounted config (⟨after, later⟩, waited') := by
  intro taskId
  have total := accounted taskId
  have kept := recorded.kept taskId
  simp only [timeLeft, before, now] at total ⊢
  by_cases same : taskId = ii
  · subst same
    simpa using fits
  · rw [if_neg same] at total ⊢
    split
    next behind => rw [if_pos behind] at total; omega
    next ahead =>
      rw [if_neg ahead] at total
      exact recorded.grant finite total

theorem visit_next (before : visit config ⟨threads, polled⟩ = some (ii, left)) (nonneg : 0 ≤ left)
    (now : visit config ⟨after, later⟩ = some (ii + 1, WaitBounds.grant config (after.task (ii + 1)))) :
    Accounted config (⟨after, later⟩, waited') := by
  intro taskId
  have total := accounted taskId
  have kept := recorded.kept taskId
  simp only [timeLeft, before, now] at total ⊢
  by_cases behind : taskId < ii + 1
  · rw [if_pos behind]
    split at total <;> try split at total
    all_goals omega
  · rw [if_neg (by omega), if_neg (by omega)] at total
    have next := recorded.grant finite total
    rw [if_neg behind]
    split
    next same => rwa [same] at next ⊢
    next => exact next

theorem visit_over (before : visit config ⟨threads, polled⟩ = some (ii, left)) (nonneg : 0 ≤ left)
    (now : visit config ⟨after, later⟩ = none) : Accounted config (⟨after, later⟩, waited') := by
  intro taskId
  have total := accounted taskId
  have kept := recorded.kept taskId
  have granted := grant_nonneg finite (threads.task taskId)
  simp only [timeLeft, before, now] at total ⊢
  split at total <;> try split at total
  all_goals omega

omit finite in
theorem unvisited (before : visit config ⟨threads, polled⟩ = none)
    (now : visit config ⟨after, later⟩ = none) : Accounted config (⟨after, later⟩, waited') := by
  intro taskId
  have total := accounted taskId
  have kept := recorded.kept taskId
  simp only [timeLeft, before, now] at total ⊢
  omega

end Visits

theorem frame_started (finite : 0 < config.msWaitTimeForCFSApps) (fresh : ∀ taskId, waited' taskId = 0)
    (now : visit config ⟨after, later⟩ = none ∨
      ∃ ii, visit config ⟨after, later⟩ = some (ii, grant config (after.task ii))) :
    Accounted config (⟨after, later⟩, waited') := by
  intro taskId
  have none := fresh taskId
  have bound := grant_le finite (after.task taskId)
  simp only [timeLeft]
  rcases now with now | ⟨ii, now⟩ <;> simp only [now]
  · omega
  · split
    next => omega
    next =>
      split
      next same => subst same; omega
      next => omega

theorem thread_recorded {event : ThreadEvent} (stepped : threads.step config event = some after) :
    Recorded threads after waited ((waitedTimes config).record waited ⟨threads, polled⟩ (.thread event)) where
  kept taskId := thread_record_le stepped waited taskId
  reset taskId changed := by rw [thread_record stepped, if_pos (Or.inr changed)]

theorem main_accounted (finite : 0 < config.msWaitTimeForCFSApps)
    (accounted : Accounted config (⟨threads, polled⟩, waited)) (stepped : threads.mainStep config = some after)
    (fresh : after.main ≠ threads.main → later = 0) (recorded : Recorded threads after waited waited')
    (frame : threads.main = .reading → ∀ taskId, waited' taskId = 0) :
    Accounted config (⟨after, later⟩, waited') := by
  have allowed : config.waitTime = config.msWaitTimeForCFSApps := by
    rw [Config.waitTime, if_neg (by omega)]
  have current (ii : Nat) (left : Int) (visits : visit config ⟨threads, polled⟩ = some (ii, left)) :
      waited' ii + left ≤ config.msWaitTimeForCFSApps := by
    have total := accounted.current visits
    have kept := recorded.kept ii
    dsimp only at total
    omega
  cases mainStep_cases stepped with
  | read reading =>
    cases config.perfectScheduleMode with
    | true => exact frame_started finite (frame reading) (Or.inl (by simp [visit]))
    | false => exact frame_started finite (frame reading) (Or.inr ⟨0, by simp [visit]⟩)
  | scanned scanning =>
    have visits : visit config ⟨threads, polled⟩ = _ := visit_scanning (Or.inl scanning)
    exact visit_over finite recorded accounted visits (grant_nonneg finite _) rfl
  | passed scanning =>
    have visits : visit config ⟨threads, polled⟩ = _ := visit_scanning (Or.inl scanning)
    exact visit_next finite recorded accounted visits (grant_nonneg finite _) rfl
  | blocked scanning _ _ outstanding =>
    have visits : visit config ⟨threads, polled⟩ = _ := visit_scanning (Or.inl scanning)
    have fits := current _ _ visits
    rw [grant, if_pos outstanding] at fits
    apply visit_kept finite recorded accounted visits rfl
    have start := fresh (by simp [scanning])
    simp only [allowed, start]
    simpa using fits
  | rescanned woken =>
    have visits : visit config ⟨threads, polled⟩ = _ := visit_scanning (Or.inr woken)
    exact visit_kept finite recorded accounted visits rfl (current _ _ visits)
  | exited timedOut | expired timedOut =>
    have visits : visit config ⟨threads, polled⟩ = _ := visit_timedOut timedOut
    exact visit_next finite recorded accounted visits (Int.sub_nonneg_of_le (pollTime_le _)) rfl
  | resumed timedOut _ left =>
    have visits : visit config ⟨threads, polled⟩ = _ := visit_timedOut timedOut
    apply visit_kept finite recorded accounted visits rfl
    have fits := current _ _ visits
    have start := fresh (by simp [timedOut])
    have rest := remainingAfter_eq finite
    simp only [rest, start]
    simpa using fits
  | called main | updated main | triggered main =>
    exact unvisited recorded accounted (by simp only [visit, main]) rfl

theorem elapse_accounted {ms ii : Nat} {remainingTime : Int}
    (accounted : Accounted config (⟨threads, polled⟩, waited))
    (waiting : threads.main = .waiting ii remainingTime) :
    Accounted config (⟨threads, polled + ms⟩, (waitedTimes config).record waited ⟨threads, polled⟩ (.elapse ms)) := by
  intro taskId
  have before := accounted taskId
  simp only [timeLeft, visit, waiting, waitedTimes] at before ⊢
  by_cases same : taskId = ii
  · subst same
    simp only [lt_irrefl, if_true, if_false, Function.update_self] at before ⊢
    push_cast
    omega
  · rw [Function.update_of_ne same]
    simpa only [if_neg same] using before

/-- While the main thread stays where it is, progress alone can give a task more
time, and it starts a new count. -/
theorem still_accounted (finite : 0 < config.msWaitTimeForCFSApps) (still : after.main = threads.main)
    (recorded : Recorded threads after waited waited') (accounted : Accounted config (⟨threads, polled⟩, waited)) :
    Accounted config (⟨after, polled⟩, waited') := by
  have same_left (ii : Nat) (left : Int) (before : visit config ⟨threads, polled⟩ = some (ii, left))
      (now : visit config ⟨after, polled⟩ = some (ii, left)) : Accounted config (⟨after, polled⟩, waited') := by
    have total := accounted.current before
    have kept := recorded.kept ii
    dsimp only at total
    exact visit_kept finite recorded accounted before now (by omega)
  cases main : threads.main with
  | scanning ii | woken ii =>
    have before : visit config ⟨threads, polled⟩ = some (ii, grant config (threads.task ii)) := by
      simp only [visit, main]
    have now : visit config ⟨after, polled⟩ = some (ii, grant config (after.task ii)) := by
      simp only [visit, still, main]
    exact visit_kept finite recorded accounted before now (recorded.grant finite (accounted.current before))
  | waiting ii remainingTime =>
    exact same_left ii _ (visit_waiting main) (visit_waiting (still.trans main))
  | timedOut ii remainingTime =>
    exact same_left ii _ (visit_timedOut main) (visit_timedOut (still.trans main))
  | reading | returned | updating =>
    exact unvisited recorded accounted (by simp only [visit, main]) (by simp only [visit, still, main])

theorem woken_accounted {ii : Nat} {remainingTime : Int} (finite : 0 < config.msWaitTimeForCFSApps)
    (waiting : threads.main = .waiting ii remainingTime) (woken : after.main = .woken ii)
    (recorded : Recorded threads after waited waited') (accounted : Accounted config (⟨threads, polled⟩, waited)) :
    Accounted config (⟨after, later⟩, waited') ↔
      waited' ii + grant config (after.task ii) ≤ config.msWaitTimeForCFSApps := by
  have now : visit config ⟨after, later⟩ = _ := visit_scanning (Or.inr woken)
  constructor
  · exact fun accounted' => accounted'.current now
  · intro fits
    exact visit_kept finite recorded accounted (visit_waiting waiting) now fits

end Accounts

section Runs
variable {state next : TimedThreads × (Nat → Nat)} {registeredTasks : Nat} {taskTable priority : Nat → Nat}

/-- Outside the main thread's own steps the account is kept exactly by the prompt
wake-ups. -/
theorem other_accounted {event : ThreadEvent} (finite : 0 < config.msWaitTimeForCFSApps) (away : event ≠ .main)
    (inPoll : InPoll state.1) (accounted : Accounted config state)
    (taken : state.1.step config (.thread event) = some next.1)
    (recorded : next.2 = (waitedTimes config).record state.2 state.1 (.thread event)) :
    Accounted config next ↔ Prompt config state (.thread event) := by
  obtain ⟨⟨threads, polled⟩, waited⟩ := state
  obtain ⟨⟨after, later⟩, waited'⟩ := next
  obtain ⟨due, stepped, restarted⟩ := thread_step taken
  dsimp only at *
  have records : Recorded threads after waited waited' := recorded ▸ thread_recorded stepped
  have idle_iff (ii : Nat) := @idleWake_eq_some config event threads ii
  rcases step_main away stepped with still | ⟨ii, remainingTime, waiting, woken | timedOut⟩
  · refine iff_of_true ?_ (fun ii idle => ?_)
    · rw [restarted, if_pos still]
      exact still_accounted finite still records accounted
    · obtain ⟨remainingTime, _, waiting, again, woken, _⟩ := (idle_iff ii).mp idle
      obtain rfl := Option.some.inj (stepped.symm.trans again)
      rw [still, waiting] at woken
      cases woken
  · rw [woken_accounted finite waiting woken records accounted]
    have value := @thread_record config ⟨threads, polled⟩ event after stepped waited ii
    rw [← recorded] at value
    simp only [waiting, reduceCtorEq, false_or] at value
    constructor
    · intro fits jj idle
      obtain ⟨_, _, waiting', again, _, same, outstanding⟩ := (idle_iff jj).mp idle
      obtain rfl := Option.some.inj (stepped.symm.trans again)
      cases waiting.symm.trans waiting'
      rw [if_neg (not_not.mpr same)] at value
      rw [grant, if_pos outstanding] at fits
      dsimp only
      omega
    · intro prompt
      have bound := grant_le finite (after.task ii)
      by_cases same : (after.task ii).progress = (threads.task ii).progress
      · rw [if_neg (not_not.mpr same)] at value
        by_cases outstanding : (after.task ii).Outstanding
        · have none := prompt ii
            ((idle_iff ii).mpr ⟨remainingTime, after, waiting, stepped, woken, same, outstanding⟩)
          dsimp only at none
          omega
        · have total := accounted.current (visit_waiting waiting)
          have polling := inPoll ii remainingTime waiting
          have short := pollTime_le remainingTime
          rw [grant, if_neg outstanding]
          dsimp only at polling total
          omega
      · rw [if_pos same] at value
        omega
  · refine iff_of_true ?_ (fun jj idle => ?_)
    · obtain rfl := timeout_event away stepped waiting timedOut
      have wholePoll : polled = pollTime remainingTime := by simpa [TimedThreads.due, waiting] using due
      apply visit_kept finite records accounted (visit_waiting waiting) (visit_timedOut timedOut)
      have total := accounted.current (visit_waiting waiting)
      have kept := records.kept ii
      dsimp only at total
      omega
    · obtain ⟨_, _, _, again, woken, _⟩ := (idle_iff jj).mp idle
      obtain rfl := Option.some.inj (stepped.symm.trans again)
      rw [timedOut] at woken
      cases woken

theorem step_accounted {event : TimedEvent} (finite : 0 < config.msWaitTimeForCFSApps) (inPoll : InPoll state.1)
    (accounted : Accounted config state)
    (taken : (watched config registeredTasks taskTable priority).step state event = some next) :
    Accounted config next ↔ Prompt config state event := by
  obtain ⟨taken, recorded⟩ := (Machine.watch_step _).mp taken
  change state.1.step config event = some next.1 at taken
  cases event with
  | elapse ms =>
    refine iff_of_true ?_ trivial
    obtain ⟨ii, remainingTime, waiting, _, same⟩ := elapse_step taken
    have kept : Accounted config (⟨state.1.threads, state.1.polled + ms⟩, _) := elapse_accounted accounted waiting
    rwa [← recorded, ← same] at kept
  | thread event =>
    by_cases isMain : event = .main
    · subst isMain
      obtain ⟨_, stepped, restarted⟩ := thread_step taken
      refine iff_of_true ?_ (fun ii idle => ?_)
      · have records : Recorded state.1.threads next.1.threads state.2 next.2 :=
          recorded ▸ thread_recorded stepped
        refine main_accounted finite accounted stepped ?_ records ?_
        · intro moved
          rw [restarted, if_neg moved]
        · intro reading taskId
          rw [recorded, thread_record stepped, if_pos (Or.inl reading)]
      · obtain ⟨_, _, waiting, stepped, _⟩ := idleWake_eq_some.mp idle
        simp [Threads.step, mainStep, waiting] at stepped
    · exact other_accounted finite isMain inPoll accounted taken recorded

theorem initial_accounted (finite : 0 < config.msWaitTimeForCFSApps) :
    Accounted config (watched config registeredTasks taskTable priority).initial :=
  fun _ => finite.le

theorem initial_inPoll : InPoll (watched config registeredTasks taskTable priority).initial.1 :=
  fun _ _ waiting => by cases waiting

end Runs

/-- The time waited and the time left keep to the configured time throughout a run
exactly when every wake-up without progress is prompt. -/
theorem accounted_iff_prompt (config : Config) (finite : 0 < config.msWaitTimeForCFSApps)
    (registeredTasks : Nat) (taskTable priority : Nat → Nat) (events : List TimedEvent) :
    (watched config registeredTasks taskTable priority).States (Accounted config)
        (watched config registeredTasks taskTable priority).initial events ↔
      (watched config registeredTasks taskTable priority).Steps (Prompt config)
        (watched config registeredTasks taskTable priority).initial events := by
  apply Machine.states_iff_steps _ (fun state => InPoll state.1)
  · intro state event next inPoll _ taken _
    exact step_inPoll inPoll ((Machine.watch_step _).mp taken).1
  · intro state event next inPoll accounted taken
    exact step_accounted finite inPoll accounted taken
  · exact initial_inPoll
  · exact initial_accounted finite

/-- In a run whose wake-ups without progress are prompt, the timed waits on each
task since its last progress never exceed the configured time. -/
theorem waits_within (config : Config) (finite : 0 < config.msWaitTimeForCFSApps)
    (registeredTasks : Nat) (taskTable priority : Nat → Nat) (events : List TimedEvent)
    (prompt : (watched config registeredTasks taskTable priority).Steps (Prompt config)
      (watched config registeredTasks taskTable priority).initial events) :
    (watched config registeredTasks taskTable priority).States (Within config)
      (watched config registeredTasks taskTable priority).initial events := by
  refine Machine.Steps.states _ (fun state => InPoll state.1 ∧ Accounted config state) ?_ ?_
    ⟨initial_inPoll, initial_accounted finite⟩ prompt
  · intro state event next ⟨inPoll, accounted⟩ good taken
    have stepped := ((Machine.watch_step _).mp taken).1
    exact ⟨step_inPoll inPoll stepped, (step_accounted finite inPoll accounted taken).mpr good⟩
  · intro state ⟨inPoll, accounted⟩ taskId
    have left := timeLeft_nonneg finite inPoll taskId
    have total := accounted taskId
    omega

def oneSecondWait : Config := { oneTaskConfig with msWaitTimeForCFSApps := 1000 }

def waitForTask : List TimedEvent :=
  ([.scheduler, .scheduler, .main, .main, .main, .startRun, .main, .main, .main, .scheduler, .send 0 7,
    .scheduler, .scheduler, .scheduler, .receive 0 0, .main, .main] : List ThreadEvent).map .thread

def acknowledgedWait : List TimedEvent :=
  waitForTask ++ [.thread (.complete 0 (.backtrace [])), .thread .main, .thread .main, .elapse 600,
    .thread (.acknowledge 0 7 (.backtrace [])), .thread .main, .thread .main, .elapse 600]

theorem waits_within_acknowledged :
    (0 < oneSecondWait.msWaitTimeForCFSApps ∧
      (watched oneSecondWait 1 (fun _ => 0) (fun _ => 0)).Steps (Prompt oneSecondWait)
        (watched oneSecondWait 1 (fun _ => 0) (fun _ => 0)).initial acknowledgedWait) ∧
    (watched oneSecondWait 1 (fun _ => 0) (fun _ => 0)).States (Within oneSecondWait)
      (watched oneSecondWait 1 (fun _ => 0) (fun _ => 0)).initial acknowledgedWait := by
  have finite : 0 < oneSecondWait.msWaitTimeForCFSApps := by decide
  have prompt : (watched oneSecondWait 1 (fun _ => 0) (fun _ => 0)).Steps (Prompt oneSecondWait)
      (watched oneSecondWait 1 (fun _ => 0) (fun _ => 0)).initial acknowledgedWait := by decide
  exact ⟨⟨finite, prompt⟩, waits_within oneSecondWait finite 1 (fun _ => 0) (fun _ => 0) acknowledgedWait prompt⟩

/-- The task signals after six tenths of a second without any progress. -/
def restartedWait : List TimedEvent :=
  waitForTask ++ [.elapse 600, .thread (.complete 0 (.backtrace [])), .thread .main, .thread .main, .elapse 600]

private theorem restartedWait_runs :
    ((watched oneSecondWait 1 (fun _ => 0) (fun _ => 0)).run restartedWait).isSome = true := by decide

theorem restarted_wait_exceeds :
    ¬ ∀ (config : Config), config.perfectScheduleMode = false → 0 < config.msWaitTimeForCFSApps →
      ∀ (registeredTasks : Nat) (taskTable priority : Nat → Nat) (events : List TimedEvent),
        (watched config registeredTasks taskTable priority).States (Within config)
          (watched config registeredTasks taskTable priority).initial events := by
  intro always
  have throughout := always oneSecondWait rfl (by decide) 1 (fun _ => 0) (fun _ => 0) restartedWait
  have within := Machine.States.last _ throughout (Option.some_get restartedWait_runs).symm
  have total := within 0
  revert total
  decide

end TrickCFS.Proofs.WaitBounds
