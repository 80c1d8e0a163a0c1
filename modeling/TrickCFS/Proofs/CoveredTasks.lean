import TrickCFS.Proofs.HostSteps

/-! Which tasks the end-of-frame scan of `TrickWaitForCFSComplete` examines. Its
bound counts the registered tasks while the records are addressed by task index,
so a live task can have an index that the scan never reaches. -/

namespace TrickCFS

/-- The record whose wait runs out, should the main thread step now. -/
def Threads.timesOut (config : Config) (state : Threads) : Option Nat :=
  match state.main with
  | .scanning ii => if config.waitTime ≤ 0 then some ii else none
  | .timedOut ii remainingTime =>
    if remainingAfter config remainingTime ≤ 0 then some ii else none
  | _ => none

/-- The tasks whose work the scan has to wait for: live tasks of RUNNING apps that
had work when it began, and have had work ever since without a timeout. -/
def scanDuties (config : Config) : Machine.Monitor Host HostEvent (Nat → Bool) where
  start := fun _ => false
  record := fun duties state event taskId =>
    match event, state.threads.main with
    | .thread .main, .reading =>
      decide (state.isLive taskId ∧ state.isRunning taskId ∧ (state.task taskId).Outstanding)
    | .thread .main, _ =>
      duties taskId && decide ((state.task taskId).Outstanding ∧
        state.threads.timesOut config ≠ some taskId)
    | _, _ => duties taskId && decide (state.task taskId).Outstanding

namespace Proofs.CoveredTasks
open Threads

variable {config : Config} {priority : Nat → Nat} {state next : Host} {duties : Nat → Bool} {event : HostEvent}

/-- The step at which the scan finds its index beyond the bound. -/
def ScanEnds (state : Host) (event : HostEvent) : Prop :=
  event = .thread .main ∧ state.threads.exitCmd = false ∧
    ∃ ii, state.threads.main = .scanning ii ∧ state.threads.es.registeredTasks ≤ ii

/-- No work that the scan had to wait for is left when it ends. -/
def Examined (watched : Host × (Nat → Bool)) (event : HostEvent) : Prop :=
  ScanEnds watched.1 event → ∀ taskId, watched.2 taskId = true → ¬ (watched.1.task taskId).Outstanding

/-- The scan begins with a count that exceeds the index of every live task with
work, and no deletion takes it down to the index of one that the scan waits for. -/
def Counted (config : Config) (watched : Host × (Nat → Bool)) : HostEvent → Prop
  | .thread .main => watched.1.threads.main = .reading → ∀ taskId, watched.1.isLive taskId →
      watched.1.isRunning taskId → (watched.1.task taskId).Outstanding →
      taskId < watched.1.threads.es.registeredTasks
  | .deleteTask other => ∀ taskId, watched.2 taskId = true → (watched.1.task taskId).Outstanding →
      taskId < (watched.1.setSlot config other none).threads.es.registeredTasks
  | _ => True

def cursor : MainPc → Nat
  | .scanning ii | .waiting ii _ | .woken ii | .timedOut ii _ => ii
  | _ => 0

/-- Without an exit command the scan passes no task that it has to wait for. -/
def Ahead (watched : Host × (Nat → Bool)) : Prop :=
  watched.1.threads.exitCmd = false → ∀ taskId, watched.2 taskId = true →
    cursor watched.1.threads.main ≤ taskId

private theorem duty_away {taskId : Nat} (away : event ≠ .thread .main)
    (duty : (scanDuties config).record duties state event taskId = true) :
    duties taskId = true ∧ (state.task taskId).Outstanding := by
  have kept : (duties taskId && decide (state.task taskId).Outstanding) = true := by
    cases event with
    | thread threadEvent => cases threadEvent <;> first | exact duty | contradiction
    | stopApp | createTask | deleteTask | exitCommand => exact duty
  obtain ⟨had, outstanding⟩ := Bool.and_eq_true_iff.mp kept
  exact ⟨had, of_decide_eq_true outstanding⟩

private theorem duty_begun {taskId : Nat} (reads : state.threads.main = .reading)
    (duty : (scanDuties config).record duties state (.thread .main) taskId = true) :
    state.isLive taskId ∧ state.isRunning taskId ∧ (state.task taskId).Outstanding := by
  simpa only [scanDuties, reads, decide_eq_true_eq] using duty

private theorem duty_on {taskId : Nat} (scans : state.threads.main ≠ .reading)
    (duty : (scanDuties config).record duties state (.thread .main) taskId = true) :
    duties taskId = true ∧ (state.task taskId).Outstanding ∧
      state.threads.timesOut config ≠ some taskId := by
  cases main : state.threads.main <;> simp_all [scanDuties]

/-- A step of the main thread moves the scan on only from a record that it does
not have to wait for any longer. -/
private theorem main_ahead {threads moved : Threads} {taskId : Nat} (unstopped : threads.exitCmd = false)
    (ahead : cursor threads.main ≤ taskId) (outstanding : (threads.task taskId).Outstanding)
    (untimed : threads.timesOut config ≠ some taskId)
    (taken : threads.mainStep config = some moved) : cursor moved.main ≤ taskId := by
  cases mainStep_cases taken with
  | read =>
    cases config.perfectScheduleMode <;> exact Nat.zero_le taskId
  | scanned | called | updated | triggered => exact Nat.zero_le taskId
  | @passed ii scanning _ _ free =>
    rw [scanning] at ahead
    apply Nat.lt_of_le_of_ne ahead
    rintro rfl
    apply untimed
    simp only [timesOut, scanning, free outstanding, ite_true, cursor]
  | blocked same | rescanned same | resumed same =>
    rw [same] at ahead
    exact ahead
  | exited _ stopped => cases unstopped.symm.trans stopped
  | @expired ii _ timedOut _ spent =>
    rw [timedOut] at ahead
    apply Nat.lt_of_le_of_ne ahead
    rintro rfl
    apply untimed
    simp only [timesOut, timedOut, spent, ite_true, cursor]

private theorem scan_begins {threads moved : Threads} (reads : threads.main = .reading)
    (taken : threads.mainStep config = some moved) : cursor moved.main = 0 := by
  cases mainStep_cases taken with
  | read => cases config.perfectScheduleMode <;> rfl
  | scanned same | passed same | blocked same | rescanned same | exited same | expired same | resumed same
  | called same | updated same | triggered same => cases reads.symm.trans same

private theorem away_cursor {threads moved : Threads} {threadEvent : ThreadEvent}
    (away : threadEvent ≠ .main) (taken : threads.step config threadEvent = some moved) :
    cursor moved.main = cursor threads.main := by
  rcases step_main away taken with same | ⟨ii, remainingTime, waiting, woken | timedOut⟩
  · rw [same]
  · rw [waiting, woken]
    rfl
  · rw [waiting, timedOut]
    rfl

private theorem exitCmd_kept (taken : state.step config event = some next)
    (unstopped : next.threads.exitCmd = false) : state.threads.exitCmd = false := by
  cases event with
  | thread threadEvent => rw [← unstopped, (step_fixed (Host.step_thread taken).1).2]
  | stopApp => cases taken; exact unstopped
  | createTask taskId appId registered =>
    simp only [Host.step, Host.createTask] at taken
    obtain ⟨_, taken⟩ := Option.ite_none_right_eq_some.mp taken
    cases taken
    exact unstopped
  | deleteTask taskId =>
    obtain ⟨_, rfl⟩ := Host.deleteTask_some taken
    exact unstopped
  | exitCommand => cases taken; cases unstopped

private theorem step_ahead (ahead : Ahead (state, duties)) (taken : state.step config event = some next) :
    Ahead (next, (scanDuties config).record duties state event) := by
  intro stays taskId duty
  have unstopped := exitCmd_kept taken stays
  have ahead := ahead unstopped
  by_cases isMain : event = .thread .main
  · subst isMain
    have stepped := (Host.step_thread taken).1
    by_cases reads : state.threads.main = .reading
    · rw [scan_begins reads stepped]
      exact Nat.zero_le taskId
    · obtain ⟨had, outstanding, untimed⟩ := duty_on reads duty
      exact main_ahead unstopped (ahead taskId had) outstanding untimed stepped
  · have had := (duty_away isMain duty).1
    suffices same : cursor next.threads.main = cursor state.threads.main by
      rw [same]
      exact ahead taskId had
    cases event with
    | thread threadEvent => exact away_cursor (by rintro rfl; exact isMain rfl) (Host.step_thread taken).1
    | stopApp | createTask | deleteTask | exitCommand =>
      rw [(Host.lifecycle_keeps (by simp) taken).2.1]

/-- The count is that of the live registered tasks, and exceeds the index of
every task that the scan has to wait for. -/
structure Below (config : Config) (watched : Host × (Nat → Bool)) : Prop where
  counts : watched.1.threads.es.registeredTasks = Host.countTasks config watched.1.slots
  duties : ∀ taskId, watched.2 taskId = true → (watched.1.task taskId).Outstanding →
    taskId < watched.1.threads.es.registeredTasks

private theorem countTasks_create {slots : Nat → Option Bool} {taskId : Nat} (free : slots taskId = none)
    (registered : Bool) :
    Host.countTasks config slots ≤
      Host.countTasks config (Function.update slots taskId (some registered)) := by
  apply List.countP_mono_left
  intro other _ counted
  have different : other ≠ taskId := by
    rintro rfl
    simp [free] at counted
  simpa only [Function.update_of_ne different] using counted

private theorem step_below (below : Below config (state, duties)) (counted : Counted config (state, duties) event)
    (taken : state.step config event = some next) :
    Below config (next, (scanDuties config).record duties state event) := by
  obtain ⟨counts, covered⟩ := below
  have away (isAway : event ≠ .thread .main) (taskId : Nat)
      (duty : (scanDuties config).record duties state event taskId = true) :
      taskId < state.threads.es.registeredTasks :=
    covered taskId (duty_away isAway duty).1 (duty_away isAway duty).2
  cases event with
  | thread threadEvent =>
    obtain ⟨stepped, slots, _⟩ := Host.step_thread taken
    have same : next.threads.es = state.threads.es := (step_fixed stepped).1
    refine ⟨by rw [same, slots]; exact counts, ?_⟩
    intro taskId duty _
    rw [same]
    by_cases isMain : threadEvent = .main
    · subst isMain
      by_cases reads : state.threads.main = .reading
      · obtain ⟨live, running, outstanding⟩ := duty_begun reads duty
        exact counted reads taskId live running outstanding
      · obtain ⟨had, outstanding, _⟩ := duty_on reads duty
        exact covered taskId had outstanding
    · exact away (fun same => isMain (HostEvent.thread.inj same)) taskId duty
  | stopApp | exitCommand =>
    cases taken
    exact ⟨counts, fun taskId duty _ => away (by simp) taskId duty⟩
  | createTask other appId registered =>
    have counted := Host.createTask_counts taken
    obtain ⟨_, free, slots, _, _⟩ := Host.createTask_some taken
    refine ⟨counted, ?_⟩
    intro taskId duty _
    have before := away (by simp) taskId duty
    rw [counted, slots]
    rw [counts] at before
    exact Nat.lt_of_lt_of_le before (countTasks_create free registered)
  | deleteTask other =>
    obtain ⟨_, rfl⟩ := Host.deleteTask_some taken
    refine ⟨rfl, ?_⟩
    intro taskId duty outstanding
    have recorded : (scanDuties config).record duties state (.deleteTask other) taskId = true := duty
    exact counted taskId (duty_away (by simp) recorded).1 outstanding

/-- At the end of the scan a task that it has to wait for would lie both behind
its index and below the count. -/
private theorem examined_of_below (ahead : Ahead (state, duties)) (below : Below config (state, duties)) :
    Examined (state, duties) event := by
  intro ⟨_, unstopped, ii, scanning, beyond⟩ taskId duty outstanding
  have reached := ahead unstopped taskId duty
  rw [scanning] at reached
  exact absurd (below.duties taskId duty outstanding) (Nat.not_lt.mpr (Nat.le_trans beyond reached))

private theorem host_main {moved : Threads} (taken : state.threads.mainStep config = some moved) :
    ((host config priority).watch (scanDuties config)).step (state, duties) (.thread .main) =
      some ({ state with threads := moved }, (scanDuties config).record duties state (.thread .main)) := by
  have stepped : (host config priority).step state (.thread .main) = some { state with threads := moved } := by
    change (state.threads.mainStep config).map _ = _
    rw [taken]
    rfl
  exact (Machine.watch_step _).mpr ⟨stepped, rfl⟩

/-- With nothing outstanding up to the count the scan ends by itself, whatever
work there is behind the count. -/
private theorem scan_misses {ii taskId : Nat} (scanning : state.threads.main = .scanning ii)
    (unstopped : state.threads.exitCmd = false) (duty : duties taskId = true)
    (outstanding : (state.task taskId).Outstanding) (beyond : state.threads.es.registeredTasks ≤ taskId)
    (idle : ∀ other, ii ≤ other → other < state.threads.es.registeredTasks → ¬ (state.task other).Outstanding) :
    ∃ count, ¬ ((host config priority).watch (scanDuties config)).Steps Examined (state, duties)
      (List.replicate count (.thread .main)) := by
  induction gap : state.threads.es.registeredTasks - ii generalizing state duties ii with
  | zero =>
    have taken : state.threads.mainStep config = some (state.threads.scan config ii) := by
      simp only [mainStep, scanning]
    refine ⟨1, ?_⟩
    intro steps
    exact (steps _ (host_main taken)).1 ⟨rfl, unstopped, ii, scanning, Nat.sub_eq_zero_iff_le.mp gap⟩
      taskId duty outstanding
  | succ remaining ih =>
    have inside : ii < state.threads.es.registeredTasks := by omega
    have taken : state.threads.mainStep config = some (state.threads.setMain (.scanning (ii + 1))) := by
      have free : ¬ (state.threads.task ii).Outstanding := idle ii (Nat.le_refl ii) inside
      simp only [mainStep, scanning, scan, inside, ite_true, unstopped, free, ite_false, Bool.false_eq_true]
    have kept : (scanDuties config).record duties state (.thread .main) taskId = true := by
      have untimed : state.threads.timesOut config ≠ some taskId := by
        simp only [timesOut, scanning]
        split
        · intro same
          cases same
          omega
        · simp
      simp only [scanDuties, scanning, duty, Bool.true_and, decide_eq_true_eq]
      exact ⟨outstanding, untimed⟩
    let passed : Host := { state with threads := state.threads.setMain (.scanning (ii + 1)) }
    have moved : passed.threads.main = .scanning (ii + 1) := rfl
    have gap : passed.threads.es.registeredTasks - (ii + 1) = remaining := by
      change state.threads.es.registeredTasks - (ii + 1) = remaining
      omega
    obtain ⟨count, ends⟩ := ih moved unstopped kept outstanding beyond
      (fun other above => idle other (by omega)) gap
    refine ⟨count + 1, ?_⟩
    intro steps
    exact ends (steps _ (host_main taken)).2

private theorem read_keeps {threads moved : Threads} (reads : threads.main = .reading)
    (taken : threads.mainStep config = some moved) (taskId : Nat) : moved.task taskId = threads.task taskId := by
  cases mainStep_cases taken with
  | read => rfl
  | scanned same | passed same | blocked same | rescanned same | exited same | expired same | resumed same
  | called same | updated same | triggered same => cases reads.symm.trans same

private theorem beyond_count (uncounted : ¬ Counted config (state, duties) event)
    (taken : state.step config event = some next) :
    ∃ taskId, (scanDuties config).record duties state event taskId = true ∧
      (next.task taskId).Outstanding ∧ next.threads.es.registeredTasks ≤ taskId := by
  cases event with
  | thread threadEvent =>
    cases threadEvent with
    | main =>
      simp only [Counted, not_forall, Nat.not_lt] at uncounted
      obtain ⟨reads, taskId, live, running, outstanding, beyond⟩ := uncounted
      obtain ⟨stepped, _⟩ := Host.step_thread taken
      refine ⟨taskId, ?_, ?_, ?_⟩
      · simpa only [scanDuties, reads, decide_eq_true_eq] using ⟨live, running, outstanding⟩
      · rw [Host.task, read_keeps reads stepped]
        exact outstanding
      · rwa [(step_fixed stepped).1]
    | _ => exact absurd trivial uncounted
  | deleteTask other =>
    simp only [Counted, not_forall, Nat.not_lt] at uncounted
    obtain ⟨taskId, duty, outstanding, beyond⟩ := uncounted
    obtain ⟨_, rfl⟩ := Host.deleteTask_some taken
    refine ⟨taskId, ?_, outstanding, beyond⟩
    have had : duties taskId = true := duty
    have works : (state.task taskId).Outstanding := outstanding
    simp only [scanDuties, had, works, decide_true, Bool.and_self]
  | stopApp | createTask | exitCommand => exact absurd trivial uncounted

/-- The scan examines every task that it has to wait for in every run in which
the count exceeds their indices. After any one step outside that condition the
scan misses such a task, unless it is held up by one below the count. -/
theorem examined_when_counted (config : Config) (priority : Nat → Nat) :
    let watched := (host config priority).watch (scanDuties config)
    (∀ events, watched.Steps (Counted config) watched.initial events →
      watched.Steps Examined watched.initial events) ∧
    ∀ before event after ii, ¬ Counted config before event → watched.step before event = some after →
      after.1.threads.main = .scanning ii → after.1.threads.exitCmd = false →
      (∀ other, ii ≤ other → other < after.1.threads.es.registeredTasks → ¬ (after.1.task other).Outstanding) →
      ∃ count, ¬ watched.Steps Examined after (List.replicate count (.thread .main)) := by
  constructor
  · intro events steps
    refine Machine.Steps.imp _ (fun watched => Ahead watched ∧ Below config watched) ?_ ?_ ?_ steps
    · intro watched event after holds counted taken
      obtain ⟨taken, recorded⟩ := (Machine.watch_step _).mp taken
      have ahead := step_ahead holds.1 taken
      have below := step_below holds.2 counted taken
      rw [← recorded] at ahead below
      exact ⟨ahead, below⟩
    · intro watched event holds _
      exact examined_of_below holds.1 holds.2
    · refine ⟨?_, ?_, ?_⟩
      · intro _ taskId duty
        cases duty
      · exact (List.countP_eq_zero.mpr (fun _ _ => by simp [host, Machine.watch])).symm
      · intro taskId duty
        cases duty
  · intro before event after ii uncounted taken scanning unstopped idle
    obtain ⟨taken, recorded⟩ := (Machine.watch_step _).mp taken
    obtain ⟨taskId, duty, outstanding, beyond⟩ := beyond_count uncounted taken
    rw [← recorded] at duty
    exact scan_misses scanning unstopped duty outstanding beyond idle

def threeTasks : Config := { oneTaskConfig with maxTasks := 3 }

/-- Three tasks come and one of them goes, which leaves two registered tasks. A
message is marked on the task that owns the pipe, and the scan begins. -/
def markedAfter (gone owner : Nat) : List HostEvent :=
  [.createTask 0 0 true, .createTask 1 1 true, .createTask 2 2 true, .deleteTask gone,
    .thread .scheduler, .thread .scheduler, .thread .main, .thread .main, .thread .main, .thread .main,
    .thread .startRun, .thread (.createQueue owner 5)] ++
  ([.main, .main, .main, .main, .main, .scheduler, .send 5 7, .scheduler, .scheduler, .scheduler,
    .main] : List ThreadEvent).map .thread

/-- The first of the three tasks goes, and the last one has the message. -/
theorem third_task_passed :
    ¬ ∀ events : List HostEvent,
      let watched := (host threeTasks (fun _ => 0)).watch (scanDuties threeTasks)
      watched.Steps Examined watched.initial events := by
  intro examined
  have steps := examined (markedAfter 0 2 ++ List.replicate 3 (.thread .main))
  iterate 25 obtain ⟨_, steps⟩ := steps _ rfl
  exact (steps _ rfl).1 ⟨rfl, rfl, 2, rfl, by decide⟩ 2 (by decide) (by decide)

private theorem counted_thread {watched : Host × (Nat → Bool)} {threadEvent : ThreadEvent}
    (unread : threadEvent = .main → watched.1.threads.main ≠ .reading) :
    Counted config watched (.thread threadEvent) := by
  cases threadEvent with
  | main => exact fun reads => absurd reads (unread rfl)
  | _ => trivial

def secondTaskCompletes : List HostEvent :=
  let site := StackInfo.backtrace [0, 1, 2, 3]
  markedAfter 2 1 ++
  ([.main, .main, .receive 1 5, .complete 1 site, .acknowledge 1 7 site, .receive 1 5, .complete 1 site,
    .main, .main, .main] : List ThreadEvent).map .thread

private theorem two_live {taskId : Nat}
    (live : (Function.update (Function.update (Function.update (Function.update
      (fun _ => (none : Option Bool)) 0 (some true)) 1 (some true)) 2 (some true)) 2 none taskId).isSome = true) :
    taskId < 2 := by
  by_contra beyond
  by_cases gone : taskId = 2
  · simp [gone] at live
  · simp [Function.update_of_ne gone, Function.update_of_ne (show taskId ≠ 0 by omega),
      Function.update_of_ne (show taskId ≠ 1 by omega)] at live

def unregisteredTask : Host where
  threads :=
    { (host threeTasks (fun _ => 0)).initial.threads with
      iface := { taskStates := fun taskId => { taskId, triggeredMIDs := [7] }, isMainCompleteTrigger := 1 } }
  slots := Function.update (fun _ => none) 0 (some false)

theorem examined_when_counted_three_tasks :
    let watched := (host threeTasks (fun _ => 0)).watch (scanDuties threeTasks)
    (watched.Steps Examined watched.initial secondTaskCompletes ∧
      ∃ final, watched.run secondTaskCompletes = some final ∧ final.1.threads.main = .returned) ∧
    ∃ after, watched.step (unregisteredTask, fun _ => false) (.thread .main) = some after ∧
      ∃ count, ¬ watched.Steps Examined after (List.replicate count (.thread .main)) := by
  have counted {watched : Host × (Nat → Bool)} (two : watched.1.threads.es.registeredTasks = 2)
      (live : ∀ taskId, watched.1.isLive taskId → taskId < 2) : Counted threeTasks watched (.thread .main) :=
    fun _ taskId alive _ _ => two ▸ live taskId alive
  refine ⟨⟨?_, _, rfl, rfl⟩, _, rfl, ?_⟩
  · apply (examined_when_counted threeTasks (fun _ => 0)).1
    iterate 3
      intro next taken
      cases taken
      refine ⟨trivial, ?_⟩
    intro next taken
    cases taken
    refine ⟨fun _ duty => (by cases duty), ?_⟩
    iterate 2
      intro next taken
      cases taken
      refine ⟨trivial, ?_⟩
    intro next taken
    cases taken
    refine ⟨counted rfl (fun _ live => two_live live), ?_⟩
    iterate 15
      intro next taken
      cases taken
      refine ⟨counted_thread (by decide), ?_⟩
    intro next taken
    cases taken
    refine ⟨counted rfl (fun _ live => two_live live), ?_⟩
    iterate 10
      intro next taken
      cases taken
      refine ⟨counted_thread (by decide), ?_⟩
    trivial
  · refine (examined_when_counted threeTasks (fun _ => 0)).2 (unregisteredTask, fun _ => false) (.thread .main)
      _ 0 ?_ rfl rfl rfl ?_
    · intro counted
      exact absurd (counted rfl 0 rfl rfl (by decide)) (by decide)
    · intro ii _ below
      cases below

end Proofs.CoveredTasks
end TrickCFS
