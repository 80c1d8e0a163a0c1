import TrickCFS.Proofs.StateWrites

/-! Permissions to continue. TASK_CONTINUE is written only over the state that a
waiting task has announced, it stays until that task leaves its wait loop, and
every wait ends with one permission. -/

namespace TrickCFS.Proofs.Permissions
open Threads

variable {config : Config} {state next : Threads} {event : ThreadEvent}

/-- Where a task is in its hand-shake, from its state field, its position, whether
it is blocked, and the permissions it has been given. -/
inductive Handshake (config : Config) : TaskState → TaskPc → Bool → List TaskState → Prop
  | outside {state pc} (away : pc.announced = none) (undelayed : state ≠ .taskDelay)
      (unasked : state ≠ .msgRcv) (ungranted : state ≠ .taskContinue)
      (unreported : config.perfectScheduleMode = true → state ≠ .taskComplete) :
      Handshake config state pc false []
  | asked {state pc blocked} (asks : pc.announced = some state) : Handshake config state pc blocked []
  | permitted {announced pc} (asks : pc.announced = some announced) :
      Handshake config .taskContinue pc false [announced]

namespace Handshake
variable {taskState : TaskState} {pc : TaskPc} {blocked : Bool} {permissions : List TaskState}

/-- A state that a granting thread reads is the one that the task has announced. -/
theorem asked_of_read (shake : Handshake config taskState pc blocked permissions)
    (read : taskState = .taskDelay ∨
      config.perfectScheduleMode = true ∧ (taskState = .msgRcv ∨ taskState = .taskComplete)) :
    pc.announced = some taskState ∧ permissions = [] := by
  cases shake with
  | asked asks => exact ⟨asks, rfl⟩
  | outside _ undelayed unasked _ unreported =>
    rcases read with delayed | ⟨perfect, asked | reported⟩
    · exact absurd delayed undelayed
    · exact absurd asked unasked
    · exact absurd reported (unreported perfect)
  | permitted => simp at read

theorem permitted_of_continue (shake : Handshake config .taskContinue pc blocked permissions) :
    blocked = false ∧ ∃ announced, pc.announced = some announced ∧ permissions = [announced] := by
  generalize granted : TaskState.taskContinue = taskState at shake
  cases shake with
  | outside _ _ _ ungranted => exact absurd granted.symm ungranted
  | asked asks =>
    subst granted
    cases pc <;> cases asks
  | permitted asks => exact ⟨rfl, _, asks, rfl⟩

theorem away (shake : Handshake config taskState pc blocked permissions) (elsewhere : pc.announced = none) :
    blocked = false ∧ permissions = [] := by
  cases shake with
  | outside => exact ⟨rfl, rfl⟩
  | asked asks => simp [elsewhere] at asks
  | permitted asks => simp [elsewhere] at asks

theorem of_running (away : pc.announced = none) : Handshake config .taskRunning pc false [] :=
  .outside away (by simp) (by simp) (by simp) (by simp)

theorem move (shake : Handshake config taskState pc blocked permissions) (elsewhere : pc.announced = none)
    {after : TaskPc} (away : after.announced = none) : Handshake config taskState after blocked permissions := by
  cases shake with
  | outside _ undelayed unasked ungranted unreported => exact .outside away undelayed unasked ungranted unreported
  | asked asks => simp [elsewhere] at asks
  | permitted asks => simp [elsewhere] at asks

theorem block (shake : Handshake config taskState pc blocked permissions)
    (waits : pc.announced.isSome = true ∧ taskState ≠ .taskContinue ∨ blocked = true) {value : Bool} :
    Handshake config taskState pc value permissions := by
  cases shake with
  | outside away => simp [away] at waits
  | asked asks => exact .asked asks
  | permitted => simp at waits

end Handshake

/-- A step that neither grants the task a permission nor ends its wait keeps the
hand-shake. -/
private theorem move_handshake {taskId : Nat} {record : TaskIPC} {pc : TaskPc} {blocked : Bool}
    {permissions : List TaskState}
    (shake : Handshake config (state.task taskId).state (state.tasks taskId) blocked permissions)
    (moved : Move config state event taskId record pc)
    (running : (state.es.locateAppRecord taskId).running = true)
    (ungranted : state.stateWrite config event ≠ some (taskId, .taskContinue))
    (stays : event ≠ .leave taskId) : Handshake config record.state pc blocked permissions := by
  cases moved with
  | stay | cleared | marked => exact shake
  | updated updating inside =>
    have held : ¬ ((state.task taskId).state = .taskDelay ∧
        (state.task taskId).usRemaining - config.cycleTics ≤ 0) := by
      intro due
      apply ungranted
      simp only [stateWrite, updating, if_pos (And.intro inside due)]
    rw [TaskIPC.updateTaskTimes_kept held]
    exact shake
  | continued polling unfinished read =>
    apply False.elim
    apply ungranted
    rcases read with read | ⟨read, more⟩ | read
    · simp only [stateWrite, polling, if_neg unfinished, read]
    · simp only [stateWrite, polling, if_neg unfinished, read, if_pos more]
    · simp only [stateWrite, polling, if_neg unfinished, read]
  | abandoned _ dead => simp [running] at dead
  | received before => exact shake.move (by simp [before, TaskPc.announced]) rfl
  | noMessage receiving => exact shake.move (by simp [receiving, TaskPc.announced]) rfl
  | undelayed before => exact shake.move (by simp [before, TaskPc.announced]) rfl
  | @completed _ currStack completing =>
    obtain ⟨rfl, rfl⟩ := shake.away (by simp [completing, TaskPc.announced])
    rw [TaskIPC.complete_state]
    by_cases perfect : config.perfectScheduleMode = true
    · cases (state.task taskId).completesStack currStack
      · simp only [perfect]
        exact .of_running rfl
      · simp only [perfect]
        exact .asked rfl
    · simp only [perfect, Bool.false_and, Bool.false_eq_true, ite_false]
      cases (state.task taskId).completesStack currStack
      · exact .of_running rfl
      · exact .outside rfl (by simp) (by simp) (by simp) (fun mode => absurd mode perfect)
  | @acknowledged _ mid newStack receiving =>
    obtain ⟨rfl, rfl⟩ := shake.away (by simp [receiving, TaskPc.announced])
    rw [TaskIPC.acknowledge_state]
    by_cases waits : mid ∈ (state.task taskId).triggeredMIDs ∧ config.perfectScheduleMode = true
    · rw [if_pos waits]
      simp only [waits.1, waits.2, decide_true, Bool.and_true, ite_true]
      exact .asked rfl
    · rw [if_neg waits]
      have unasked : (config.perfectScheduleMode && decide (mid ∈ (state.task taskId).triggeredMIDs)) = false := by
        simpa [and_comm] using waits
      simp only [unasked]
      exact .of_running rfl
  | delayed before run enters =>
    obtain ⟨rfl, rfl⟩ := shake.away (by simp [before, TaskPc.announced])
    exact .asked rfl
  | left => exact absurd rfl stays

private theorem signal_unheard {taskId : Nat} (unwaited : state.mainWaits taskId = false) :
    state.signal taskId = state := by
  simp only [Threads.signal]
  split
  next ii _ waiting =>
    have elsewhere : ii ≠ taskId := by simpa [mainWaits, waiting] using unwaited
    rw [if_neg elsewhere]
  next => rfl

section Steps
variable {current after : ConditionThreads} {taskId : Nat}

private theorem signal_wakes (current : ConditionThreads)
    (unwaited : current.threads.mainWaits taskId = false) (toMain : Bool) :
    (current.signal taskId toMain).threads = current.threads ∧
      ∀ other, (current.signal taskId toMain).blocked other =
        if other = taskId then false else current.blocked other := by
  cases blocked : current.blocked taskId with
  | true =>
    simp only [ConditionThreads.signal, blocked, unwaited, Bool.false_eq_true, and_false, not_false_eq_true,
      and_self, if_true]
    exact ⟨rfl, fun other => by simp only [ConditionThreads.setBlocked, Function.update_apply]⟩
  | false =>
    simp only [ConditionThreads.signal, blocked, Bool.false_eq_true, false_and, if_false]
    refine ⟨signal_unheard unwaited, ?_⟩
    intro other
    split
    next same => rw [same, blocked]
    next => rfl

theorem thread_step (locked : LockStep current.threads) {toMain : Bool}
    (taken : current.step config (.thread event toMain) = some after) :
    current.threads.step config event = some after.threads ∧
      ∀ taskId, after.blocked taskId =
        if current.threads.stateWrite config event = some (taskId, .taskContinue) then false
        else current.blocked taskId := by
  simp only [ConditionThreads.step] at taken
  split at taken
  next =>
    obtain ⟨threads, stepped, same⟩ := Option.map_eq_some_iff.mp taken
    simp only [← permits_eq_some]
    cases permits : current.threads.permits config event with
    | none =>
      simp only [permits] at same
      subst same
      exact ⟨stepped, fun taskId => by simp⟩
    | some target =>
      simp only [permits] at same
      subst same
      have unwaited := permits_unwaited locked (permits_eq_some.mp permits) stepped target
      obtain ⟨kept, blocked⟩ := signal_wakes { current with threads } unwaited toMain
      refine ⟨kept.symm ▸ stepped, ?_⟩
      intro other
      rw [blocked other]
      simp only [Option.some.injEq, eq_comm]
  next => cases taken

theorem block_step (taken : current.step config (.block taskId) = some after) :
    (current.threads.tasks taskId).announced.isSome = true ∧
      (current.threads.task taskId).state ≠ .taskContinue ∧ after = current.setBlocked taskId true := by
  simp only [ConditionThreads.step] at taken
  split at taken
  next blocks =>
    cases taken
    simp only [ConditionThreads.blocks, Bool.and_eq_true, decide_eq_true_eq] at blocks
    exact ⟨blocks.1.1.1.2, blocks.1.2, rfl⟩
  next => cases taken

theorem spurious_step (taken : current.step config (.spurious taskId) = some after) :
    current.blocked taskId = true ∧ after = current.setBlocked taskId false := by
  simp only [ConditionThreads.step] at taken
  split at taken
  next blocked => cases taken; exact ⟨blocked, rfl⟩
  next => cases taken

private theorem thread_recorded (permissions : Nat → List TaskState) (toMain : Bool) :
    (permissionsGiven config).record permissions current (.thread event toMain) taskId =
      if event = .leave taskId then []
      else if current.threads.stateWrite config event = some (taskId, .taskContinue) then
        permissions taskId ++ [(current.threads.task taskId).state]
      else permissions taskId := by
  by_cases left : ∃ target, event = .leave target
  · obtain ⟨target, rfl⟩ := left
    change Function.update permissions target [] taskId = _
    by_cases same : taskId = target
    · subst same
      rw [Function.update_self, if_pos rfl]
    · rw [Function.update_of_ne same, if_neg (by simpa using Ne.symm same), if_neg (by simp [stateWrite])]
  · rw [if_neg (fun leaves => left ⟨taskId, leaves⟩)]
    simp only [← permits_eq_some]
    cases permits : current.threads.permits config event with
    | none =>
      have recorded : (permissionsGiven config).record permissions current (.thread event toMain) = permissions := by
        cases event with
        | leave target => exact absurd ⟨target, rfl⟩ left
        | _ => simp only [permissionsGiven, permits]
      rw [recorded, if_neg (by simp)]
    | some target =>
      have recorded : (permissionsGiven config).record permissions current (.thread event toMain) =
          Function.update permissions target (permissions target ++ [(current.threads.task target).state]) := by
        cases event with
        | leave target => exact absurd ⟨target, rfl⟩ left
        | _ => simp only [permissionsGiven, permits]
      rw [recorded]
      by_cases same : taskId = target
      · subst same
        rw [Function.update_self, if_pos rfl]
      · rw [Function.update_of_ne same, if_neg (by simpa using Ne.symm same)]

end Steps

structure Sound (config : Config) (state : ConditionThreads) (permissions : Nat → List TaskState) : Prop where
  running : ∀ taskId, (state.threads.es.locateAppRecord taskId).running = true
  unpolled : config.perfectScheduleMode = false → state.threads.scheduler.polls = false
  locked : LockStep state.threads
  inside : ∀ taskId, (state.threads.tasks taskId).announced ≠ none → taskId < config.maxTasks
  handshake : ∀ taskId, Handshake config (state.threads.task taskId).state (state.threads.tasks taskId)
    (state.blocked taskId) (permissions taskId)

namespace Sound
variable {state next : ConditionThreads} {permissions : Nat → List TaskState} {taskId : Nat} {toMain : Bool}

theorem grant_asked (sound : Sound config state permissions)
    (grants : state.threads.stateWrite config event = some (taskId, .taskContinue)) :
    (state.threads.tasks taskId).announced = some (state.threads.task taskId).state ∧
      permissions taskId = [] := by
  apply (sound.handshake taskId).asked_of_read
  rcases permits_read grants with ⟨_, _, delayed⟩ | ⟨_, polls, read⟩
  · exact Or.inl delayed
  · have perfect : config.perfectScheduleMode = true := by
      apply Bool.eq_true_of_not_eq_false
      intro free
      simp [sound.unpolled free] at polls
    rcases read with delayed | others
    · exact Or.inl delayed
    · exact Or.inr ⟨perfect, others⟩

theorem permitted (sound : Sound config state permissions)
    (granted : (state.threads.task taskId).state = .taskContinue) :
    state.blocked taskId = false ∧
      ∃ announced, (state.threads.tasks taskId).announced = some announced ∧ permissions taskId = [announced] := by
  have shake := sound.handshake taskId
  rw [granted] at shake
  exact shake.permitted_of_continue

theorem leave_runs (sound : Sound config state permissions)
    (taken : state.step config (.thread (.leave taskId) toMain) = some next) :
    (state.threads.task taskId).state = .taskContinue ∧ (next.threads.task taskId).state = .taskRunning ∧
      (next.threads.tasks taskId).announced = none := by
  have stepped := (thread_step sound.locked taken).1
  simp only [step] at stepped
  split at stepped
  next =>
    obtain ⟨granted | dead, loop, record, _⟩ := leaveStep_some stepped
    · exact ⟨granted, by rw [record]; rfl, loop.away⟩
    · simp [sound.running taskId] at dead
  next => cases stepped

private theorem thread_handshake (sound : Sound config state permissions)
    (taken : state.step config (.thread event toMain) = some next) (taskId : Nat) :
    Handshake config (next.threads.task taskId).state (next.threads.tasks taskId) (next.blocked taskId)
      ((permissionsGiven config).record permissions state (.thread event toMain) taskId) := by
  obtain ⟨stepped, blocked⟩ := thread_step sound.locked taken
  have shake := sound.handshake taskId
  rw [blocked, thread_recorded]
  by_cases left : event = .leave taskId
  · subst left
    obtain ⟨granted, runs, away⟩ := sound.leave_runs taken
    have awake := (sound.permitted granted).1
    rw [if_pos rfl, runs, awake, ite_self]
    exact .of_running away
  · rw [if_neg left]
    by_cases grants : state.threads.stateWrite config event = some (taskId, .taskContinue)
    · obtain ⟨asks, none⟩ := sound.grant_asked grants
      have wrote := step_wrote stepped
      rw [grants] at wrote
      rw [if_pos grants, if_pos grants, none, List.nil_append, wrote.1, tasks_kept stepped (permits_others grants)]
      exact .permitted asks
    · rw [if_neg grants, if_neg grants]
      exact move_handshake shake (step_moves stepped taskId) (sound.running taskId) grants left

private theorem setBlocked_handshake (sound : Sound config state permissions) (value : Bool)
    (waits : (state.threads.tasks taskId).announced.isSome = true ∧
      (state.threads.task taskId).state ≠ .taskContinue ∨ state.blocked taskId = true) (other : Nat) :
    Handshake config (state.threads.task other).state (state.threads.tasks other)
      ((state.setBlocked taskId value).blocked other) (permissions other) := by
  have shake := sound.handshake other
  by_cases same : other = taskId
  · subst other
    exact shake.block waits
  · simp only [ConditionThreads.setBlocked, Function.update_of_ne same]
    exact shake

theorem step_preserves {event : WaitEvent} (sound : Sound config state permissions)
    (taken : state.step config event = some next) :
    Sound config next ((permissionsGiven config).record permissions state event) := by
  cases event with
  | block taskId =>
    obtain ⟨asks, ungranted, rfl⟩ := block_step taken
    exact { sound with handshake := sound.setBlocked_handshake true (Or.inl ⟨asks, ungranted⟩) }
  | spurious taskId =>
    obtain ⟨blocked, rfl⟩ := spurious_step taken
    exact { sound with handshake := sound.setBlocked_handshake false (Or.inr blocked) }
  | thread event toMain =>
    have stepped := (thread_step sound.locked taken).1
    constructor
    · rw [(step_fixed stepped).1]
      exact sound.running
    · intro free
      exact FreeRunning.step_unpolled free (sound.unpolled free) stepped
    · exact sound.locked.step_preserves stepped
    · intro taskId waits
      by_cases byTask : event.taskOf = some taskId
      · exact task_inside byTask stepped
      · rw [tasks_kept stepped byTask] at waits
        exact sound.inside taskId waits
    · exact sound.thread_handshake taken

theorem initial (config : Config) (registeredTasks : Nat) (taskTable priority : Nat → Nat) :
    Sound config (conditionThreads config registeredTasks taskTable priority).initial (fun _ => []) where
  running := fun _ => rfl
  unpolled := fun _ => rfl
  locked := .initial config
  inside := fun _ waits => absurd rfl waits
  handshake := fun _ => .outside rfl (by simp [conditionThreads, threads, task])
    (by simp [conditionThreads, threads, task]) (by simp [conditionThreads, threads, task])
    (by simp [conditionThreads, threads, task])

theorem of_reachable {registeredTasks : Nat} {taskTable priority : Nat → Nat}
    (reachable : ((conditionThreads config registeredTasks taskTable priority).watch
      (permissionsGiven config)).Reachable (state, permissions)) : Sound config state permissions := by
  refine Machine.invariant _ (fun watched => Sound config watched.1 watched.2)
    (.initial config registeredTasks taskTable priority) ?_ reachable
  intro watched event after sound taken
  obtain ⟨taken, recorded⟩ := (Machine.watch_step _).mp taken
  rw [recorded]
  exact sound.step_preserves taken

end Sound

/-- A permission stands: the task is awake in its wait loop, finds TASK_CONTINUE
there, and no step but its own way out writes the state of its record. -/
structure Stands (config : Config) (taskId : Nat) (loop : TaskPc) (state : ConditionThreads) : Prop where
  inLoop : state.threads.tasks taskId = loop
  granted : (state.threads.task taskId).state = .taskContinue
  mayLeave : ∀ toMain, (state.step config (.thread (.leave taskId) toMain)).isSome = true
  unwritten : ∀ event toMain next, event ≠ .leave taskId → state.step config (.thread event toMain) = some next →
    ∀ value, state.threads.stateWrite config event ≠ some (taskId, value)

section Standing
variable {state next : ConditionThreads} {permissions : Nat → List TaskState} {taskId : Nat} {loop : TaskPc}

private theorem stands_of_granted (sound : Sound config state permissions)
    (inLoop : state.threads.tasks taskId = loop)
    (granted : (state.threads.task taskId).state = .taskContinue) : Stands config taskId loop state := by
  obtain ⟨awake, announced, asks, given⟩ := sound.permitted granted
  refine ⟨inLoop, granted, ?_, ?_⟩
  · intro toMain
    have inside := sound.inside taskId (by simp [asks])
    have enabled := leave_enabled inside asks granted
    simp only [ConditionThreads.step, ConditionThreads.awake, ThreadEvent.taskOf, awake, Bool.not_false, if_true,
      Option.isSome_map]
    exact enabled
  · intro event toMain next stays taken value writes
    have stepped := (thread_step sound.locked taken).1
    rcases stateWrite_by writes with rfl | byTask | dead
    · -- a second permission would have read the state of a task that has none
      have none := (sound.grant_asked writes).2
      simp [given] at none
    · have away := own_step byTask stays stepped
      simp [asks] at away
    · simp [sound.running taskId] at dead

private theorem stands_keeps {event : WaitEvent} (stands : Stands config taskId loop state)
    (sound : Sound config state permissions) (taken : state.step config event = some next)
    (stays : ∀ toMain, event ≠ .thread (.leave taskId) toMain) : Stands config taskId loop next := by
  have after := sound.step_preserves taken
  cases event with
  | block target =>
    obtain ⟨_, _, rfl⟩ := block_step taken
    exact stands_of_granted after stands.inLoop stands.granted
  | spurious target =>
    obtain ⟨_, rfl⟩ := spurious_step taken
    exact stands_of_granted after stands.inLoop stands.granted
  | thread event toMain =>
    have leaves : event ≠ .leave taskId := fun same => stays toMain (by rw [same])
    have stepped := (thread_step sound.locked taken).1
    obtain ⟨_, announced, asks, _⟩ := sound.permitted stands.granted
    have others : event.taskOf ≠ some taskId := by
      intro byTask
      have away := own_step byTask leaves stepped
      simp [asks] at away
    apply stands_of_granted after
    · rw [tasks_kept stepped others]
      exact stands.inLoop
    · rw [(step_wrote stepped).unwritten (stands.unwritten event toMain next leaves taken)]
      exact stands.granted

private theorem stands_of_grant {toMain : Bool} (sound : Sound config state permissions)
    (grants : state.threads.stateWrite config event = some (taskId, .taskContinue))
    (taken : state.step config (.thread event toMain) = some next) :
    Stands config taskId (state.threads.tasks taskId) next := by
  have stepped := (thread_step sound.locked taken).1
  have wrote := step_wrote stepped
  rw [grants] at wrote
  exact stands_of_granted (sound.step_preserves taken) (tasks_kept stepped (permits_others grants)) wrote.1

/-- From the grant on, the permission stands until the task leaves the loop. -/
private theorem stands_until_left {machine : Machine ConditionThreads WaitEvent} {later : List WaitEvent}
    {final : ConditionThreads} (steps : machine.step = ConditionThreads.step config)
    (stands : Stands config taskId loop state) (sound : Sound config state permissions)
    (stays : ∀ toMain, WaitEvent.thread (.leave taskId) toMain ∉ later)
    (ran : machine.runFrom state later = some final) : Stands config taskId loop final := by
  refine (machine.runFrom_preserves_on (fun event => ∀ toMain, event ≠ .thread (.leave taskId) toMain)
    (fun state => Stands config taskId loop state ∧ ∃ permissions, Sound config state permissions)
    ?_ ⟨stands, permissions, sound⟩ ?_ ran).1
  · intro state event next ⟨stands, permissions, sound⟩ stays taken
    rw [steps] at taken
    exact ⟨stands_keeps stands sound taken stays, _, sound.step_preserves taken⟩
  · intro event member toMain same
    subst same
    exact stays toMain member

end Standing

/-- Whenever TASK_CONTINUE is written into a task's record, the task is inside the
wait loop whose state was read, and the permission stands until it has left that
loop. A task that leaves a loop has been given one permission, in that loop. -/
theorem permissions_exact (config : Config) (registeredTasks : Nat) (taskTable priority : Nat → Nat)
    {state : ConditionThreads} {permissions : Nat → List TaskState}
    (reachable : ((conditionThreads config registeredTasks taskTable priority).watch
      (permissionsGiven config)).Reachable (state, permissions)) (taskId : Nat) :
    (∀ event toMain next, state.threads.stateWrite config event = some (taskId, .taskContinue) →
      state.step config (.thread event toMain) = some next →
        (state.threads.tasks taskId).announced = some (state.threads.task taskId).state ∧
          ∀ later final, (∀ toMain, WaitEvent.thread (.leave taskId) toMain ∉ later) →
            (conditionThreads config registeredTasks taskTable priority).runFrom next later = some final →
              Stands config taskId (state.threads.tasks taskId) final) ∧
      ∀ toMain next, state.step config (.thread (.leave taskId) toMain) = some next →
        ∃ announced, (state.threads.tasks taskId).announced = some announced ∧
          permissions taskId = [announced] := by
  have sound := Sound.of_reachable reachable
  refine ⟨?_, ?_⟩
  · intro event toMain next grants taken
    refine ⟨(sound.grant_asked grants).1, ?_⟩
    intro later final stays ran
    exact stands_until_left rfl (stands_of_grant sound grants taken) (sound.step_preserves taken) stays ran
  · intro toMain next taken
    exact (sound.permitted (sound.leave_runs taken).1).2

def perfectConfig : Config := { oneTaskConfig with perfectScheduleMode := true }

/-- A frame in which the task blocks on its request to receive a message before
the scheduler begins its visits. -/
def blocksOnMessage : List WaitEvent :=
  let site := StackInfo.backtrace [0, 1, 2, 3]
  let events : List ThreadEvent :=
    [.scheduler, .scheduler, .scheduler, .main, .startRun, .main, .main, .main,
      .scheduler, .send 0 7, .scheduler, .scheduler,
      .receive 0 0, .complete 0 site, .acknowledge 0 7 site]
  events.map (WaitEvent.thread · false) ++ [.block 0, .thread .scheduler false]

def watchedTask : Machine (ConditionThreads × (Nat → List TaskState)) WaitEvent :=
  (conditionThreads perfectConfig 1 (fun _ => 0) (fun _ => 0)).watch (permissionsGiven perfectConfig)

private theorem blocksOnMessage_runs : (watchedTask.run blocksOnMessage).isSome = true := by decide

private theorem permitted_runs :
    (watchedTask.run (blocksOnMessage ++ [.thread .scheduler false])).isSome = true := by decide

theorem permissions_exact_blocked :
    let asking := (watchedTask.run blocksOnMessage).get blocksOnMessage_runs
    let permitted := (watchedTask.run (blocksOnMessage ++ [.thread .scheduler false])).get permitted_runs
    (asking.1.blocked 0 = true ∧
        ∃ next, asking.1.step perfectConfig (.thread .scheduler false) = some next ∧
          (asking.1.threads.tasks 0).announced = some (asking.1.threads.task 0).state ∧
          Stands perfectConfig 0 (asking.1.threads.tasks 0) next) ∧
      ∃ next, permitted.1.step perfectConfig (.thread (.leave 0) false) = some next ∧
        ∃ announced, (permitted.1.threads.tasks 0).announced = some announced ∧
          permitted.2 0 = [announced] := by
  intro asking permitted
  have asked := permissions_exact perfectConfig 1 (fun _ => 0) (fun _ => 0)
    ⟨blocksOnMessage, (Option.some_get blocksOnMessage_runs).symm⟩ 0
  have left := permissions_exact perfectConfig 1 (fun _ => 0) (fun _ => 0)
    ⟨_, (Option.some_get permitted_runs).symm⟩ 0
  have grants : asking.1.threads.stateWrite perfectConfig .scheduler = some (0, .taskContinue) := rfl
  have granted : (asking.1.step perfectConfig (.thread .scheduler false)).isSome = true := rfl
  have leaves : (permitted.1.step perfectConfig (.thread (.leave 0) false)).isSome = true := rfl
  obtain ⟨next, taken⟩ := Option.isSome_iff_exists.mp granted
  obtain ⟨after, gone⟩ := Option.isSome_iff_exists.mp leaves
  obtain ⟨announced, stands⟩ := asked.1 .scheduler false next grants taken
  refine ⟨⟨rfl, next, taken, announced, ?_⟩, after, gone, ?_⟩
  · exact stands [] next (by simp) rfl
  · exact left.2 false after gone

end TrickCFS.Proofs.Permissions
