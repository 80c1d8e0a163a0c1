import TrickCFS.AppLifetimes
import TrickCFS.Proofs.ThreadRoles

/-! What a step of the host leaves alone. Its threads step as they do without
task creation, and what happens to the tasks and apps touches no record. -/

namespace TrickCFS.Host

variable {config : Config} {state next : Host} {taskId appId : Nat} {registered : Bool}

theorem step_thread {event : ThreadEvent} (taken : state.step config (.thread event) = some next) :
    state.threads.step config event = some next.threads ∧ next.slots = state.slots ∧
      ∀ taskId, event.taskOf = some taskId → state.isLive taskId := by
  simp only [step, threadStep] at taken
  split at taken
  next taskId byTask =>
    split at taken
    next live =>
      obtain ⟨threads, stepped, rfl⟩ := Option.map_eq_some_iff.mp taken
      refine ⟨stepped, rfl, ?_⟩
      intro other same
      cases byTask.symm.trans same
      exact live
    next => cases taken
  next noTask =>
    obtain ⟨threads, stepped, rfl⟩ := Option.map_eq_some_iff.mp taken
    refine ⟨stepped, rfl, ?_⟩
    intro other same
    cases noTask.symm.trans same

theorem createTask_some (taken : state.createTask config taskId appId registered = some next) :
    taskId < config.maxTasks ∧ state.slots taskId = none ∧
      next.slots = Function.update state.slots taskId (some registered) ∧
      next.threads.es.taskTable = Function.update state.threads.es.taskTable taskId appId ∧
      next.threads.es.appTable = state.threads.es.appTable := by
  simp only [createTask] at taken
  obtain ⟨⟨inside, free⟩, taken⟩ := Option.ite_none_right_eq_some.mp taken
  cases taken
  exact ⟨inside, free, rfl, rfl, rfl⟩

theorem createTask_counts (taken : state.createTask config taskId appId registered = some next) :
    next.threads.es.registeredTasks = countTasks config next.slots := by
  simp only [createTask] at taken
  obtain ⟨_, taken⟩ := Option.ite_none_right_eq_some.mp taken
  cases taken
  rfl

theorem deleteTask_some (taken : state.deleteTask config taskId = some next) :
    state.isLive taskId ∧ next = state.setSlot config taskId none := by
  simp only [deleteTask] at taken
  obtain ⟨live, taken⟩ := Option.ite_none_right_eq_some.mp taken
  cases taken
  exact ⟨live, rfl⟩

theorem lifecycle_keeps {event : HostEvent} (notThread : ∀ threadEvent, event ≠ .thread threadEvent)
    (taken : state.step config event = some next) :
    next.threads.iface = state.threads.iface ∧ next.threads.main = state.threads.main ∧
      next.threads.scheduler = state.threads.scheduler := by
  cases event with
  | thread threadEvent => exact False.elim (notThread threadEvent rfl)
  | stopApp | exitCommand =>
    cases taken
    exact ⟨rfl, rfl, rfl⟩
  | createTask taskId appId registered =>
    simp only [step, createTask] at taken
    obtain ⟨_, taken⟩ := Option.ite_none_right_eq_some.mp taken
    cases taken
    exact ⟨rfl, rfl, rfl⟩
  | deleteTask taskId =>
    obtain ⟨_, rfl⟩ := deleteTask_some taken
    exact ⟨rfl, rfl, rfl⟩

end TrickCFS.Host
