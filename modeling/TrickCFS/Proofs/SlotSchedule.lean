import TrickCFS.Proofs.SlotTimes

/-! The slot schedule end to end. With one call in each slot period the time
selects every slot in turn, and the entries of a slot are transmitted in the
seconds that their frequency and remainder name. -/

namespace TrickCFS.Proofs.SlotSchedule
open TrickCFSScheduler

variable {context : ScheduleContext} {scheduler : TrickCFSScheduler}

/-- The entry is enabled and its frequency and remainder match the second. -/
def Active (constants : SchConstants) (entry : ScheduleEntry) (second : Nat) : Prop :=
  entry.enableState = constants.enabled ∧ second % entry.frequency = entry.remainder

instance (constants : SchConstants) (entry : ScheduleEntry) (second : Nat) :
    Decidable (Active constants entry second) := inferInstanceAs (Decidable (_ ∧ _))

def Accepted (constants : SchConstants) (table : Nat → ScheduleEntry) : Prop :=
  (constants.validateScheduleData table).tableResult = none

instance (constants : SchConstants) (table : Nat → ScheduleEntry) : Decidable (Accepted constants table) :=
  inferInstanceAs (Decidable (_ = none))

/-- Call `k` comes at the start of slot period `k`. -/
def slotTime (constants : SchConstants) (call : Nat) : Nat := call * (1000000 / constants.totalSlots)

theorem countEntry_result {constants : SchConstants} {entry : ScheduleEntry} {result : ScheduleDataResult} :
    (constants.countEntry entry result).tableResult = none ↔
      result.tableResult = none ∧ constants.validateEntry entry = none := by
  simp only [SchConstants.countEntry]
  split
  next code failed => simp [failed]
  next passed => split <;> simp [passed]

theorem foldl_result {constants : SchConstants} {table : Nat → ScheduleEntry} (indices : List Nat)
    (result : ScheduleDataResult) :
    (indices.foldl (fun result index => constants.countEntry (table index) result) result).tableResult =
        none ↔
      result.tableResult = none ∧ ∀ index ∈ indices, constants.validateEntry (table index) = none := by
  induction indices generalizing result with
  | nil => simp
  | cons index indices ih => rw [List.foldl_cons, ih, countEntry_result, List.forall_mem_cons, and_assoc]

theorem accepted_iff {constants : SchConstants} {table : Nat → ScheduleEntry} :
    Accepted constants table ↔
      ∀ index < constants.tableEntries, constants.validateEntry (table index) = none := by
  rw [Accepted, SchConstants.validateScheduleData, foldl_result]
  simp

theorem not_corrupt {constants : SchConstants} {entry : ScheduleEntry}
    (valid : constants.validateEntry entry = none) (enabled : entry.enableState = constants.enabled) :
    ¬ constants.isCorrupt entry := by
  simp only [SchConstants.validateEntry, enabled, constants.enabled_ne_unused, true_or, ite_true,
    ite_false] at valid
  repeat' split at valid
  all_goals cases valid
  simp only [SchConstants.isCorrupt, not_or, not_le, not_not]
  omega

structure Passing (table : Nat → ScheduleEntry) (slot second : Nat) (scheduler : TrickCFSScheduler) : Prop where
  scheduleTable : scheduler.scheduleTable = table
  nextSlotNumber : scheduler.nextSlotNumber = slot
  simTimeSecs : scheduler.simTimeSecs = second

def delivered (context : ScheduleContext) (table : Nat → ScheduleEntry) (sim : Simulation) (index : Nat) : Simulation :=
  let msgId := context.messageTable (table index).messageIndex
  let iface := context.base.markDestinations context.bus sim.es msgId (context.bus.destListHead msgId) sim.iface
  (context.transmitMsg msgId { sim with iface }).2

/-- The scheduler has handed the messages of these entries, in that order, to
`CFE_SB_TransmitMsg`, and nothing else has happened to the simulation. -/
structure Sends (context : ScheduleContext) (table : Nat → ScheduleEntry) (before now : TrickCFSScheduler)
    (indices : List Nat) : Prop where
  transmissions : now.transmissions =
    before.transmissions ++ indices.map (fun index => ⟨index, (table index).messageIndex⟩)
  sim : now.sim = indices.foldl (delivered context table) before.sim

namespace Sends
variable {table : Nat → ScheduleEntry} {before middle now : TrickCFSScheduler} {first rest : List Nat}

theorem none (transmissions : now.transmissions = before.transmissions) (sim : now.sim = before.sim) :
    Sends context table before now [] :=
  ⟨by rw [transmissions, List.map_nil, List.append_nil], sim⟩

theorem trans (sent : Sends context table before middle first) (sent' : Sends context table middle now rest) :
    Sends context table before now (first ++ rest) := by
  constructor
  · rw [sent'.transmissions, sent.transmissions, List.append_assoc, List.map_append]
  · rw [sent'.sim, sent.sim, List.foldl_append]

theorem transmittedSince (sent : Sends context table before now rest) : transmittedSince before now = rest := by
  simp only [TrickCFSScheduler.transmittedSince, sent.transmissions, List.drop_left, List.map_map]
  exact List.map_id rest

end Sends

section Passes
variable {table : Nat → ScheduleEntry} {slot second : Nat}

theorem sendEntry_sends {index : Nat} (same : (scheduler.scheduleTable index) = table index) :
    Sends context table scheduler (sendEntry context index scheduler).2 [index] := by
  constructor
  · simp only [sendEntry, same, List.map_cons, List.map_nil]
  · simp only [sendEntry, same, List.foldl_cons, List.foldl_nil, delivered]

variable (success : ∀ msgId sim, (context.transmitMsg msgId sim).1 = 0)
include success

theorem processNextEntry_accepted (passing : Passing table slot second scheduler) {index : Nat}
    (entryNumber : Nat) (valid : context.constants.validateEntry (table index) = none)
    (enabled : (table index).enableState = context.constants.enabled) :
    (processNextEntry context index entryNumber scheduler).error = none ∧
      Passing table slot second (processNextEntry context index entryNumber scheduler).scheduler ∧
      Sends context table scheduler (processNextEntry context index entryNumber scheduler).scheduler
        (if Active context.constants (table index) second then [index] else []) := by
  have proper := not_corrupt valid enabled
  have sent : (sendEntry context index scheduler).1 = 0 := success _ _
  have sends : Sends context table scheduler (sendEntry context index scheduler).2 [index] :=
    sendEntry_sends (congrFun passing.scheduleTable index)
  simp only [processNextEntry, passing.scheduleTable, passing.simTimeSecs, proper, ite_false, Active, enabled,
    true_and, sent, ne_eq, not_true_eq_false]
  split
  · exact ⟨rfl, ⟨passing.scheduleTable, passing.nextSlotNumber, passing.simTimeSecs⟩, sends⟩
  · exact ⟨rfl, passing, .none rfl rfl⟩

theorem processEntries_accepted (entries : List Nat) (passing : Passing table slot second scheduler)
    (valid : ∀ entry ∈ entries,
      context.constants.validateEntry (table (slot * context.constants.entriesPerSlot + entry)) = none) :
    (processEntries context entries scheduler).error = none ∧
      Passing table slot second (processEntries context entries scheduler).scheduler ∧
      Sends context table scheduler (processEntries context entries scheduler).scheduler
        ((entries.map (fun entry => slot * context.constants.entriesPerSlot + entry)).filter
          (fun index => Active context.constants (table index) second)) := by
  induction entries generalizing scheduler with
  | nil => exact ⟨rfl, passing, .none rfl rfl⟩
  | cons entry rest ih =>
    obtain ⟨first, others⟩ := List.forall_mem_cons.mp valid
    simp only [processEntries, passing.nextSlotNumber, passing.scheduleTable, List.map_cons,
      List.filter_cons, decide_eq_true_eq]
    split
    next enabled =>
      obtain ⟨calm, kept, sent⟩ := processNextEntry_accepted success passing entry first enabled
      obtain ⟨calm', kept', sent'⟩ := ih kept others
      simp only [calm]
      refine ⟨calm', kept', ?_⟩
      have both := sent.trans sent'
      split
      next active => rwa [if_pos active] at both
      next inactive => rwa [if_neg inactive] at both
    next disabled =>
      have inactive : ¬ Active context.constants
          (table (slot * context.constants.entriesPerSlot + entry)) second :=
        fun active => disabled active.1
      rw [if_neg inactive]
      exact ih passing others

end Passes

section Schedule
variable (divides : context.constants.totalSlots ∣ 1000000) (two : 2 ≤ 1000000 / context.constants.totalSlots)
include divides two

/-- At the start of a slot period the time names its slot and its second. -/
theorem updateTimeTics_slot (call : Nat) (scheduler : TrickCFSScheduler) :
    scheduler.updateTimeTics context (slotTime context.constants call) 1000000 =
      (call % context.constants.totalSlots,
        { scheduler with
          simTimeSecs := call / context.constants.totalSlots
          simTimeMicros := call % context.constants.totalSlots * (1000000 / context.constants.totalSlots) }) := by
  rw [SlotTimes.updateTimeTics_eq (by omega), slotTime]
  generalize context.constants.totalSlots = totalSlots at divides two ⊢
  have whole : totalSlots * (1000000 / totalSlots) = 1000000 := Nat.mul_div_cancel' divides
  have positive : 0 < totalSlots := Nat.pos_of_dvd_of_pos divides (by decide)
  have below := Nat.mod_lt call positive
  generalize 1000000 / totalSlots = period at whole two ⊢
  rw [← whole, Nat.mul_div_mul_right _ _ (by omega), Nat.mul_mod_mul_right]
  have early : (call % totalSlots * period + 1) / period = call % totalSlots := by
    rw [Nat.add_comm, Nat.add_mul_div_right _ _ (by omega), Nat.div_eq_of_lt (by omega), Nat.zero_add]
  simp only [early, Nat.ne_of_lt below, ite_false]

variable (success : ∀ msgId sim, (context.transmitMsg msgId sim).1 = 0)
  (accepted : Accepted context.constants scheduler.scheduleTable)
include success accepted

/-- The entries of the slot of a call that are active in its second. -/
def slotActive (constants : SchConstants) (table : Nat → ScheduleEntry) (call : Nat) : List Nat :=
  ((List.range constants.entriesPerSlot).map (fun entry =>
      call % constants.totalSlots * constants.entriesPerSlot + entry)).filter
    (fun index => Active constants (table index) (call / constants.totalSlots))

theorem processScheduleTable_slot (call : Nat) {now : TrickCFSScheduler}
    (same : now.scheduleTable = scheduler.scheduleTable) :
    let pass := now.processScheduleTable context (slotTime context.constants call) 1000000
    pass.error = none ∧ pass.scheduler.scheduleTable = scheduler.scheduleTable ∧
      Sends context scheduler.scheduleTable now pass.scheduler
        (slotActive context.constants scheduler.scheduleTable call) := by
  have positive : 0 < context.constants.totalSlots := Nat.pos_of_dvd_of_pos divides (by decide)
  have slot := Nat.mod_lt call positive
  simp only [processScheduleTable, updateTimeTics_slot divides two, processNextSlot]
  generalize updated : ({ now with
    nextSlotNumber := call % context.constants.totalSlots
    simTimeSecs := call / context.constants.totalSlots
    simTimeMicros := call % context.constants.totalSlots * (1000000 / context.constants.totalSlots) } :
      TrickCFSScheduler) = started
  have passing : Passing scheduler.scheduleTable (call % context.constants.totalSlots)
      (call / context.constants.totalSlots) started := by
    subst updated
    exact ⟨same, rfl, rfl⟩
  have begun : Sends context scheduler.scheduleTable now started [] := by
    subst updated
    exact .none rfl rfl
  have valid : ∀ entry ∈ List.range context.constants.entriesPerSlot, context.constants.validateEntry
      (scheduler.scheduleTable
        (call % context.constants.totalSlots * context.constants.entriesPerSlot + entry)) = none := by
    intro entry member
    have inside := List.mem_range.mp member
    apply accepted_iff.mp accepted _
    exact context.constants.entry_inside slot inside
  obtain ⟨calm, kept, sent⟩ := processEntries_accepted success _ passing valid
  have ends := begun.trans sent
  simp only [calm]
  exact ⟨trivial, kept.scheduleTable, ends.transmissions, ends.sim⟩

theorem after_table (calls : Nat) :
    (scheduler.after context (slotTime context.constants) 1000000 calls).scheduleTable =
      scheduler.scheduleTable := by
  induction calls with
  | zero => rfl
  | succ calls ih => exact (processScheduleTable_slot divides two success accepted calls ih).2.1

theorem after_sends (call : Nat) :
    Sends context scheduler.scheduleTable (scheduler.after context (slotTime context.constants) 1000000 call)
      (scheduler.after context (slotTime context.constants) 1000000 (call + 1))
      (slotActive context.constants scheduler.scheduleTable call) :=
  (processScheduleTable_slot divides two success accepted call
    (after_table divides two success accepted call)).2.2

end Schedule

private theorem position_unique {width slot other entry entry' : Nat} (inside : entry < width)
    (inside' : entry' < width) (same : slot * width + entry = other * width + entry') :
    slot = other ∧ entry = entry' := by
  have first : (slot * width + entry) / width = slot := by
    rw [Nat.mul_comm, Nat.mul_add_div (by omega), Nat.div_eq_of_lt inside, Nat.add_zero]
  have second : (other * width + entry') / width = other := by
    rw [Nat.mul_comm, Nat.mul_add_div (by omega), Nat.div_eq_of_lt inside', Nat.add_zero]
  have equal : slot = other := by rw [← first, same, second]
  subst equal
  exact ⟨rfl, Nat.add_left_cancel same⟩

/-- For every number of calls: an entry is transmitted at call `k`, once, exactly
when it is enabled, the call falls into its slot and the pass is its own. The
entries of one call are in the order of their positions, their messages are what
the call hands to the software bus, and it reads no entry outside the table. -/
theorem slot_schedule (context : ScheduleContext) (scheduler : TrickCFSScheduler)
    (divides : context.constants.totalSlots ∣ 1000000) (two : 2 ≤ 1000000 / context.constants.totalSlots)
    (accepted : Accepted context.constants scheduler.scheduleTable)
    (success : ∀ msgId sim, (context.transmitMsg msgId sim).1 = 0) (call : Nat) :
    let transmitted := scheduler.transmittedAt context (slotTime context.constants) 1000000 call
    let before := scheduler.after context (slotTime context.constants) 1000000 call
    (∀ slot < context.constants.totalSlots, ∀ position < context.constants.entriesPerSlot,
      let entry := scheduler.scheduleTable (slot * context.constants.entriesPerSlot + position)
      transmitted.count (slot * context.constants.entriesPerSlot + position) =
        if entry.enableState = context.constants.enabled ∧ call % context.constants.totalSlots = slot ∧
          call / context.constants.totalSlots % entry.frequency = entry.remainder then 1 else 0) ∧
    (∃ positions : List Nat, transmitted = positions.map (fun position =>
        call % context.constants.totalSlots * context.constants.entriesPerSlot + position) ∧
      (∀ position ∈ positions, position < context.constants.entriesPerSlot) ∧
      positions.Pairwise (fun first second => first < second)) ∧
    Sends context scheduler.scheduleTable before
      (scheduler.after context (slotTime context.constants) 1000000 (call + 1)) transmitted ∧
    ∀ position < context.constants.entriesPerSlot,
      (before.updateTimeTics context (slotTime context.constants call) 1000000).1 * context.constants.entriesPerSlot +
        position < context.constants.tableEntries := by
  intro transmitted before
  have sends := after_sends divides two success accepted call
  have sent : transmitted = _ := sends.transmittedSince
  rw [← sent] at sends
  rw [slotActive, List.filter_map] at sent
  generalize listed : (List.range context.constants.entriesPerSlot).filter _ = positions at sent
  have ordered : positions.Pairwise (fun first second => first < second) :=
    listed ▸ List.pairwise_lt_range.filter _
  have active : ∀ position, position ∈ positions ↔ position < context.constants.entriesPerSlot ∧
      Active context.constants (scheduler.scheduleTable
        (call % context.constants.totalSlots * context.constants.entriesPerSlot + position))
        (call / context.constants.totalSlots) := by
    intro position
    simp only [← listed, List.mem_filter, List.mem_range, Function.comp_apply, decide_eq_true_eq]
  have positive : 0 < context.constants.totalSlots := Nat.pos_of_dvd_of_pos divides (by decide)
  refine ⟨?_, ⟨positions, sent, fun position member => ((active position).mp member).1, ordered⟩, sends, ?_⟩
  · intro slot within position bound entry
    have distinct : transmitted.Nodup := by
      rw [sent]
      exact List.pairwise_map.mpr (ordered.imp (fun less same => by omega))
    have member : slot * context.constants.entriesPerSlot + position ∈ transmitted ↔
        entry.enableState = context.constants.enabled ∧ call % context.constants.totalSlots = slot ∧
          call / context.constants.totalSlots % entry.frequency = entry.remainder := by
      rw [sent, List.mem_map]
      constructor
      · intro ⟨other, listed, same⟩
        obtain ⟨bound', enabled, pass⟩ := (active other).mp listed
        obtain ⟨rfl, rfl⟩ := position_unique bound' bound same
        exact ⟨enabled, rfl, pass⟩
      · rintro ⟨enabled, rfl, pass⟩
        exact ⟨position, (active position).mpr ⟨bound, enabled, pass⟩, rfl⟩
    rw [distinct.count]
    simp only [member]
  · intro position bound
    rw [updateTimeTics_slot divides two]
    exact context.constants.entry_inside (Nat.mod_lt call positive) bound

def twoSlots : ScheduleContext where
  constants :=
    { totalSlots := 2
      entriesPerSlot := 1
      tableEntries := 2
      tableEntries_eq := rfl
      maxMessages := 4
      unused := 0
      enabled := 1
      enabled_ne_unused := by decide
      disabled := 2
      activitySendMsg := 1 }
  base := ⟨0, false⟩
  bus := ⟨fun _ => [], fun _ => ⟨false, 0, 0⟩, fun _ => []⟩
  messageTable := id
  transmitMsg := fun _ sim => (0, sim)

def oddSeconds : TrickCFSScheduler where
  scheduleTable := fun index => if index = 1 then ⟨1, 1, 2, 1, 3, 0⟩ else ⟨0, 0, 0, 0, 0, 0⟩
  sim := ⟨{}, ⟨0, fun _ => 0, fun _ => ⟨true, 0⟩⟩, fun _ => {}⟩

theorem slot_schedule_odd_seconds :
    (oddSeconds.transmittedAt twoSlots (slotTime twoSlots.constants) 1000000 3).count 1 = 1 ∧
      (oddSeconds.transmittedAt twoSlots (slotTime twoSlots.constants) 1000000 5).count 1 = 0 := by
  have law := slot_schedule twoSlots oddSeconds (by decide) (by decide) (by decide) (fun _ _ => rfl)
  exact ⟨(law 3).1 1 (by decide) 0 (by decide), (law 5).1 1 (by decide) 0 (by decide)⟩

end TrickCFS.Proofs.SlotSchedule
