import TrickCFS.Proofs.SlotSchedule

/-! The schedule table heals itself. A corrupt entry ends the pass that comes
upon it and is disabled, so the next pass through the slot gets as far as the
next corrupt entry, and the rest of the table stays as it was loaded. -/

namespace TrickCFS.Proofs.TableHealing
open TrickCFSScheduler SlotSchedule

variable {constants : SchConstants} {table : Nat → ScheduleEntry} {slot second : Nat}

/-- A pass would come upon the entry and find it corrupt. -/
def Faulty (constants : SchConstants) (entry : ScheduleEntry) : Prop :=
  entry.enableState = constants.enabled ∧ constants.isCorrupt entry

instance (constants : SchConstants) (entry : ScheduleEntry) : Decidable (Faulty constants entry) :=
  inferInstanceAs (Decidable (_ ∧ _))

/-- A pass through the slot in that second would transmit the entry. -/
def Due (constants : SchConstants) (second : Nat) (entry : ScheduleEntry) : Prop :=
  Active constants entry second ∧ ¬ constants.isCorrupt entry

instance (constants : SchConstants) (second : Nat) (entry : ScheduleEntry) : Decidable (Due constants second entry) :=
  inferInstanceAs (Decidable (_ ∧ _))

def indices (constants : SchConstants) (slot : Nat) (entryNumbers : List Nat) : List Nat :=
  entryNumbers.map (fun entryNumber => slot * constants.entriesPerSlot + entryNumber)

def slotEntries (constants : SchConstants) (slot : Nat) : List Nat :=
  indices constants slot (List.range constants.entriesPerSlot)

def faultyEntries (constants : SchConstants) (table : Nat → ScheduleEntry) (slot : Nat) : List Nat :=
  (slotEntries constants slot).filter (fun index => Faulty constants (table index))

/-- The index comes before the faulty entry at which a pass stops, if there is one. -/
def Before (stop : Option Nat) (index : Nat) : Prop := stop.all (fun faulty => index < faulty) = true

instance (stop : Option Nat) (index : Nat) : Decidable (Before stop index) :=
  inferInstanceAs (Decidable (_ = true))

/-- What a pass through the slot transmits if it stops there. -/
def dueEntries (constants : SchConstants) (table : Nat → ScheduleEntry) (second : Nat) (stop : Option Nat)
    (entries : List Nat) : List Nat :=
  entries.filter (fun index => Due constants second (table index) ∧ Before stop index)

def disabledEntry (constants : SchConstants) (entry : ScheduleEntry) : ScheduleEntry :=
  { entry with enableState := constants.disabled }

/-- The pass ended in a failed transmission. -/
def Failed (slot : Nat) (pass : SchedulePass) : Prop :=
  ∃ entryNumber status, pass.error = some (.activity slot entryNumber status) ∧ status ≠ 0

def corruption (constants : SchConstants) (table : Nat → ScheduleEntry) (slot index : Nat) : ActivityError :=
  .corruptData slot (index - slot * constants.entriesPerSlot) (table index)

/-- The table after the pass has reported a faulty entry, or has not. -/
def disableAt (constants : SchConstants) (table : Nat → ScheduleEntry) : Option Nat → Nat → ScheduleEntry
  | none => table
  | some index => Function.update table index (disabledEntry constants (table index))

/-- A pass either fails to transmit, or goes as far as the stop and reports it. -/
structure Outcome (context : ScheduleContext) (table : Nat → ScheduleEntry) (slot second : Nat) (stop : Option Nat)
    (entries : List Nat) (before : TrickCFSScheduler) (pass : SchedulePass) (sent : List Nat) : Prop where
  sends : Sends context table before pass.scheduler sent
  due : sent <+: dueEntries context.constants table second stop entries
  ended : Failed slot pass ∧ pass.scheduler.scheduleTable = before.scheduleTable ∨
    sent = dueEntries context.constants table second stop entries ∧
      pass.error = stop.map (corruption context.constants table slot) ∧
      pass.scheduler.scheduleTable = disableAt context.constants before.scheduleTable stop

/-- A scheduler in a pass through the slot: of the faulty entries of the loaded
table, those before the stop are disabled already. -/
structure Sweeping (constants : SchConstants) (table : Nat → ScheduleEntry) (slot second : Nat) (stop : Option Nat)
    (scheduler : TrickCFSScheduler) : Prop where
  nextSlotNumber : scheduler.nextSlotNumber = slot
  simTimeSecs : scheduler.simTimeSecs = second
  entries : ∀ index ∈ slotEntries constants slot, scheduler.scheduleTable index =
    if Faulty constants (table index) ∧ Before stop index then disabledEntry constants (table index) else table index

def Stops (constants : SchConstants) (table : Nat → ScheduleEntry) (slot : Nat) (stop : Option Nat)
    (entryNumbers : List Nat) : Prop :=
  ∀ faulty ∈ stop, faulty ∈ indices constants slot entryNumbers ∧ Faulty constants (table faulty)

theorem mem_indices {index : Nat} {entryNumbers : List Nat} :
    index ∈ indices constants slot entryNumbers ↔
      ∃ entryNumber ∈ entryNumbers, slot * constants.entriesPerSlot + entryNumber = index := List.mem_map

section Stop
variable {stop : Option Nat} {entryNumber : Nat} {rest : List Nat}

theorem Stops.later (stops : Stops constants table slot stop (entryNumber :: rest))
    (increasing : (entryNumber :: rest).Pairwise (fun first second => first < second))
    (past : stop ≠ some (slot * constants.entriesPerSlot + entryNumber)) :
    Stops constants table slot stop rest ∧ Before stop (slot * constants.entriesPerSlot + entryNumber) := by
  obtain ⟨least, _⟩ := List.pairwise_cons.mp increasing
  cases stop with
  | none => exact ⟨nofun, rfl⟩
  | some faulty =>
    obtain ⟨member, broken⟩ := stops faulty rfl
    obtain ⟨other, listed, same⟩ := mem_indices.mp member
    rcases List.mem_cons.mp listed with first | later
    · exact absurd (by rw [← same, first]) past
    · refine ⟨?_, ?_⟩
      · intro found isStop
        cases isStop
        exact ⟨mem_indices.mpr ⟨other, later, same⟩, broken⟩
      · have less := least other later
        simp only [Before, Option.all_some, decide_eq_true_eq]
        omega

theorem due_from_stop (increasing : (entryNumber :: rest).Pairwise (fun first second => first < second))
    (second : Nat) :
    dueEntries constants table second (some (slot * constants.entriesPerSlot + entryNumber))
      (indices constants slot (entryNumber :: rest)) = [] := by
  obtain ⟨least, _⟩ := List.pairwise_cons.mp increasing
  rw [dueEntries, List.filter_eq_nil_iff]
  intro index member due
  obtain ⟨other, listed, rfl⟩ := mem_indices.mp member
  obtain ⟨_, before⟩ := of_decide_eq_true due
  simp only [Before, Option.all_some, decide_eq_true_eq] at before
  rcases List.mem_cons.mp listed with rfl | later
  · omega
  · have less := least other later
    omega

theorem due_cons (index : Nat) (entries : List Nat) :
    dueEntries constants table second stop (index :: entries) =
      if Due constants second (table index) ∧ Before stop index
      then index :: dueEntries constants table second stop entries
      else dueEntries constants table second stop entries := by
  simp only [dueEntries, List.filter_cons, decide_eq_true_eq]

section Outcomes
variable {context : ScheduleContext} {before middle : TrickCFSScheduler} {pass : SchedulePass} {index : Nat}
  {entries later : List Nat}

theorem Outcome.passed (outcome : Outcome context table slot second stop entries before pass later)
    (idle : ¬ (Due context.constants second (table index) ∧ Before stop index)) :
    Outcome context table slot second stop (index :: entries) before pass later := by
  refine ⟨outcome.sends, ?_, ?_⟩
  · rw [due_cons, if_neg idle]
    exact outcome.due
  · rw [due_cons, if_neg idle]
    exact outcome.ended

theorem Outcome.sent (outcome : Outcome context table slot second stop entries middle pass later)
    (first : Sends context table before middle [index]) (same : middle.scheduleTable = before.scheduleTable)
    (due : Due context.constants second (table index) ∧ Before stop index) :
    Outcome context table slot second stop (index :: entries) before pass (index :: later) := by
  refine ⟨first.trans outcome.sends, ?_, ?_⟩
  · rw [due_cons, if_pos due]
    exact List.cons_prefix_cons.mpr ⟨rfl, outcome.due⟩
  · rw [due_cons, if_pos due, ← same]
    rcases outcome.ended with failed | ⟨all, error, kept⟩
    · exact Or.inl failed
    · exact Or.inr ⟨congrArg (index :: ·) all, error, kept⟩

end Outcomes

end Stop

variable {context : ScheduleContext} {scheduler : TrickCFSScheduler} {stop : Option Nat}

section Pass
variable (apart : context.constants.disabled ≠ context.constants.enabled)
include apart

theorem Sweeping.enabled (sweeping : Sweeping context.constants table slot second stop scheduler) {index : Nat}
    (member : index ∈ slotEntries context.constants slot)
    (enabled : (scheduler.scheduleTable index).enableState = context.constants.enabled) :
    scheduler.scheduleTable index = table index ∧ ¬ (Faulty context.constants (table index) ∧ Before stop index) := by
  have loaded := sweeping.entries index member
  split at loaded
  · rw [loaded] at enabled
    exact absurd enabled apart
  next unreported => exact ⟨loaded, unreported⟩

omit apart in
theorem Sweeping.kept (sweeping : Sweeping context.constants table slot second stop scheduler) {index : Nat}
    (member : index ∈ slotEntries context.constants slot)
    (unreported : ¬ (Faulty context.constants (table index) ∧ Before stop index)) :
    scheduler.scheduleTable index = table index := by
  rw [sweeping.entries index member, if_neg unreported]

section Entry
variable {index entryNumber : Nat} {rest : List Nat}
  (sweeping : Sweeping context.constants table slot second stop scheduler)
include sweeping
omit apart

private theorem Sweeping.sent : Sweeping context.constants table slot second stop (sendEntry context index scheduler).2 :=
  ⟨sweeping.nextSlotNumber, sweeping.simTimeSecs, sweeping.entries⟩

/-- The pass ends at its stop, the first faulty entry that is not disabled yet. -/
private theorem stopped_outcome (loaded : scheduler.scheduleTable index = table index)
    (position : slot * context.constants.entriesPerSlot + entryNumber = index)
    (increasing : (entryNumber :: rest).Pairwise (fun first second => first < second))
    (stops : Stops context.constants table slot stop (entryNumber :: rest))
    (faulty : Faulty context.constants (table index)) (unreported : ¬ Before stop index) :
    (processNextEntry context index entryNumber scheduler).error = some (corruption context.constants table slot index) ∧
      Outcome context table slot second stop (indices context.constants slot (entryNumber :: rest))
        scheduler (processNextEntry context index entryNumber scheduler) [] := by
  have isStop : stop = some index := by
    by_contra past
    obtain ⟨_, before⟩ := stops.later increasing (position.symm ▸ past)
    exact unreported (position ▸ before)
  subst isStop position
  simp only [processNextEntry, loaded, faulty.2, ite_true, sweeping.nextSlotNumber]
  have none : dueEntries context.constants table second
      (some (slot * context.constants.entriesPerSlot + entryNumber))
      (indices context.constants slot (entryNumber :: rest)) = [] := due_from_stop increasing second
  refine ⟨by simp [corruption], .none rfl rfl, List.nil_prefix, Or.inr ⟨none.symm, ?_, ?_⟩⟩
  · simp [corruption]
  · simp [disableAt, disabledEntry, disableEntry]

private theorem failed_outcome {entries : List Nat} {status : Int} (nonzero : status ≠ 0)
    (loaded : scheduler.scheduleTable index = table index)
    (due : Due context.constants second (table index) ∧ Before stop index) :
    Outcome context table slot second stop (index :: entries) scheduler
      { error := some (.activity scheduler.nextSlotNumber entryNumber status)
        scheduler := (sendEntry context index scheduler).2 } [index] := by
  refine ⟨sendEntry_sends loaded, ?_, Or.inl ⟨⟨entryNumber, status, by rw [sweeping.nextSlotNumber], nonzero⟩, rfl⟩⟩
  rw [due_cons, if_pos due]
  exact List.cons_prefix_cons.mpr ⟨rfl, List.nil_prefix⟩

end Entry

theorem processEntries_outcome (entryNumbers : List Nat)
    (increasing : entryNumbers.Pairwise (fun first second => first < second))
    (inside : ∀ entryNumber ∈ entryNumbers, entryNumber < context.constants.entriesPerSlot)
    (sweeping : Sweeping context.constants table slot second stop scheduler)
    (stops : Stops context.constants table slot stop entryNumbers) :
    ∃ sent, Outcome context table slot second stop (indices context.constants slot entryNumbers)
      scheduler (processEntries context entryNumbers scheduler) sent := by
  induction entryNumbers generalizing scheduler with
  | nil =>
    have none : stop = none := Option.eq_none_iff_forall_not_mem.mpr
      (fun faulty isStop => List.not_mem_nil (stops faulty isStop).1)
    subst none
    exact ⟨[], .none rfl rfl, List.nil_prefix, Or.inr ⟨rfl, rfl, rfl⟩⟩
  | cons entryNumber rest ih =>
    obtain ⟨bounded, others⟩ := List.forall_mem_cons.mp inside
    obtain ⟨_, increasing'⟩ := List.pairwise_cons.mp increasing
    have member : slot * context.constants.entriesPerSlot + entryNumber ∈ slotEntries context.constants slot :=
      mem_indices.mpr ⟨entryNumber, List.mem_range.mpr bounded, rfl⟩
    simp only [processEntries, sweeping.nextSlotNumber]
    generalize position : slot * context.constants.entriesPerSlot + entryNumber = index at member
    have listed : indices context.constants slot (entryNumber :: rest) =
        index :: indices context.constants slot rest := by
      rw [← position]
      rfl
    split
    next enabled =>
      obtain ⟨loaded, unreported⟩ := sweeping.enabled apart member enabled
      by_cases corrupt : context.constants.isCorrupt (table index)
      · have faulty : Faulty context.constants (table index) := ⟨loaded ▸ enabled, corrupt⟩
        obtain ⟨error, outcome⟩ := stopped_outcome sweeping loaded position increasing stops faulty
          (fun before => unreported ⟨faulty, before⟩)
        simp only [error]
        exact ⟨[], outcome⟩
      · have past : stop ≠ some index := fun isStop => corrupt (stops index isStop).2.2
        obtain ⟨stops', before⟩ := stops.later increasing (position.symm ▸ past)
        rw [position] at before
        rw [listed]
        by_cases fires : scheduler.simTimeSecs % (table index).frequency = (table index).remainder
        · have due : Due context.constants second (table index) ∧ Before stop index :=
            ⟨⟨⟨loaded ▸ enabled, sweeping.simTimeSecs ▸ fires⟩, corrupt⟩, before⟩
          simp only [processNextEntry, loaded, corrupt, fires, ite_true, ite_false]
          by_cases success : (sendEntry context index scheduler).1 = 0
          · simp only [success, ne_eq, not_true_eq_false, ite_false]
            obtain ⟨sent, outcome⟩ := ih increasing' others sweeping.sent stops'
            exact ⟨index :: sent, outcome.sent (sendEntry_sends loaded) rfl due⟩
          · simp only [success, ne_eq, not_false_eq_true, ite_true]
            exact ⟨[index], failed_outcome sweeping success loaded due⟩
        · simp only [processNextEntry, loaded, corrupt, fires, ite_false]
          obtain ⟨sent, outcome⟩ := ih increasing' others sweeping stops'
          exact ⟨sent, outcome.passed (fun due => fires (sweeping.simTimeSecs ▸ due.1.1.2))⟩
    next disabled =>
      have past : stop ≠ some index := by
        intro isStop
        obtain ⟨_, faulty⟩ := stops index isStop
        have untouched : ¬ (Faulty context.constants (table index) ∧ Before stop index) := by
          rintro ⟨_, before⟩
          simp [Before, isStop] at before
        rw [sweeping.kept member untouched] at disabled
        exact disabled faulty.1
      obtain ⟨stops', _⟩ := stops.later increasing (position.symm ▸ past)
      rw [listed]
      obtain ⟨sent, outcome⟩ := ih increasing' others sweeping stops'
      refine ⟨sent, outcome.passed ?_⟩
      rintro ⟨⟨active, proper⟩, _⟩
      have untouched : ¬ (Faulty context.constants (table index) ∧ Before stop index) :=
        fun faulty => proper faulty.1.2
      rw [sweeping.kept member untouched] at disabled
      exact disabled active.1

end Pass

/-- The pass has reported a faulty entry of the slot. -/
def reportsIn (slot : Nat) (pass : SchedulePass) : Bool :=
  match pass.error with
  | some (.corruptData found _ _) => found = slot
  | _ => false

section Runs
variable (context : ScheduleContext) (timeOf : Nat → Nat) (ticsPerSec : Nat) (scheduler : TrickCFSScheduler)

def passAt (call : Nat) : SchedulePass :=
  (scheduler.after context timeOf ticsPerSec call).processScheduleTable context (timeOf call) ticsPerSec

/-- The slot that the time of a call selects. -/
def slotAt (call : Nat) : Nat := (scheduler.updateTimeTics context (timeOf call) ticsPerSec).1

/-- The reports of faulty entries of the slot, by the first calls. -/
def reports (calls slot : Nat) : Nat :=
  (List.range calls).countP (fun call => reportsIn slot (passAt context timeOf ticsPerSec scheduler call))

/-- The first faulty entry of the slot that has not been reported. -/
def stopAt (call : Nat) : Option Nat :=
  let slot := slotAt context timeOf ticsPerSec scheduler call
  (faultyEntries context.constants scheduler.scheduleTable slot)[reports context timeOf ticsPerSec scheduler call slot]?

/-- The entries that the first calls have reported. -/
def Reported (calls index : Nat) : Prop :=
  let slot := index / context.constants.entriesPerSlot
  index ∈ (faultyEntries context.constants scheduler.scheduleTable slot).take
    (reports context timeOf ticsPerSec scheduler calls slot)

instance (calls index : Nat) : Decidable (Reported context timeOf ticsPerSec scheduler calls index) :=
  inferInstanceAs (Decidable (_ ∈ _))

end Runs

theorem faultyEntries_increasing (constants : SchConstants) (table : Nat → ScheduleEntry) (slot : Nat) :
    (faultyEntries constants table slot).Pairwise (fun first second => first < second) := by
  apply List.Pairwise.filter
  apply List.pairwise_map.mpr
  exact List.pairwise_lt_range.imp (fun less => by omega)

theorem mem_take_iff {items : List Nat} (increasing : items.Pairwise (fun first second => first < second))
    (count index : Nat) : index ∈ items.take count ↔ index ∈ items ∧ Before items[count]? index := by
  induction items generalizing count with
  | nil => simp
  | cons first items ih =>
    obtain ⟨least, increasing⟩ := List.pairwise_cons.mp increasing
    cases count with
    | zero =>
      simp only [List.take_zero, List.not_mem_nil, List.getElem?_cons_zero, Before, Option.all_some,
        decide_eq_true_eq, false_iff, not_and, List.mem_cons]
      rintro (rfl | later)
      · omega
      · have less := least index later
        omega
    | succ count =>
      simp only [List.take_succ_cons, List.mem_cons, List.getElem?_cons_succ, ih increasing]
      constructor
      · rintro (rfl | ⟨member, before⟩)
        · refine ⟨Or.inl rfl, ?_⟩
          cases next : items[count]? with
          | none => rfl
          | some faulty =>
            have less := least faulty (List.mem_of_getElem? next)
            simpa [Before] using less
        · exact ⟨Or.inr member, before⟩
      · rintro ⟨rfl | member, before⟩
        · exact Or.inl rfl
        · exact Or.inr ⟨member, before⟩

theorem mem_faultyEntries {index : Nat} :
    index ∈ faultyEntries constants table slot ↔ index ∈ slotEntries constants slot ∧ Faulty constants (table index) := by
  rw [faultyEntries, List.mem_filter, decide_eq_true_eq]

theorem slot_of_entry {index : Nat} (member : index ∈ slotEntries constants slot) :
    index / constants.entriesPerSlot = slot := by
  obtain ⟨entryNumber, listed, rfl⟩ := mem_indices.mp member
  have inside := List.mem_range.mp listed
  rw [Nat.mul_comm, Nat.mul_add_div (by omega), Nat.div_eq_of_lt inside, Nat.add_zero]

section Healing
variable {timeOf : Nat → Nat} {ticsPerSec : Nat} {call : Nat}

/-- The reported entries are disabled, and all others are as they were loaded. -/
def Healed (context : ScheduleContext) (timeOf : Nat → Nat) (ticsPerSec : Nat) (scheduler : TrickCFSScheduler)
    (calls : Nat) : Prop :=
  ∀ index, (scheduler.after context timeOf ticsPerSec calls).scheduleTable index =
    if Reported context timeOf ticsPerSec scheduler calls index
    then disabledEntry context.constants (scheduler.scheduleTable index) else scheduler.scheduleTable index

private theorem reported_iff {index : Nat}
    (member : index ∈ slotEntries context.constants (slotAt context timeOf ticsPerSec scheduler call)) :
    Reported context timeOf ticsPerSec scheduler call index ↔
      Faulty context.constants (scheduler.scheduleTable index) ∧
        Before (stopAt context timeOf ticsPerSec scheduler call) index := by
  rw [Reported, slot_of_entry member, mem_take_iff (faultyEntries_increasing ..), mem_faultyEntries, and_assoc]
  exact and_iff_right member

private theorem stopAt_stops : Stops context.constants scheduler.scheduleTable
    (slotAt context timeOf ticsPerSec scheduler call) (stopAt context timeOf ticsPerSec scheduler call)
    (List.range context.constants.entriesPerSlot) :=
  fun _ isStop => mem_faultyEntries.mp (List.mem_of_getElem? isStop)

/-- What a pass does on the table that the passes before it have left. -/
theorem passAt_outcome (apart : context.constants.disabled ≠ context.constants.enabled)
    (healed : Healed context timeOf ticsPerSec scheduler call) :
    Outcome context scheduler.scheduleTable (slotAt context timeOf ticsPerSec scheduler call)
      (timeOf call / ticsPerSec) (stopAt context timeOf ticsPerSec scheduler call)
      (slotEntries context.constants (slotAt context timeOf ticsPerSec scheduler call))
      (scheduler.after context timeOf ticsPerSec call) (passAt context timeOf ticsPerSec scheduler call)
      (scheduler.transmittedAt context timeOf ticsPerSec call) := by
  have ends : (scheduler.after context timeOf ticsPerSec (call + 1)) =
      (passAt context timeOf ticsPerSec scheduler call).scheduler := rfl
  suffices found : ∃ sent, Outcome context scheduler.scheduleTable (slotAt context timeOf ticsPerSec scheduler call)
      (timeOf call / ticsPerSec) (stopAt context timeOf ticsPerSec scheduler call)
      (slotEntries context.constants (slotAt context timeOf ticsPerSec scheduler call))
      (scheduler.after context timeOf ticsPerSec call) (passAt context timeOf ticsPerSec scheduler call) sent by
    obtain ⟨sent, outcome⟩ := found
    have same := outcome.sends.transmittedSince
    rw [← ends] at same
    rwa [transmittedAt, same]
  rw [passAt, processScheduleTable, processNextSlot]
  generalize started : ({ ((scheduler.after context timeOf ticsPerSec call).updateTimeTics context (timeOf call)
      ticsPerSec).2 with
    nextSlotNumber := ((scheduler.after context timeOf ticsPerSec call).updateTimeTics context (timeOf call)
      ticsPerSec).1 } : TrickCFSScheduler) = start
  have table : start.scheduleTable = (scheduler.after context timeOf ticsPerSec call).scheduleTable := by
    rw [← started]
    rfl
  have begun : Sends context scheduler.scheduleTable (scheduler.after context timeOf ticsPerSec call) start [] := by
    rw [← started]
    exact .none rfl rfl
  have sweeping : Sweeping context.constants scheduler.scheduleTable (slotAt context timeOf ticsPerSec scheduler call)
      (timeOf call / ticsPerSec) (stopAt context timeOf ticsPerSec scheduler call) start := by
    refine ⟨by rw [← started]; rfl, by rw [← started]; rfl, ?_⟩
    intro index member
    rw [table, healed index]
    simp only [reported_iff member]
  obtain ⟨sent, outcome⟩ := processEntries_outcome apart (List.range context.constants.entriesPerSlot)
    List.pairwise_lt_range (fun _ listed => List.mem_range.mp listed) sweeping stopAt_stops
  have sends := begun.trans outcome.sends
  have ended := outcome.ended
  rw [table] at ended
  refine ⟨sent, ?_⟩
  simp only []
  split
  · exact ⟨sends, outcome.due, ended⟩
  · exact ⟨⟨sends.transmissions, sends.sim⟩, outcome.due, ended⟩

private theorem reports_succ (calls slot : Nat) :
    reports context timeOf ticsPerSec scheduler (calls + 1) slot =
      reports context timeOf ticsPerSec scheduler calls slot +
        if reportsIn slot (passAt context timeOf ticsPerSec scheduler calls) then 1 else 0 := by
  simp [reports, List.range_succ, List.countP_append, List.countP_cons]

private theorem healed_silent (healed : Healed context timeOf ticsPerSec scheduler call)
    (silent : ∀ slot, reportsIn slot (passAt context timeOf ticsPerSec scheduler call) = false)
    (kept : (passAt context timeOf ticsPerSec scheduler call).scheduler.scheduleTable =
      (scheduler.after context timeOf ticsPerSec call).scheduleTable) :
    Healed context timeOf ticsPerSec scheduler (call + 1) := by
  intro index
  have table : (scheduler.after context timeOf ticsPerSec (call + 1)).scheduleTable index = _ := congrFun kept index
  have same : Reported context timeOf ticsPerSec scheduler (call + 1) index ↔
      Reported context timeOf ticsPerSec scheduler call index := by
    simp only [Reported, reports_succ, silent, Bool.false_eq_true, ite_false, Nat.add_zero]
  rw [table, healed index]
  simp only [same]

private theorem healed_report (healed : Healed context timeOf ticsPerSec scheduler call) {faulty : Nat}
    (isStop : stopAt context timeOf ticsPerSec scheduler call = some faulty)
    (error : (passAt context timeOf ticsPerSec scheduler call).error = some (corruption context.constants
      scheduler.scheduleTable (slotAt context timeOf ticsPerSec scheduler call) faulty))
    (disabled : (passAt context timeOf ticsPerSec scheduler call).scheduler.scheduleTable =
      disableAt context.constants (scheduler.after context timeOf ticsPerSec call).scheduleTable (some faulty)) :
    Healed context timeOf ticsPerSec scheduler (call + 1) := by
  obtain ⟨member, _⟩ := mem_faultyEntries.mp (List.mem_of_getElem? isStop)
  have slot := slot_of_entry member
  have reporting (other : Nat) : reportsIn other (passAt context timeOf ticsPerSec scheduler call) =
      decide (slotAt context timeOf ticsPerSec scheduler call = other) := by
    simp only [reportsIn, error, corruption]
  intro index
  have table : (scheduler.after context timeOf ticsPerSec (call + 1)).scheduleTable index = _ :=
    congrFun disabled index
  rw [table, disableAt]
  have grown : Reported context timeOf ticsPerSec scheduler (call + 1) index ↔
      Reported context timeOf ticsPerSec scheduler call index ∨ index = faulty := by
    simp only [Reported, reports_succ, reporting]
    by_cases here : slotAt context timeOf ticsPerSec scheduler call = index / context.constants.entriesPerSlot
    · rw [stopAt, here] at isStop
      simp [here, List.take_add_one, isStop]
    · have other : index ≠ faulty := fun same => here (by rw [same, slot])
      simp [here, other]
  simp only [grown]
  by_cases same : index = faulty
  · subst same
    simp only [Function.update_self, or_true, ite_true, healed index]
    split <;> rfl
  · simp only [Function.update_of_ne same, same, or_false, healed index]

theorem healed_run (apart : context.constants.disabled ≠ context.constants.enabled) (calls : Nat) :
    Healed context timeOf ticsPerSec scheduler calls := by
  induction calls with
  | zero =>
    intro index
    simp [Reported, reports, after]
  | succ call healed =>
    rcases (passAt_outcome apart healed).ended with ⟨⟨entryNumber, status, error, _⟩, kept⟩ | ⟨_, error, disabled⟩
    · exact healed_silent healed (fun slot => by simp only [reportsIn, error]) kept
    · cases isStop : stopAt context timeOf ticsPerSec scheduler call with
      | none =>
        rw [isStop] at error disabled
        exact healed_silent healed (fun slot => by simp only [reportsIn, error, Option.map_none]) disabled
      | some faulty =>
        rw [isStop] at error disabled
        exact healed_report healed isStop error disabled

/-- The number of reports in a slot when every transmission succeeds: one for each
pass through the slot until all its faulty entries are disabled. -/
theorem reports_of_success (apart : context.constants.disabled ≠ context.constants.enabled)
    (success : ∀ call slot, ¬ Failed slot (passAt context timeOf ticsPerSec scheduler call)) (calls slot : Nat) :
    reports context timeOf ticsPerSec scheduler calls slot =
      min ((List.range calls).countP (fun call => slotAt context timeOf ticsPerSec scheduler call = slot))
        (faultyEntries context.constants scheduler.scheduleTable slot).length := by
  induction calls with
  | zero => simp [reports]
  | succ call ih =>
    have ended := (passAt_outcome apart (healed_run apart call)).ended.resolve_left
      (fun failed => success call _ failed.1)
    have reporting : reportsIn slot (passAt context timeOf ticsPerSec scheduler call) = true ↔
        slotAt context timeOf ticsPerSec scheduler call = slot ∧
          reports context timeOf ticsPerSec scheduler call slot <
            (faultyEntries context.constants scheduler.scheduleTable slot).length := by
      simp only [reportsIn, ended.2.1, stopAt]
      by_cases here : slotAt context timeOf ticsPerSec scheduler call = slot
      · subst here
        by_cases more : reports context timeOf ticsPerSec scheduler call (slotAt context timeOf ticsPerSec scheduler call) <
            (faultyEntries context.constants scheduler.scheduleTable
              (slotAt context timeOf ticsPerSec scheduler call)).length
        · simp [more, corruption]
        · simp [more]
      · split
        next found _ _ error =>
          obtain ⟨faulty, _, same⟩ := Option.map_eq_some_iff.mp error
          simp only [corruption, ActivityError.corruptData.injEq] at same
          simp [← same.1, here]
        next => simp [here]
    rw [reports_succ, List.range_succ, List.countP_append, ih]
    simp only [reporting, List.countP_singleton, decide_eq_true_eq]
    split <;> split <;> omega

end Healing

/-- One slot of three entries, of which the second one has a wrong activity. -/
def corruptedSlot : ScheduleContext :=
  { twoSlots with
    constants := { twoSlots.constants with totalSlots := 1, entriesPerSlot := 3, tableEntries := 3, tableEntries_eq := rfl } }

def secondCorrupted : TrickCFSScheduler :=
  { oddSeconds with scheduleTable := fun index => ⟨1, if index = 1 then 7 else 1, 1, 0, 3, 0⟩ }

end TrickCFS.Proofs.TableHealing
