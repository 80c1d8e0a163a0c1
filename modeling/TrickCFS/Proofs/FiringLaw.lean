import TrickCFS.Library.Divider
import TrickCFS.SchLabTrickCFSScheduler

/-! When each entry of the table is sent. An entry's counter divides the calls
by the entry's own rate, and no entry reads another one. -/

namespace TrickCFS.Proofs.FiringLaw
open SchLabTrickCFSScheduler

variable {entry : SchLabStateEntry} {scheduler : SchLabTrickCFSScheduler}

/-- The calls at which the entry is sent, if its counter starts at zero. -/
def Due (entry : SchLabStateEntry) (call : Nat) : Prop :=
  entry.packetRate ≠ 0 ∧ entry.packetRate.toNat ∣ call

instance (entry : SchLabStateEntry) (call : Nat) : Decidable (Due entry call) :=
  inferInstanceAs (Decidable (_ ∧ _))

/-- The due entries of a table, in table order. -/
def dueSends (state : List SchLabStateEntry) (call : Nat) : List ScheduledSend :=
  state.zipIdx.filterMap (fun slot =>
    if Due slot.1 call then some ⟨slot.2, slot.1.msgId, slot.1.commandHeader⟩ else none)

def sentCount (scheduler : SchLabTrickCFSScheduler) (index calls : Nat) : Nat :=
  ((List.range calls).map (fun call =>
    (scheduler.sentAt (call + 1)).countP (fun send => send.index = index))).sum

def afterTicks (entry : SchLabStateEntry) : Nat → SchLabStateEntry
  | 0 => entry
  | ticks + 1 => (afterTicks entry ticks).tick.1

theorem tick_enabled (entry : SchLabStateEntry) (enabled : entry.packetRate ≠ 0)
    (below : entry.counter.toNat < entry.packetRate.toNat) :
    (∃ counter, entry.tick.1 = { entry with counter } ∧
      counter.toNat = Divider.tick entry.packetRate.toNat entry.counter.toNat) ∧
    entry.tick.2 = Divider.fires entry.packetRate.toNat entry.counter.toNat := by
  have fits : (entry.counter + 1).toNat = entry.counter.toNat + 1 := by
    have bound := entry.packetRate.toNat_lt
    rw [UInt32.toNat_add, UInt32.toNat_one, Nat.mod_eq_of_lt]
    omega
  simp only [SchLabStateEntry.tick, if_pos enabled, ge_iff_le, UInt32.le_iff_toNat_le, fits, Divider.tick,
    Divider.fires, decide_eq_true_eq]
  split
  · exact ⟨⟨0, rfl, rfl⟩, by simp_all⟩
  · exact ⟨⟨_, rfl, fits⟩, by simp_all⟩

theorem tick_disabled (disabled : entry.packetRate = 0) : entry.tick = (entry, false) := by
  simp [SchLabStateEntry.tick, disabled]

theorem afterTicks_disabled (disabled : entry.packetRate = 0) (ticks : Nat) :
    afterTicks entry ticks = entry := by
  induction ticks with
  | zero => rfl
  | succ ticks ih => rw [afterTicks, ih, tick_disabled disabled]

theorem afterTicks_enabled (enabled : entry.packetRate ≠ 0) (fresh : entry.counter = 0) (ticks : Nat) :
    ∃ counter, afterTicks entry ticks = { entry with counter } ∧
      counter.toNat = ticks % entry.packetRate.toNat := by
  have positive : 0 < entry.packetRate.toNat :=
    Nat.pos_of_ne_zero (fun zero => enabled (UInt32.toNat_inj.mp zero))
  induction ticks with
  | zero => exact ⟨entry.counter, rfl, by simp [fresh]⟩
  | succ ticks ih =>
    obtain ⟨counter, same, count⟩ := ih
    obtain ⟨⟨counter', ticked, count'⟩, _⟩ :=
      tick_enabled { entry with counter } enabled (count ▸ Nat.mod_lt _ positive)
    refine ⟨counter', by rw [afterTicks, same, ticked], ?_⟩
    rw [count', count, Divider.tick_mod positive]

theorem afterTicks_fires (fresh : entry.counter = 0) (ticks : Nat) :
    (afterTicks entry ticks).tick.2 = true ↔ Due entry (ticks + 1) := by
  by_cases disabled : entry.packetRate = 0
  · simp [afterTicks_disabled disabled, tick_disabled disabled, Due, disabled]
  · have positive : 0 < entry.packetRate.toNat :=
      Nat.pos_of_ne_zero (fun zero => disabled (UInt32.toNat_inj.mp zero))
    obtain ⟨counter, same, count⟩ := afterTicks_enabled disabled fresh ticks
    have fires := (tick_enabled { entry with counter } disabled (count ▸ Nat.mod_lt _ positive)).2
    rw [same, fires, count, Divider.fires_mod positive, Due, and_iff_right disabled]

theorem afterTicks_message (fresh : entry.counter = 0) (ticks : Nat) :
    (afterTicks entry ticks).msgId = entry.msgId ∧
      (afterTicks entry ticks).commandHeader = entry.commandHeader := by
  by_cases disabled : entry.packetRate = 0
  · rw [afterTicks_disabled disabled]
    exact ⟨rfl, rfl⟩
  · obtain ⟨counter, same, _⟩ := afterTicks_enabled disabled fresh ticks
    rw [same]
    exact ⟨rfl, rfl⟩

theorem processEntries_state (start : Nat) (entries : List SchLabStateEntry) :
    (processEntries start entries).2 = entries.map (fun entry => entry.tick.1) := by
  induction entries generalizing start with
  | nil => rfl
  | cons entry rest ih => simp only [processEntries, List.map_cons, ih]

theorem processEntries_sent (start : Nat) (entries : List SchLabStateEntry) :
    (processEntries start entries).1 = (entries.zipIdx start).filterMap (fun slot =>
      if slot.1.tick.2 then some ⟨slot.2, slot.1.msgId, slot.1.commandHeader⟩ else none) := by
  induction entries generalizing start with
  | nil => rfl
  | cons entry rest ih =>
    simp only [processEntries, List.zipIdx_cons, List.filterMap_cons, ih]
    split <;> simp_all

theorem after_state (scheduler : SchLabTrickCFSScheduler) (calls : Nat) :
    (scheduler.after calls).state = scheduler.state.map (fun entry => afterTicks entry calls) := by
  induction calls with
  | zero => simp [after, afterTicks]
  | succ calls ih =>
    simp only [after, processScheduleTable, processEntries_state, ih, List.map_map]
    rfl

theorem index_sent_iff {index : Nat} (found : scheduler.state[index]? = some entry)
    (fresh : entry.counter = 0) {call : Nat} (positive : 0 < call) :
    (∃ send ∈ scheduler.sentAt call, send.index = index) ↔ Due entry call := by
  obtain ⟨calls, rfl⟩ := Nat.exists_eq_succ_of_ne_zero (Nat.pos_iff_ne_zero.mp positive)
  have now : (scheduler.state.map (fun entry => afterTicks entry calls))[index]? =
      some (afterTicks entry calls) := by rw [List.getElem?_map, found]; rfl
  have fires := afterTicks_fires fresh calls
  simp only [Nat.succ_eq_add_one, sentAt, Nat.add_sub_cancel, processScheduleTable, processEntries_sent,
    after_state, List.mem_filterMap, Option.ite_none_right_eq_some, Option.some.injEq]
  constructor
  · rintro ⟨send, ⟨⟨other, position⟩, member, fired, rfl⟩, rfl⟩
    cases now.symm.trans (List.mem_zipIdx_iff_getElem?.mp member)
    exact fires.mp fired
  · intro due
    exact ⟨_, ⟨(_, index), List.mem_zipIdx_iff_getElem?.mpr now, fires.mpr due, rfl⟩, rfl⟩

theorem sentAt_due (fresh : ∀ entry ∈ scheduler.state, entry.counter = 0) (calls : Nat) :
    scheduler.sentAt (calls + 1) = dueSends scheduler.state (calls + 1) := by
  simp only [sentAt, Nat.add_sub_cancel, processScheduleTable, processEntries_sent, after_state,
    List.zipIdx_map, List.filterMap_map, dueSends]
  apply List.filterMap_congr
  intro slot member
  have fresh := fresh slot.1 (List.fst_mem_of_mem_zipIdx member)
  have message := afterTicks_message fresh calls
  simp only [Function.comp_apply, Prod.map_fst, Prod.map_snd, id_eq, afterTicks_fires fresh, message]

theorem mem_dueSends {state : List SchLabStateEntry} {call : Nat} {send : ScheduledSend} :
    send ∈ dueSends state call ↔ ∃ entry, state[send.index]? = some entry ∧ Due entry call ∧
      send.msgId = entry.msgId ∧ send.message = entry.commandHeader := by
  simp only [dueSends, List.mem_filterMap, Option.ite_none_right_eq_some, Option.some.injEq]
  constructor
  · rintro ⟨⟨entry, index⟩, member, due, rfl⟩
    exact ⟨entry, List.mem_zipIdx_iff_getElem?.mp member, due, rfl, rfl⟩
  · intro ⟨entry, found, due, msgId, message⟩
    refine ⟨(entry, send.index), List.mem_zipIdx_iff_getElem?.mpr found, due, ?_⟩
    simp only [← msgId, ← message]

theorem dueSends_ordered (state : List SchLabStateEntry) (call : Nat) :
    (dueSends state call).Pairwise (fun first second => first.index < second.index) := by
  have ordered : state.zipIdx.Pairwise (fun first second => first.2 < second.2) := by
    have indices := List.pairwise_lt_range' (s := 0) (n := state.length)
    rw [← List.zipIdx_map_snd 0 state] at indices
    exact List.pairwise_map.mp indices
  refine List.Pairwise.filterMap _ ?_ ordered
  intro first second less earlier found later found'
  simp only [Option.ite_none_right_eq_some, Option.some.injEq] at found found'
  obtain ⟨_, rfl⟩ := found
  obtain ⟨_, rfl⟩ := found'
  exact less

theorem countP_dueSends {state : List SchLabStateEntry} {index : Nat} (found : state[index]? = some entry)
    (call : Nat) :
    (dueSends state call).countP (fun send => send.index = index) = if Due entry call then 1 else 0 := by
  have distinct : ((dueSends state call).map ScheduledSend.index).Nodup :=
    List.pairwise_map.mpr ((dueSends_ordered state call).imp Nat.ne_of_lt)
  have counted : ((dueSends state call).map ScheduledSend.index).count index = _ := distinct.count
  have member : index ∈ (dueSends state call).map ScheduledSend.index ↔ Due entry call := by
    simp only [List.mem_map, mem_dueSends]
    constructor
    · rintro ⟨send, ⟨other, found', due, _⟩, rfl⟩
      cases found.symm.trans found'
      exact due
    · intro due
      exact ⟨⟨index, entry.msgId, entry.commandHeader⟩, ⟨entry, found, due, rfl, rfl⟩, rfl⟩
  simpa only [List.count, List.countP_map, Function.comp_def, beq_eq_decide, member] using counted

theorem sentCount_eq (fresh : ∀ entry ∈ scheduler.state, entry.counter = 0) {index : Nat}
    (found : scheduler.state[index]? = some entry) (enabled : entry.packetRate ≠ 0) (calls : Nat) :
    sentCount scheduler index calls = calls / entry.packetRate.toNat := by
  rw [← Divider.countP_multiples]
  induction calls with
  | zero => rfl
  | succ calls ih =>
    have last : sentCount scheduler index (calls + 1) = sentCount scheduler index calls +
        if Due entry (calls + 1) then 1 else 0 := by
      simp only [sentCount, List.range_succ, List.map_append, List.map_singleton, List.sum_append,
        List.sum_singleton, sentAt_due fresh, countP_dueSends found]
    rw [last, ih, List.range_succ, List.countP_append, List.countP_singleton]
    simp only [Due, ne_eq, enabled, not_false_eq_true, true_and, decide_eq_true_eq]

/-- The whole firing law. An entry is sent at the multiples of its rate, in
table order within a call, whatever the rates of the other entries are. -/
theorem table_firing_law (scheduler : SchLabTrickCFSScheduler)
    (fresh : ∀ entry ∈ scheduler.state, entry.counter = 0) :
    (∀ call, 0 < call → scheduler.sentAt call = dueSends scheduler.state call ∧
      (scheduler.sentAt call).Pairwise (fun first second => first.index < second.index)) ∧
    ∀ index entry, scheduler.state[index]? = some entry →
      (entry.packetRate = 0 → ∀ call, 0 < call → ∀ send ∈ scheduler.sentAt call, send.index ≠ index) ∧
      (entry.packetRate ≠ 0 →
        (∀ call, 0 < call →
          ((∃ send ∈ scheduler.sentAt call, send.index = index) ↔ entry.packetRate.toNat ∣ call)) ∧
        ∀ calls, sentCount scheduler index calls = calls / entry.packetRate.toNat ∧
          ∃ now, (scheduler.after calls).state[index]? = some now ∧
            now.counter.toNat = calls % entry.packetRate.toNat) := by
  have sent : ∀ call, 0 < call → scheduler.sentAt call = dueSends scheduler.state call := by
    intro call positive
    obtain ⟨calls, rfl⟩ := Nat.exists_eq_succ_of_ne_zero (Nat.pos_iff_ne_zero.mp positive)
    exact sentAt_due fresh calls
  refine ⟨?_, ?_⟩
  · intro call positive
    rw [sent call positive]
    exact ⟨rfl, dueSends_ordered _ _⟩
  intro index entry found
  have zero := fresh entry (List.mem_of_getElem? found)
  refine ⟨?_, ?_⟩
  · intro disabled call positive send member same
    exact ((index_sent_iff found zero positive).mp ⟨send, member, same⟩).1 disabled
  intro enabled
  refine ⟨?_, ?_⟩
  · intro call positive
    rw [index_sent_iff found zero positive, Due, and_iff_right enabled]
  · intro calls
    refine ⟨sentCount_eq fresh found enabled calls, ?_⟩
    obtain ⟨counter, same, count⟩ := afterTicks_enabled enabled zero calls
    refine ⟨afterTicks entry calls, ?_, by rw [same]; exact count⟩
    rw [after_state, List.getElem?_map, found]
    rfl

def twoRates : SchLabTrickCFSScheduler where
  state := [{ msgId := 7, packetRate := 2 }, { msgId := 8, packetRate := 3 }]

theorem table_firing_law_two_rates :
    sentCount twoRates 0 7 = 3 ∧ (twoRates.sentAt 6).map ScheduledSend.msgId = [7, 8] := by
  have law := table_firing_law twoRates (by decide)
  refine ⟨(((law.2 0 _ rfl).2 (by decide)).2 7).1, ?_⟩
  rw [(law.1 6 (by decide)).1]
  decide

end TrickCFS.Proofs.FiringLaw
