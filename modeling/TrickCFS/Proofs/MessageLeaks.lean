import TrickCFS.MessageBytes
import TrickCFS.Proofs.CommandSlots

/-! What a transmitted message shows of the memory behind its buffer. The bytes
in front of `PacketRate` follow from the message itself; a declared size that
reaches further transmits the rate, and whatever lies behind it. -/

namespace TrickCFS.Proofs.MessageLeaks
open SchLabTrickCFSScheduler FiringLaw UserCommands CommandSlots

variable {layout : EntryLayout} {behind : Nat → UInt8} {cfe : CfeMessages}
  {entry entry' : SchLabStateEntry} {state done rest : List SchLabStateEntry} {index : Nat}

/-- The entries differ in `Counter`, `PacketRate` and `MsgId` at most. -/
structure SameMessage (layout : EntryLayout) (entry entry' : SchLabStateEntry) : Prop where
  commandHeader : entry.commandHeader = entry'.commandHeader
  messageBuffer : layout.bufferBytes entry.messageBuffer = layout.bufferBytes entry'.messageBuffer
  payloadLength : entry.payloadLength = entry'.payloadLength

section Layout

@[simp] theorem bufferBytes_length (messageBuffer : List UInt16) :
    (layout.bufferBytes messageBuffer).length = 2 * layout.maxArgsPerEntry := by
  simp [EntryLayout.bufferBytes, uint16Bytes, List.length_flatMap, Nat.mul_comm]

@[simp] theorem frontBytes_length : (layout.frontBytes entry).length = layout.rateOffset := by
  simp only [EntryLayout.frontBytes, List.length_append, layout.headerBytes_length, bufferBytes_length,
    uint16Bytes, List.length_cons, List.length_nil, List.length_replicate, layout.msgIdBytes_length,
    EntryLayout.rateOffset]

theorem frontBytes_same (same : SameMessage layout entry entry') (msgId : entry.msgId = entry'.msgId) :
    layout.frontBytes entry = layout.frontBytes entry' := by
  simp only [EntryLayout.frontBytes, same.commandHeader, same.messageBuffer, same.payloadLength, msgId]

theorem stateMemory_entry (found : state[index]? = some entry) {offset : Nat}
    (inside : offset < layout.entrySize) :
    layout.stateMemory behind state (index * layout.entrySize + offset) =
      (layout.entryBytes entry).getD offset 0 := by
  have quotient : (index * layout.entrySize + offset) / layout.entrySize = index := by
    rw [Nat.mul_comm, Nat.mul_add_div (Nat.zero_lt_of_lt inside), Nat.div_eq_of_lt inside, Nat.add_zero]
  have remainder : (index * layout.entrySize + offset) % layout.entrySize = offset := by
    rw [Nat.mul_comm, Nat.mul_add_mod, Nat.mod_eq_of_lt inside]
  simp only [EntryLayout.stateMemory, quotient, found, remainder]

theorem stateMemory_front (found : state[index]? = some entry) {offset : Nat}
    (inside : offset < layout.rateOffset) :
    layout.stateMemory behind state (index * layout.entrySize + offset) =
      (layout.frontBytes entry).getD offset 0 := by
  rw [stateMemory_entry found (by simp only [EntryLayout.entrySize]; omega), EntryLayout.entryBytes,
    List.getD_append _ _ _ _ (by rwa [frontBytes_length])]

theorem stateMemory_rate (found : state[index]? = some entry) :
    layout.stateMemory behind state (index * layout.entrySize + layout.rateOffset) =
      entry.packetRate.toUInt8 := by
  rw [stateMemory_entry found (by simp only [EntryLayout.entrySize]; omega), EntryLayout.entryBytes,
    List.getD_append_right _ _ _ _ (by rw [frontBytes_length]), frontBytes_length, Nat.sub_self]
  rfl

end Layout

def MessageOf (layout : EntryLayout) (behind : Nat → UInt8) (index : Nat) (entry : SchLabStateEntry)
    (bytes : List UInt8) : Prop :=
  ∃ state : List SchLabStateEntry, state[index]? = some entry ∧
    bytes = (layout.stateMemory behind state).read (index * layout.entrySize)
      (layout.messageSize entry.commandHeader)

section Messages
variable {bytes bytes' : List UInt8}

/-- Up to `PacketRate` a message follows from its own fields. -/
theorem messageOf_front {behind' : Nat → UInt8} (message : MessageOf layout behind index entry bytes)
    (message' : MessageOf layout behind' index entry' bytes') (same : SameMessage layout entry entry')
    (msgId : entry.msgId = entry'.msgId)
    (short : layout.messageSize entry.commandHeader ≤ layout.rateOffset) : bytes = bytes' := by
  obtain ⟨state, found, rfl⟩ := message
  obtain ⟨state', found', rfl⟩ := message'
  rw [← same.commandHeader, ByteMemory.read_eq_iff]
  intro offset inside
  have front : offset < layout.rateOffset := Nat.lt_of_lt_of_le inside short
  rw [stateMemory_front found front, stateMemory_front found' front, frontBytes_same same msgId]

theorem messageOf_rate (message : MessageOf layout behind index entry bytes)
    (long : layout.rateOffset < layout.messageSize entry.commandHeader) :
    bytes[layout.rateOffset]? = some entry.packetRate.toUInt8 := by
  obtain ⟨state, found, rfl⟩ := message
  rw [ByteMemory.read_getElem? long, stateMemory_rate found]

theorem transmitted_message (sent : (index, bytes) ∈ transmitEntries layout behind done rest) :
    ∃ entry, done.length ≤ index ∧ rest[index - done.length]? = some entry ∧ entry.tick.2 = true ∧
      MessageOf layout behind index entry.tick.1 bytes := by
  induction rest generalizing done with
  | nil => cases sent
  | cons first rest ih =>
    have later : (index, bytes) ∈ transmitEntries layout behind (done ++ [first.tick.1]) rest →
        ∃ entry, done.length ≤ index ∧ (first :: rest)[index - done.length]? = some entry ∧
          entry.tick.2 = true ∧ MessageOf layout behind index entry.tick.1 bytes := by
      intro sent
      obtain ⟨entry, passed, found, fires, message⟩ := ih sent
      rw [List.length_append, List.length_singleton] at passed found
      refine ⟨entry, by omega, ?_, fires, message⟩
      have next : index - done.length = index - (done.length + 1) + 1 := by omega
      rwa [next, List.getElem?_cons_succ]
    simp only [transmitEntries] at sent
    split at sent
    next fires =>
      rcases List.mem_cons.mp sent with here | sent
      · cases here
        refine ⟨first, Nat.le_refl _, ?_, fires, done ++ first.tick.1 :: rest, ?_, rfl⟩
        · rw [Nat.sub_self, List.getElem?_cons_zero]
        · rw [List.getElem?_append_right (Nat.le_refl _), Nat.sub_self, List.getElem?_cons_zero]
      · exact later sent
    next => exact later sent

theorem transmitted_of_fires (done : List SchLabStateEntry) {position : Nat} (found : rest[position]? = some entry)
    (fires : entry.tick.2 = true) :
    ∃ bytes, (done.length + position, bytes) ∈ transmitEntries layout behind done rest := by
  induction rest generalizing done position with
  | nil => cases found
  | cons first rest ih =>
    simp only [transmitEntries]
    cases position with
    | zero =>
      cases found
      rw [if_pos fires]
      exact ⟨_, List.mem_cons_self ..⟩
    | succ position =>
      obtain ⟨bytes, sent⟩ := ih (done ++ [first.tick.1]) found
      rw [List.length_append, List.length_singleton, Nat.add_assoc, Nat.add_comm 1] at sent
      refine ⟨bytes, ?_⟩
      split
      · exact List.mem_cons_of_mem _ sent
      · exact sent

end Messages

section Ready
variable {table : ScheduleTable} {cmds : List AddedCmd} {ready : SchLabTrickCFSScheduler}

inductive Origin (cfe : CfeMessages) (table : ScheduleTable) (cmds : List AddedCmd) (entry : SchLabStateEntry) :
    Prop
  | configured (config : ScheduleTableEntry) (used : config.packetRate ≠ 0)
      (loaded : entry = SchLabStateEntry.load cfe config {})
  | added (cmd : AddedCmd) (member : cmd ∈ cmds) (frame : Nat)
      (installed : entry = inTicks frame (cmdEntry cfe cmd))

theorem ready_state {maxScheduleEntries : Nat} (whole : table.config.length = maxScheduleEntries)
    (made : makeReady cfe maxScheduleEntries table cmds = some ready) :
    ready.state = FirstFit.placeAll (SchLabStateEntry.isFree cfe)
      ((cmds.map (cmdEntry cfe)).map (inTicks (timerPeriod table.tickRate).toNat)) (loadedState cfe table) := by
  subst whole
  rw [makeReady_installs, Option.map_eq_some_iff] at made
  obtain ⟨state, installed, rfl⟩ := made
  exact installCmds_placeAll installed

theorem ready_origin {maxScheduleEntries : Nat} (whole : table.config.length = maxScheduleEntries)
    (made : makeReady cfe maxScheduleEntries table cmds = some ready) (member : entry ∈ ready.state)
    (used : entry.packetRate ≠ 0) : Origin cfe table cmds entry := by
  rw [ready_state whole made] at member
  rcases FirstFit.mem_placeAll member with placed | loaded
  · obtain ⟨newEntry, added, rfl⟩ := List.mem_map.mp placed
    obtain ⟨cmd, listed, rfl⟩ := List.mem_map.mp added
    exact .added cmd listed _ rfl
  · obtain ⟨config, _, rfl⟩ := List.mem_map.mp loaded
    refine .configured config ?_ rfl
    intro unused
    rw [SchLabStateEntry.load_unused cfe unused] at used
    exact used rfl

theorem Origin.msgId (origin : Origin cfe table cmds entry) : entry.commandHeader.msgId = entry.msgId := by
  cases origin with
  | configured config used loaded => rw [loaded, SchLabStateEntry.load_used cfe used]
  | added cmd member frame installed => simp only [installed, inTicks, cmdEntry, SchLabStateEntry.ofCmd_eq]

theorem Origin.fresh (origin : Origin cfe table cmds entry) : entry.counter = 0 := by
  cases origin with
  | configured config used loaded => rw [loaded, SchLabStateEntry.load_used cfe used]
  | added cmd member frame installed => simp only [installed, inTicks, cmdEntry, SchLabStateEntry.ofCmd_eq]

theorem transmittedAt_message {call : Nat} {bytes : List UInt8} (found : ready.state[index]? = some entry)
    (sent : (index, bytes) ∈ ready.transmittedAt layout behind call) :
    ∃ ticks, (afterTicks entry ticks).tick.2 = true ∧
      MessageOf layout behind index (afterTicks entry (ticks + 1)) bytes := by
  rw [transmittedAt, after_state] at sent
  obtain ⟨ticked, _, now, fires, message⟩ := transmitted_message sent
  rw [List.length_nil, Nat.sub_zero, List.getElem?_map, found] at now
  cases now
  exact ⟨call - 1, fires, message⟩

/-- With the default tick rate every table and every command is accepted. -/
theorem makeReady_default (cfe : CfeMessages) (configs : List ScheduleTableEntry) (cmds : List AddedCmd) :
    ∃ ready, makeReady cfe configs.length ⟨0, configs⟩ cmds = some ready ∧
      ready.state = FirstFit.placeAll (SchLabStateEntry.isFree cfe)
        ((cmds.map (cmdEntry cfe)).map (inTicks 1000000)) (loadedState cfe ⟨0, configs⟩) :=
  ⟨_, makeReady_eq (by decide : 0 < (timerPeriod 0).toNat), rfl⟩

def unusedConfig : ScheduleTableEntry := ⟨0, 0, 0, 0, []⟩

theorem inTicks_seconds (cmd : AddedCmd) {rate : Nat} (most : rate ≤ 2) :
    inTicks 1000000 (cmdEntry cfe { cmd with cmdRate := rate }) =
      { cmdEntry cfe cmd with packetRate := UInt32.ofNat rate } := by
  have micros : ⌊Binary64.round ((rate : ℚ) * 1000000)⌋₊ = rate * 1000000 := by
    have product : (rate : ℚ) * 1000000 = ((rate * 1000000 : Nat) : ℚ) := by
      push_cast
      rfl
    rw [product, Binary64.round_natCast (by omega), Nat.floor_natCast]
  have fits : (UInt32.ofNat (rate * 1000000)).toNat = rate * 1000000 := UInt32.toNat_ofNat_of_lt' (by
    change rate * 1000000 < 4294967296
    omega)
  simp only [inTicks, cmdEntry, SchLabStateEntry.ofCmd_eq, micros, fits, Nat.mul_div_cancel rate (by decide : 0 < 1000000)]

theorem rate_enabled {rate : Nat} (least : 1 ≤ rate) (most : rate ≤ 2) : UInt32.ofNat rate ≠ 0 := by
  have cases : rate = 1 ∨ rate = 2 := by omega
  rcases cases with rfl | rfl <;> decide

theorem another_rate (cleared : cfe.invalidMsgId = 0) (origin : Origin cfe table cmds entry)
    {maxScheduleEntries rate : Nat} (inside : index < maxScheduleEntries) (least : 1 ≤ rate) (most : rate ≤ 2) :
    ∃ (table' : ScheduleTable) (cmds' : List AddedCmd) (ready' : SchLabTrickCFSScheduler),
      table'.config.length = maxScheduleEntries ∧
      makeReady cfe maxScheduleEntries table' cmds' = some ready' ∧
      ready'.state[index]? = some { entry with packetRate := UInt32.ofNat rate } := by
  have enabled := rate_enabled least most
  cases origin with
  | configured config used loaded =>
    generalize listed : (List.replicate maxScheduleEntries unusedConfig).set index
      { config with packetRate := UInt32.ofNat rate } = configs
    have whole : configs.length = maxScheduleEntries := by
      rw [← listed, List.length_set, List.length_replicate]
    obtain ⟨ready', made, state⟩ := makeReady_default cfe configs []
    refine ⟨_, _, ready', whole, whole ▸ made, ?_⟩
    have within : index < (List.replicate maxScheduleEntries unusedConfig).length := by
      rwa [List.length_replicate]
    rw [state, List.map_nil, List.map_nil, FirstFit.placeAll, loadedState, List.getElem?_map, ← listed,
      List.getElem?_set_self within, Option.map_some, loaded, SchLabStateEntry.load_used cfe used,
      SchLabStateEntry.load_used cfe enabled]
  | added cmd member frame installed =>
    have whole : (List.replicate maxScheduleEntries unusedConfig).length = maxScheduleEntries :=
      List.length_replicate
    obtain ⟨ready', made, state⟩ := makeReady_default cfe (List.replicate maxScheduleEntries unusedConfig)
      (List.replicate (index + 1) { cmd with cmdRate := rate })
    refine ⟨_, _, ready', whole, whole ▸ made, ?_⟩
    have slot : ((loadedState cfe ⟨0, List.replicate maxScheduleEntries unusedConfig⟩).findIdxs
        (SchLabStateEntry.isFree cfe))[index]? = some index := by
      rw [loaded_slots cleared, unusedSlots, FirstFit.findIdxs_replicate _ _ (by rfl),
        List.getElem?_range' inside, Nat.zero_add, Nat.one_mul]
    have filled : ∀ item ∈ List.replicate (index + 1)
        ({ cmdEntry cfe cmd with packetRate := UInt32.ofNat rate } : SchLabStateEntry),
        item.isFree cfe = false := by
      intro item listed
      rw [List.eq_of_mem_replicate listed]
      simp only [SchLabStateEntry.isFree, beq_eq_false_iff_ne.mpr enabled, Bool.false_and]
    rw [state, List.map_replicate, List.map_replicate, inTicks_seconds cmd most,
      FirstFit.placeAll_free filled slot, List.getElem?_replicate_of_lt (Nat.lt_succ_self index),
      Option.some_or, installed]
    rfl

end Ready

/-- A scheduler that was made ready, and the memory behind its `State` array. -/
structure LabRun (cfe : CfeMessages) (maxScheduleEntries : Nat) where
  table : ScheduleTable
  cmds : List AddedCmd
  whole : table.config.length = maxScheduleEntries
  ready : SchLabTrickCFSScheduler
  made : makeReady cfe maxScheduleEntries table cmds = some ready
  behind : Nat → UInt8

/-- Every run that sends an entry with the same header, buffer and payload length
at the index sends the same bytes. -/
def Determined (cfe : CfeMessages) (maxScheduleEntries : Nat) (layout : EntryLayout) (index : Nat)
    (entry : SchLabStateEntry) (bytes : List UInt8) : Prop :=
  ∀ (run' : LabRun cfe maxScheduleEntries) (entry' : SchLabStateEntry) (call' : Nat) (bytes' : List UInt8),
    run'.ready.state[index]? = some entry' → SameMessage layout entry entry' →
    (index, bytes') ∈ run'.ready.transmittedAt layout run'.behind call' → bytes' = bytes

section Runs
variable {maxScheduleEntries : Nat}

theorem sent_entry (run : LabRun cfe maxScheduleEntries) {call : Nat} {bytes : List UInt8}
    (found : run.ready.state[index]? = some entry)
    (sent : (index, bytes) ∈ run.ready.transmittedAt layout run.behind call) :
    entry.packetRate ≠ 0 ∧ Origin cfe run.table run.cmds entry ∧
      ∃ counter, MessageOf layout run.behind index { entry with counter } bytes := by
  obtain ⟨ticks, fires, message⟩ := transmittedAt_message found sent
  have enabled : entry.packetRate ≠ 0 := by
    intro disabled
    rw [afterTicks_disabled disabled, tick_disabled disabled] at fires
    cases fires
  have origin := ready_origin run.whole run.made (List.mem_of_getElem? found) enabled
  obtain ⟨counter, same, _⟩ := afterTicks_enabled enabled origin.fresh (ticks + 1)
  exact ⟨enabled, origin, counter, same ▸ message⟩

theorem due_transmitted (layout : EntryLayout) (run : LabRun cfe maxScheduleEntries)
    (found : run.ready.state[index]? = some entry) (enabled : entry.packetRate ≠ 0) :
    ∃ call bytes, (index, bytes) ∈ run.ready.transmittedAt layout run.behind call := by
  have origin := ready_origin run.whole run.made (List.mem_of_getElem? found) enabled
  have positive : 0 < entry.packetRate.toNat :=
    Nat.pos_of_ne_zero (fun zero => enabled (UInt32.toNat_inj.mp zero))
  obtain ⟨ticks, call⟩ := Nat.exists_eq_succ_of_ne_zero (Nat.pos_iff_ne_zero.mp positive)
  have fires : (afterTicks entry ticks).tick.2 = true :=
    (afterTicks_fires origin.fresh ticks).mpr ⟨enabled, call ▸ dvd_refl _⟩
  have now : (run.ready.after ticks).state[index]? = some (afterTicks entry ticks) := by
    rw [after_state, List.getElem?_map, found, Option.map_some]
  obtain ⟨bytes, sent⟩ := transmitted_of_fires [] now fires
  rw [List.length_nil, Nat.zero_add] at sent
  exact ⟨ticks + 1, bytes, sent⟩

end Runs

/-- A command header of eight bytes, as the default CCSDS format has it, and a
buffer of one word. -/
def oneWord : EntryLayout where
  headerSize := 8
  headerBytes := fun header =>
    [UInt8.ofNat (header.msgId / 256), UInt8.ofNat header.msgId, 192, 0, UInt8.ofNat ((header.size - 7) / 256),
      UInt8.ofNat (header.size - 7), UInt8.ofNat header.fcnCode, 0]
  headerBytes_length := fun _ => rfl
  messageSize := CommandHeader.size
  maxArgsPerEntry := 1
  msgIdPadding := 0
  msgIdSize := 4
  msgIdBytes := fun msgId => uint32Bytes (UInt32.ofNat msgId)
  msgIdBytes_length := fun _ => rfl
  ratePadding := 0
  endPadding := 0

def oneEntry (packetRate : UInt32) (payloadLength : UInt16) : ScheduleTable :=
  ⟨0, [⟨5, 1, packetRate, payloadLength, [9]⟩]⟩

def oneEntryRun (packetRate : UInt32) (payloadLength : UInt16) : LabRun plainMessages 1 where
  table := oneEntry packetRate payloadLength
  cmds := []
  whole := rfl
  ready := ⟨loadedState plainMessages (oneEntry packetRate payloadLength), 1000000, 0, []⟩
  made := rfl
  behind := fun _ => 0

end TrickCFS.Proofs.MessageLeaks
