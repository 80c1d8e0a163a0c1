import TrickCFS.Proofs.UserCommands

/-! Where user-added commands go. The configured entries keep their slots, and
the commands fill the slots that the table leaves unused, in the order in which
they were added. -/

namespace TrickCFS.Proofs.CommandSlots
open SchLabTrickCFSScheduler UserCommands

variable {cfe : CfeMessages} {table : ScheduleTable} {cmds : List AddedCmd} {frame : Nat}

def unusedSlots (table : ScheduleTable) : List Nat :=
  table.config.findIdxs (fun config => config.packetRate == 0)

def cmdEntry (cfe : CfeMessages) (cmd : AddedCmd) : SchLabStateEntry :=
  .ofCmd cfe cmd.mid cmd.cmdRate cmd.cmdCode cmd.payloadLength

theorem addScheduledCmds_eq (scheduler : SchLabTrickCFSScheduler) :
    scheduler.addScheduledCmds cfe cmds =
      { scheduler with userAddedCmds := scheduler.userAddedCmds ++ cmds.map (cmdEntry cfe) } := by
  induction cmds generalizing scheduler with
  | nil => simp only [addScheduledCmds, List.map_nil, List.append_nil]
  | cons cmd cmds ih =>
    simp only [addScheduledCmds, ih, addScheduledCmd, List.map_cons, List.append_assoc,
      List.singleton_append, cmdEntry]

theorem loadEntries_cleared (configs : List ScheduleTableEntry) :
    loadEntries cfe configs (List.replicate configs.length {}) =
      configs.map (fun config => SchLabStateEntry.load cfe config {}) := by
  induction configs with
  | nil => rfl
  | cons config configs ih =>
    rw [List.length_cons, List.replicate_succ, loadEntries, ih, List.map_cons]

theorem load_isFree (cleared : cfe.invalidMsgId = 0) (config : ScheduleTableEntry) :
    (SchLabStateEntry.load cfe config {}).isFree cfe = (config.packetRate == 0) := by
  by_cases unused : config.packetRate = 0
  · rw [SchLabStateEntry.load_unused cfe unused]
    simp only [SchLabStateEntry.isFree, cleared, unused]
    rfl
  · rw [SchLabStateEntry.load_used cfe unused]
    simp only [SchLabStateEntry.isFree, beq_eq_false_iff_ne.mpr unused, Bool.false_and]

theorem installCmds_total (positive : 0 < frame) (newEntries state : List SchLabStateEntry) :
    ∃ next, installCmds cfe frame newEntries state = some next := by
  induction newEntries generalizing state with
  | nil => exact ⟨state, rfl⟩
  | cons newEntry newEntries ih =>
    rw [installCmds]
    cases found : state.findIdx? (SchLabStateEntry.isFree cfe) with
    | some index =>
      rw [installCmd_found positive found]
      exact ih _
    | none =>
      simp only [installCmd, found]
      exact ih state

theorem installCmds_eq (positive : 0 < frame) (newEntries state : List SchLabStateEntry) :
    installCmds cfe frame newEntries state =
      some (FirstFit.placeAll (SchLabStateEntry.isFree cfe) (newEntries.map (inTicks frame)) state) := by
  obtain ⟨next, installed⟩ := @installCmds_total cfe frame positive newEntries state
  rw [installed, installCmds_placeAll installed]

/-- The table after the load, before any command is installed. -/
def loadedState (cfe : CfeMessages) (table : ScheduleTable) : List SchLabStateEntry :=
  table.config.map (fun config => SchLabStateEntry.load cfe config {})

theorem makeReady_installs :
    makeReady cfe table.config.length table cmds =
      (installCmds cfe (timerPeriod table.tickRate).toNat (cmds.map (cmdEntry cfe)) (loadedState cfe table)).map
        (fun state =>
          { state
            schedRateInMicros := (timerPeriod table.tickRate).toNat
            schedFreq := table.tickRate
            userAddedCmds := cmds.map (cmdEntry cfe) }) := by
  rw [makeReady, addScheduledCmds_eq, initTables, installUserCmds, loadTable, construct, loadEntries_cleared,
    List.nil_append]
  rfl

theorem makeReady_eq (frame : 0 < (timerPeriod table.tickRate).toNat) :
    makeReady cfe table.config.length table cmds = some
      { state := FirstFit.placeAll (SchLabStateEntry.isFree cfe)
          ((cmds.map (cmdEntry cfe)).map (inTicks (timerPeriod table.tickRate).toNat)) (loadedState cfe table)
        schedRateInMicros := (timerPeriod table.tickRate).toNat
        schedFreq := table.tickRate
        userAddedCmds := cmds.map (cmdEntry cfe) } := by
  rw [makeReady_installs, installCmds_eq frame, Option.map_some]

theorem loaded_slots (cleared : cfe.invalidMsgId = 0) :
    (loadedState cfe table).findIdxs (SchLabStateEntry.isFree cfe) = unusedSlots table := by
  rw [loadedState, List.findIdxs_map, unusedSlots]
  congr 1
  funext config
  exact load_isFree cleared config

def middleConfigured : ScheduleTable where
  tickRate := 1
  config := [⟨0, 0, 0, 0, []⟩, ⟨7, 1, 2, 2, [9]⟩, ⟨0, 0, 0, 0, []⟩]

end TrickCFS.Proofs.CommandSlots
