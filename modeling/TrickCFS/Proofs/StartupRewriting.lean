import TrickCFS.Proofs.StartupDefinitions

/-! When the script that is written says the same as the startup file that was read.
The commas must be spaced as the parser expects them, a name may stand for one
entry only, and the fields that the writer makes up must be the original ones. -/

namespace TrickCFS.Proofs.StartupRewriting
open TrickCfsModule StartupTokens StartupDefinitions

section Lines

/-- The number of commas in front of the last field that matters: the priority and the stack
size are kept for apps only. -/
def needed (line : StartupLine) : Nat := if line.entry.type = .app then 5 else 3

/-- The parser finds the fields of the entry in the line, and eight of them. -/
def Spaced (line : StartupLine) : Prop :=
  Separated (needed line) line.parts ∧ splits line.last line.parts = 7

instance (line : StartupLine) : Decidable (Spaced line) := inferInstanceAs (Decidable (_ ∧ _))

/-- The parser makes no entry of a line of the target: it does not have eight tokens,
its type is joined to its file, or the target's name stands where a name belongs. -/
def Passed (target : Text) (line : StartupLine) : Prop :=
  splits line.last line.parts ≠ 7 ∨ ¬ Separated 0 line.parts ∨
    (tokens line.last line.entry.type.text line.parts)[3]? = some target

instance (target : Text) (line : StartupLine) : Decidable (Passed target line) :=
  inferInstanceAs (Decidable (_ ∨ _ ∨ _))

/-- The entry has the values that the writer makes up. -/
structure Regenerated (entry : StartupEntry) : Prop where
  loadAddress : entry.loadAddress.text = "0x0".toList
  exceptionAction : entry.exceptionAction.text = "0".toList
  library : entry.type = .lib → entry.priority.text = "0".toList ∧ entry.stackSize.text = "0".toList

/-- A definition that keeps what the parser is meant to keep of an entry. -/
structure Keeps (definition : Definition) (entry : StartupEntry) : Prop where
  type : definition.type = entry.type
  file : definition.file = entry.file.text
  entryPoint : definition.entry = entry.entryPoint.text
  name : definition.name = entry.name.text
  app : entry.type = .app → definition.prior = entry.priority.text ∧ definition.stackSize = entry.stackSize.text

theorem type_text_inj {first second : EntryType} (same : first.text = second.text) : first = second := by
  cases first <;> cases second
  · rfl
  · exact absurd same (by decide)
  · exact absurd same (by decide)
  · rfl

theorem type_text_length (type : EntryType) : type.text.length = 7 := by
  cases type <;> rfl

theorem written_eq_fields_iff {definition : Definition} {entry : StartupEntry} :
    definition.written = entry.fields ↔ Keeps definition entry ∧ Regenerated entry := by
  obtain ⟨type, file, name, entryPoint, prior, stackSize⟩ := definition
  simp only [Definition.written, StartupEntry.fields, List.cons.injEq, and_true]
  constructor
  · rintro ⟨kind, rfl, rfl, rfl, priority, stack, load, action⟩
    obtain rfl := type_text_inj kind
    refine ⟨⟨rfl, rfl, rfl, rfl, fun isApp => ?_⟩, ⟨load.symm, action.symm, fun isLib => ?_⟩⟩
    · simpa [isApp] using And.intro priority stack
    · simpa [isLib, eq_comm] using And.intro priority stack
  · rintro ⟨⟨rfl, rfl, rfl, rfl, app⟩, ⟨load, action, library⟩⟩
    rw [load, action]
    cases entryType : entry.type with
    | app => simpa using app entryType
    | lib => simp [library entryType]

theorem eight_fields {fields : List Text} (eight : fields.length = 8) :
    ∃ kind file entry name prior stackSize load action,
      fields = [kind, file, entry, name, prior, stackSize, load, action] :=
  match fields, eight with
  | [kind, file, entry, name, prior, stackSize, load, action], _ =>
    ⟨kind, file, entry, name, prior, stackSize, load, action, rfl⟩

def readLine (target : Text) (line : StartupLine) : Option Definition :=
  Definition.read target (tokens line.last line.entry.type.text line.parts)

section Reading
variable {target : Text} {line : StartupLine}

theorem length_tokens_iff :
    (tokens line.last line.entry.type.text line.parts).length = 8 ↔ splits line.last line.parts = 7 := by
  rw [tokens_length]
  omega

theorem readLine_keeps_iff (kept : ¬ line.entry.IsTarget target) :
    (∃ definition, readLine target line = some definition ∧ Keeps definition line.entry) ↔ Spaced line := by
  have inside : needed line < line.parts.length := by
    simp only [needed, StartupLine.parts, List.length_cons, List.length_nil]
    split <;> decide
  rw [Spaced, ← tokens_take_iff line.last inside line.entry.type.text, ← length_tokens_iff]
  constructor
  · intro ⟨definition, taken, keeps⟩
    obtain ⟨load, action, found, _⟩ := Definition.read_eq_some.mp taken
    rw [found]
    refine ⟨?_, rfl⟩
    cases type : line.entry.type with
    | app =>
      obtain ⟨prior, stackSize⟩ := keeps.app type
      simp [needed, type, StartupLine.parts, keeps.type, keeps.file, keeps.entryPoint, keeps.name, prior,
        stackSize]
    | lib => simp [needed, type, StartupLine.parts, keeps.type, keeps.file, keeps.entryPoint, keeps.name]
  · intro ⟨front, eight⟩
    obtain ⟨kind, file, entry, name, prior, stackSize, load, action, shape⟩ := eight_fields eight
    rw [shape] at front
    cases type : line.entry.type with
    | app =>
      simp only [needed, type, StartupLine.parts, if_true, List.take,
        List.map_cons, List.map_nil, List.cons.injEq, and_true] at front
      obtain ⟨rfl, rfl, rfl, rfl, rfl, rfl⟩ := front
      refine ⟨⟨.app, _, _, _, _, _⟩, Definition.read_eq_some.mpr ⟨load, action, shape, ?_⟩, ?_⟩
      · exact fun both => kept ⟨type, both.2⟩
      · exact ⟨type.symm, rfl, rfl, rfl, fun _ => ⟨rfl, rfl⟩⟩
    | lib =>
      simp only [needed, type, StartupLine.parts, reduceCtorEq, if_false, List.take,
        List.map_cons, List.map_nil, List.cons.injEq, and_true] at front
      obtain ⟨rfl, rfl, rfl, rfl⟩ := front
      refine ⟨⟨.lib, _, _, _, prior, stackSize⟩, Definition.read_eq_some.mpr ⟨load, action, shape, ?_⟩, ?_⟩
      · exact fun both => by cases both.1
      · exact ⟨type.symm, rfl, rfl, rfl, fun isApp => by rw [type] at isApp; cases isApp⟩

private theorem token_type {type : EntryType} {others : List Text}
    (shape : tokens line.last line.entry.type.text line.parts = type.text :: others) : line.entry.type = type := by
  obtain ⟨more, rest, found⟩ := tokens_head line.last line.parts line.entry.type.text
  rw [shape] at found
  obtain ⟨same, _⟩ := List.cons.inj found
  have length := congrArg List.length same
  rw [List.length_append, type_text_length, type_text_length] at length
  obtain rfl : more = [] := List.length_eq_zero_iff.mp (by omega)
  rw [List.append_nil] at same
  exact (type_text_inj same).symm

private theorem typed_iff_apart : (tokens line.last line.entry.type.text line.parts).take 1 = [line.entry.type.text] ↔
    Separated 0 line.parts :=
  @tokens_take_iff line.last 0 line.parts (by simp [StartupLine.parts]) line.entry.type.text

theorem readLine_target_iff (isTarget : line.entry.IsTarget target) :
    readLine target line = none ↔ Passed target line := by
  constructor
  · intro unread
    by_contra counted
    obtain ⟨eight, apart, other⟩ : splits line.last line.parts = 7 ∧ Separated 0 line.parts ∧
        (tokens line.last line.entry.type.text line.parts)[3]? ≠ some target := by
      simpa only [Passed, not_or, not_not] using counted
    obtain ⟨kind, file, entry, name, prior, stackSize, load, action, shape⟩ :=
      eight_fields (length_tokens_iff.mpr eight)
    have typed := typed_iff_apart.mpr apart
    rw [shape] at typed other
    obtain ⟨isApp, _⟩ := List.cons.inj typed
    rw [isTarget.1] at isApp
    have taken : readLine target line = some ⟨.app, file, entry, name, prior, stackSize⟩ := by
      refine Definition.read_eq_some.mpr ⟨load, action, ?_, ?_⟩
      · rw [shape]
        exact congrArg (· :: _) isApp
      · intro ⟨_, named⟩
        exact other (congrArg some named)
    cases unread.symm.trans taken
  · intro passed
    cases taken : readLine target line with
    | none => rfl
    | some definition =>
      obtain ⟨load, action, shape, other⟩ := Definition.read_eq_some.mp taken
      have typed := token_type shape
      exfalso
      rcases passed with short | joined | named
      · apply short
        rw [← length_tokens_iff, shape]
        rfl
      · apply joined
        rw [← typed_iff_apart, shape, typed]
        rfl
      · rw [shape] at named
        exact other ⟨typed.symm.trans isTarget.1, Option.some.inj named⟩

end Reading

end Lines

/-- The script that is written for the file: the entry of `SCH_TRICK`, and then a
line with the same fields for each entry but the target, in their order. -/
def Preserved (target esFile : Text) (file : StartupFile) : Prop :=
  let state := ({ targetSchAppName := target } : TrickCfsModule).parseCfeEsStartup file.text
  ∃ lines, state.runDefaultEsStartup esFile = state.schTrickLine (cfDir esFile) :: lines ∧
    lines.map readFields = (file.keptLines target).map (fun line => line.entry.fields)

theorem preserved_iff_lines {target esFile : Text} {file : StartupFile} :
    Preserved target esFile file ↔
      let state := ({ targetSchAppName := target } : TrickCfsModule).parseCfeEsStartup file.text
      (state.esEntries.filterMap (state.appLine (cfDir esFile))).map readFields =
        (file.keptLines target).map (fun line => line.entry.fields) := by
  simp [Preserved, runDefaultEsStartup, runWithApps]

instance (target esFile : Text) (file : StartupFile) : Decidable (Preserved target esFile file) :=
  decidable_of_iff _ preserved_iff_lines.symm

structure Reproducible (target : Text) (file : StartupFile) : Prop where
  spaced : ∀ line ∈ file.keptLines target, Spaced line
  passed : ∀ line ∈ file.lines, line.entry.IsTarget target → Passed target line
  regenerated : ∀ line ∈ file.keptLines target, Regenerated line.entry
  unique : ∀ line ∈ file.keptLines target, ∀ other ∈ file.keptLines target,
    line.entry.name.text = other.entry.name.text → line.entry.fields = other.entry.fields

section Files
variable {target : Text} {file : StartupFile}

theorem mem_keptLines {line : StartupLine} :
    line ∈ file.keptLines target ↔ line ∈ file.lines ∧ ¬ line.entry.IsTarget target := by
  simp [StartupFile.keptLines]

theorem read_keptLines (passed : ∀ line ∈ file.lines, line.entry.IsTarget target → Passed target line) :
    file.lines.filterMap (readLine target) = (file.keptLines target).filterMap (readLine target) := by
  rw [StartupFile.keptLines, List.filterMap_filter]
  apply List.filterMap_congr
  intro line member
  by_cases isTarget : line.entry.IsTarget target
  · simp [isTarget, (readLine_target_iff isTarget).mpr (passed line member isTarget)]
  · simp [isTarget]

theorem parsed_kept (passed : ∀ line ∈ file.lines, line.entry.IsTarget target → Passed target line) :
    Parsed target ((file.keptLines target).filterMap (readLine target))
      (({ targetSchAppName := target } : TrickCfsModule).parseCfeEsStartup file.text) := by
  have parsed := (Parsed.initial target).parse file.lines file.marked
  change Parsed target ([] ++ file.lines.filterMap (readLine target)) _ at parsed
  rwa [List.nil_append, read_keptLines passed] at parsed

def printed (target esFile : Text) (file : StartupFile) (name : Text) : Option (List Text) :=
  ((({ targetSchAppName := target } : TrickCfsModule).parseCfeEsStartup file.text).appLine (cfDir esFile) name).map
    readFields

theorem preserved_iff_printed (esFile : Text)
    (passed : ∀ line ∈ file.lines, line.entry.IsTarget target → Passed target line) :
    Preserved target esFile file ↔ ∀ line ∈ file.keptLines target, ∃ definition,
      readLine target line = some definition ∧
        printed target esFile file definition.name = some line.entry.fields := by
  rw [preserved_iff_lines]
  dsimp only
  rw [(parsed_kept passed).entries, List.filterMap_map, List.filterMap_filterMap, List.map_filterMap,
    List.filterMap_eq_map_iff_forall_eq_some]
  refine forall₂_congr (fun line _ => ?_)
  cases readLine target line with
  | none => simp
  | some definition => simp [printed]

theorem printed_of_read (esFile : Text)
    (passed : ∀ line ∈ file.lines, line.entry.IsTarget target → Passed target line)
    {line : StartupLine} (member : line ∈ file.keptLines target) {definition : Definition}
    (taken : readLine target line = some definition) :
    ∃ other ∈ file.keptLines target, ∃ chosen, readLine target other = some chosen ∧
      chosen.name = definition.name ∧ printed target esFile file definition.name = some chosen.written := by
  have plain : ∀ read ∈ (file.keptLines target).filterMap (readLine target), read.IsPlain := by
    intro read among
    obtain ⟨source, _, found⟩ := List.mem_filterMap.mp among
    exact Definition.read_plain found
  obtain ⟨chosen, among, named, written⟩ :=
    (parsed_kept passed).appLine plain (cfDir esFile) (List.mem_filterMap.mpr ⟨line, member, taken⟩)
  obtain ⟨other, kept, found⟩ := List.mem_filterMap.mp among
  exact ⟨other, kept, chosen, found, named, written⟩

end Files

section Main
variable {target esFile : Text} {file : StartupFile}

theorem Reproducible.preserved (reproducible : Reproducible target file) : Preserved target esFile file := by
  refine (preserved_iff_printed esFile reproducible.passed).mpr (fun line member => ?_)
  have keeps (other : StartupLine) (kept : other ∈ file.keptLines target) :=
    (readLine_keeps_iff (mem_keptLines.mp kept).2).mpr (reproducible.spaced other kept)
  obtain ⟨definition, taken, own⟩ := keeps line member
  obtain ⟨other, kept, chosen, read, named, print⟩ := printed_of_read esFile reproducible.passed member taken
  obtain ⟨_, again, theirs⟩ := keeps other kept
  obtain rfl := Option.some.inj (read.symm.trans again)
  have same : other.entry.fields = line.entry.fields := by
    apply reproducible.unique other kept line member
    rw [← theirs.name, named, own.name]
  have written := written_eq_fields_iff.mpr ⟨theirs, reproducible.regenerated other kept⟩
  exact ⟨definition, taken, by rw [print, written, same]⟩

/-- Where every kept line is spaced as the parser expects it, the other two
conditions are needed. -/
theorem reproducible_of_spaced (spaced : ∀ line ∈ file.keptLines target, Spaced line)
    (passed : ∀ line ∈ file.lines, line.entry.IsTarget target → Passed target line)
    (preserved : Preserved target esFile file) : Reproducible target file := by
  have printedAs := (preserved_iff_printed esFile passed).mp preserved
  have print (line : StartupLine) (member : line ∈ file.keptLines target) :
      printed target esFile file line.entry.name.text = some line.entry.fields := by
    obtain ⟨definition, taken, print⟩ := printedAs line member
    obtain ⟨kept, notTarget⟩ := mem_keptLines.mp member
    obtain ⟨_, again, keeps⟩ := (readLine_keeps_iff notTarget).mpr (spaced line member)
    obtain rfl := Option.some.inj (taken.symm.trans again)
    rwa [keeps.name] at print
  refine ⟨spaced, passed, fun line member => ?_, fun line member other kept named => ?_⟩
  · obtain ⟨definition, taken, printedLine⟩ := printedAs line member
    obtain ⟨_, _, chosen, _, _, writes⟩ := printed_of_read esFile passed member taken
    exact (written_eq_fields_iff.mp (Option.some.inj (writes.symm.trans printedLine))).2
  · have same := print line member
    rw [named, print other kept] at same
    exact (Option.some.inj same).symm

/-- Where the names of the kept entries are different, a badly spaced line is lost
or changed. -/
theorem reproducible_of_distinct
    (distinct : ((file.keptLines target).map (fun line => line.entry.name.text)).Nodup)
    (passed : ∀ line ∈ file.lines, line.entry.IsTarget target → Passed target line)
    (preserved : Preserved target esFile file) : Reproducible target file := by
  have printedAs := (preserved_iff_printed esFile passed).mp preserved
  -- The printed name is the one that was read, so each line reads its own name.
  have named (line : StartupLine) (member : line ∈ file.keptLines target) {definition : Definition}
      (taken : readLine target line = some definition) : definition.name = line.entry.name.text := by
    obtain ⟨_, again, printedLine⟩ := printedAs line member
    obtain rfl := Option.some.inj (taken.symm.trans again)
    obtain ⟨_, _, chosen, _, same, writes⟩ := printed_of_read esFile passed member taken
    have written := written_eq_fields_iff.mp (Option.some.inj (writes.symm.trans printedLine))
    rw [← same, written.1.name]
  have keeps (line : StartupLine) (member : line ∈ file.keptLines target) :
      (∃ definition, readLine target line = some definition ∧ Keeps definition line.entry) ∧
        Regenerated line.entry := by
    obtain ⟨definition, taken, printedLine⟩ := printedAs line member
    obtain ⟨other, kept, chosen, read, same, writes⟩ := printed_of_read esFile passed member taken
    have written := written_eq_fields_iff.mp (Option.some.inj (writes.symm.trans printedLine))
    have names : other.entry.name.text = line.entry.name.text := by
      rw [← named other kept read, same, named line member taken]
    obtain rfl := List.inj_on_of_nodup_map distinct kept member names
    exact ⟨⟨chosen, read, written.1⟩, written.2⟩
  refine ⟨fun line member => ?_, passed, fun line member => (keeps line member).2,
    fun line member other kept same => ?_⟩
  · exact (readLine_keeps_iff (mem_keptLines.mp member).2).mp (keeps line member).1
  · rw [List.inj_on_of_nodup_map distinct member kept same]

/-- The files in which one slip cannot make up for another. -/
def Usual (target : Text) (file : StartupFile) : Prop :=
  (∀ line ∈ file.lines, line.entry.IsTarget target → Passed target line) ∧
    ((∀ line ∈ file.keptLines target, Spaced line) ∨
      ((file.keptLines target).map (fun line => line.entry.name.text)).Nodup)

/-- The script preserves every reproducible file, and of the usual files no other. -/
theorem rewriting_preserves (target esFile : Text) (file : StartupFile) :
    (Reproducible target file → Preserved target esFile file) ∧
      (Usual target file → Preserved target esFile file → Reproducible target file) := by
  refine ⟨fun reproducible => reproducible.preserved, fun usual preserved => ?_⟩
  obtain ⟨passed, spaced | distinct⟩ := usual
  · exact reproducible_of_spaced spaced passed preserved
  · exact reproducible_of_distinct distinct passed preserved

end Main

section Examples

def field (text : String) (valid : text.toList ≠ [] ∧ Plain text.toList) : Field :=
  ⟨text.toList, valid.1, valid.2.1, valid.2.2⟩

def space : Blank := ⟨[' '], by decide⟩

def noSpace : Blank := ⟨[], by decide⟩

def lineWith (blank : Blank) (entry : StartupEntry) : StartupLine :=
  ⟨entry, noSpace, fun _ => ⟨noSpace, blank⟩, ⟨noSpace, noSpace⟩⟩

def schLab : StartupEntry :=
  ⟨.app, field "/cf/sch_lab.so" (by decide), field "SCH_Lab_AppMain" (by decide), field "SCH_LAB_APP" (by decide),
    field "80" (by decide), field "8192" (by decide), field "0x0" (by decide), field "0" (by decide)⟩

def timeApp : StartupEntry :=
  ⟨.app, field "/cf/tm.so" (by decide), field "TM_AppMain" (by decide), field "TM" (by decide),
    field "50" (by decide), field "16384" (by decide), field "0x0" (by decide), field "0" (by decide)⟩

def timeLib : StartupEntry :=
  ⟨.lib, field "/cf/tm_lib.so" (by decide), field "TM_LibInit" (by decide), field "TM" (by decide),
    field "0" (by decide), field "0" (by decide), field "0x0" (by decide), field "0" (by decide)⟩

def fileOf (lines : List StartupLine) : StartupFile := ⟨lines, ["! end".toList], by simp⟩

def cfsLib : StartupEntry :=
  ⟨.lib, field "/cf/cfs_lib.so" (by decide), field "CFS_LibInit" (by decide), field "CFS_LIB" (by decide),
    field "0" (by decide), field "0" (by decide), field "0x0" (by decide), field "0" (by decide)⟩

def ciLab : StartupEntry :=
  ⟨.app, field "/cf/ci_lab.so" (by decide), field "CI_Lab_AppMain" (by decide), field "CI_LAB_APP" (by decide),
    field "60" (by decide), field "16384" (by decide), field "0x0" (by decide), field "0" (by decide)⟩

/-- The line of the target has no whitespace, and is not read. -/
def labFile : StartupFile :=
  fileOf [lineWith space cfsLib, lineWith noSpace schLab, lineWith space ciLab, lineWith space timeApp]

theorem rewriting_preserves_lab_file :
    Preserved "SCH_LAB_APP".toList "./cf/cfe_es_startup.scr".toList labFile ∧
      Reproducible "SCH_LAB_APP".toList labFile := by
  have kept : labFile.keptLines "SCH_LAB_APP".toList =
      [lineWith space cfsLib, lineWith space ciLab, lineWith space timeApp] := by rfl
  have passed : ∀ line ∈ labFile.lines, line.entry.IsTarget "SCH_LAB_APP".toList →
      Passed "SCH_LAB_APP".toList line := by
    decide
  have distinct : ((labFile.keptLines "SCH_LAB_APP".toList).map (fun line => line.entry.name.text)).Nodup := by
    rw [kept]
    decide
  have reproducible : Reproducible "SCH_LAB_APP".toList labFile := by
    refine ⟨?_, passed, ?_, ?_⟩
    · rw [kept]
      decide
    · rw [kept]
      simp only [List.forall_mem_cons]
      exact ⟨⟨by decide, by decide, by decide⟩, ⟨by decide, by decide, by decide⟩,
        ⟨by decide, by decide, by decide⟩, nofun⟩
    · intro line member other among named
      rw [List.inj_on_of_nodup_map distinct member among named]
  have preserved := (rewriting_preserves _ "./cf/cfe_es_startup.scr".toList _).1 reproducible
  exact ⟨preserved, (rewriting_preserves _ _ _).2 ⟨passed, Or.inr distinct⟩ preserved⟩

/-- A library and an app of one name are both written as the library, and an entry
without whitespace behind its commas is lost. -/
theorem entries_lost :
    ¬ Preserved "SCH_LAB_APP".toList "./cf/cfe_es_startup.scr".toList
        (fileOf [lineWith space schLab, lineWith space timeLib, lineWith space timeApp]) ∧
      ¬ Preserved "SCH_LAB_APP".toList "./cf/cfe_es_startup.scr".toList
        (fileOf [lineWith space schLab, lineWith noSpace timeApp]) := by
  decide

end Examples

end TrickCFS.Proofs.StartupRewriting
