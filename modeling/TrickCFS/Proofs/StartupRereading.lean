import TrickCFS.Proofs.StartupDefinitions

/-! A written startup script, read as a startup file. The parser finds an entry again
only if the columns leave a space behind each comma. -/

namespace TrickCFS.Proofs.StartupRereading
open Words TrickCfsModule StartupTokens StartupDefinitions

/-- The line of a definition. -/
def Definition.line (sizes : ColumnSizes) (definition : Definition) : Text :=
  startupLine sizes definition.type.text definition.file definition.entry definition.name definition.prior
    definition.stackSize

/-- The columns are wide enough for the file, the name and the numbers. -/
structure Fits (sizes : ColumnSizes) (definition : Definition) : Prop where
  file : definition.file.length + 1 < sizes.file
  name : definition.name.length + 1 < sizes.name ∨ definition.prior.length < 4
  stackSize : definition.stackSize.length < 8

instance (sizes : ColumnSizes) (definition : Definition) : Decidable (Fits sizes definition) :=
  decidable_of_iff
    (definition.file.length + 1 < sizes.file ∧
      (definition.name.length + 1 < sizes.name ∨ definition.prior.length < 4) ∧ definition.stackSize.length < 8)
    ⟨fun ⟨file, name, stackSize⟩ => ⟨file, name, stackSize⟩, fun fits => ⟨fits.file, fits.name, fits.stackSize⟩⟩

section Lines
variable {sizes : ColumnSizes} {definition : Definition}

def parts (sizes : ColumnSizes) (definition : Definition) : List (Text × Text) :=
  [([' '], definition.file ++ [',']),
    (List.replicate (sizes.file - (definition.file ++ [',']).length) ' ', definition.entry ++ [',']),
    (List.replicate (sizes.func - (definition.entry ++ [',']).length) ' ', definition.name ++ [',']),
    (List.replicate (sizes.name - (definition.name ++ [',']).length) ' ' ++
      List.replicate (5 - (definition.prior ++ [',']).length) ' ', definition.prior ++ [',']),
    (List.replicate (9 - (definition.stackSize ++ [',']).length) ' ', definition.stackSize ++ [',']),
    ([' '], "0x0,".toList), ([' '], "0;".toList)]

theorem line_parts : Definition.line sizes definition =
    definition.type.text ++ [','] ++ (parts sizes definition).flatMap (fun part => part.1 ++ part.2) ++ ['\n'] := by
  have comma : ", ".toList = [','] ++ [' '] := by rfl
  have ending : " 0x0, 0;\n".toList = [' '] ++ "0x0,".toList ++ [' '] ++ "0;".toList ++ ['\n'] := by rfl
  simp only [Definition.line, startupLine, parts, Text.ljust, Text.rjust, comma, ending, List.flatMap_cons,
    List.flatMap_nil, List.append_assoc, List.append_nil]

theorem parts_solid (plain : definition.IsPlain) : ∀ part ∈ parts sizes definition,
    Blanks Text.isSpace part.1 ∧ Solid Text.isSpace part.2 ∧ part.2 ≠ [] := by
  have comma : Solid Text.isSpace [','] := by decide
  have padding (count : Nat) : Blanks Text.isSpace (List.replicate count ' ') := by
    intro char member
    rw [List.eq_of_mem_replicate member]
    rfl
  have both (first second : Nat) : Blanks Text.isSpace (List.replicate first ' ' ++ List.replicate second ' ') := by
    rw [List.replicate_append_replicate]
    exact padding _
  have field {text : Text} (isPlain : Plain text) : Solid Text.isSpace (text ++ [',']) ∧ text ++ [','] ≠ [] :=
    ⟨solid_append isPlain.1 comma, by simp⟩
  simp only [parts, List.forall_mem_cons]
  refine ⟨⟨padding 1, field plain.file⟩, ⟨padding _, field plain.entry⟩, ⟨padding _, field plain.name⟩,
    ⟨both _ _, field plain.prior⟩, ⟨padding _, field plain.stackSize⟩, ⟨padding 1, by decide, by decide⟩,
    ⟨padding 1, by decide, by decide⟩, fun part member => by cases member⟩

theorem words_line (sizes : ColumnSizes) (definition : Definition) :
    words Text.isSpace (Definition.line sizes definition) =
      words Text.isSpace
        (definition.type.text ++ [','] ++ (parts sizes definition).flatMap (fun part => part.1 ++ part.2)) := by
  have newline : Blanks Text.isSpace ['\n'] := by decide
  rw [line_parts, words_append_blanks newline]

theorem first_solid (definition : Definition) :
    Solid Text.isSpace (definition.type.text ++ [',']) ∧ definition.type.text ++ [','] ≠ [] := by
  cases definition.type <;> decide

theorem joinedLine_head (sizes : ColumnSizes) (definition : Definition) :
    (joinedLine (Definition.line sizes definition)).head? = some 'C' := by
  obtain ⟨rest, shape⟩ : ∃ rest, definition.type.text = 'C' :: rest := by
    cases definition.type
    · exact ⟨"FE_APP".toList, rfl⟩
    · exact ⟨"FE_LIB".toList, rfl⟩
  have start : Definition.line sizes definition = [] ++ 'C' :: (Definition.line sizes definition).tail := by
    simp only [Definition.line, startupLine, shape, List.cons_append, List.tail_cons, List.nil_append]
  rw [start]
  exact StartupTokens.joinedLine_head (fun _ member => by cases member) rfl

theorem joinedLine_goes_on (sizes : ColumnSizes) (definition : Definition) :
    (joinedLine (Definition.line sizes definition)).head? ≠ some '!' ∧
      joinedLine (Definition.line sizes definition) ≠ [] := by
  have head := joinedLine_head sizes definition
  refine ⟨by rw [head]; decide, fun empty => ?_⟩
  rw [empty] at head
  cases head

/-- The columns of the entry point are always wide enough, so the padding is there
exactly when the definition fits. -/
theorem parts_apart_iff (func : definition.entry.length + 1 < sizes.func) :
    (∀ part ∈ parts sizes definition, part.1 ≠ []) ↔ Fits sizes definition := by
  simp only [parts, List.forall_mem_cons, List.length_append, List.length_cons, List.length_nil, ne_eq,
    List.replicate_eq_nil_iff, List.append_eq_nil_iff, reduceCtorEq, not_false_eq_true, true_and]
  constructor
  · intro ⟨file, _, name, stackSize, _⟩
    exact ⟨by omega, by omega, by omega⟩
  · intro fits
    obtain ⟨file, name, stackSize⟩ := fits
    exact ⟨by omega, by omega, by omega, by omega, fun part member => by cases member⟩

theorem lineFields_of_fits (plain : definition.IsPlain) (func : definition.entry.length + 1 < sizes.func)
    (fits : Fits sizes definition) : lineFields (joinedLine (Definition.line sizes definition)) =
      [definition.type.text, definition.file, definition.entry, definition.name, definition.prior,
        definition.stackSize, "0x0".toList, "0".toList] := by
  obtain ⟨solid, nonempty⟩ := first_solid definition
  have found := words_parted solid nonempty (parts_solid plain) ((parts_apart_iff func).mpr fits)
  have field {text : Text} (plain : Plain text) : clean (text ++ [',']) = text := by
    rw [clean_append, clean_of_plain plain.2]
    exact List.append_nil text
  have kind : clean (definition.type.text ++ [',']) = definition.type.text := by cases definition.type <;> rfl
  have address : clean "0x0,".toList = "0x0".toList := by rfl
  have action : clean "0;".toList = "0".toList := by rfl
  rw [lineFields_joinedLine (by rw [words_line, found]; simp), words_line, found]
  simp only [parts, List.map_cons, List.map_nil, kind, field plain.file, field plain.entry, field plain.name,
    field plain.prior, field plain.stackSize, address, action]

theorem lineFields_of_unfit (plain : definition.IsPlain) (func : definition.entry.length + 1 < sizes.func)
    (unfit : ¬ Fits sizes definition) :
    (lineFields (joinedLine (Definition.line sizes definition))).length < 8 := by
  obtain ⟨solid, nonempty⟩ := first_solid definition
  have count := length_words_parted solid nonempty (@parts_solid sizes definition plain)
  rw [← words_line] at count
  have some : words Text.isSpace (Definition.line sizes definition) ≠ [] := by
    intro empty
    rw [empty, List.length_nil] at count
    omega
  have fewer : (parts sizes definition).countP (fun part : List Char × List Char => !part.1.isEmpty) <
      (parts sizes definition).length := by
    apply lt_of_le_of_ne List.countP_le_length
    intro all
    refine unfit ((parts_apart_iff func).mp (fun part member empty => ?_))
    have apart := List.countP_eq_length.mp all part member
    simp [empty] at apart
  have seven : (parts sizes definition).length = 7 := rfl
  rw [lineFields_joinedLine some, List.length_map, count]
  omega

theorem name_of_line {other : Definition} (plain : definition.IsPlain) (otherPlain : other.IsPlain)
    (same : Definition.line sizes definition = Definition.line sizes other) : definition.name = other.name := by
  have kind (type : EntryType) : Plain type.text := by cases type <;> decide
  have fields := @readFields_startupLine sizes _ _ _ _ _ _ (kind definition.type) plain.file plain.entry plain.name
    plain.prior plain.stackSize
  have otherFields := @readFields_startupLine sizes _ _ _ _ _ _ (kind other.type) otherPlain.file otherPlain.entry
    otherPlain.name otherPlain.prior otherPlain.stackSize
  have both := fields.symm.trans ((congrArg readFields same).trans otherFields)
  simp only [List.cons.injEq] at both
  exact both.2.2.2.1

end Lines

section Texts
variable {target : Text} {definitions : List Definition} {state : TrickCfsModule}

def definitionsOf (target : Text) : List Text → List Definition
  | [] => []
  | origLine :: lines =>
    let line := joinedLine origLine
    if line.head? = some '!' then []
    else if line = [] then definitionsOf target lines
    else (Definition.read target (lineFields line)).toList ++ definitionsOf target lines

theorem parsed_text (parsed : Parsed target definitions state) (lines : List Text) :
    Parsed target (definitions ++ definitionsOf target lines) (state.parseCfeEsStartup lines) := by
  induction lines generalizing state definitions with
  | nil => simpa [definitionsOf, parseCfeEsStartup] using parsed
  | cons origLine lines ih =>
    simp only [definitionsOf, parseCfeEsStartup]
    split
    · simpa using parsed
    · split
      · exact ih parsed
      · rw [← List.append_assoc]
        exact ih (parsed.addLineFields _)

theorem lineFields_plain {text : Text} (some : joinedLine text ≠ []) :
    ∀ field ∈ lineFields (joinedLine text), Plain field := by
  have words_some : words Text.isSpace text ≠ [] := by
    intro empty
    apply some
    rw [joinedLine, words_strip, empty]
    rfl
  rw [lineFields_joinedLine words_some]
  intro field member
  obtain ⟨word, isWord, rfl⟩ := List.mem_map.mp member
  refine ⟨fun char inside => ?_, clean_plain word⟩
  exact solid_words word isWord char (List.mem_of_mem_filter (List.mem_of_mem_filter inside))

structure Sound (target : Text) (definition : Definition) : Prop where
  plain : definition.IsPlain
  other : ¬ (definition.type = .app ∧ definition.name = target)

theorem definitionsOf_sound (lines : List Text) : ∀ read ∈ definitionsOf target lines, Sound target read := by
  induction lines with
  | nil => intro read member; cases member
  | cons origLine lines ih =>
    simp only [definitionsOf]
    split
    · intro read member; cases member
    · split
      · exact ih
      next some =>
        intro read member
        rcases List.mem_append.mp member with first | later
        · obtain ⟨load, action, fields, other⟩ := Definition.read_eq_some.mp (Option.mem_toList.mp first)
          have plain := lineFields_plain some
          rw [fields] at plain
          simp only [List.forall_mem_cons] at plain
          obtain ⟨_, file, entry, name, prior, stackSize, _⟩ := plain
          exact ⟨⟨file, entry, name, prior, stackSize⟩, other⟩
        · exact ih read later

end Texts

section Columns

theorem foldl_max_le_iff {start bound : Nat} {lengths : List Nat} :
    lengths.foldl max start ≤ bound ↔ start ≤ bound ∧ ∀ length ∈ lengths, length ≤ bound := by
  induction lengths generalizing start with
  | nil => simp
  | cons length lengths ih => rw [List.foldl_cons, ih, Nat.max_le, List.forall_mem_cons, and_assoc]

theorem le_foldl_max {start length : Nat} {lengths : List Nat} (member : length ∈ lengths) :
    length ≤ lengths.foldl max start :=
  (foldl_max_le_iff.mp le_rfl).2 length member

theorem foldl_max_perm {start : Nat} {first second : List Nat} (perm : first.Perm second) :
    first.foldl max start = second.foldl max start := by
  apply Nat.le_antisymm
  · obtain ⟨low, all⟩ := foldl_max_le_iff.mp (Nat.le_refl (second.foldl max start))
    exact foldl_max_le_iff.mpr ⟨low, fun length member => all length (perm.mem_iff.mp member)⟩
  · obtain ⟨low, all⟩ := foldl_max_le_iff.mp (Nat.le_refl (first.foldl max start))
    exact foldl_max_le_iff.mpr ⟨low, fun length member => all length (perm.mem_iff.mpr member)⟩

variable {state other : TrickCfsModule}

theorem entries_perm {ι : Type} {first second : AList (fun _ : Text => ι)}
    (same : ∀ name, first.lookup name = second.lookup name) : first.entries.Perm second.entries := by
  apply List.lookup_ext first.nodupKeys second.nodupKeys
  intro name item
  exact iff_of_eq (congrArg (item ∈ ·) (same name))

/-- The widths depend on what the maps hold, not on the order in which it came. -/
theorem columnSizes_congr (dir : Text) (libs : ∀ name, state.libsMap.lookup name = other.libsMap.lookup name)
    (apps : ∀ name, state.appsMap.lookup name = other.appsMap.lookup name) :
    state.columnSizes dir = other.columnSizes dir := by
  have libsPerm := entries_perm libs
  have appsPerm := entries_perm apps
  have names : ((state.libsMap.keys ++ state.appsMap.keys).map List.length).Perm
      ((other.libsMap.keys ++ other.appsMap.keys).map List.length) :=
    ((libsPerm.map Sigma.fst).append (appsPerm.map Sigma.fst)).map List.length
  have funcs := ((libsPerm.map (fun lib => lib.2.entry)).append
    (appsPerm.map (fun app => app.2.entry))).map List.length
  simp only [columnSizes, foldl_max_perm names, foldl_max_perm funcs]

theorem func_room_lib (dir : Text) {name : Text} {item : LibItem} (found : state.libsMap.lookup name = some item) :
    item.entry.length + 1 < (state.columnSizes dir).func := by
  have among : item.entry ∈ state.libsMap.entries.map (fun lib => lib.2.entry) ++
      state.appsMap.entries.map (fun app => app.2.entry) :=
    List.mem_append_left _ (List.mem_map.mpr ⟨⟨name, item⟩, AList.mem_lookup_iff.mp found, rfl⟩)
  exact Nat.add_lt_add_of_le_of_lt (le_foldl_max (List.mem_map_of_mem among)) (by decide)

theorem func_room_app (dir : Text) {name : Text} {item : AppItem} (found : state.appsMap.lookup name = some item) :
    item.entry.length + 1 < (state.columnSizes dir).func := by
  have among : item.entry ∈ state.libsMap.entries.map (fun lib => lib.2.entry) ++
      state.appsMap.entries.map (fun app => app.2.entry) :=
    List.mem_append_right _ (List.mem_map.mpr ⟨⟨name, item⟩, AList.mem_lookup_iff.mp found, rfl⟩)
  exact Nat.add_lt_add_of_le_of_lt (le_foldl_max (List.mem_map_of_mem among)) (by decide)

theorem func_room_sch (dir : Text) : "SCH_TRICK_AppMain".toList.length + 1 < (state.columnSizes dir).func :=
  Nat.add_lt_add_of_le_of_lt (foldl_max_le_iff.mp le_rfl).1 (by decide)

end Columns

section Writing
variable (state : TrickCfsModule) (dir : Text)

/-- What the script says for a name. -/
def definitionFor (name : Text) : Option Definition :=
  match state.libsMap.lookup name with
  | some item => some ⟨.lib, itemFile dir name item.objName, item.entry, name, "0".toList, "0".toList⟩
  | none =>
    (state.appsMap.lookup name).map (fun item =>
      ⟨.app, itemFile dir name item.objName, item.entry, name, item.prior, item.stackSize⟩)

def schTrick : Definition :=
  ⟨.app, dir ++ "sch_trick.so".toList, "SCH_TRICK_AppMain".toList, state.origSchAppName.getD "SCH".toList,
    "80".toList, "8192".toList⟩

theorem schTrick_name : (schTrick state dir).name = state.origSchAppName.getD "SCH".toList := rfl

theorem appLine_eq (name : Text) :
    state.appLine dir name = (definitionFor state dir name).map (Definition.line (state.columnSizes dir)) := by
  rw [appLine, definitionFor]
  cases state.libsMap.lookup name with
  | some item => rfl
  | none => cases state.appsMap.lookup name <;> rfl

theorem runDefaultEsStartup_eq (esFile : Text) : state.runDefaultEsStartup esFile =
    (schTrick state (cfDir esFile) :: state.esEntries.filterMap (definitionFor state (cfDir esFile))).map
      (Definition.line (state.columnSizes (cfDir esFile))) := by
  rw [List.map_cons, List.map_filterMap]
  exact congrArg (_ :: ·) (List.filterMap_congr (fun name _ => appLine_eq state (cfDir esFile) name))

end Writing

section States
variable {target dir : Text} {definitions : List Definition} {state : TrickCfsModule}

theorem definitionFor_of_lib {name : Text} {item : LibItem} (found : state.libsMap.lookup name = some item) :
    definitionFor state dir name =
      some ⟨.lib, itemFile dir name item.objName, item.entry, name, "0".toList, "0".toList⟩ := by
  rw [definitionFor, found]

theorem definitionFor_of_app {name : Text} {item : AppItem} (noLib : state.libsMap.lookup name = none)
    (found : state.appsMap.lookup name = some item) :
    definitionFor state dir name =
      some ⟨.app, itemFile dir name item.objName, item.entry, name, item.prior, item.stackSize⟩ := by
  rw [definitionFor, noLib, found]
  rfl

theorem listed_of_lib (parsed : Parsed target definitions state) {name : Text} {item : LibItem}
    (found : state.libsMap.lookup name = some item) : name ∈ state.esEntries := by
  obtain ⟨read, member, _, rfl, _⟩ := parsed.lib name item found
  rw [parsed.entries]
  exact List.mem_map_of_mem member

theorem listed_of_app (parsed : Parsed target definitions state) {name : Text} {item : AppItem}
    (found : state.appsMap.lookup name = some item) : name ∈ state.esEntries := by
  obtain ⟨read, member, _, rfl, _⟩ := parsed.app name item found
  rw [parsed.entries]
  exact List.mem_map_of_mem member

theorem definitionFor_listed (parsed : Parsed target definitions state) (dir : Text) {name : Text}
    (listed : name ∈ state.esEntries) : (definitionFor state dir name).isSome := by
  rw [parsed.entries] at listed
  obtain ⟨read, member, rfl⟩ := List.mem_map.mp listed
  obtain ⟨isLib, isApp⟩ := parsed.found read member
  cases lib : state.libsMap.lookup read.name with
  | some item =>
    rw [definitionFor_of_lib lib]
    rfl
  | none =>
    cases type : read.type with
    | lib => simpa [lib] using isLib type
    | app =>
      obtain ⟨item, app⟩ := Option.isSome_iff_exists.mp (isApp type)
      rw [definitionFor_of_app lib app]
      rfl

theorem definitionFor_sound (parsed : Parsed target definitions state)
    (sound : ∀ read ∈ definitions, Sound target read) {name : Text} {definition : Definition}
    (taken : definitionFor state dir name = some definition) :
    Sound target definition ∧ definition.name = name ∧
      definition.entry.length + 1 < (state.columnSizes dir).func := by
  cases lib : state.libsMap.lookup name with
  | some item =>
    rw [definitionFor_of_lib lib] at taken
    have room := func_room_lib dir lib
    obtain ⟨read, member, _, rfl, rfl⟩ := parsed.lib name item lib
    obtain rfl := Option.some.inj taken
    obtain ⟨plain, _⟩ := sound read member
    have zero : Plain "0".toList := by decide
    exact ⟨⟨⟨plain.file, plain.entry, plain.name, zero, zero⟩, fun both => by cases both.1⟩, rfl, room⟩
  | none =>
    cases app : state.appsMap.lookup name with
    | some item =>
      rw [definitionFor_of_app lib app] at taken
      have room := func_room_app dir app
      obtain ⟨read, member, isApp, rfl, rfl⟩ := parsed.app name item app
      obtain rfl := Option.some.inj taken
      obtain ⟨plain, other⟩ := sound read member
      exact ⟨⟨⟨plain.file, plain.entry, plain.name, plain.prior, plain.stackSize⟩,
        fun both => other ⟨isApp, both.2⟩⟩, rfl, room⟩
    | none => simp [definitionFor, lib, app] at taken

end States

section Rereading
variable {target : Text} {sizes : ColumnSizes} {definition : Definition}

structure Readable (target : Text) (sizes : ColumnSizes) (definition : Definition) : Prop where
  sound : Sound target definition
  func : definition.entry.length + 1 < sizes.func

theorem read_of_short {fields : List Text} (short : fields.length < 8) : Definition.read target fields = none := by
  apply Option.eq_none_iff_forall_ne_some.mpr
  intro definition taken
  obtain ⟨load, action, shape, _⟩ := Definition.read_eq_some.mp taken
  rw [shape] at short
  simp at short

theorem read_of_fits (readable : Readable target sizes definition) (fits : Fits sizes definition) :
    Definition.read target (lineFields (joinedLine (Definition.line sizes definition))) = some definition := by
  rw [lineFields_of_fits readable.sound.plain readable.func fits]
  exact Definition.read_eq_some.mpr ⟨_, _, rfl, readable.sound.other⟩

theorem definitionsOf_line (sizes : ColumnSizes) (definition : Definition) (lines : List Text) :
    definitionsOf target (Definition.line sizes definition :: lines) =
      (Definition.read target (lineFields (joinedLine (Definition.line sizes definition)))).toList ++
        definitionsOf target lines := by
  obtain ⟨goes, some⟩ := joinedLine_goes_on sizes definition
  simp only [definitionsOf]
  rw [if_neg goes, if_neg some]

theorem parse_line (state : TrickCfsModule) (sizes : ColumnSizes) (definition : Definition) (lines : List Text) :
    state.parseCfeEsStartup (Definition.line sizes definition :: lines) =
      (state.addLineFields (lineFields (joinedLine (Definition.line sizes definition)))).parseCfeEsStartup lines := by
  obtain ⟨goes, some⟩ := joinedLine_goes_on sizes definition
  simp only [parseCfeEsStartup]
  rw [if_neg goes, if_neg some]

theorem definitionsOf_lines {definitions : List Definition}
    (readable : ∀ definition ∈ definitions, Readable target sizes definition) :
    definitionsOf target (definitions.map (Definition.line sizes)) = definitions.filter (Fits sizes ·) := by
  induction definitions with
  | nil => rfl
  | cons definition definitions ih =>
    obtain ⟨first, others⟩ := List.forall_mem_cons.mp readable
    rw [List.map_cons, definitionsOf_line, ih others]
    by_cases fits : Fits sizes definition
    · rw [read_of_fits first fits, List.filter_cons_of_pos (by simpa using fits)]
      rfl
    · rw [read_of_short (lineFields_of_unfit first.sound.plain first.func fits),
        List.filter_cons_of_neg (by simpa using fits)]
      rfl

theorem targetSchAppName_addLineFields (state : TrickCfsModule) (fields : List Text) :
    (state.addLineFields fields).targetSchAppName = state.targetSchAppName := by
  rw [addLineFields.eq_def]
  split
  · split
    · split <;> rfl
    · split <;> rfl
  · rfl

theorem origSchAppName_addLineFields {state : TrickCfsModule} {fields : List Text}
    (kept : (Definition.read state.targetSchAppName fields).isSome ∨ fields.length < 8) :
    (state.addLineFields fields).origSchAppName = state.origSchAppName := by
  rcases kept with taken | short
  · obtain ⟨definition, taken⟩ := Option.isSome_iff_exists.mp taken
    obtain ⟨load, action, rfl, other⟩ := Definition.read_eq_some.mp taken
    simp only [addLineFields]
    split
    next isApp =>
      have app : definition.type = .app := by
        cases type : definition.type with
        | app => rfl
        | lib => exact absurd (type ▸ isApp) (by decide)
      rw [if_neg (fun same => other ⟨app, same⟩)]
    next => split <;> rfl
  · rw [addLineFields.eq_def]
    split
    · simp at short
    · rfl

theorem origSchAppName_lines {definitions : List Definition} {state : TrickCfsModule}
    (sameTarget : state.targetSchAppName = target)
    (readable : ∀ definition ∈ definitions, Readable target sizes definition) :
    (state.parseCfeEsStartup (definitions.map (Definition.line sizes))).origSchAppName = state.origSchAppName := by
  induction definitions generalizing state with
  | nil => rfl
  | cons definition definitions ih =>
    obtain ⟨first, others⟩ := List.forall_mem_cons.mp readable
    rw [List.map_cons, parse_line, ih ((targetSchAppName_addLineFields _ _).trans sameTarget) others]
    apply origSchAppName_addLineFields
    by_cases fits : Fits sizes definition
    · rw [sameTarget, read_of_fits first fits]
      exact Or.inl rfl
    · exact Or.inr (lineFields_of_unfit first.sound.plain first.func fits)

end Rereading

def parseText (target : Text) (lines : List Text) : TrickCfsModule :=
  ({ targetSchAppName := target } : TrickCfsModule).parseCfeEsStartup lines

section Congruence
variable {state other : TrickCfsModule} {target : Text} {definitions : List Definition}

theorem runDefaultEsStartup_congr (esFile : Text)
    (libs : ∀ name, state.libsMap.lookup name = other.libsMap.lookup name)
    (apps : ∀ name, state.appsMap.lookup name = other.appsMap.lookup name)
    (entries : state.esEntries = other.esEntries)
    (sch : state.origSchAppName.getD "SCH".toList = other.origSchAppName.getD "SCH".toList) :
    state.runDefaultEsStartup esFile = other.runDefaultEsStartup esFile := by
  have sameFor : definitionFor state (cfDir esFile) = definitionFor other (cfDir esFile) := by
    funext name
    rw [definitionFor, definitionFor, libs name, apps name]
  have sameSch : schTrick state (cfDir esFile) = schTrick other (cfDir esFile) := by rw [schTrick, schTrick, sch]
  rw [runDefaultEsStartup_eq, runDefaultEsStartup_eq, entries, sameFor, sameSch, columnSizes_congr _ libs apps]

theorem length_runDefaultEsStartup (parsed : Parsed target definitions state) (esFile : Text) :
    (state.runDefaultEsStartup esFile).length = state.esEntries.length + 1 := by
  have all : (state.esEntries.filterMap (definitionFor state (cfDir esFile))).length = state.esEntries.length :=
    List.filterMap_length_eq_length.mpr (fun name listed => definitionFor_listed parsed _ listed)
  rw [runDefaultEsStartup_eq, List.length_map, List.length_cons, all]

variable (parsed : Parsed target definitions state) (sound : ∀ read ∈ definitions, Sound target read) (dir : Text)
include parsed

theorem mem_of_definitionFor {name : Text} {read : Definition}
    (taken : definitionFor state dir name = some read) :
    read ∈ state.esEntries.filterMap (definitionFor state dir) := by
  refine List.mem_filterMap.mpr ⟨name, ?_, taken⟩
  rw [definitionFor] at taken
  split at taken
  next item lib => exact listed_of_lib parsed lib
  next =>
    obtain ⟨item, app, _⟩ := Option.map_eq_some_iff.mp taken
    exact listed_of_app parsed app

include sound

theorem definitionFor_of_mem {read : Definition}
    (member : read ∈ state.esEntries.filterMap (definitionFor state dir)) :
    definitionFor state dir read.name = some read := by
  obtain ⟨name, _, taken⟩ := List.mem_filterMap.mp member
  rwa [(definitionFor_sound parsed sound taken).2.1]

theorem lookup_libsMap_reread
    (again : Parsed target (state.esEntries.filterMap (definitionFor state dir)) other) (name : Text) :
    other.libsMap.lookup name = state.libsMap.lookup name := by
  cases lib : state.libsMap.lookup name with
  | some item =>
    have taken := @definitionFor_of_lib dir state name item lib
    have written := mem_of_definitionFor parsed dir taken
    have held := (again.found _ written).1 rfl
    obtain ⟨found, lookup⟩ := Option.isSome_iff_exists.mp held
    obtain ⟨read, member, _, named, rfl⟩ := again.lib name found lookup
    have same := definitionFor_of_mem parsed sound dir member
    rw [named, taken] at same
    obtain rfl := Option.some.inj same
    obtain ⟨first, _, _, _, rfl⟩ := parsed.lib name item lib
    exact lookup
  | none =>
    refine Option.eq_none_iff_forall_ne_some.mpr (fun found lookup => ?_)
    obtain ⟨read, member, isLib, rfl, _⟩ := again.lib name found lookup
    have taken := definitionFor_of_mem parsed sound dir member
    rw [definitionFor, lib] at taken
    obtain ⟨item, _, shape⟩ := Option.map_eq_some_iff.mp taken
    rw [← shape] at isLib
    cases isLib

theorem lookup_appsMap_reread (apart : ∀ name ∈ state.libsMap, name ∉ state.appsMap)
    (again : Parsed target (state.esEntries.filterMap (definitionFor state dir)) other) (name : Text) :
    other.appsMap.lookup name = state.appsMap.lookup name := by
  cases app : state.appsMap.lookup name with
  | some item =>
    have noLib : state.libsMap.lookup name = none := by
      apply AList.lookup_eq_none.mpr
      intro held
      exact apart name held (AList.lookup_isSome.mp (by rw [app]; rfl))
    have taken := @definitionFor_of_app dir state name item noLib app
    have written := mem_of_definitionFor parsed dir taken
    have held := (again.found _ written).2 rfl
    obtain ⟨found, lookup⟩ := Option.isSome_iff_exists.mp held
    obtain ⟨read, member, _, named, rfl⟩ := again.app name found lookup
    have same := definitionFor_of_mem parsed sound dir member
    rw [named, taken] at same
    obtain rfl := Option.some.inj same
    obtain ⟨first, _, _, _, rfl⟩ := parsed.app name item app
    exact lookup
  | none =>
    refine Option.eq_none_iff_forall_ne_some.mpr (fun found lookup => ?_)
    obtain ⟨read, member, isApp, rfl, _⟩ := again.app name found lookup
    have taken := definitionFor_of_mem parsed sound dir member
    rw [definitionFor] at taken
    split at taken
    next item _ =>
      rw [← Option.some.inj taken] at isApp
      cases isApp
    next => simp [app] at taken

end Congruence

section Script
variable {target esFile : Text} {lines : List Text}

theorem parseText_parsed (target : Text) (lines : List Text) :
    Parsed target (definitionsOf target lines) (parseText target lines) := by
  have parsed := parsed_text (Parsed.initial target) lines
  rwa [List.nil_append] at parsed

/-- The line of the scheduler fits when some name has at least nine characters. -/
theorem schTrick_fits_iff {definitions : List Definition} {state : TrickCfsModule}
    (parsed : Parsed target definitions state) (dir : Text) :
    Fits (state.columnSizes dir) (schTrick state dir) ↔ ∃ name ∈ state.esEntries, 9 ≤ name.length := by
  have listed_iff {name : Text} :
      name ∈ state.libsMap.keys ++ state.appsMap.keys ↔ name ∈ state.esEntries := by
    constructor
    · intro held
      rcases List.mem_append.mp held with lib | app
      · obtain ⟨item, found⟩ := Option.isSome_iff_exists.mp (AList.lookup_isSome.mpr lib)
        exact listed_of_lib parsed found
      · obtain ⟨item, found⟩ := Option.isSome_iff_exists.mp (AList.lookup_isSome.mpr app)
        exact listed_of_app parsed found
    · intro listed
      obtain ⟨definition, taken⟩ := Option.isSome_iff_exists.mp (definitionFor_listed parsed dir listed)
      rw [definitionFor] at taken
      split at taken
      next item lib => exact List.mem_append_left _ (AList.lookup_isSome.mp (by rw [lib]; rfl))
      next =>
        obtain ⟨item, app, _⟩ := Option.map_eq_some_iff.mp taken
        exact List.mem_append_right _ (AList.lookup_isSome.mp (by rw [app]; rfl))
  have widest := @foldl_max_le_iff "SCH_trk".toList.length 8
    ((state.libsMap.keys ++ state.appsMap.keys).map List.length)
  have file : (dir ++ "sch_trick.so".toList).length = dir.length + 12 := List.length_append
  have size : (state.columnSizes dir).file =
      ((state.libsMap.keys ++ state.appsMap.keys).map List.length).foldl max "SCH_trk".toList.length + 1 +
        dir.length + 4 := rfl
  constructor
  · intro fits
    by_contra short
    have bound : ∀ length ∈ (state.libsMap.keys ++ state.appsMap.keys).map List.length, length ≤ 8 := by
      intro length member
      obtain ⟨name, held, rfl⟩ := List.mem_map.mp member
      by_contra long
      exact short ⟨name, listed_iff.mp held, by omega⟩
    have narrow := widest.mpr ⟨by decide, bound⟩
    have room := fits.file
    simp only [schTrick, file, size] at room
    omega
  · intro ⟨name, listed, long⟩
    have among : name.length ∈ (state.libsMap.keys ++ state.appsMap.keys).map List.length :=
      List.mem_map_of_mem (listed_iff.mpr listed)
    have wide := @le_foldl_max "SCH_trk".toList.length _ _ among
    have prior : "80".toList.length < 4 := by decide
    have stackSize : "8192".toList.length < 8 := by decide
    refine ⟨?_, Or.inr prior, stackSize⟩
    simp only [schTrick, file, size]
    omega

theorem origSchAppName_plain {state : TrickCfsModule} (lines : List Text)
    (before : ∀ name, state.origSchAppName = some name → Plain name) :
    ∀ name, (state.parseCfeEsStartup lines).origSchAppName = some name → Plain name := by
  induction lines generalizing state with
  | nil => exact before
  | cons origLine lines ih =>
    simp only [parseCfeEsStartup]
    split
    · exact before
    · split
      · exact ih before
      next some =>
        refine ih ?_
        have plain := lineFields_plain some
        rw [addLineFields.eq_def]
        split
        next kind file entry field prior stackSize load action shape =>
          rw [shape] at plain
          split
          · split
            · intro name same
              rw [← Option.some.inj same]
              exact plain field (by simp)
            · exact before
          · split
            · exact before
            · exact before
        next => exact before

theorem plain_of_found (found : (parseText target lines).origSchAppName = some target) : Plain target :=
  origSchAppName_plain lines (fun name held => by cases held) target found

theorem schTrick_plain {state : TrickCfsModule} {dir : Text} (directory : Plain dir)
    (name : Plain (state.origSchAppName.getD "SCH".toList)) : (schTrick state dir).IsPlain := by
  have file : Plain "sch_trick.so".toList := by decide
  have entry : Plain "SCH_TRICK_AppMain".toList := by decide
  have prior : Plain "80".toList := by decide
  have stackSize : Plain "8192".toList := by decide
  refine ⟨⟨solid_append directory.1 file.1, fun char member => ?_⟩, entry, name, prior, stackSize⟩
  exact (List.mem_append.mp member).elim (directory.2 char) (file.2 char)

theorem script_readable (target : Text) (lines : List Text) (dir : Text) :
    ∀ read ∈ (parseText target lines).esEntries.filterMap (definitionFor (parseText target lines) dir),
      Readable target ((parseText target lines).columnSizes dir) read := by
  intro read member
  have parsed := parseText_parsed target lines
  have taken := definitionFor_of_mem parsed (definitionsOf_sound lines) dir member
  obtain ⟨sound, _, func⟩ := definitionFor_sound parsed (definitionsOf_sound lines) taken
  exact ⟨sound, func⟩

theorem addLineFields_schTrick {state : TrickCfsModule} {dir : Text} (directory : Plain dir) (plainTarget : Plain target)
    (found : state.origSchAppName = some target) :
    let fields := lineFields (joinedLine (Definition.line (state.columnSizes dir) (schTrick state dir)))
    Definition.read target fields = none ∧
      (({ targetSchAppName := target } : TrickCfsModule).addLineFields fields).origSchAppName =
        if Fits (state.columnSizes dir) (schTrick state dir) then some target else none := by
  intro fields
  have named : state.origSchAppName.getD "SCH".toList = target := by rw [found]; rfl
  have plain : (schTrick state dir).IsPlain := schTrick_plain directory (named.symm ▸ plainTarget)
  have func : (schTrick state dir).entry.length + 1 < (state.columnSizes dir).func := func_room_sch dir
  by_cases fits : Fits (state.columnSizes dir) (schTrick state dir)
  · have shape : fields = _ := lineFields_of_fits plain func fits
    rw [shape, if_pos fits]
    simp only [schTrick, named]
    refine ⟨?_, ?_⟩
    · exact if_pos rfl
    · rw [addLineFields, if_pos (show EntryType.app.text = "CFE_APP".toList from rfl), if_pos rfl]
  · have short : fields.length < 8 := lineFields_of_unfit plain func fits
    rw [if_neg fits]
    exact ⟨read_of_short short, origSchAppName_addLineFields (Or.inr short)⟩

/-- The second reading takes from the script the definitions that fit. -/
theorem reread_script (found : (parseText target lines).origSchAppName = some target)
    (directory : Plain (cfDir esFile)) :
    let state := parseText target lines
    let sizes := state.columnSizes (cfDir esFile)
    Parsed target ((state.esEntries.filterMap (definitionFor state (cfDir esFile))).filter (Fits sizes ·))
        (parseText target (state.runDefaultEsStartup esFile)) ∧
      (parseText target (state.runDefaultEsStartup esFile)).origSchAppName =
        if Fits sizes (schTrick state (cfDir esFile)) then some target else none := by
  intro state sizes
  have readable := script_readable target lines (cfDir esFile)
  obtain ⟨unread, remembered⟩ := addLineFields_schTrick directory (plain_of_found found) found
  have shape := runDefaultEsStartup_eq state esFile
  rw [List.map_cons] at shape
  rw [shape]
  refine ⟨?_, ?_⟩
  · have parsed := parseText_parsed target (Definition.line sizes (schTrick state (cfDir esFile)) ::
      (state.esEntries.filterMap (definitionFor state (cfDir esFile))).map (Definition.line sizes))
    rwa [definitionsOf_line, unread, Option.toList_none, List.nil_append, definitionsOf_lines readable] at parsed
  · rw [parseText, parse_line]
    refine (origSchAppName_lines ?_ readable).trans remembered
    exact targetSchAppName_addLineFields _ _

theorem fits_of_stable (found : (parseText target lines).origSchAppName = some target)
    (directory : Plain (cfDir esFile)) :
    let state := parseText target lines
    (parseText target (state.runDefaultEsStartup esFile)).runDefaultEsStartup esFile =
        state.runDefaultEsStartup esFile →
      ∀ read ∈ state.esEntries.filterMap (definitionFor state (cfDir esFile)),
        Fits (state.columnSizes (cfDir esFile)) read := by
  intro state stable
  have parsed := parseText_parsed target lines
  have again := (reread_script found directory).1
  have counts := congrArg List.length stable
  rw [length_runDefaultEsStartup again, length_runDefaultEsStartup parsed, again.entries, List.length_map] at counts
  have all : (state.esEntries.filterMap (definitionFor state (cfDir esFile))).length = state.esEntries.length :=
    List.filterMap_length_eq_length.mpr (fun name listed => definitionFor_listed parsed _ listed)
  have kept := List.length_filter_eq_length_iff.mp ((Nat.add_right_cancel counts).trans all.symm)
  intro read member
  exact of_decide_eq_true (kept read member)

theorem reread_same (found : (parseText target lines).origSchAppName = some target)
    (apart : ∀ name ∈ (parseText target lines).libsMap, name ∉ (parseText target lines).appsMap)
    (directory : Plain (cfDir esFile)) :
    let state := parseText target lines
    let other := parseText target (state.runDefaultEsStartup esFile)
    (∀ read ∈ state.esEntries.filterMap (definitionFor state (cfDir esFile)),
        Fits (state.columnSizes (cfDir esFile)) read) →
      (∀ name, other.libsMap.lookup name = state.libsMap.lookup name) ∧
        (∀ name, other.appsMap.lookup name = state.appsMap.lookup name) ∧ other.esEntries = state.esEntries := by
  intro state other fits
  have parsed := parseText_parsed target lines
  have sound := @definitionsOf_sound target lines
  have again := (reread_script found directory).1
  rw [List.filter_eq_self.mpr (fun read member => decide_eq_true (fits read member))] at again
  refine ⟨lookup_libsMap_reread parsed sound _ again, lookup_appsMap_reread parsed sound _ apart again, ?_⟩
  have names : (fun name => (definitionFor state (cfDir esFile) name).map Definition.name) =
      fun name => (definitionFor state (cfDir esFile) name).map (fun _ => name) := by
    funext name
    cases taken : definitionFor state (cfDir esFile) name with
    | none => rfl
    | some definition => exact congrArg some (definitionFor_sound parsed sound taken).2.1
  have whole : state.esEntries.filterMap (fun name => (definitionFor state (cfDir esFile) name).map (fun _ => name)) =
      state.esEntries.map id := by
    refine List.filterMap_eq_map_iff_forall_eq_some.mpr (fun name listed => ?_)
    obtain ⟨definition, taken⟩ := Option.isSome_iff_exists.mp (definitionFor_listed parsed (cfDir esFile) listed)
    rw [taken]
    rfl
  rw [again.entries, List.map_filterMap, names, whole, List.map_id]

/-- The rewritten script, read again and written again, is the same script exactly
when all its columns leave room. For the scheduler's own line that takes a name of
nine characters. -/
theorem rewriting_stable_iff (found : (parseText target lines).origSchAppName = some target)
    (apart : ∀ name ∈ (parseText target lines).libsMap, name ∉ (parseText target lines).appsMap)
    (directory : Plain (cfDir esFile)) :
    let state := parseText target lines
    let script := state.runDefaultEsStartup esFile
    (parseText target script).runDefaultEsStartup esFile = script ↔
      (∀ name ∈ state.esEntries, ∀ definition ∈ definitionFor state (cfDir esFile) name,
          Fits (state.columnSizes (cfDir esFile)) definition) ∧
        ((∃ name ∈ state.esEntries, 9 ≤ name.length) ∨ target = "SCH".toList) := by
  intro state script
  have parsed : Parsed target (definitionsOf target lines) state := parseText_parsed target lines
  obtain ⟨again, remembered⟩ := reread_script found directory
  have sameSch : state.origSchAppName.getD "SCH".toList = target := by
    rw [show state.origSchAppName = some target from found]
    rfl
  rw [← schTrick_fits_iff parsed (cfDir esFile)]
  constructor
  · intro stable
    have fits := fits_of_stable found directory stable
    refine ⟨fun name listed definition taken => fits definition (List.mem_filterMap.mpr ⟨name, listed, taken⟩), ?_⟩
    by_cases fitsSch : Fits (state.columnSizes (cfDir esFile)) (schTrick state (cfDir esFile))
    · exact Or.inl fitsSch
    · -- The scheduler's line is lost, and its name with it.
      right
      obtain ⟨libs, apps, _⟩ := reread_same found apart directory fits
      rw [if_neg fitsSch] at remembered
      have shape := runDefaultEsStartup_eq state esFile
      have first := congrArg List.head? (stable.trans shape)
      rw [runDefaultEsStartup_eq, columnSizes_congr _ libs apps, List.map_cons, List.map_cons] at first
      have unknown : (parseText target script).origSchAppName.getD "SCH".toList = "SCH".toList :=
        congrArg (·.getD "SCH".toList) remembered
      have plain : Plain "SCH".toList := by decide
      have names := name_of_line (schTrick_plain directory (unknown.symm ▸ plain))
        (schTrick_plain directory (sameSch.symm ▸ plain_of_found found)) (Option.some.inj first)
      rw [schTrick_name, schTrick_name, unknown, sameSch] at names
      exact names.symm
  · intro ⟨fits, sch⟩
    have all : ∀ read ∈ state.esEntries.filterMap (definitionFor state (cfDir esFile)),
        Fits (state.columnSizes (cfDir esFile)) read := by
      intro read member
      obtain ⟨name, listed, taken⟩ := List.mem_filterMap.mp member
      exact fits name listed read taken
    obtain ⟨libs, apps, entries⟩ := reread_same found apart directory all
    refine runDefaultEsStartup_congr esFile libs apps entries ?_
    rw [remembered, sameSch]
    split
    · rfl
    · exact (sch.resolve_left ‹_›).symm

def telemetryLines : List Text :=
  ["CFE_APP, /cf/sch_lab.so, SCH_Lab_AppMain, SCH_LAB_APP, 80, 8192, 0x0, 0;\n".toList,
    "CFE_APP, /cf/telemetry.so, TLM_AppMain, TELEMETRY, 50, 16384, 0x0, 0;\n".toList]

/-- A name of nine characters makes the file column wide enough for every line. -/
theorem rewriting_stable_iff_nine_characters :
    let script := (parseText "SCH_LAB_APP".toList telemetryLines).runDefaultEsStartup "./cf/cfe_es_startup.scr".toList
    (parseText "SCH_LAB_APP".toList script).runDefaultEsStartup "./cf/cfe_es_startup.scr".toList = script := by
  have noLibs : (parseText "SCH_LAB_APP".toList telemetryLines).libsMap.keys = [] := by decide
  refine (rewriting_stable_iff (by decide) ?_ (by decide)).mpr ⟨by decide, Or.inl (by decide)⟩
  intro name held
  rw [AList.mem_keys, noLibs] at held
  cases held

end Script

end TrickCFS.Proofs.StartupRereading
