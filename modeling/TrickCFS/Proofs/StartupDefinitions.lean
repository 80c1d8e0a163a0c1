import TrickCFS.Proofs.StartupTokens

/-! The startup script that is written from a parsed startup file. The definitions
are stored by name, apart for apps and libraries, and the writer looks each name
of its list up again. -/

namespace TrickCFS.Proofs.StartupDefinitions
open Words TrickCfsModule StartupTokens

/-- What the parser takes from a line. -/
structure Definition where
  type : EntryType
  file : Text
  entry : Text
  name : Text
  prior : Text
  stackSize : Text

namespace Definition

def read (target : Text) : List Text → Option Definition
  | [kind, file, entry, name, prior, stackSize, _, _] =>
    if kind = EntryType.app.text then
      if name = target then none else some ⟨.app, file, entry, name, prior, stackSize⟩
    else if kind = EntryType.lib.text then some ⟨.lib, file, entry, name, prior, stackSize⟩
    else none
  | _ => none

/-- The fields of the line that is written for it. -/
def written (definition : Definition) : List Text :=
  [definition.type.text, definition.file, definition.entry, definition.name,
    if definition.type = .lib then "0".toList else definition.prior,
    if definition.type = .lib then "0".toList else definition.stackSize, "0x0".toList, "0".toList]

structure IsPlain (definition : Definition) : Prop where
  file : Plain definition.file
  entry : Plain definition.entry
  name : Plain definition.name
  prior : Plain definition.prior
  stackSize : Plain definition.stackSize

end Definition

section Lookup
variable {ι : Type} {map : AList (fun _ : Text => ι)} {name other : Text} {item value : ι}

theorem lookup_insert_eq_some (found : (map.insert name item).lookup other = some value) :
    other = name ∧ value = item ∨ map.lookup other = some value := by
  by_cases same : other = name
  · subst same
    rw [AList.lookup_insert] at found
    exact Or.inl ⟨rfl, (Option.some.inj found).symm⟩
  · rw [AList.lookup_insert_ne same] at found
    exact Or.inr found

theorem isSome_lookup_insert (held : other ≠ name → (map.lookup other).isSome) :
    ((map.insert name item).lookup other).isSome := by
  by_cases same : other = name
  · rw [same, AList.lookup_insert]
    rfl
  · rw [AList.lookup_insert_ne same]
    exact held same

end Lookup

/-- The maps hold the definitions that have been read, each under its name. -/
structure Parsed (target : Text) (definitions : List Definition) (state : TrickCfsModule) : Prop where
  target : state.targetSchAppName = target
  entries : state.esEntries = definitions.map Definition.name
  lib : ∀ name item, state.libsMap.lookup name = some item →
    ∃ read ∈ definitions, read.type = .lib ∧ read.name = name ∧ item = ⟨read.entry, some read.file⟩
  app : ∀ name item, state.appsMap.lookup name = some item →
    ∃ read ∈ definitions, read.type = .app ∧ read.name = name ∧
      item = ⟨read.entry, read.prior, read.stackSize, some read.file⟩
  found : ∀ read ∈ definitions,
    (read.type = .lib → (state.libsMap.lookup read.name).isSome) ∧
      (read.type = .app → (state.appsMap.lookup read.name).isSome)

namespace Parsed
variable {target : Text} {definitions : List Definition} {state : TrickCfsModule}

theorem initial (target : Text) : Parsed target [] ({ targetSchAppName := target } : TrickCfsModule) where
  target := rfl
  entries := rfl
  lib := fun name item found => by simp at found
  app := fun name item found => by simp at found
  found := fun read member => by cases member

theorem define_lib (parsed : Parsed target definitions state) (file entry name prior stackSize : Text) :
    Parsed target (definitions ++ [⟨.lib, file, entry, name, prior, stackSize⟩])
      { state with
        libsMap := state.libsMap.insert name ⟨entry, some file⟩
        esEntries := state.esEntries ++ [name] } where
  target := parsed.target
  entries := by simp [parsed.entries]
  lib other item found := by
    rcases lookup_insert_eq_some found with ⟨rfl, rfl⟩ | held
    · exact ⟨_, List.mem_append_right _ (List.mem_singleton_self _), rfl, rfl, rfl⟩
    · obtain ⟨read, member, rest⟩ := parsed.lib other item held
      exact ⟨read, List.mem_append_left _ member, rest⟩
  app other item found := by
    obtain ⟨read, member, rest⟩ := parsed.app other item found
    exact ⟨read, List.mem_append_left _ member, rest⟩
  found read member := by
    rcases List.mem_append.mp member with before | new
    · refine ⟨fun isLib => ?_, (parsed.found read before).2⟩
      exact isSome_lookup_insert (fun _ => (parsed.found read before).1 isLib)
    · obtain rfl := List.mem_singleton.mp new
      exact ⟨fun _ => isSome_lookup_insert (absurd rfl), fun isApp => by cases isApp⟩

theorem define_app (parsed : Parsed target definitions state) (file entry name prior stackSize : Text) :
    Parsed target (definitions ++ [⟨.app, file, entry, name, prior, stackSize⟩])
      { state with
        appsMap := state.appsMap.insert name ⟨entry, prior, stackSize, some file⟩
        esEntries := state.esEntries ++ [name] } where
  target := parsed.target
  entries := by simp [parsed.entries]
  lib other item found := by
    obtain ⟨read, member, rest⟩ := parsed.lib other item found
    exact ⟨read, List.mem_append_left _ member, rest⟩
  app other item found := by
    rcases lookup_insert_eq_some found with ⟨rfl, rfl⟩ | held
    · exact ⟨_, List.mem_append_right _ (List.mem_singleton_self _), rfl, rfl, rfl⟩
    · obtain ⟨read, member, rest⟩ := parsed.app other item held
      exact ⟨read, List.mem_append_left _ member, rest⟩
  found read member := by
    rcases List.mem_append.mp member with before | new
    · refine ⟨(parsed.found read before).1, fun isApp => ?_⟩
      exact isSome_lookup_insert (fun _ => (parsed.found read before).2 isApp)
    · obtain rfl := List.mem_singleton.mp new
      exact ⟨fun isLib => (by cases isLib), fun _ => isSome_lookup_insert (absurd rfl)⟩

theorem addLineFields (parsed : Parsed target definitions state) (fields : List Text) :
    Parsed target (definitions ++ (Definition.read target fields).toList) (state.addLineFields fields) := by
  have same := parsed.target
  subst same
  by_cases eight : ∃ kind file entry name prior stackSize load action,
      fields = [kind, file, entry, name, prior, stackSize, load, action]
  · obtain ⟨kind, file, entry, name, prior, stackSize, load, action, rfl⟩ := eight
    simp only [TrickCfsModule.addLineFields, Definition.read]
    change Parsed _ _ (if kind = EntryType.app.text then _ else if kind = EntryType.lib.text then _ else _)
    split
    · split
      · rw [Option.toList_none, List.append_nil]
        exact { parsed with target := parsed.target }
      · exact parsed.define_app file entry name prior stackSize
    · split
      · exact parsed.define_lib file entry name prior stackSize
      · simpa using parsed
  · have unread : Definition.read state.targetSchAppName fields = none := by
      rw [Definition.read.eq_def]
      split
      next => exact False.elim (eight ⟨_, _, _, _, _, _, _, _, rfl⟩)
      next => rfl
    have kept : state.addLineFields fields = state := by
      rw [TrickCfsModule.addLineFields.eq_def]
      split
      next => exact False.elim (eight ⟨_, _, _, _, _, _, _, _, rfl⟩)
      next => rfl
    rw [unread, kept]
    simpa using parsed

theorem parse (parsed : Parsed target definitions state) (lines : List StartupLine) {ending : List Text}
    (marked : ∀ line, ending.head? = some line → line.head? = some '!') :
    Parsed target
      (definitions ++ lines.filterMap (fun line =>
        Definition.read target (tokens line.last line.entry.type.text line.parts)))
      (state.parseCfeEsStartup (lines.map StartupLine.text ++ ending)) := by
  induction lines generalizing state definitions with
  | nil =>
    cases ending with
    | nil => simpa [parseCfeEsStartup] using parsed
    | cons line ending =>
      obtain ⟨rest, rfl⟩ : ∃ rest, line = '!' :: rest := by
        cases line with
        | nil => cases marked [] rfl
        | cons char rest => exact ⟨rest, by rw [Option.some.inj (marked (char :: rest) rfl)]⟩
      have stops : (joinedLine ([] ++ '!' :: rest)).head? = some '!' :=
        joinedLine_head (fun _ member => by cases member) (by decide)
      rw [List.nil_append] at stops
      simpa [parseCfeEsStartup, stops] using parsed
  | cons line lines ih =>
    have head := joinedLine_text line
    have goes : (joinedLine line.text).head? ≠ some '!' := by rw [head]; decide
    have some : joinedLine line.text ≠ [] := by
      intro empty
      rw [empty] at head
      cases head
    have next := ih (parsed.addLineFields (lineFields (joinedLine line.text)))
    rw [List.map_cons, List.cons_append, parseCfeEsStartup, if_neg goes, if_neg some]
    rw [lineFields_text, List.append_assoc] at next
    rw [lineFields_text]
    convert next using 2
    cases taken : Definition.read target (tokens line.last line.entry.type.text line.parts) <;>
      simp [taken]

end Parsed

section Writing
variable {sizes : ColumnSizes} {kind file func name prior stackSize : Text}

theorem strip_padded {text : Text} (plain : Plain text) (count : Nat) :
    strip Text.isSpace (List.replicate count ' ' ++ text) = text := by
  apply strip_blanks_solid _ plain.1
  intro char member
  rw [List.eq_of_mem_replicate member]
  decide

/-- A written line in pieces between its commas. The padding of a column stands
in front of the next field. -/
theorem startupLine_pieces : ∃ filePad funcPad priorPad stackPad : Nat,
    startupLine sizes kind file func name prior stackSize =
      [','].intercalate [kind, List.replicate 1 ' ' ++ file, List.replicate filePad ' ' ++ func,
        List.replicate funcPad ' ' ++ name, List.replicate priorPad ' ' ++ prior,
        List.replicate stackPad ' ' ++ stackSize, List.replicate 1 ' ' ++ "0x0".toList,
        List.replicate 1 ' ' ++ "0".toList] ++ ";\n".toList := by
  refine ⟨sizes.file - (file ++ [',']).length, sizes.func - (func ++ [',']).length,
    sizes.name - (name ++ [',']).length + (5 - (prior ++ [',']).length), 9 - (stackSize ++ [',']).length, ?_⟩
  have comma : ", ".toList = [','] ++ List.replicate 1 ' ' := by rfl
  have ending : " 0x0, 0;\n".toList =
      List.replicate 1 ' ' ++ "0x0".toList ++ [','] ++ List.replicate 1 ' ' ++ "0".toList ++ ";\n".toList := by rfl
  simp only [startupLine, Text.ljust, Text.rjust, List.intercalate_cons_cons, List.intercalate_singleton,
    List.append_assoc, List.replicate_add, comma, ending]

theorem readFields_startupLine (kindPlain : Plain kind) (filePlain : Plain file) (funcPlain : Plain func)
    (namePlain : Plain name) (priorPlain : Plain prior) (stackPlain : Plain stackSize) :
    readFields (startupLine sizes kind file func name prior stackSize) =
      [kind, file, func, name, prior, stackSize, "0x0".toList, "0".toList] := by
  obtain ⟨filePad, funcPad, priorPad, stackPad, shape⟩ :=
    @startupLine_pieces sizes kind file func name prior stackSize
  have zero : Plain "0".toList := by decide
  have address : Plain "0x0".toList := by decide
  rw [shape]
  have padded (text : Text) (plain : Plain text) (count : Nat) :
      ∀ char ∈ List.replicate count ' ' ++ text, char ≠ ',' ∧ char ≠ ';' := by
    intro char member
    rcases List.mem_append.mp member with inside | inside
    · rw [List.eq_of_mem_replicate inside]
      decide
    · exact plain.2 char inside
  generalize pieces_eq : [kind, List.replicate 1 ' ' ++ file, List.replicate filePad ' ' ++ func,
    List.replicate funcPad ' ' ++ name, List.replicate priorPad ' ' ++ prior,
    List.replicate stackPad ' ' ++ stackSize, List.replicate 1 ' ' ++ "0x0".toList,
    List.replicate 1 ' ' ++ "0".toList] = pieces
  have separate : ∀ piece ∈ pieces, ∀ char ∈ piece, char ≠ ',' ∧ char ≠ ';' := by
    simp only [← pieces_eq, List.forall_mem_cons]
    exact ⟨kindPlain.2, padded _ filePlain _, padded _ funcPlain _, padded _ namePlain _, padded _ priorPlain _,
      padded _ stackPlain _, padded _ address _, padded _ zero _, fun _ member => by cases member⟩
  have upTo : ([','].intercalate pieces ++ ";\n".toList).takeWhile (· ≠ ';') = [','].intercalate pieces := by
    rw [List.takeWhile_append_of_pos]
    · exact List.append_nil _
    · intro char member
      rcases mem_intercalate member with rfl | ⟨piece, among, inside⟩
      · decide
      · simp [separate piece among char inside]
  have split : ([','].intercalate pieces).splitOn ',' = pieces := by
    apply List.splitOn_intercalate
    · intro piece among inside
      exact (separate piece among ',' inside).1 rfl
    · simp [← pieces_eq]
  have kindStrip := strip_padded kindPlain 0
  rw [List.replicate_zero, List.nil_append] at kindStrip
  rw [readFields, upTo, split, ← pieces_eq]
  simp only [List.map_cons, List.map_nil]
  rw [kindStrip, strip_padded filePlain, strip_padded funcPlain, strip_padded namePlain, strip_padded priorPlain,
    strip_padded stackPlain, strip_padded address, strip_padded zero]

end Writing

namespace Definition

theorem written_eq (definition : Definition) (plain : definition.IsPlain) (sizes : ColumnSizes) :
    readFields (startupLine sizes definition.type.text definition.file definition.entry definition.name
      (if definition.type = .lib then "0".toList else definition.prior)
      (if definition.type = .lib then "0".toList else definition.stackSize)) = definition.written := by
  have zero : Plain "0".toList := by decide
  have kind : Plain definition.type.text := by cases definition.type <;> decide
  apply readFields_startupLine kind plain.file plain.entry plain.name
  · split
    · exact zero
    · exact plain.prior
  · split
    · exact zero
    · exact plain.stackSize

theorem read_eq_some {target : Text} {fields : List Text} {definition : Definition} :
    read target fields = some definition ↔ ∃ load action,
      fields = [definition.type.text, definition.file, definition.entry, definition.name, definition.prior,
        definition.stackSize, load, action] ∧ ¬ (definition.type = .app ∧ definition.name = target) := by
  constructor
  · intro taken
    rw [read.eq_def] at taken
    split at taken
    next kind file entry name prior stackSize load action =>
      split at taken
      next isApp =>
        split at taken
        next => cases taken
        next other =>
          cases taken
          exact ⟨load, action, by rw [isApp], fun both => other both.2⟩
      next =>
        split at taken
        next isLib =>
          cases taken
          exact ⟨load, action, by rw [isLib], fun both => by cases both.1⟩
        next => cases taken
    next => cases taken
  · rintro ⟨load, action, rfl, other⟩
    obtain ⟨type, file, entry, name, prior, stackSize⟩ := definition
    cases type with
    | app =>
      have named : name ≠ target := fun same => other ⟨rfl, same⟩
      simp only [read, if_neg named, if_true]
    | lib =>
      have different : EntryType.lib.text ≠ EntryType.app.text := by decide
      simp only [read, if_neg different, if_true]

theorem read_plain {target : Text} {line : StartupLine} {definition : Definition}
    (taken : read target (tokens line.last line.entry.type.text line.parts) = some definition) :
    definition.IsPlain := by
  obtain ⟨load, action, fields, _⟩ := read_eq_some.mp taken
  have plain := tokens_plain line
  rw [fields] at plain
  simp only [List.forall_mem_cons] at plain
  obtain ⟨_, file, entry, name, prior, stackSize, _⟩ := plain
  exact ⟨file, entry, name, prior, stackSize⟩

end Definition

theorem Parsed.appLine {target : Text} {definitions : List Definition} {state : TrickCfsModule}
    (parsed : Parsed target definitions state) (plain : ∀ read ∈ definitions, read.IsPlain) (dir : Text)
    {read : Definition} (member : read ∈ definitions) :
    ∃ chosen ∈ definitions, chosen.name = read.name ∧
      (state.appLine dir read.name).map readFields = some chosen.written := by
  cases lib : state.libsMap.lookup read.name with
  | some item =>
    obtain ⟨chosen, among, isLib, named, rfl⟩ := parsed.lib read.name item lib
    refine ⟨chosen, among, named, ?_⟩
    have written := chosen.written_eq (plain chosen among) (state.columnSizes dir)
    simp only [isLib, if_true] at written
    simp only [TrickCfsModule.appLine, lib, itemFile, Option.getD_some, Option.map_some, ← named]
    exact congrArg some written
  | none =>
    cases app : state.appsMap.lookup read.name with
    | some item =>
      obtain ⟨chosen, among, isApp, named, rfl⟩ := parsed.app read.name item app
      refine ⟨chosen, among, named, ?_⟩
      have written := chosen.written_eq (plain chosen among) (state.columnSizes dir)
      simp only [isApp, reduceCtorEq, if_false] at written
      simp only [TrickCfsModule.appLine, lib, app, itemFile, Option.getD_some, Option.map_some, ← named]
      exact congrArg some written
    | none =>
      have found := parsed.found read member
      cases type : read.type with
      | app => simpa [app] using found.2 type
      | lib => simpa [lib] using found.1 type

end TrickCFS.Proofs.StartupDefinitions
