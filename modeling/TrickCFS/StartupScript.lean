import TrickCFS.Library.Words
import Mathlib.Data.List.AList

/-! The Python module `trick_cfs`: the startup script of the mission is parsed into
the definition maps, and the script that the simulation runs is written from them.
The functions that set an entry of the maps or the target's name by hand are left
out; the maps can hold what they put there. -/

namespace TrickCFS
open Words

abbrev Text := List Char

namespace Text

/-- The characters that `str.split` and `str.strip` take for whitespace. -/
def isSpace (char : Char) : Bool :=
  let code := char.val.toNat
  9 ≤ code && code ≤ 13 || 28 ≤ code && code ≤ 32 || code = 0x85 || code = 0xa0 || code = 0x1680 ||
    0x2000 ≤ code && code ≤ 0x200a || code = 0x2028 || code = 0x2029 || code = 0x202f || code = 0x205f ||
    code = 0x3000

/-- `str.partition(sep)[2]`. -/
def afterFirst (sep : Text) : Text → Text
  | [] => []
  | char :: text => if sep.isPrefixOf (char :: text) then (char :: text).drop sep.length else afterFirst sep text

/-- `str.rpartition(sep)[0]`. -/
def beforeLast (sep : Char) (text : Text) : Text := (text.reverse.dropWhile (· ≠ sep)).tail.reverse

def ljust (text : Text) (width : Nat) : Text := text ++ List.replicate (width - text.length) ' '

def rjust (text : Text) (width : Nat) : Text := List.replicate (width - text.length) ' ' ++ text

end Text

/-- An entry of `libs_map`: `[entry]` or `[entry, file]`. -/
structure LibItem where
  entry : Text
  objName : Option Text

/-- An entry of `apps_map`: `[entry, priority, stack size]`, or with a file behind. -/
structure AppItem where
  entry : Text
  prior : Text
  stackSize : Text
  objName : Option Text

/-- The globals of the module. -/
structure TrickCfsModule where
  libsMap : AList (fun _ : Text => LibItem) := ∅
  appsMap : AList (fun _ : Text => AppItem) := ∅
  esEntries : List Text := []
  origSchAppName : Option Text := none
  targetSchAppName : Text := "SCH_LAB_APP".toList

namespace TrickCfsModule

/-- What `parse_cfe_es_startup` does with the fields of one line. -/
def addLineFields (state : TrickCfsModule) : List Text → TrickCfsModule
  | [kind, file, entry, name, prior, stackSize, _, _] =>
    if kind = "CFE_APP".toList then
      if name = state.targetSchAppName then { state with origSchAppName := some name }
      else
        { state with
          appsMap := state.appsMap.insert name ⟨entry, prior, stackSize, some file⟩
          esEntries := state.esEntries ++ [name] }
    else if kind = "CFE_LIB".toList then
      { state with
        libsMap := state.libsMap.insert name ⟨entry, some file⟩
        esEntries := state.esEntries ++ [name] }
    else state
  | _ => state

/-- `' '.join(line.strip().split())`. -/
def joinedLine (origLine : Text) : Text := [' '].intercalate (words Text.isSpace (strip Text.isSpace origLine))

/-- The commas and semicolons are deleted, and the rest is split at the spaces. -/
def lineFields (line : Text) : List Text := ((line.filter (· ≠ ',')).filter (· ≠ ';')).splitOn ' '

def parseCfeEsStartup (state : TrickCfsModule) : List Text → TrickCfsModule
  | [] => state
  | origLine :: lines =>
    let line := joinedLine origLine
    if line.head? = some '!' then state
    else if line = [] then parseCfeEsStartup state lines
    else parseCfeEsStartup (state.addLineFields (lineFields line)) lines

end TrickCfsModule

/-- The directory that both functions take from the path of the script. -/
def cfDir (esFile : Text) : Text :=
  let interDir := Text.beforeLast '/' (Text.afterFirst "cf/".toList esFile)
  if interDir ≠ [] then "/cf/".toList ++ interDir ++ "/".toList else "/cf/".toList

/-- The widths of the columns for the file, the entry point and the name. -/
structure ColumnSizes where
  file : Nat
  func : Nat
  name : Nat

/-- A line of the script. The load address and the exception action are always
the same. -/
def startupLine (sizes : ColumnSizes) (kind file func name prior stackSize : Text) : Text :=
  kind ++ ", ".toList ++ Text.ljust (file ++ [',']) sizes.file ++ Text.ljust (func ++ [',']) sizes.func ++
    Text.ljust (name ++ [',']) sizes.name ++ Text.rjust (prior ++ [',']) 5 ++ Text.rjust (stackSize ++ [',']) 9 ++
    " 0x0, 0;\n".toList

namespace TrickCfsModule
variable (state : TrickCfsModule)

def columnSizes (dir : Text) : ColumnSizes :=
  let names := state.libsMap.keys ++ state.appsMap.keys
  let maxAppNameSize := (names.map List.length).foldl max "SCH_trk".toList.length + 1
  let entries := state.libsMap.entries.map (fun lib => lib.2.entry) ++
    state.appsMap.entries.map (fun app => app.2.entry)
  let maxAppFuncNameSize := (entries.map List.length).foldl max "SCH_TRICK_AppMain".toList.length + 2
  { file := maxAppNameSize + dir.length + ".so,".toList.length
    func := maxAppFuncNameSize
    name := maxAppNameSize }

/-- The file of an item without one is named after the app in lower case. -/
def itemFile (dir app : Text) (objName : Option Text) : Text :=
  objName.getD (dir ++ app.map Char.toLower ++ ".so".toList)

/-- The line for one name of the list. The libraries are looked up first, and a
name in neither map has no line. -/
def appLine (dir app : Text) : Option Text :=
  match state.libsMap.lookup app with
  | some libItem =>
    some (startupLine (state.columnSizes dir) "CFE_LIB".toList (itemFile dir app libItem.objName) libItem.entry app
      "0".toList "0".toList)
  | none =>
    match state.appsMap.lookup app with
    | some appItem =>
      some (startupLine (state.columnSizes dir) "CFE_APP".toList (itemFile dir app appItem.objName) appItem.entry
        app appItem.prior appItem.stackSize)
    | none => none

def schTrickLine (dir : Text) : Text :=
  startupLine (state.columnSizes dir) "CFE_APP".toList (dir ++ "sch_trick.so".toList) "SCH_TRICK_AppMain".toList
    (state.origSchAppName.getD "SCH".toList) "80".toList "8192".toList

/-- The lines that are written into `cfe_es_startup.scr`. -/
def runWithApps (esFile : Text) (appList : List Text) : List Text :=
  state.schTrickLine (cfDir esFile) :: appList.filterMap (state.appLine (cfDir esFile))

def runDefaultEsStartup (esFile : Text) : List Text := state.runWithApps esFile state.esEntries

end TrickCfsModule

end TrickCFS
