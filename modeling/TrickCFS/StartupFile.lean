import TrickCFS.StartupScript

/-! The startup file as its format has it: entries of eight fields between commas,
with any whitespace around the commas, each ended by a semicolon. -/

namespace TrickCFS
open Words

structure Blank where
  text : Text
  blanks : Blanks Text.isSpace text

/-- A field is not empty, and nothing in it separates fields. -/
structure Field where
  text : Text
  nonempty : text ≠ []
  solid : Solid Text.isSpace text
  plain : ∀ char ∈ text, char ≠ ',' ∧ char ≠ ';'

inductive EntryType
  | app
  | lib
  deriving DecidableEq

def EntryType.text : EntryType → Text
  | .app => "CFE_APP".toList
  | .lib => "CFE_LIB".toList

structure StartupEntry where
  type : EntryType
  file : Field
  entryPoint : Field
  name : Field
  priority : Field
  stackSize : Field
  loadAddress : Field
  exceptionAction : Field

namespace StartupEntry

def fields (entry : StartupEntry) : List Text :=
  [entry.type.text, entry.file.text, entry.entryPoint.text, entry.name.text, entry.priority.text,
    entry.stackSize.text, entry.loadAddress.text, entry.exceptionAction.text]

/-- The target scheduler app, which is replaced. -/
def IsTarget (target : Text) (entry : StartupEntry) : Prop := entry.type = .app ∧ entry.name.text = target

instance (target : Text) (entry : StartupEntry) : Decidable (entry.IsTarget target) :=
  inferInstanceAs (Decidable (_ ∧ _))

end StartupEntry

structure Gap where
  before : Blank
  after : Blank

structure StartupLine where
  entry : StartupEntry
  lead : Blank
  gaps : Fin 7 → Gap
  last : Gap

namespace StartupLine

def parts (line : StartupLine) : List (Gap × Field) :=
  [(line.gaps 0, line.entry.file), (line.gaps 1, line.entry.entryPoint), (line.gaps 2, line.entry.name),
    (line.gaps 3, line.entry.priority), (line.gaps 4, line.entry.stackSize), (line.gaps 5, line.entry.loadAddress),
    (line.gaps 6, line.entry.exceptionAction)]

def partsText (last : Gap) : List (Gap × Field) → Text
  | [] => last.before.text ++ ';' :: last.after.text
  | (gap, field) :: parts => gap.before.text ++ ',' :: gap.after.text ++ field.text ++ partsText last parts

def text (line : StartupLine) : Text :=
  line.lead.text ++ line.entry.type.text ++ partsText line.last line.parts

end StartupLine

/-- The entries, and the lines from the first one that starts with an exclamation
mark on. -/
structure StartupFile where
  lines : List StartupLine
  ending : List Text
  marked : ∀ line, ending.head? = some line → line.head? = some '!'

namespace StartupFile

def text (file : StartupFile) : List Text := file.lines.map StartupLine.text ++ file.ending

def keptLines (file : StartupFile) (target : Text) : List StartupLine :=
  file.lines.filter (fun line => ¬ line.entry.IsTarget target)

end StartupFile

/-- The fields of a line, as the flight software reads them: everything up to the
semicolon, split at the commas, without the whitespace around them. -/
def readFields (line : Text) : List Text :=
  ((line.takeWhile (· ≠ ';')).splitOn ',').map (strip Text.isSpace)

end TrickCFS
