import RecordMap.Connection.Settings
import RecordMap.Connection.Url

/-!
# Connection strings

A connection string is a list of settings `key=value` between semicolons, or a URL whose path is the
file and whose query holds the other settings.
-/

namespace RecordMap.Connection

def scheme : List Char := "sqlite:".toList

/-- One setting of a list; blanks around keys and values do not count. -/
def readAssignment (segment : List Char) : Outcome (String × String) :=
  match Text.cut? '=' segment with
  | some (key, value) =>
    .ok (String.ofList (Text.trim key), String.ofList (Text.trim value))
  | none => Outcome.fail (.connection (.noAssignment (String.ofList segment)))

/-- Gives the setting in a segment of the list, if there is anything in it. -/
def setSegment (p : Partial) (segment : List Char) : Outcome Partial :=
  let segment := Text.trim segment
  if segment.isEmpty then .ok p
  else do
    let (key, value) ← readAssignment segment
    p.set key value

def readList (cs : List Char) : Outcome Settings := do
  let p ← (Text.split ';' cs).foldlM setSegment Partial.empty
  p.finish

/-- `text` is the whole URL and `rest` what stands after its scheme. -/
def readUrl (text rest : List Char) : Outcome Settings := do
  let flawed := fun flaw => Fault.ofCause (.connection (.url (String.ofList text) flaw))
  let url ← (Url.read rest).mapError flawed
  let path ← url.decodedPath.mapError flawed
  let p ← Partial.empty.setAll ((Key.path.name, path) :: url.pairs)
  p.finish

/-- The settings of a connection string. -/
def readSettings (s : String) : Outcome Settings :=
  let cs := Text.trim s.toList
  if scheme.isPrefixOf cs then readUrl cs (cs.drop scheme.length) else readList cs

end RecordMap.Connection
