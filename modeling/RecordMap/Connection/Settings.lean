import RecordMap.Decimal
import RecordMap.Fault
import RecordMap.Text.Caseless

/-!
# Connection settings

Settings are given one by one as keys and values, the last of a key counting.  An empty path takes
back an earlier one, and without a path there is no connection.
-/

namespace RecordMap.Connection

inductive Location
  | memory
  | file (path : String)
  deriving DecidableEq

inductive JournalMode
  | delete
  | truncate
  | persist
  | memory
  | wal
  | off
  deriving DecidableEq

namespace JournalMode

def text : JournalMode → String
  | .delete => "DELETE"
  | .truncate => "TRUNCATE"
  | .persist => "PERSIST"
  | .memory => "MEMORY"
  | .wal => "WAL"
  | .off => "OFF"

def all : List JournalMode := [.delete, .truncate, .persist, .memory, .wal, .off]

def read (s : String) : Outcome JournalMode :=
  match all.find? fun m => Text.sameCaseless m.text s with
  | some m => .ok m
  | none => Outcome.fail (.connection (.unknownJournalMode s))

end JournalMode

structure Settings where
  location : Location
  /-- In milliseconds. -/
  busyTimeout : Option Nat
  foreignKeys : Option Bool
  journalMode : Option JournalMode
  /-- Whether missing directories on the way to the file are made. -/
  createDir : Bool
  deriving DecidableEq

inductive Key
  | path
  | busyTimeout
  | foreignKeys
  | journalMode
  | createDir
  | version
  deriving DecidableEq

namespace Key

def name : Key → String
  | .path => "path"
  | .busyTimeout => "busy_timeout"
  | .foreignKeys => "foreign_keys"
  | .journalMode => "journal_mode"
  | .createDir => "create_dir"
  | .version => "version"

def all : List Key := [.path, .busyTimeout, .foreignKeys, .journalMode, .createDir, .version]

def ofName? (name : String) : Option Key := all.find? fun k => Text.sameCaseless k.name name

end Key

/-- The settings given so far. -/
structure Partial where
  location : Option Location
  busyTimeout : Option Nat
  foreignKeys : Option Bool
  journalMode : Option JournalMode
  createDir : Bool
  deriving DecidableEq

def readLocation (value : String) : Option Location :=
  if value = "" then none
  else if value = ":memory:" then some .memory
  else some (.file value)

/-- The largest number of milliseconds is that of 64 bits. -/
def readMilliseconds (value : String) : Outcome Nat :=
  match (Decimal.readInt? false value.toList).bind (Number.ofInt? .uint64) with
  | some n => .ok n.toInt.toNat
  | none => Outcome.fail (.connection (.notMilliseconds value))

def readTruth (key value : String) : Outcome Bool :=
  if ["true", "1", "on", "yes"].any (Text.sameCaseless · value) then .ok true
  else if ["false", "0", "off", "no"].any (Text.sameCaseless · value) then .ok false
  else Outcome.fail (.connection (.notTruthValue key value))

namespace Partial

def empty : Partial := ⟨none, none, none, none, false⟩

/-- Gives one setting.  `key` is the key as it was written. -/
def set (p : Partial) (key value : String) : Outcome Partial :=
  match Key.ofName? key with
  | some .path => .ok { p with location := readLocation value }
  | some .busyTimeout => (readMilliseconds value).map fun n => { p with busyTimeout := some n }
  | some .foreignKeys => (readTruth key value).map fun b => { p with foreignKeys := some b }
  | some .journalMode => (JournalMode.read value).map fun m => { p with journalMode := some m }
  | some .createDir => (readTruth key value).map fun b => { p with createDir := b }
  | some .version =>
    if value = "3" then .ok p else Outcome.fail (.connection (.unsupportedVersion value))
  | none => Outcome.fail (.connection (.unknownKey key))

def setAll (p : Partial) (settings : List (String × String)) : Outcome Partial :=
  settings.foldlM (fun p s => p.set s.1 s.2) p

def finish (p : Partial) : Outcome Settings :=
  match p.location with
  | some l => .ok ⟨l, p.busyTimeout, p.foreignKeys, p.journalMode, p.createDir⟩
  | none => Outcome.fail (.connection .noPath)

end Partial

end RecordMap.Connection
