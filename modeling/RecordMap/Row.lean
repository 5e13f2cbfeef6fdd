import RecordMap.Stored
import RecordMap.Text.Caseless

/-!
# Result rows

A row maps column names to stored values and keeps the order in which the names came.  A name that
is not in the row finds the first one that differs from it only in case.
-/

namespace RecordMap

structure Row where
  entries : List (String × Stored)
  deriving DecidableEq

namespace Row

def empty : Row := ⟨[]⟩

def putEntry (name : String) (v : Stored) : List (String × Stored) → List (String × Stored)
  | [] => [(name, v)]
  | e :: es => if e.1 = name then (name, v) :: es else e :: putEntry name v es

/-- A name that is present keeps its place and takes the new value. -/
def push (r : Row) (name : String) (v : Stored) : Row := ⟨putEntry name v r.entries⟩

def ofList (entries : List (String × Stored)) : Row :=
  entries.foldl (fun r e => r.push e.1 e.2) empty

/-- The value under exactly this name. -/
def named? (r : Row) (name : String) : Option Stored :=
  (r.entries.find? (·.1 = name)).map Prod.snd

/-- The first entry whose name is this one in any case. -/
def caseless? (r : Row) (name : String) : Option (String × Stored) :=
  r.entries.find? fun e => Text.sameCaseless e.1 name

/-- An exact match wins over one in another case. -/
def get? (r : Row) (name : String) : Option Stored :=
  match r.named? name with
  | some v => some v
  | none => (r.caseless? name).map Prod.snd

def erase (r : Row) (name : String) : Row := ⟨r.entries.filter (·.1 ≠ name)⟩

/-- The value under exactly this name, and the row without its entry. -/
def remove? (r : Row) (name : String) : Option (Stored × Row) :=
  (r.named? name).map fun v => (v, r.erase name)

/-- The value of a name, and the row without its entry. -/
def take? (r : Row) (name : String) : Option (Stored × Row) :=
  match r.remove? name with
  | some taken => some taken
  | none => (r.caseless? name).bind fun e => r.remove? e.1

def size (r : Row) : Nat := r.entries.length

def isEmpty (r : Row) : Bool := r.entries.isEmpty

end Row

end RecordMap
