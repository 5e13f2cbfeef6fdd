import RecordMap.Decimal
import RecordMap.Floating.Layout
import RecordMap.Floating.Reader
import RecordMap.SqlType
import RecordMap.Stored
import RecordMap.Text.Utf8

/-!
# Storing and reading values

`Value.stored` gives the form in which a value is kept, and `Stored.read` gets a value of a field's
type back.  Reading takes more than storing produces: a number kept as text, a whole number kept as
a real.  `Value.convert` sends a value of one type through the store to another.
-/

namespace RecordMap

namespace IntType

/-- A 64-bit integer holds every number of the type, the unsigned 64-bit ones aside. -/
def isStorable : IntType → Bool
  | .uint64 => false
  | _ => true

theorem within_int64 {t : IntType} (h : t.isStorable = true) :
    IntType.int64.min ≤ t.min ∧ t.max ≤ IntType.int64.max := by
  cases t <;> first | decide | cases h

end IntType

theorem Timestamp.wholeSeconds_within (t : Timestamp) :
    IntType.int64.min ≤ t.wholeSeconds ∧ t.wholeSeconds ≤ IntType.int64.max := by
  have h := t.inRange
  simp only [Timestamp.InRange, Timestamp.firstSecond, Timestamp.lastSecond] at h
  show (-9223372036854775808 : Int) ≤ _ ∧ _ ≤ (9223372036854775807 : Int)
  unfold Timestamp.wholeSeconds
  split <;> omega

namespace Value

/-- The form in which a value is kept, whatever the type of its field. -/
def stored : Value → Outcome Stored
  | .null => .ok .null
  | .bool b => .ok (.integer (if b then Number.one _ else Number.zero _))
  | .int t n =>
    if h : t.isStorable = true then
      have w := IntType.within_int64 h
      .ok (.integer ⟨n.toInt, Int.le_trans w.1 n.2.1, Int.le_trans n.2.2 w.2⟩)
    else Outcome.fail (.unstorable t.label)
  | .single x => .ok (.real (x.cast .double))
  | .double x => .ok (.real x)
  | .text s => .ok (.text s)
  | .timestamp t => .ok (.integer ⟨t.wholeSeconds, t.wholeSeconds_within⟩)
  | .uuid u => .ok (.text (String.ofList u.text))
  | .bytes bs => .ok (.blob bs)
  | .enumeration n => .ok (.integer n)

/-- The form in which a value is kept in a field of type `ty`. -/
def storedAs (v : Value) (ty : FieldType) : Outcome Stored := do
  let _ ← ty.sqlType
  if v.isA ty then v.stored else Outcome.fail (.conversion v ty.label)

/-- A whole number as a value of an integer type that the store can hold. -/
def ofInt? (t : IntType) (n : Int) : Option Value :=
  if t.isStorable then (Number.ofInt? t n).map (.int t) else none

end Value

namespace Stored

/-- A whole number read from the store. -/
def readInteger? (n : Number .int64) : FieldType → Option Value
  | .bool => some (.bool (n.toInt ≠ 0))
  | .timestamp => (Timestamp.ofSeconds? n.toInt).map .timestamp
  | .enumeration e => (e.variant? n).map fun v => .enumeration v.number
  | .single => some (.single (Floating.ofInt .single n.toInt))
  | .double => some (.double (Floating.ofInt .double n.toInt))
  | .text => some (.text (String.ofList (Decimal.ofInt n.toInt)))
  | .int t => Value.ofInt? t n.toInt
  | .uuid | .bytes => none

/-- A real number read from the store.  A whole one that lies beyond the 64-bit integers is taken
for the last of them before its type's range is asked for. -/
def readReal? (x : Double) : FieldType → Option Value
  | .single => some (.single (x.cast .single))
  | .double => some (.double x)
  | .text => some (.text (String.ofList x.plain))
  | .int t => x.toInt?.bind fun n => Value.ofInt? t (Number.clamp .int64 n).toInt
  | .bool | .timestamp | .enumeration _ | .uuid | .bytes => none

def readText? (s : String) : FieldType → Option Value
  | .text => some (.text s)
  | .uuid => (Uuid.ofText? s.toList).map .uuid
  | .single => (Floating.read? .single s.toList).map .single
  | .double => (Floating.read? .double s.toList).map .double
  | .int t => (Decimal.readInt? t.isSigned s.toList).bind (Value.ofInt? t)
  | .bytes => some (.bytes (Utf8.encode s.toList))
  | .bool | .timestamp | .enumeration _ => none

def readBlob? (bs : List UInt8) : FieldType → Option Value
  | .bytes => some (.bytes bs)
  | _ => none

def read? : Stored → FieldType → Option Value
  | .null, _ => some .null
  | .integer n, ty => readInteger? n ty
  | .real x, ty => readReal? x ty
  | .text s, ty => readText? s ty
  | .blob bs, ty => readBlob? bs ty

/-- A stored value as a value of type `ty`. -/
def read (raw : Stored) (ty : FieldType) : Outcome Value :=
  match raw.read? ty with
  | some v => .ok v
  | none => Outcome.fail (.conversion raw.toValue ty.label)

end Stored

/-- The value as one of type `ty`, by way of the store unless it has that type. -/
def Value.convert (v : Value) (ty : FieldType) : Outcome Value :=
  if v.isA ty then .ok v
  else do
    let raw ← v.stored
    match raw.read? ty with
    | some w => .ok w
    | none => Outcome.fail (.conversion v ty.label)

end RecordMap
