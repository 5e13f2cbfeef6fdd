import RecordMap.FieldType
import RecordMap.Floating.Basic
import RecordMap.Timestamp
import RecordMap.Uuid

/-!
# Values

What a field of a record can hold.  Null belongs to every type, and a number of an enumeration to
each enumeration that has a variant for it; every other value has one type.
-/

namespace RecordMap

inductive Value
  | null
  | bool (b : Bool)
  | int (t : IntType) (n : Number t)
  | single (x : Single)
  | double (x : Double)
  | text (s : String)
  | timestamp (t : Timestamp)
  | uuid (u : Uuid)
  | bytes (bs : List UInt8)
  | enumeration (n : Number .int64)
  deriving DecidableEq

namespace Value

def isNull : Value → Bool
  | .null => true
  | _ => false

/-- The nil identifier is what an unset identifier holds, so it counts as null. -/
def isNullOrNil : Value → Bool
  | .null => true
  | .uuid u => u.isNil
  | _ => false

/-- Whether the value is what an unset key holds, and so cannot tell one row from another. -/
def isMissingKey : Value → Bool
  | .text s => s.isEmpty
  | .int _ n => n.toInt = 0
  | v => v.isNullOrNil

/-- Truth values, numbers and texts. -/
def isPrimitive : Value → Bool
  | .bool _ | .int _ _ | .single _ | .double _ | .text _ => true
  | _ => false

def text? : Value → Option String
  | .text s => some s
  | _ => none

def isA : Value → FieldType → Bool
  | .null, _ => true
  | .bool _, .bool => true
  | .int t _, .int u => t = u
  | .single _, .single => true
  | .double _, .double => true
  | .text _, .text => true
  | .timestamp _, .timestamp => true
  | .uuid _, .uuid => true
  | .bytes _, .bytes => true
  | .enumeration n, .enumeration e => (e.variant? n).isSome
  | _, _ => false

end Value

end RecordMap
