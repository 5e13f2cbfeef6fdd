import RecordMap.IntType

/-!
# Types of fields

The types a field of a record can have.  An enumeration lists its variants with their numbers; two
variants may share a number, and the first of them is the one it stands for.
-/

namespace RecordMap

structure Variant where
  name : String
  number : Number .int64
  deriving DecidableEq

structure Enumeration where
  name : String
  variants : List Variant
  deriving DecidableEq

def Enumeration.variant? (e : Enumeration) (n : Number .int64) : Option Variant :=
  e.variants.find? (·.number = n)

inductive FieldType
  | bool
  | int (t : IntType)
  | single
  | double
  | text
  | timestamp
  | uuid
  | bytes
  | enumeration (e : Enumeration)
  deriving DecidableEq

namespace FieldType

/-- The name of the type in messages. -/
def label : FieldType → String
  | .bool => "bool"
  | .int t => t.label
  | .single => "f32"
  | .double => "f64"
  | .text => "String"
  | .timestamp => "DateTime<Utc>"
  | .uuid => "Uuid"
  | .bytes => "Vec<u8>"
  | .enumeration e => e.name

def isBool : FieldType → Bool
  | .bool => true
  | _ => false

def isInteger : FieldType → Bool
  | .int _ => true
  | _ => false

def isFloat : FieldType → Bool
  | .single | .double => true
  | _ => false

def isText : FieldType → Bool
  | .text => true
  | _ => false

def isUuid : FieldType → Bool
  | .uuid => true
  | _ => false

def isEnumeration : FieldType → Bool
  | .enumeration _ => true
  | _ => false

end FieldType

end RecordMap
