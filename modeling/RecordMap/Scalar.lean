import RecordMap.Codec

/-!
# Scalar types

The types that a program's own fields have: all field types but the enumerations.  `Scalar.load`
takes a value into such a type.  Whole numbers are taken from every integer type, and from text, as
long as they fit; reals from a few types of number; everything else only from its own type.
-/

namespace RecordMap

inductive Scalar
  | bool
  | int (t : IntType)
  | single
  | double
  | text
  | timestamp
  | uuid
  | bytes
  deriving DecidableEq

namespace Scalar

/-- What a field of the type holds. -/
def Carrier : Scalar → Type
  | .bool => Bool
  | .int t => Number t
  | .single => Single
  | .double => Double
  | .text => String
  | .timestamp => Timestamp
  | .uuid => Uuid
  | .bytes => List UInt8

def fieldType : Scalar → FieldType
  | .bool => .bool
  | .int t => .int t
  | .single => .single
  | .double => .double
  | .text => .text
  | .timestamp => .timestamp
  | .uuid => .uuid
  | .bytes => .bytes

def value : (s : Scalar) → s.Carrier → Value
  | .bool => Value.bool
  | .int t => Value.int t
  | .single => Value.single
  | .double => Value.double
  | .text => Value.text
  | .timestamp => Value.timestamp
  | .uuid => Value.uuid
  | .bytes => Value.bytes

def loadInt? (t : IntType) : Value → Option (Number t)
  | .int _ n => Number.ofInt? t n.toInt
  | .text s => (Decimal.readInt? t.isSigned s.toList).bind (Number.ofInt? t)
  | _ => none

def loadSingle? : Value → Option Single
  | .single x => some x
  | .double x => some (x.cast .single)
  | .int .int64 n => some (Floating.ofInt .single n.toInt)
  | _ => none

def loadDouble? : Value → Option Double
  | .double x => some x
  | .single x => some (x.cast .double)
  | .int .int32 n => some (Floating.ofInt .double n.toInt)
  | .int .int64 n => some (Floating.ofInt .double n.toInt)
  | _ => none

def load? : (s : Scalar) → Value → Option s.Carrier
  | .int t, v => loadInt? t v
  | .single, v => loadSingle? v
  | .double, v => loadDouble? v
  | .bool, .bool b => some b
  | .text, .text s => some s
  | .timestamp, .timestamp t => some t
  | .uuid, .uuid u => some u
  | .bytes, .bytes bs => some bs
  | _, _ => none

def load (s : Scalar) (v : Value) : Outcome s.Carrier :=
  match s.load? v with
  | some x => .ok x
  | none => Outcome.fail (.conversion v s.fieldType.label)

/-- Null is taken for the absence of a value. -/
def loadOptional (s : Scalar) (v : Value) : Outcome (Option s.Carrier) :=
  if v.isNull then .ok none else (s.load v).map some

def optionalValue (s : Scalar) : Option s.Carrier → Value
  | some x => s.value x
  | none => .null

end Scalar

end RecordMap
