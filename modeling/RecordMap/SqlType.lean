import RecordMap.Decimal
import RecordMap.Fault

/-!
# Column types

The type a column is declared with.  Every field type has one but the unsigned 64-bit integers,
which the store cannot hold.
-/

namespace RecordMap

inductive SqlType
  | integer
  | bigInt
  | float
  | varChar (length : Option Nat)
  | blob
  deriving DecidableEq

def SqlType.text : SqlType → String
  | .integer => "INTEGER"
  | .bigInt => "BIGINT"
  | .float => "FLOAT"
  | .varChar none => "VARCHAR"
  | .varChar (some n) => "VARCHAR(" ++ Decimal.text n ++ ")"
  | .blob => "BLOB"

def FieldType.sqlType (ty : FieldType) : Outcome SqlType :=
  match ty with
  | .bool | .timestamp | .enumeration _ => .ok .integer
  | .int .int64 | .int .uint32 => .ok .bigInt
  | .int .uint64 => Outcome.fail (.unstorable ty.label)
  | .int _ => .ok .integer
  | .single | .double => .ok .float
  | .text => .ok (.varChar none)
  | .uuid => .ok (.varChar (some 36))
  | .bytes => .ok .blob

end RecordMap
