import RecordMap.Floating.Layout
import RecordMap.Text.Quoted
import RecordMap.Value

/-!
# Values in messages

A value is shown by the name of its kind with its content in brackets.
-/

namespace RecordMap

/-- The name under which numbers of a type are shown. -/
def IntType.shownName : IntType → String
  | .int8 => "I8"
  | .int16 => "I16"
  | .int32 => "I32"
  | .int64 => "I64"
  | .uint8 => "U8"
  | .uint16 => "U16"
  | .uint32 => "U32"
  | .uint64 => "U64"

namespace Value

def shownAs (kind : String) (content : List Char) : String :=
  kind ++ "(" ++ String.ofList content ++ ")"

def shownBytes (bs : List UInt8) : String :=
  "[" ++ String.intercalate ", " (bs.map fun b => Decimal.text b.toNat) ++ "]"

def shown : Value → String
  | .null => "Null"
  | .bool b => shownAs "Bool" (if b then "true" else "false").toList
  | .int t n => shownAs t.shownName (Decimal.ofInt n.toInt)
  | .single x => shownAs "F32" x.general
  | .double x => shownAs "F64" x.general
  | .text s => shownAs "String" (Text.quoted s).toList
  | .timestamp t => shownAs "DateTime" t.text
  | .uuid u => shownAs "Uuid" u.text
  | .bytes bs => shownAs "Bytes" (shownBytes bs).toList
  | .enumeration n => shownAs "Enum" (Decimal.ofInt n.toInt)

end Value

end RecordMap
