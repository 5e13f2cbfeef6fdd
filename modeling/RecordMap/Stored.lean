import RecordMap.Value
import RecordMap.Fault

/-!
# Stored values

The five classes of value that the store keeps.
-/

namespace RecordMap

inductive Stored
  | null
  | integer (n : Number .int64)
  | real (x : Double)
  | text (s : String)
  | blob (bs : List UInt8)
  deriving DecidableEq

namespace Stored

def isNull : Stored → Bool
  | .null => true
  | _ => false

/-- The stored value taken for what it is, without a type to aim at. -/
def toValue : Stored → Value
  | .null => .null
  | .integer n => .int .int64 n
  | .real x => .double x
  | .text s => .text s
  | .blob bs => .bytes bs

end Stored

end RecordMap
