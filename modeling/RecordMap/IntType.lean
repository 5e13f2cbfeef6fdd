/-!
# Whole numbers of a fixed width

An integer type is named by its width and sign.  `Number t` holds the whole numbers that fit; they
are not words, so arithmetic on them is that of the integers.
-/

namespace RecordMap

inductive IntType
  | int8
  | int16
  | int32
  | int64
  | uint8
  | uint16
  | uint32
  | uint64
  deriving DecidableEq

namespace IntType

def min : IntType → Int
  | .int8 => -128
  | .int16 => -32768
  | .int32 => -2147483648
  | .int64 => -9223372036854775808
  | .uint8 | .uint16 | .uint32 | .uint64 => 0

def max : IntType → Int
  | .int8 => 127
  | .int16 => 32767
  | .int32 => 2147483647
  | .int64 => 9223372036854775807
  | .uint8 => 255
  | .uint16 => 65535
  | .uint32 => 4294967295
  | .uint64 => 18446744073709551615

def isSigned : IntType → Bool
  | .int8 | .int16 | .int32 | .int64 => true
  | .uint8 | .uint16 | .uint32 | .uint64 => false

/-- The name of the type in messages. -/
def label : IntType → String
  | .int8 => "i8"
  | .int16 => "i16"
  | .int32 => "i32"
  | .int64 => "i64"
  | .uint8 => "u8"
  | .uint16 => "u16"
  | .uint32 => "u32"
  | .uint64 => "u64"

end IntType

/-- The whole numbers of an integer type. -/
def Number (t : IntType) : Type := { n : Int // t.min ≤ n ∧ n ≤ t.max }

namespace Number

variable {t : IntType}

instance : DecidableEq (Number t) := inferInstanceAs (DecidableEq { _n : Int // _ })

def toInt (n : Number t) : Int := n.1

def ofInt? (t : IntType) (n : Int) : Option (Number t) :=
  if h : t.min ≤ n ∧ n ≤ t.max then some ⟨n, h⟩ else none

def zero (t : IntType) : Number t := ⟨0, by cases t <;> decide⟩

def one (t : IntType) : Number t := ⟨1, by cases t <;> decide⟩

/-- The number of type `t` nearest to `n`. -/
def clamp (t : IntType) (n : Int) : Number t :=
  if h : t.min ≤ n ∧ n ≤ t.max then ⟨n, h⟩
  else if n < t.min then ⟨t.min, by cases t <;> decide⟩
  else ⟨t.max, by cases t <;> decide⟩

end Number

end RecordMap
