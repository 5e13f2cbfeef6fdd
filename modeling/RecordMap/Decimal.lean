/-!
# Decimal numerals

Whole numbers as decimal digits, and back.  A numeral that is read may have leading zeros and one
sign; nothing else may stand around its digits.
-/

namespace RecordMap.Decimal

def ofNat (n : Nat) : List Char := Nat.toDigits 10 n

def text (n : Nat) : String := String.ofList (ofNat n)

def ofInt (n : Int) : List Char :=
  if n < 0 then '-' :: ofNat n.natAbs else ofNat n.natAbs

/-- At least `width` digits, with zeros in front. -/
def padded (width n : Nat) : List Char :=
  List.replicate (width - (ofNat n).length) '0' ++ ofNat n

def isNumeral (cs : List Char) : Bool := !cs.isEmpty && cs.all Char.isDigit

def readNat? (cs : List Char) : Option Nat :=
  if isNumeral cs then some (Nat.ofDigitChars 10 cs 0) else none

/-- A plus sign may always stand in front, a minus sign only if `signed`. -/
def readInt? (signed : Bool) : List Char → Option Int
  | '+' :: cs => (readNat? cs).map Int.ofNat
  | '-' :: cs => if signed then (readNat? cs).map fun n => -(Int.ofNat n) else none
  | cs => (readNat? cs).map Int.ofNat

end RecordMap.Decimal
