/-!
# Hexadecimal digits

Small digits are written; digits of either case are read.
-/

namespace RecordMap.Text

def hexChar (d : Fin 16) : Char := Nat.digitChar d

def hexValue? (c : Char) : Option (Fin 16) :=
  if c.isDigit then some (Fin.ofNat 16 (c.toNat - 48))
  else if 'a' ≤ c ∧ c ≤ 'f' then some (Fin.ofNat 16 (c.toNat - 87))
  else if 'A' ≤ c ∧ c ≤ 'F' then some (Fin.ofNat 16 (c.toNat - 55))
  else none

/-- The byte of two digits, the high one first. -/
def hexByte (high low : Fin 16) : UInt8 := UInt8.ofNat (high.val * 16 + low.val)

end RecordMap.Text
