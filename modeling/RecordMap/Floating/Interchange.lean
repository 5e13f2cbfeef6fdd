import RecordMap.Floating.Basic

/-!
# Interchange encoding

The word of bits that stands for a number: a sign bit, a field for the exponent and the significand
without its leading bit.  In this encoding the words of the finite magnitudes follow their order,
and the largest exponent field is kept for the infinities and for what is not a number.
-/

namespace RecordMap

namespace Format

/-- The exponent field of infinities. -/
def lastField (f : Format) : Nat := (f.maxExp - f.minExp).toNat + 2

/-- How many words each sign has. -/
def words (f : Format) : Nat := (f.lastField + 1) * Nat.pow 2 (f.precision - 1)

end Format

namespace Floating

variable {f : Format}

/-- The word of a number; all that are not numbers share none. -/
def toBits? : Floating f → Option Nat
  | .nan => none
  | .infinite s => some ((if s then f.words else 0) + f.lastField * Nat.pow 2 (f.precision - 1))
  | .finite s x =>
    some ((if s then f.words else 0) +
      (x.exponent - f.minExp).toNat * Nat.pow 2 (f.precision - 1) + x.significand)

def ofBits (f : Format) (bits : Nat) : Floating f :=
  let s := decide (f.words ≤ bits)
  let field := bits % f.words / Nat.pow 2 (f.precision - 1)
  let fraction := bits % Nat.pow 2 (f.precision - 1)
  if field = f.lastField then if fraction = 0 then .infinite s else .nan
  else
    let x? : Option (Magnitude f) :=
      if field = 0 then Magnitude.of? fraction f.minExp
      else Magnitude.of? (Nat.pow 2 (f.precision - 1) + fraction) (f.minExp + field - 1)
    match x? with
    | some x => .finite s x
    | none => .nan

end Floating

end RecordMap
