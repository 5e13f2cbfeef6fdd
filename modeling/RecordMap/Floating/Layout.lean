import RecordMap.Decimal
import RecordMap.Floating.Shortest

/-!
# Floating-point text

Two layouts of the shortest digits.  The plain one, used in statements and in stored text, never
has an exponent and shows no fraction when there is none.  The general one, used in messages, shows
at least one decimal and turns to an exponent for the very large and the very small.
-/

namespace RecordMap.Floating

variable {f : Format}

def zeros (n : Int) : List Char := List.replicate n.toNat '0'

/-- The number `0.ds · 10 ^ point` in positions, with a fraction only if there is one. -/
def positional (ds : List Char) (point : Int) : List Char :=
  if point ≤ 0 then ['0', '.'] ++ zeros (-point) ++ ds
  else if ds.length ≤ point then ds ++ zeros (point - ds.length)
  else ds.take point.toNat ++ ['.'] ++ ds.drop point.toNat

/-- The number `0.ds · 10 ^ point` as one digit, the rest behind a point, and an exponent. -/
def scientific (ds : List Char) (point : Int) : List Char :=
  let fraction := if ds.length ≤ 1 then [] else '.' :: ds.drop 1
  ds.take 1 ++ fraction ++ ['e'] ++ Decimal.ofInt (point - 1)

def sign (negative : Bool) : List Char := if negative then ['-'] else []

def plain : Floating f → List Char
  | .nan => ['N', 'a', 'N']
  | .infinite s => sign s ++ ['i', 'n', 'f']
  | .finite s x =>
    if x.significand = 0 then sign s ++ ['0']
    else sign s ++ positional x.digits.1 x.digits.2

/-- The general layout writes numbers from `10 ^ -4` up to below `10 ^ 16` in positions. -/
def isPositional (point : Int) : Bool := decide (-4 < point) && decide (point ≤ 16)

def general : Floating f → List Char
  | .nan => ['N', 'a', 'N']
  | .infinite s => sign s ++ ['i', 'n', 'f']
  | .finite s x =>
    if x.significand = 0 then sign s ++ ['0', '.', '0']
    else
      let (ds, point) := x.digits
      if isPositional point then
        let text := positional ds point
        sign s ++ (if ds.length ≤ point then text ++ ['.', '0'] else text)
      else sign s ++ scientific ds point

end RecordMap.Floating
