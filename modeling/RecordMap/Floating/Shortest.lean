import RecordMap.Floating.Basic

/-!
# Shortest digits

The digits shown for a number are the fewest that read back as it, and of those the nearest.  For
one digit, two, three and so on, the two neighbours of the number with that many digits are tried;
the exact expansion, which always reads back, stands behind them all.
-/

namespace RecordMap

namespace Magnitude

variable {f : Format}

/-- Whether `n · 10 ^ k` reads back as `x`. -/
def readsBack (x : Magnitude f) (n : Nat) (k : Int) : Bool :=
  decide (ofRatio? f (Ratio.scale ⟨n, 1⟩ 10 k) = some x)

/-- The multiple of `10 ^ k` next to `x` that reads back as it; the nearer of two, the upper one
of two equally near. -/
def onGrid? (x : Magnitude f) (k : Int) : Option Nat :=
  let r := x.ratio.scale 10 (-k)
  let low := r.floor
  let upperFirst := decide (r.den ≤ 2 * (r.num % r.den))
  let first := if upperFirst then low + 1 else low
  let second := if upperFirst then low else low + 1
  if x.readsBack first k then some first
  else if x.readsBack second k then some second
  else none

/-- The whole number without the zeros at its end, and how many there were. -/
def withoutZeros (n : Nat) : Nat × Nat :=
  if h : n ≠ 0 ∧ n % 10 = 0 then
    have : n / 10 < n := by omega
    let (m, k) := withoutZeros (n / 10)
    (m, k + 1)
  else (n, 0)
termination_by n

/-- `n · 10 ^ k` with no zeros at the end of its digits. -/
def scaled (n : Nat) (k : Int) : Nat × Int :=
  let (m, zeros) := withoutZeros n
  (m, k + zeros)

/-- Every digit of `x`, as `n · 10 ^ k`. -/
def expansion (x : Magnitude f) : Nat × Int :=
  if 0 ≤ x.exponent then (x.significand * Nat.pow 2 x.exponent.toNat, 0)
  else (x.significand * Nat.pow 5 (-x.exponent).toNat, x.exponent)

/-- Tries `used`, `used + 1`, … digits, `fuel` times in all. -/
def shortestFrom (x : Magnitude f) (order : Int) (used : Nat) : (fuel : Nat) → Nat × Int
  | 0 => x.expansion
  | fuel + 1 =>
    let k := order + 1 - used
    match x.onGrid? k with
    | some n => (n, k)
    | none => shortestFrom x order (used + 1) fuel

/-- More digits than any number of the format needs. -/
def enoughDigits (f : Format) : Nat := f.precision * 30103 / 100000 + 2

/-- The shortest `n · 10 ^ k` that reads back as `x`, with no zeros at the end of `n`. -/
def shortest (x : Magnitude f) : Nat × Int :=
  if x.significand = 0 then (0, 0)
  else
    let (n, k) := shortestFrom x x.ratio.decimalOrder 1 (enoughDigits f)
    scaled n k

/-- The shortest digits, and where the point stands before them. -/
def digits (x : Magnitude f) : List Char × Int :=
  let (n, k) := x.shortest
  let ds := Nat.toDigits 10 n
  (ds, k + ds.length)

end Magnitude

end RecordMap
