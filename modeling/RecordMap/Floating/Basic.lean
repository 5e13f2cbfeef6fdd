/-!
# Binary floating point

A finite number is a sign and a magnitude: a significand of bounded length times a power of two.
Each magnitude has one canonical form, so equal numbers are equal terms.  Every operation goes
through `Floating.ofRatio`, which rounds one exact quotient to the nearest number of the format,
a tie to the even significand.
-/

namespace RecordMap

/-- Significands below `2 ^ precision`, exponents from `minExp` to `maxExp`. -/
structure Format where
  precision : Nat
  minExp : Int
  maxExp : Int
  deriving DecidableEq

namespace Format

def single : Format := ⟨24, -149, 104⟩

def double : Format := ⟨53, -1074, 971⟩

/-- The significand fills the precision, except next to zero. -/
def Canonical (f : Format) (significand : Nat) (exponent : Int) : Prop :=
  significand < Nat.pow 2 f.precision ∧ f.minExp ≤ exponent ∧ exponent ≤ f.maxExp ∧
    (Nat.pow 2 (f.precision - 1) ≤ significand ∨ exponent = f.minExp)

instance (f : Format) (m : Nat) (e : Int) : Decidable (f.Canonical m e) :=
  inferInstanceAs (Decidable (_ ∧ _ ∧ _ ∧ _))

end Format

structure Magnitude (f : Format) where
  significand : Nat
  exponent : Int
  canonical : f.Canonical significand exponent
  deriving DecidableEq

inductive Floating (f : Format)
  | nan
  | infinite (negative : Bool)
  | finite (negative : Bool) (magnitude : Magnitude f)
  deriving DecidableEq

abbrev Single := Floating Format.single

abbrev Double := Floating Format.double

/-- A nonnegative fraction. -/
structure Ratio where
  num : Nat
  den : Nat
  deriving DecidableEq

namespace Ratio

/-- The same fraction in lowest terms. -/
def reduced (r : Ratio) : Ratio :=
  let d := Nat.gcd r.num r.den
  ⟨r.num / d, r.den / d⟩

/-- `r` times `base ^ k`. -/
def scale (r : Ratio) (base : Nat) (k : Int) : Ratio :=
  if 0 ≤ k then ⟨r.num * Nat.pow base k.toNat, r.den⟩
  else ⟨r.num, r.den * Nat.pow base (-k).toNat⟩

def floor (r : Ratio) : Nat := r.num / r.den

/-- The nearest whole number, a half going to the even one. -/
def round (r : Ratio) : Nat :=
  let rest := 2 * (r.num % r.den)
  if rest < r.den ∨ (rest = r.den ∧ r.floor % 2 = 0) then r.floor else r.floor + 1

/-- Whether `base ^ k` is at most `r`. -/
def reaches (r : Ratio) (base : Nat) (k : Int) : Bool :=
  let s := r.scale base (-k)
  decide (s.den ≤ s.num)

/-- The largest `k` with `2 ^ k ≤ r`, for a positive `r`. -/
def binaryOrder (r : Ratio) : Int :=
  let k := (r.num.log2 : Int) - r.den.log2
  if r.reaches 2 k then k else k - 1

/-- The largest `k` with `10 ^ k ≤ r`, for a positive `r`. -/
def decimalOrder (r : Ratio) : Int :=
  let k := ((Nat.toDigits 10 r.num).length : Int) - (Nat.toDigits 10 r.den).length
  if r.reaches 10 k then k else k - 1

end Ratio

namespace Magnitude

variable {f : Format}

def ratio (x : Magnitude f) : Ratio := Ratio.scale ⟨x.significand, 1⟩ 2 x.exponent

/-- The magnitude with this significand and exponent, if it is canonical. -/
def of? (significand : Nat) (exponent : Int) : Option (Magnitude f) :=
  if h : f.Canonical significand exponent then some ⟨significand, exponent, h⟩ else none

/-- The magnitude nearest to a positive `r`; none if the format does not reach that far. -/
def nearest? (f : Format) (r : Ratio) : Option (Magnitude f) :=
  let e := max f.minExp (r.binaryOrder + 1 - f.precision)
  let m := (r.scale 2 (-e)).round
  if m = Nat.pow 2 f.precision then of? (Nat.pow 2 (f.precision - 1)) (e + 1) else of? m e

/-- The magnitude nearest to `r`, which depends on `r` only as a number. -/
def ofRatio? (f : Format) (r : Ratio) : Option (Magnitude f) :=
  if r.num = 0 then of? 0 f.minExp else nearest? f r.reduced

end Magnitude

namespace Floating

variable {f : Format}

def ofRatio (f : Format) (negative : Bool) (r : Ratio) : Floating f :=
  match Magnitude.ofRatio? f r with
  | some x => .finite negative x
  | none => .infinite negative

/-- The nearest number of another format. -/
def cast (g : Format) : Floating f → Floating g
  | .nan => .nan
  | .infinite s => .infinite s
  | .finite s x => ofRatio g s x.ratio

def ofInt (f : Format) (n : Int) : Floating f := ofRatio f (decide (n < 0)) ⟨n.natAbs, 1⟩

def isFinite : Floating f → Bool
  | .finite _ _ => true
  | _ => false

/-- The number itself when it is whole. -/
def toInt? : Floating f → Option Int
  | .finite s x =>
    let r := x.ratio
    if r.num % r.den = 0 then some (if s then -(r.floor : Int) else r.floor) else none
  | _ => none

end Floating

end RecordMap
