import RecordMap.Decimal
import RecordMap.Floating.Basic

/-!
# Reading floating-point text

A number is a sign, digits with at most one point among them, and an exponent; the words for
infinity and for what is not a number are taken in either case.  The value of the text is rounded
once.  Exponents far outside the format are settled without forming their power.
-/

namespace RecordMap.Floating

/-- The digits at the front, and what follows them. -/
def spanDigits (cs : List Char) : List Char × List Char :=
  (cs.takeWhile Char.isDigit, cs.dropWhile Char.isDigit)

/-- What follows the mantissa: nothing, or an exponent. -/
def readExponent? : List Char → Option Int
  | [] => some 0
  | c :: cs => if c = 'e' ∨ c = 'E' then Decimal.readInt? true cs else none

/-- An unsigned decimal as `n · 10 ^ k`. -/
def readDecimal? (cs : List Char) : Option (Nat × Int) :=
  let (whole, rest) := spanDigits cs
  let (fraction, rest) :=
    match rest with
    | '.' :: rest => spanDigits rest
    | rest => ([], rest)
  if whole.isEmpty && fraction.isEmpty then none
  else
    (readExponent? rest).map fun e =>
      (Nat.ofDigitChars 10 (whole ++ fraction) 0, e - fraction.length)

/-- The number of the format nearest to `n · 10 ^ k`. -/
def ofDecimal (f : Format) (negative : Bool) (n : Nat) (k : Int) : Floating f :=
  let order := k + (Nat.toDigits 10 n).length
  if n = 0 ∨ order < f.minExp then ofRatio f negative ⟨0, 1⟩
  else if f.maxExp + f.precision < order then .infinite negative
  else ofRatio f negative (Ratio.scale ⟨n, 1⟩ 10 k)

def readUnsigned? (f : Format) (negative : Bool) (cs : List Char) : Option (Floating f) :=
  let word := String.ofList (cs.map Char.toLower)
  if word = "inf" || word = "infinity" then some (.infinite negative)
  else if word = "nan" then some .nan
  else (readDecimal? cs).map fun (n, k) => ofDecimal f negative n k

def read? (f : Format) : List Char → Option (Floating f)
  | '-' :: cs => readUnsigned? f true cs
  | '+' :: cs => readUnsigned? f false cs
  | cs => readUnsigned? f false cs

end RecordMap.Floating
