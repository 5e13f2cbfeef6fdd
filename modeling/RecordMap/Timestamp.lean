import RecordMap.Decimal

/-!
# Points in time

A timestamp counts seconds from the start of 1970 and nanoseconds within the second.  The last
second of a minute may be a leap second, whose nanoseconds run on past one thousand million.  The
text of a timestamp gives its date in the Gregorian calendar, extended to all years.
-/

namespace RecordMap

/-- A day of the Gregorian calendar. -/
structure Date where
  year : Int
  month : Nat
  day : Nat
  deriving DecidableEq

/-- The date a number of days after the first of January 1970.  Years are counted from March, so
that a leap day comes last in its year, and in cycles of 400 years, or 146097 days. -/
def Date.ofDays (days : Int) : Date :=
  let shifted := days + 719468
  let cycle := shifted / 146097
  let inCycle := (shifted % 146097).toNat
  let yearInCycle := (inCycle - inCycle / 1460 + inCycle / 36524 - inCycle / 146096) / 365
  let inYear := inCycle - (365 * yearInCycle + yearInCycle / 4 - yearInCycle / 100)
  let month := (5 * inYear + 2) / 153
  let day := inYear - (153 * month + 2) / 5 + 1
  let year := cycle * 400 + yearInCycle
  if month < 10 then ⟨year, month + 3, day⟩ else ⟨year + 1, month - 9, day⟩

namespace Timestamp

/-- Midnight on the first of January of the year -262143. -/
def firstSecond : Int := -8334601228800

/-- The last second of the year 262142. -/
def lastSecond : Int := 8210266876799

def nanosPerSecond : Nat := 1000000000

def InRange (seconds : Int) : Prop := firstSecond ≤ seconds ∧ seconds ≤ lastSecond

/-- The nanoseconds that the second `seconds` has. -/
def Within (seconds : Int) (nanos : Nat) : Prop :=
  nanos < nanosPerSecond ∨ (nanos < 2 * nanosPerSecond ∧ seconds % 60 = 59)

instance (s : Int) : Decidable (InRange s) := inferInstanceAs (Decidable (_ ∧ _))

instance (s : Int) (n : Nat) : Decidable (Within s n) := inferInstanceAs (Decidable (_ ∨ _))

end Timestamp

structure Timestamp where
  seconds : Int
  nanos : Nat
  inRange : Timestamp.InRange seconds
  within : Timestamp.Within seconds nanos
  deriving DecidableEq

namespace Timestamp

def of? (seconds : Int) (nanos : Nat) : Option Timestamp :=
  if h : InRange seconds ∧ Within seconds nanos then some ⟨seconds, nanos, h.1, h.2⟩ else none

/-- The timestamp at the start of a second. -/
def ofSeconds? (seconds : Int) : Option Timestamp := of? seconds 0

/-- Seconds from the start of 1970, the part of a second cut off toward that start. -/
def wholeSeconds (t : Timestamp) : Int :=
  if t.seconds < 0 ∧ 0 < t.nanos then t.seconds + 1 else t.seconds

/-- Four digits, or a sign and at least four outside the years 0 to 9999. -/
def yearText (year : Int) : List Char :=
  if year < 0 then '-' :: Decimal.padded 4 year.natAbs
  else if year ≤ 9999 then Decimal.padded 4 year.natAbs
  else '+' :: Decimal.padded 4 year.natAbs

/-- As few groups of three decimals as show the nanoseconds exactly. -/
def fractionText (nanos : Nat) : List Char :=
  if nanos = 0 then []
  else if nanos % 1000000 = 0 then '.' :: Decimal.padded 3 (nanos / 1000000)
  else if nanos % 1000 = 0 then '.' :: Decimal.padded 6 (nanos / 1000)
  else '.' :: Decimal.padded 9 nanos

def text (t : Timestamp) : List Char :=
  let date := Date.ofDays (t.seconds / 86400)
  let inDay := (t.seconds % 86400).toNat
  let leap := t.nanos / nanosPerSecond
  yearText date.year ++ ['-'] ++ Decimal.padded 2 date.month ++ ['-'] ++
    Decimal.padded 2 date.day ++ ['T'] ++ Decimal.padded 2 (inDay / 3600) ++ [':'] ++
    Decimal.padded 2 (inDay / 60 % 60) ++ [':'] ++ Decimal.padded 2 (inDay % 60 + leap) ++
    fractionText (t.nanos % nanosPerSecond) ++ ['Z']

end Timestamp

end RecordMap
