import RecordMap.Text.Hex
import RecordMap.Text.Utf8

/-!
# Universally unique identifiers

An identifier is thirty-two hexadecimal digits.  Its text groups them by hyphens and has small
letters.  There are other layouts, and letters of either case are read in each of them; but a stored
text is read only if it has the size of the first.
-/

namespace RecordMap

structure Uuid where
  digits : List (Fin 16)
  length_digits : digits.length = 32
  deriving DecidableEq

namespace Uuid

def ofDigits? (ds : List (Fin 16)) : Option Uuid :=
  if h : ds.length = 32 then some ⟨ds, h⟩ else none

def isNil (u : Uuid) : Bool := u.digits.all fun d => d.val == 0

/-- Each digit in its own character, with a hyphen between groups of the given sizes. -/
def writeGroups : List Nat → List (Fin 16) → List Char
  | [], _ => []
  | [n], ds => (ds.take n).map Text.hexChar
  | n :: sizes, ds => (ds.take n).map Text.hexChar ++ '-' :: writeGroups sizes (ds.drop n)

def readGroup? (n : Nat) (cs : List Char) : Option (List (Fin 16)) :=
  if cs.length = n then cs.mapM Text.hexValue? else none

def readGroups? : List Nat → List Char → Option (List (Fin 16))
  | [], cs => if cs.isEmpty then some [] else none
  | [n], cs => readGroup? n cs
  | n :: sizes, cs =>
    match cs.drop n with
    | '-' :: rest =>
      match readGroup? n (cs.take n), readGroups? sizes rest with
      | some ds, some more => some (ds ++ more)
      | _, _ => none
    | _ => none

def groupSizes : List Nat := [8, 4, 4, 4, 12]

def text (u : Uuid) : List Char := writeGroups groupSizes u.digits

def read? (cs : List Char) : Option Uuid := (readGroups? groupSizes cs).bind ofDigits?

/-- A way to spell the digits: what stands before and behind them, and the sizes of their groups. -/
structure Layout where
  before : List Char
  sizes : List Nat
  behind : List Char
  deriving DecidableEq

def Layout.write (l : Layout) (u : Uuid) : List Char :=
  l.before ++ writeGroups l.sizes u.digits ++ l.behind

def Layout.read? (l : Layout) (cs : List Char) : Option Uuid := do
  let rest ← l.before.isPrefixOf? cs
  let inner ← l.behind.isSuffixOf? rest
  let ds ← readGroups? l.sizes inner
  ofDigits? ds

def hyphenated : Layout := ⟨[], groupSizes, []⟩

def simple : Layout := ⟨[], [32], []⟩

def braced : Layout := ⟨['{'], groupSizes, ['}']⟩

/-- The identifier as the name of a resource. -/
def resource : Layout := ⟨['u', 'r', 'n', ':', 'u', 'u', 'i', 'd', ':'], groupSizes, []⟩

def layouts : List Layout := [simple, hyphenated, braced, resource]

/-- Reads every layout. -/
def parse? (cs : List Char) : Option Uuid := layouts.findSome? (·.read? cs)

/-- The identifier of a stored text, which has the size in bytes of a hyphenated one. -/
def ofText? (cs : List Char) : Option Uuid :=
  if (Utf8.encode cs).length = 36 then parse? cs else none

end Uuid

end RecordMap
