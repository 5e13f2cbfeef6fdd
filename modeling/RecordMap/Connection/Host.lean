import RecordMap.Fault
import RecordMap.Text.Hex
import RecordMap.Text.Split

/-!
# The host of a URL

A host is a name without certain characters, or an address of eight groups in brackets.  Two colons
stand for one or more groups of zeros, and the last two groups may be written as four decimal bytes.
The host itself is not kept: it only has to be well formed.
-/

namespace RecordMap.Connection

/-- One to four hexadecimal digits. -/
def isGroup (cs : List Char) : Bool :=
  decide (1 ≤ cs.length) && decide (cs.length ≤ 4) &&
    cs.all fun c => (Text.hexValue? c).isSome

/-- A decimal number up to 255 without leading zeros. -/
def isDecimalByte (cs : List Char) : Bool :=
  !cs.isEmpty && cs.all Char.isDigit && (decide (cs.length = 1) || cs.head? != some '0') &&
    decide (Nat.ofDigitChars 10 cs 0 ≤ 255)

def isDecimalAddress (cs : List Char) : Bool :=
  let parts := Text.split '.' cs
  decide (parts.length = 4) && parts.all isDecimalByte

/-- How many groups the parts make; only the last may be a decimal address, which makes two. -/
def countGroups? : List (List Char) → Option Nat
  | [] => some 0
  | [part] => if isGroup part then some 1 else if isDecimalAddress part then some 2 else none
  | part :: rest => if isGroup part then (countGroups? rest).map (· + 1) else none

/-- The groups before two colons, none of which is a decimal address. -/
def countPlainGroups? (cs : List Char) : Option Nat :=
  if cs.isEmpty then some 0
  else
    let parts := Text.split ':' cs
    if parts.all isGroup then some parts.length else none

/-- What stands before and after the first two colons in a row. -/
def cutAtColons? : List Char → Option (List Char × List Char)
  | [] => none
  | c :: cs =>
    if c = ':' ∧ cs.head? = some ':' then some ([], cs.drop 1)
    else (cutAtColons? cs).map fun (before, after) => (c :: before, after)

def isAddress (cs : List Char) : Bool :=
  match cutAtColons? cs with
  | none => countGroups? (Text.split ':' cs) == some 8
  | some (before, after) =>
    let tail := if after.isEmpty then some 0 else countGroups? (Text.split ':' after)
    match countPlainGroups? before, tail with
    | some a, some b => decide (a + b ≤ 7)
    | _, _ => false

def forbiddenInHost : List Char :=
  ['\x00', '\t', '\n', '\r', ' ', '#', '/', ':', '<', '>', '?', '@', '[', '\\', ']', '^', '|']

def checkHost (cs : List Char) : Except UrlFlaw Unit :=
  match cs with
  | '[' :: rest =>
    if rest.getLast? = some ']' && isAddress rest.dropLast then .ok () else .error .addressBrackets
  | cs => if cs.any forbiddenInHost.contains then .error .hostCharacter else .ok ()

end RecordMap.Connection
