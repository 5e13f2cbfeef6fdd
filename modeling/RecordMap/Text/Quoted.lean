import RecordMap.Text.Unprintable

/-!
# Quoted text

A text shown inside a message stands between double quotes.  Quotes, backslashes and characters
that would not be seen are written as escapes; every other character stands for itself.
-/

namespace RecordMap.Text

def escapeChar (c : Char) : List Char :=
  if c = '\x00' then ['\\', '0']
  else if c = '\t' then ['\\', 't']
  else if c = '\r' then ['\\', 'r']
  else if c = '\n' then ['\\', 'n']
  else if c = '\\' || c = '\x22' then ['\\', c]
  else if unprintable.holds c then ['\\', 'u', '\x7b'] ++ Nat.toDigits 16 c.toNat ++ ['\x7d']
  else [c]

def quoted (s : String) : String :=
  String.ofList ('\x22' :: s.toList.flatMap escapeChar ++ ['\x22'])

end RecordMap.Text
