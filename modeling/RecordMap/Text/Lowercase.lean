import RecordMap.Text.LetterCase

/-!
# Small letters

`lowercase` maps each capital to its small letter.  Two letters are special: the dotted capital i
becomes two characters, and a capital sigma that ends a word becomes the final small sigma.
-/

namespace RecordMap.Text

def finalSigma : Char := 'ς'

/-- The small letter of one character, its surroundings left aside. -/
def lowerChar (c : Char) : List Char :=
  if c.toNat < 0x80 then [c.toLower]
  else if c = 'İ' then ['i', Char.ofNat 0x307]
  else
    match capitals.find? (·.holds c) with
    | some r => [Char.ofNat (Int.toNat (c.toNat + r.shift))]
    | none => [c]

/-- Whether the first character that is not passed over has case. -/
def meetsCased (cs : List Char) : Bool :=
  match cs.dropWhile caseIgnorable.holds with
  | c :: _ => cased.holds c
  | [] => false

/-- `before` holds the characters already mapped, the nearest one first. -/
def lowerFrom (before : List Char) : List Char → List Char
  | [] => []
  | c :: rest =>
    let small :=
      if c = 'Σ' && meetsCased before && !meetsCased rest then [finalSigma] else lowerChar c
    small ++ lowerFrom (c :: before) rest

def lowercase (s : String) : String := String.ofList (lowerFrom [] s.toList)

end RecordMap.Text
