import RecordMap.Text.CodePoints

/-!
# Blanks

The characters that Unicode counts as white space, and a text without the blanks at its ends.
-/

namespace RecordMap.Text

def blanks : CodePoints := [
  (0x9, 0xD), (0x20, 0x20), (0x85, 0x85), (0xA0, 0xA0), (0x1680, 0x1680), (0x2000, 0x200A),
  (0x2028, 0x2029), (0x202F, 0x202F), (0x205F, 0x205F), (0x3000, 0x3000)]

def isBlank (c : Char) : Bool := blanks.holds c

/-- The text without the characters of `p` at its end. -/
def trimRight (p : Char → Bool) (cs : List Char) : List Char :=
  (cs.reverse.dropWhile p).reverse

/-- The text without the blanks at either end. -/
def trim (cs : List Char) : List Char := trimRight isBlank (cs.dropWhile isBlank)

end RecordMap.Text
