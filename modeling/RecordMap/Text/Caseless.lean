/-!
# Words in either case

Keywords, column names in a result row and setting names are compared without regard to the case of
ASCII letters; all other characters stand for themselves.
-/

namespace RecordMap.Text

/-- The text with its ASCII capitals made small. -/
def foldCase (s : String) : List Char := s.toList.map Char.toLower

def sameCaseless (a b : String) : Bool := foldCase a == foldCase b

end RecordMap.Text
