import RecordMap.Decimal
import RecordMap.Floating.Layout
import RecordMap.Sql.Identifier
import RecordMap.Value

/-!
# Literals in SQL

Truth values, numbers and texts can be written into a statement.  What is not a finite number, and
every other kind of value, has no literal and must be bound.
-/

namespace RecordMap.Sql

def textLiteral (s : String) : String := String.ofList (enclose '\x27' s.toList)

def literal? : Value → Option String
  | .bool b => some (if b then "1" else "0")
  | .int _ n => some (String.ofList (Decimal.ofInt n.toInt))
  | .single x => if x.isFinite then some (String.ofList x.plain) else none
  | .double x => if x.isFinite then some (String.ofList x.plain) else none
  | .text s => some (textLiteral s)
  | _ => none

end RecordMap.Sql
