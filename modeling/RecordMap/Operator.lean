/-!
# Operators

The operators of a filter.  Relations, logical and bitwise operators have a sign in SQL; arithmetic
can be written in a filter but not be put into SQL.
-/

namespace RecordMap

inductive Connective
  | eq
  | ne
  | ge
  | gt
  | le
  | lt
  | and
  | or
  | bitAnd
  | bitOr
  deriving DecidableEq

namespace Connective

/-- The sign of the operator in SQL. -/
def sign : Connective → String
  | .eq => "="
  | .ne => "!="
  | .ge => ">="
  | .gt => ">"
  | .le => "<="
  | .lt => "<"
  | .and => "and"
  | .or => "or"
  | .bitAnd => "&"
  | .bitOr => "|"

def isLogical : Connective → Bool
  | .and | .or => true
  | _ => false

def isComparison : Connective → Bool
  | .eq | .ne | .ge | .gt | .le | .lt => true
  | _ => false

end Connective

inductive Arithmetic
  | add
  | sub
  | mul
  | div
  | rem
  deriving DecidableEq

def Arithmetic.sign : Arithmetic → String
  | .add => "+"
  | .sub => "-"
  | .mul => "*"
  | .div => "/"
  | .rem => "%"

inductive Operator
  | connective (c : Connective)
  | arithmetic (a : Arithmetic)
  deriving DecidableEq

namespace Operator

/-- The sign of the operator in messages. -/
def sign : Operator → String
  | .connective c => c.sign
  | .arithmetic a => a.sign

/-- The operator as SQL has it. -/
def connective? : Operator → Option Connective
  | .connective c => some c
  | .arithmetic _ => none

end Operator

end RecordMap
