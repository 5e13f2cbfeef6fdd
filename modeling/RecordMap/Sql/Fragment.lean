import RecordMap.Sql.Query
import RecordMap.Text.Lowercase

/-!
# Fragments

A node of a filter comes to a fragment: SQL text with its bound values, or a value that is not
written yet.  What stands above a value decides how it is written, so a comparison with null can
still become a test for null.
-/

namespace RecordMap.Sql

namespace Query

def bound (v : Value) : Query := ⟨"?", [v]⟩

/-- Two operands and the sign between them, in brackets. -/
def binary (sign : String) (l r : Query) : Query :=
  ⟨"(" ++ l.text ++ " " ++ sign ++ " " ++ r.text ++ ")", l.params ++ r.params⟩

/-- The test for null, which binds the null behind its operand. -/
def isNull (negated : Bool) (q : Query) : Query :=
  binary (if negated then "is not" else "is") q (bound .null)

def equals (target operand : Query) : Query :=
  ⟨"(" ++ target.text ++ " = (" ++ operand.text ++ "))", target.params ++ operand.params⟩

def wildcard : String := "'%'"

/-- A pattern put together by the store, with wildcards at its ends. -/
def pattern (leading trailing : Bool) (q : Query) : Query :=
  let parts := (if leading then [wildcard] else []) ++ [q.text] ++
    (if trailing then [wildcard] else [])
  ⟨"(" ++ String.intercalate " || " parts ++ ")", q.params⟩

def call (name : String) (arguments : List Query) : Query :=
  ⟨Text.lowercase name ++ "(" ++ String.intercalate ", " (arguments.map Query.text) ++ ")",
    arguments.flatMap Query.params⟩

end Query

inductive Fragment
  | sql (q : Query)
  | value (v : Value)

namespace Fragment

def isNull : Fragment → Bool
  | .value .null => true
  | _ => false

/-- The fragment as a query.  A value is written as a literal if literals are to stand in the text
and it has one; otherwise it is bound. -/
def render (inline : Bool) : Fragment → Query
  | .sql q => q
  | .value v =>
    match inline, literal? v with
    | true, some s => ⟨s, []⟩
    | _, _ => .bound v

end Fragment

end RecordMap.Sql
