import RecordMap.Codec
import RecordMap.Filter
import RecordMap.Model
import RecordMap.Sql.Fragment

/-!
# Filters in SQL

`Filter.compile` puts a filter over the fields of a model into SQL.  Captured and converted values
are resolved on the way, and a comparison with null becomes a test for null, since SQL defines no
other.  `Model.predicate` gives the text of a condition.
-/

namespace RecordMap

open Sql

namespace Sql.Fragment

/-- The test that an equality with null stands for. -/
def compareNull (inline : Bool) (c : Connective) (other : Fragment) : Outcome Fragment :=
  match c with
  | .eq => .ok (.sql ((other.render inline).isNull false))
  | .ne => .ok (.sql ((other.render inline).isNull true))
  | c => Outcome.fail (.nullComparison c.sign)

def compare (inline : Bool) (c : Connective) (left right : Fragment) : Outcome Fragment :=
  if left.isNull then compareNull inline c right
  else if right.isNull then compareNull inline c left
  else .ok (.sql (.binary c.sign (left.render inline) (right.render inline)))

def like (inline : Bool) (target pattern : Fragment) : Fragment :=
  .sql (.binary "LIKE" (target.render inline) (pattern.render inline))

/-- A text stands in a pattern as it is, another primitive value by its literal. -/
def patternText? : Value → Option String
  | .text s => some s
  | v => if v.isPrimitive then literal? v else none

/-- The pattern that matches `argument` with anything before or after it. -/
def surround (m : Method) (leading trailing : Bool) (argument : Fragment) : Outcome Fragment :=
  match argument with
  | .value .null => Outcome.fail (.filter (.nullPattern m.name))
  | .value v =>
    match patternText? v with
    | some s =>
      .ok (.value (.text
        ((if leading then "%" else "") ++ s ++ (if trailing then "%" else ""))))
    | none => Outcome.fail (.filter (.unmatchable m.name v))
  | .sql q => .ok (.sql (q.pattern leading trailing))

def applyMethod (inline : Bool) (m : Method) (target argument : Fragment) : Outcome Fragment :=
  match m with
  | .like => .ok (like inline target argument)
  | .equals => .ok (.sql (.equals (target.render inline) (argument.render inline)))
  | .contains => (surround m true true argument).map (like inline target)
  | .startsWith => (surround m false true argument).map (like inline target)
  | .endsWith => (surround m true false argument).map (like inline target)

def call (inline : Bool) (name : String) (operands : List Fragment) : Fragment :=
  .sql (.call name (operands.map (render inline)))

/-- A call by its name; its receiver, if it has one, comes first among the operands. -/
def apply (inline : Bool) (name : String) : List Fragment → Outcome Fragment
  | [] => .ok (call inline name [])
  | target :: rest =>
    match Method.ofName? name with
    | none => .ok (call inline name (target :: rest))
    | some m =>
      match rest with
      | [argument] => applyMethod inline m target argument
      | _ => Outcome.fail (.filter (.argumentCount name rest.length))

/-- A captured filter must have come down to a value. -/
def capture (name : String) : Fragment → Outcome Fragment
  | .value v => .ok (.value v)
  | .sql _ => Outcome.fail (.filter (.capturedNonValue name))

/-- A value is converted at once; SQL is left as it is. -/
def convert (x : Fragment) (ty : FieldType) : Outcome Fragment :=
  match x with
  | .value v => (v.convert ty).map .value
  | .sql q => .ok (.sql q)

end Sql.Fragment

/-- The name under which a field is stored. -/
def Model.storedName (m : Model) (name : String) : Outcome String :=
  match m.column? name with
  | some c =>
    if c.isStored then .ok c.name else Outcome.fail (.filter (.notStored name m.name))
  | none => Outcome.fail (.filter (.unknownField name m.name))

namespace Filter

mutual

def compile (m : Model) (inline : Bool) : Filter → Outcome Fragment
  | .value v => .ok (.value v)
  | .field name => (m.storedName name).map fun c => .sql ⟨identifier c, []⟩
  | .binary (.arithmetic a) _ _ => Outcome.fail (.unsupportedOperator a.sign)
  | .binary (.connective c) l r => do
    let l ← compile m inline l
    let r ← compile m inline r
    Fragment.compare inline c l r
  | .captured name inner => do
    let x ← compile m inline inner
    Fragment.capture name x
  | .convert inner ty => do
    let x ← compile m inline inner
    x.convert ty
  | .method receiver name arguments => do
    let x ← compile m inline receiver
    let xs ← compileAll m inline arguments
    Fragment.apply inline name (x :: xs)
  | .function name arguments => do
    let xs ← compileAll m inline arguments
    Fragment.apply inline name xs

def compileAll (m : Model) (inline : Bool) : List Filter → Outcome (List Fragment)
  | [] => .ok []
  | f :: fs => do
    let x ← compile m inline f
    let xs ← compileAll m inline fs
    return x :: xs

end

end Filter

/-- The condition that a filter puts on the rows of a model's table. -/
def Model.predicate (m : Model) (inline : Bool) (f : Filter) : Outcome Query :=
  (f.compile m inline).map (·.render inline)

end RecordMap
