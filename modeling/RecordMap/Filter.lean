import RecordMap.Operator
import RecordMap.Value

/-!
# Filters

A filter is a tree over the fields of one record type.  Nothing in it is checked against a model.
-/

namespace RecordMap

inductive Filter
  | value (v : Value)
  | field (name : String)
  | binary (op : Operator) (left right : Filter)
  /-- A value from the surroundings of the filter, under the name it has there. -/
  | captured (name : String) (inner : Filter)
  | convert (inner : Filter) (ty : FieldType)
  /-- A call on a receiver. -/
  | method (receiver : Filter) (name : String) (arguments : List Filter)
  /-- A call without a receiver. -/
  | function (name : String) (arguments : List Filter)

namespace Filter

def compare (c : Connective) (left right : Filter) : Filter := .binary (.connective c) left right

def null : Filter := .value .null

def isValue : Filter → Bool
  | .value _ => true
  | _ => false

def isField : Filter → Bool
  | .field _ => true
  | _ => false

def isEquality : Filter → Bool
  | .binary (.connective .eq) _ _ => true
  | _ => false

def value? : Filter → Option Value
  | .value v => some v
  | _ => none

end Filter

/-- The calls that have a meaning of their own in SQL. -/
inductive Method
  | like
  | equals
  | contains
  | startsWith
  | endsWith
  deriving DecidableEq

namespace Method

def name : Method → String
  | .like => "Like"
  | .equals => "Equals"
  | .contains => "Contains"
  | .startsWith => "StartsWith"
  | .endsWith => "EndsWith"

def all : List Method := [.like, .equals, .contains, .startsWith, .endsWith]

def ofName? (name : String) : Option Method := all.find? (·.name = name)

end Method

end RecordMap
