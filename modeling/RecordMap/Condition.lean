import RecordMap.Filter
import RecordMap.Scalar

/-!
# Typed conditions

Conditions whose operands have the type of the field they are compared with.  A field that may be
null goes with its scalar type, and a condition is itself an operand where a truth value is expected.
`Condition.filter` gives the filter a condition stands for, with the types left out.
-/

namespace RecordMap

inductive Relation
  | eq
  | ne
  | ge
  | gt
  | le
  | lt
  deriving DecidableEq

def Relation.connective : Relation → Connective
  | .eq => .eq
  | .ne => .ne
  | .ge => .ge
  | .gt => .gt
  | .le => .le
  | .lt => .lt

mutual

/-- What may stand where a value of a scalar type is expected. -/
inductive Operand : Scalar → Type
  | value {s : Scalar} (x : s.Carrier) : Operand s
  | absent {s : Scalar} : Operand s
  | field {s : Scalar} (name : String) : Operand s
  | captured {s : Scalar} (name : String) (inner : Operand s) : Operand s
  /-- A filter that is taken to have the type. -/
  | untyped {s : Scalar} (f : Filter) : Operand s
  /-- A filter that is converted to the type. -/
  | converted {s : Scalar} (f : Filter) : Operand s
  | bitAnd {s : Scalar} (left right : Operand s) : Operand s
  | bitOr {s : Scalar} (left right : Operand s) : Operand s
  | call {s : Scalar} (receiver : Operand s) (name : String) (arguments : List Filter) : Operand s
  | condition (c : Condition) : Operand .bool

inductive Condition : Type
  | holds (x : Operand .bool)
  | compare {s : Scalar} (field : String) (r : Relation) (x : Operand s)
  | isNull (field : String)
  | isNotNull (field : String)
  | equal {s : Scalar} (left right : Operand s)
  | notEqual {s : Scalar} (left right : Operand s)
  | like (field : String) (pattern : Operand .text)
  | contains (field : String) (x : Operand .text)
  | startsWith (field : String) (x : Operand .text)
  | endsWith (field : String) (x : Operand .text)
  | equals (field : String) (x : Operand .text)
  | and (left right : Condition)
  | or (left right : Condition)

end

def Filter.onField (field : String) (m : Method) (x : Filter) : Filter :=
  .method (.field field) m.name [x]

mutual

def Operand.filter {s : Scalar} : Operand s → Filter
  | .value x => .value (s.value x)
  | .absent => .null
  | .field name => .field name
  | .captured name inner => .captured name inner.filter
  | .untyped f => f
  | .converted f => .convert f s.fieldType
  | .bitAnd l r => .compare .bitAnd l.filter r.filter
  | .bitOr l r => .compare .bitOr l.filter r.filter
  | .call receiver name arguments => .method receiver.filter name arguments
  | .condition c => c.filter

def Condition.filter : Condition → Filter
  | .holds x => x.filter
  | .compare field r x => .compare r.connective (.field field) x.filter
  | .isNull field => .compare .eq (.field field) .null
  | .isNotNull field => .compare .ne (.field field) .null
  | .equal l r => .compare .eq l.filter r.filter
  | .notEqual l r => .compare .ne l.filter r.filter
  | .like field pattern => .function Method.like.name [.field field, pattern.filter]
  | .contains field x => .onField field .contains x.filter
  | .startsWith field x => .onField field .startsWith x.filter
  | .endsWith field x => .onField field .endsWith x.filter
  | .equals field x => .onField field .equals x.filter
  | .and l r => .compare .and l.filter r.filter
  | .or l r => .compare .or l.filter r.filter

end

end RecordMap
