import RecordMap.Row
import RecordMap.Sql.Generate

/-!
# Record types

What the engine must know of a type to keep its values in a table: how it is declared, the values
of its fields, and how a new one is filled from a row.
-/

namespace RecordMap

/-- A declaration under the full name of the type that makes it. -/
structure NamedDeclaration where
  typeName : String
  declaration : Declaration

/-- The model of the type; a fault says which type it was asked for. -/
def NamedDeclaration.build (d : NamedDeclaration) : Outcome Model :=
  d.declaration.build.during (.describing d.typeName)

structure RecordType (α : Type) extends NamedDeclaration where
  /-- A value with every field at its default. -/
  blank : α
  record : α → Record
  /-- Puts a value read from the store into the field of a column. -/
  load : Column → Value → α → Outcome α

namespace RecordType

variable {α : Type}

/-- Reads one column: its value leaves the row and enters the field. -/
def loadColumn (t : RecordType α) (m : Model) (s : Row × α) (c : Column) : Outcome (Row × α) :=
  match s.1.take? c.name with
  | none => Outcome.fail (.remark (.absent c.name m.table))
  | some (raw, row) => do
    let v ← (raw.read c.ty).during (.reading c.name m.table)
    let a ← t.load c v s.2
    return (row, a)

/-- The value that a row of the model's table holds; ignored fields keep their defaults. -/
def ofRow (t : RecordType α) (m : Model) (row : Row) : Outcome α :=
  (m.stored.foldlM (t.loadColumn m) (row, t.blank)).map Prod.snd

end RecordType

end RecordMap
