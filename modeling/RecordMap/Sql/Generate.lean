import RecordMap.Model
import RecordMap.Sql.Predicate
import RecordMap.Sql.Statement

/-!
# Statements of a model

The statements that keep the records of a model.  A record is checked before its statement exists:
it has a value for each field, of that field's type, and null only where its column allows it.
-/

namespace RecordMap

open Sql

/-- The values of a record, in the order of the declared fields. -/
abbrev Record := List Value

namespace Model

def checkRecord (m : Model) (record : Record) : Outcome Unit :=
  if record.length = m.columns.length then .ok ()
  else Outcome.fail (.model m.name (.recordSize record.length m.columns.length))

/-- The value of a column, if it has the column's type. -/
def columnValue (m : Model) (c : Column) (record : Record) : Outcome Value :=
  let v := record.getD c.index .null
  if v.isA c.ty then .ok v
  else Outcome.during (.writing c.name m.table) (Outcome.fail (.conversion v c.ty.label))

/-- The value of a column, which also may not be missing if the column is `required`. -/
def fieldValue (m : Model) (record : Record) (required : Bool) (c : Column) :
    Outcome (String × Value) := do
  let v ← m.columnValue c record
  if required && v.isNullOrNil then Outcome.fail (.nullConstraint m.table c.name)
  else return (c.name, v)

/-- The key of a record, which must tell its row from all others. -/
def keyValue (m : Model) (record : Record) : Outcome (String × Value) := do
  m.checkRecord record
  let v ← m.columnValue m.key record
  if v.isMissingKey then Outcome.fail (.missingKey m.table m.key.name v)
  else return (m.key.name, v)

/-- The columns whose values an insertion brings. -/
def inserted (m : Model) : List Column := m.stored.filter fun c => !c.isAutoIncrement

/-- The columns that an update sets. -/
def updated (m : Model) : List Column := m.inserted.filter fun c => !c.isKey

def columnDefs (m : Model) : List ColumnDef :=
  m.columns.filterMap fun c => c.sqlType.map fun ty => ⟨c.name, ty, c.markers⟩

def createTable (m : Model) : Outcome Statement :=
  if m.columnDefs.isEmpty then Outcome.fail (.model m.name .noStoredColumn)
  else .ok (.createTable m.table m.columnDefs)

def dropTable (m : Model) (ifExists : Bool) : Statement := .dropTable m.table ifExists

def insert (m : Model) (record : Record) : Outcome Statement := do
  m.checkRecord record
  let pairs ← m.inserted.mapM fun c => m.fieldValue record (!c.isNullable || c.isKey) c
  return .insert m.table (pairs.map Prod.fst) (pairs.map Prod.snd)

def update (m : Model) (record : Record) : Outcome Statement := do
  let key ← m.keyValue record
  let pairs ← m.updated.mapM fun c => m.fieldValue record (!c.isNullable) c
  if pairs.isEmpty then Outcome.fail (.model m.name .nothingToUpdate)
  else return .update m.table pairs key

def delete (m : Model) (record : Record) : Outcome Statement := do
  let key ← m.keyValue record
  return .delete m.table key

def selectAll (m : Model) : Statement := .select m.table none

def selectWhere (m : Model) (filter : Query) : Statement := .select m.table (some filter)

end Model

end RecordMap
