import RecordMap.FieldType

/-!
# Declarations

How a record type says where it is kept: its fields in order, and for each the column it goes to and
the markers of that column.
-/

namespace RecordMap

structure Field where
  name : String
  ty : FieldType
  /-- The name of the column, if it is not that of the field. -/
  column : Option String
  /-- The words that mark the primary key. -/
  key : Option String
  /-- The words that leave the value to the store. -/
  autoIncrement : Option String
  /-- The words that forbid null. -/
  notNull : Option String
  /-- Whether the field is kept out of the table. -/
  ignored : Bool
  maxLength : Option Nat
  deriving DecidableEq

def keyWords : String := "PRIMARY KEY"

def autoIncrementWords : String := "AUTOINCREMENT"

def notNullWords : String := "NOT NULL"

structure Declaration where
  name : String
  /-- The name of the table, if it is not that of the record type. -/
  table : Option String
  fields : List Field
  deriving DecidableEq

/-- An empty table name counts as none. -/
def Declaration.tableName (d : Declaration) : String :=
  match d.table with
  | some t => if t.isEmpty then d.name else t
  | none => d.name

def Field.columnName (f : Field) : String := f.column.getD f.name

end RecordMap
