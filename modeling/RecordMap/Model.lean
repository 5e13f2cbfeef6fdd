import RecordMap.Declaration
import RecordMap.SqlType
import RecordMap.Text.Lowercase

/-!
# Models

A model is a declaration that has been checked: every stored column has a type the store knows, no
two columns share a name, and exactly one stored column is the key.  Column names are compared in
small letters, as the store does not tell their case apart.
-/

namespace RecordMap

structure Column where
  /-- The place of the field in the declaration. -/
  index : Nat
  field : String
  name : String
  ty : FieldType
  /-- The type of the column; fields that are kept out of the table have none. -/
  sqlType : Option SqlType
  key : Option String
  autoIncrement : Option String
  notNull : Option String
  deriving DecidableEq

namespace Column

def isStored (c : Column) : Bool := c.sqlType.isSome

def isKey (c : Column) : Bool := c.key.isSome

def isAutoIncrement (c : Column) : Bool := c.autoIncrement.isSome

def isNullable (c : Column) : Bool := c.notNull.isNone

/-- The markers of the column in the order in which they are written. -/
def markers (c : Column) : List String := [c.key, c.autoIncrement, c.notNull].filterMap id

end Column

structure Model where
  name : String
  table : String
  columns : List Column
  key : Column
  deriving DecidableEq

namespace Model

def stored (m : Model) : List Column := m.columns.filter Column.isStored

/-- The column of a field; a name that is no field's is taken for a column's. -/
def column? (m : Model) (name : String) : Option Column :=
  match m.columns.find? (·.field = name) with
  | some c => some c
  | none => m.columns.find? (·.name = name)

end Model

namespace Field

def sized (f : Field) (model : String) (ty : SqlType) : Outcome SqlType :=
  match f.maxLength with
  | some n =>
    if f.ty.isText then .ok (.varChar (some n))
    else Outcome.fail (.model model (.lengthOfNonText f.name))
  | none => .ok ty

/-- The store counts up only in a key of its own integer type. -/
def counted (f : Field) (model : String) (ty : SqlType) : Outcome SqlType :=
  if f.autoIncrement.isSome then
    if f.key.isSome && f.ty.isInteger then .ok .integer
    else Outcome.fail (.model model (.autoIncrementOfNonKey f.name))
  else .ok ty

/-- The type of the field's column. -/
def storedType (f : Field) (model : String) : Outcome SqlType := do
  let ty ← f.ty.sqlType.during (.declaring f.name model)
  let ty ← f.sized model ty
  f.counted model ty

def columnType (f : Field) (model : String) : Outcome (Option SqlType) :=
  if f.ignored then
    if f.key.isSome then Outcome.fail (.model model (.ignoredKey f.name)) else .ok none
  else (f.storedType model).map some

def toColumn (f : Field) (model : String) (index : Nat) : Outcome Column :=
  if f.columnName.isEmpty then Outcome.fail (.model model (.emptyColumnName f.name))
  else do
    let ty ← f.columnType model
    return ⟨index, f.name, f.columnName, f.ty, ty, f.key, f.autoIncrement, f.notNull⟩

end Field

/-- The columns checked so far, and the key among them. -/
structure Draft where
  columns : List Column
  key : Option Column

namespace Draft

def empty : Draft := ⟨[], none⟩

def hasName (d : Draft) (name : String) : Bool :=
  d.columns.any fun c => Text.lowercase c.name == Text.lowercase name

def add (model : String) (d : Draft) (c : Column) : Outcome Draft :=
  if d.hasName c.name then Outcome.fail (.model model (.repeatedColumn c.name))
  else if c.isKey then
    if d.key.isSome then Outcome.fail (.model model .secondKey)
    else .ok ⟨d.columns ++ [c], some c⟩
  else .ok ⟨d.columns ++ [c], d.key⟩

def addField (model : String) (d : Draft) (f : Field) : Outcome Draft := do
  let c ← f.toColumn model d.columns.length
  d.add model c

end Draft

/-- The model of a declaration, or the first thing that is wrong with it. -/
def Declaration.build (d : Declaration) : Outcome Model :=
  if d.tableName.isEmpty then Outcome.fail (.model d.name .noTableName)
  else do
    let draft ← d.fields.foldlM (Draft.addField d.name) Draft.empty
    match draft.key with
    | some key => return ⟨d.name, d.tableName, draft.columns, key⟩
    | none => Outcome.fail (.model d.name .noKey)

end RecordMap
