import RecordMap.Sql.Query
import RecordMap.SqlType

/-!
# Statements

The statements that are sent to the store, and their text.  Names are written as identifiers and
values are always bound; only the condition of a selection brings text of its own.
-/

namespace RecordMap.Sql

structure ColumnDef where
  name : String
  ty : SqlType
  markers : List String
  deriving DecidableEq

inductive Statement
  | createTable (table : String) (columns : List ColumnDef)
  | dropTable (table : String) (ifExists : Bool)
  | insert (table : String) (columns : List String) (values : List Value)
  | update (table : String) (assignments : List (String × Value)) (key : String × Value)
  | delete (table : String) (key : String × Value)
  | select (table : String) (filter : Option Query)
  deriving DecidableEq

namespace Statement

def table : Statement → String
  | .createTable table _ => table
  | .dropTable table _ => table
  | .insert table _ _ => table
  | .update table _ _ => table
  | .delete table _ => table
  | .select table _ => table

def isSelect : Statement → Bool
  | .select _ _ => true
  | _ => false

def columnDef (c : ColumnDef) : String :=
  identifier c.name ++ " " ++ c.ty.text ++ String.join (c.markers.map (" " ++ ·))

/-- The column set equal to the value, as in an assignment and in a condition on the key. -/
def assignment (a : String × Value) : List Piece := [.text (identifier a.1 ++ " = "), .bound a.2]

/-- The pieces of a statement, up to the condition of a selection. -/
def pieces : Statement → List Piece
  | .createTable table columns =>
    [.text ("CREATE TABLE IF NOT EXISTS " ++ identifier table ++ " (" ++
      String.intercalate ", " (columns.map columnDef) ++ ")")]
  | .dropTable table ifExists =>
    [.text ("DROP TABLE " ++ (if ifExists then "IF EXISTS " else "") ++ identifier table)]
  | .insert table columns values =>
    if columns.isEmpty then [.text ("INSERT INTO " ++ identifier table ++ " DEFAULT VALUES")]
    else
      .text ("INSERT INTO " ++ identifier table ++ " (" ++
          String.intercalate ", " (columns.map identifier) ++ ") VALUES (") ::
        Piece.separated ", " (values.map fun v => [.bound v]) ++ [.text ")"]
  | .update table assignments key =>
    .text ("UPDATE " ++ identifier table ++ " SET ") ::
      Piece.separated ", " (assignments.map assignment) ++ .text " WHERE " :: assignment key
  | .delete table key => .text ("DELETE FROM " ++ identifier table ++ " WHERE ") :: assignment key
  | .select table none => [.text ("SELECT * FROM " ++ identifier table)]
  | .select table (some _) => [.text ("SELECT * FROM " ++ identifier table ++ " WHERE ")]

/-- The condition of a selection, which brings its own text. -/
def condition : Statement → Query
  | .select _ (some filter) => filter
  | _ => .empty

/-- The statement without the mark at its end. -/
def body (s : Statement) : Query := (Query.ofPieces s.pieces).append s.condition

/-- The statement as it is sent, or framed by the marks of a transaction for a script. -/
def serialize (framed : Bool) (s : Statement) : Query :=
  if framed then s.body.between "BEGIN TRANSACTION;\n" ";\nEND TRANSACTION;"
  else s.body.between "" ";"

end Statement

end RecordMap.Sql
