import RecordMap.Engine

/-!
# Operations

All that an engine can be asked for, as data.  An action sends one statement; the other operations
send none, or a batch of insertions.
-/

namespace RecordMap

open Sql

variable {α : Type}

inductive Action (α : Type)
  | createTable
  | dropTable (ifExists : Bool)
  | insert (a : α)
  | update (a : α)
  | delete (a : α)
  | selectAll
  | selectWhere (f : Filter)
  | firstWhere (f : Filter)

/-- What an action gives. -/
def Action.Result : Action α → Type
  | .createTable | .dropTable _ => Unit
  | .insert _ => Number .int64
  | .update _ | .delete _ => Bool
  | .selectAll | .selectWhere _ => List α
  | .firstWhere _ => Option α

inductive Operation (α : Type)
  | describe
  | act (a : Action α)
  | insertMany (as : List α)
  | selectStatement (f : Filter)

/-- What an operation gives. -/
def Operation.Result : Operation α → Type
  | .describe => Model
  | .act a => a.Result
  | .insertMany _ => List (Number .int64)
  | .selectStatement _ => Statement

namespace Engine

def act (e : Engine) (t : RecordType α) : (a : Action α) → Session (Outcome a.Result) × Engine
  | .createTable => e.createTable t.toNamedDeclaration
  | .dropTable ifExists => e.dropTable t.toNamedDeclaration ifExists
  | .insert a => e.insert t a
  | .update a => e.update t a
  | .delete a => e.delete t a
  | .selectAll => e.selectAll t
  | .selectWhere f => e.selectWhere t f
  | .firstWhere f => e.firstWhere t f

def perform (e : Engine) (t : RecordType α) :
    (op : Operation α) → Session (Outcome op.Result) × Engine
  | .describe => (.done (e.describe t.toNamedDeclaration).1, (e.describe t.toNamedDeclaration).2)
  | .act a => e.act t a
  | .insertMany as => e.insertMany t as
  | .selectStatement f =>
    (.done (e.selectStatement t.toNamedDeclaration f).1,
      (e.selectStatement t.toNamedDeclaration f).2)

end Engine

end RecordMap
