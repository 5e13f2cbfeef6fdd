import RecordMap.RecordType
import RecordMap.Session
import RecordMap.Sql.Predicate

/-!
# The engine

Operations on the tables of record types.  An operation opens one connection and closes it again,
and makes its statements before, but for a batch outside of a transaction.  The engine remembers the
model of every type it has met: an operation leaves the engine with its type's model in it, and a
model once there is never built again.
-/

namespace RecordMap

open Sql

structure Config where
  /-- Whether filters have their literals in the text rather than bound. -/
  inlineLiterals : Bool
  /-- Whether a batch of insertions is one transaction. -/
  atomicBatches : Bool

def Config.standard : Config := ⟨true, true⟩

/-- A statement with its parameters in stored form. -/
def Sql.Statement.request (s : Statement) : Outcome Request := do
  let q := s.serialize false
  let params ← q.params.mapM Value.stored
  return ⟨q.text, params⟩

/-- The selection of the rows on which a filter holds. -/
def Model.selection (m : Model) (config : Config) (f : Filter) : Outcome Statement :=
  (m.predicate config.inlineLiterals f).map m.selectWhere

/-- The models of the types met so far, by the full names of the types. -/
structure Engine where
  config : Config
  models : List (String × Model)

namespace Engine

variable {α β : Type}

def model? (e : Engine) (typeName : String) : Option Model :=
  (e.models.find? (·.1 = typeName)).map Prod.snd

def remember (e : Engine) (typeName : String) (m : Model) : Engine :=
  ⟨e.config, (typeName, m) :: e.models⟩

/-- Builds the model of a type anew. -/
def register (e : Engine) (d : NamedDeclaration) : Outcome Engine :=
  d.build.map (e.remember d.typeName)

/-- An engine with the models of the given types, or the first fault among them. -/
def build (config : Config) (types : List NamedDeclaration) : Outcome Engine :=
  types.foldlM register ⟨config, []⟩

/-- The model of a type, and the engine that remembers it. -/
def describe (e : Engine) (d : NamedDeclaration) : Outcome Model × Engine :=
  match e.model? d.typeName with
  | some m => (.ok m, e)
  | none =>
    match d.build with
    | .ok m => (.ok m, e.remember d.typeName m)
    | .error f => (.error f, e)

/-- An operation on the table of a type. -/
def onModel (e : Engine) (d : NamedDeclaration) (operation : Model → Session (Outcome β)) :
    Session (Outcome β) × Engine :=
  match e.describe d with
  | (.ok m, e) => (operation m, e)
  | (.error f, e) => (.done (.error f), e)

/-- Opens a connection for a request, if there is one. -/
def send (r : Outcome Request) (f : Request → Session (Outcome β)) : Session (Outcome β) :=
  match r with
  | .ok r => Session.connected (f r)
  | .error e => .done (.error e)

def sendStatement (s : Outcome Statement) : Session (Outcome Nat) :=
  send (s.bind Statement.request) Session.execute

def createTable (e : Engine) (d : NamedDeclaration) : Session (Outcome Unit) × Engine :=
  e.onModel d fun m => (sendStatement m.createTable).andThen fun _ => .done (.ok ())

def dropTable (e : Engine) (d : NamedDeclaration) (ifExists : Bool) :
    Session (Outcome Unit) × Engine :=
  e.onModel d fun m =>
    (sendStatement (.ok (m.dropTable ifExists))).andThen fun _ => .done (.ok ())

/-- Inserts a row and gives its number.  Its values are brought into stored form when the connection
is open. -/
def insert (e : Engine) (t : RecordType α) (a : α) : Session (Outcome (Number .int64)) × Engine :=
  e.onModel t.toNamedDeclaration fun m =>
    match m.insert (t.record a) with
    | .ok s => Session.connected (Session.insertOne s.request)
    | .error fault => .done (.error fault)

/-- All statements are made before the first is sent, and all of them count or none. -/
def insertAtomically (statements : List (Outcome Statement)) :
    Session (Outcome (List (Number .int64))) :=
  match statements.mapM id with
  | .ok ss =>
    Session.connected (Session.transaction (Session.insertEach (ss.map Statement.request)))
  | .error e => .done (.error e)

/-- Inserts rows in order up to the first failure, which takes back the rows before it if batches
are atomic. -/
def insertMany (e : Engine) (t : RecordType α) (as : List α) :
    Session (Outcome (List (Number .int64))) × Engine :=
  if as.isEmpty then (.done (Outcome.fail (.model t.typeName .emptyBatch)), e)
  else
    e.onModel t.toNamedDeclaration fun m =>
      let statements := as.map fun a => m.insert (t.record a)
      if e.config.atomicBatches then insertAtomically statements
      else Session.connected (Session.insertEach (statements.map (·.bind Statement.request)))

/-- Whether a statement touched any row. -/
def touched (s : Session (Outcome Nat)) : Session (Outcome Bool) :=
  s.andThen fun n => .done (.ok (decide (0 < n)))

def update (e : Engine) (t : RecordType α) (a : α) : Session (Outcome Bool) × Engine :=
  e.onModel t.toNamedDeclaration fun m => touched (sendStatement (m.update (t.record a)))

def delete (e : Engine) (t : RecordType α) (a : α) : Session (Outcome Bool) × Engine :=
  e.onModel t.toNamedDeclaration fun m => touched (sendStatement (m.delete (t.record a)))

/-- The values in the rows of a selection; the connection is closed before they are read. -/
def selectRows (t : RecordType α) (m : Model) (s : Outcome Statement) :
    Session (Outcome (List α)) :=
  (send (s.bind Statement.request) Session.query).andThen fun rows =>
    .done (rows.mapM (t.ofRow m))

def selectAll (e : Engine) (t : RecordType α) : Session (Outcome (List α)) × Engine :=
  e.onModel t.toNamedDeclaration fun m => selectRows t m (.ok m.selectAll)

def selectWhere (e : Engine) (t : RecordType α) (f : Filter) :
    Session (Outcome (List α)) × Engine :=
  e.onModel t.toNamedDeclaration fun m => selectRows t m (m.selection e.config f)

/-- The first of the selected values, all of which are read. -/
def firstWhere (e : Engine) (t : RecordType α) (f : Filter) :
    Session (Outcome (Option α)) × Engine :=
  let (s, e) := e.selectWhere t f
  (s.andThen fun as => .done (.ok as.head?), e)

/-- The statement that a selection would send. -/
def selectStatement (e : Engine) (d : NamedDeclaration) (f : Filter) :
    Outcome Statement × Engine :=
  match e.describe d with
  | (.ok m, e) => (m.selection e.config f, e)
  | (.error fault, e) => (.error fault, e)

end Engine

end RecordMap
