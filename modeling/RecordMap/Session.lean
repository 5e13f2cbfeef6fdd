import RecordMap.Row

/-!
# Sessions with the store

A session is a program that calls the store and goes on from its answers.  The store itself stays
outside: `Session.run` runs a session against any function that answers calls, and records the calls
in their order.
-/

namespace RecordMap

/-- A statement as it is sent: its text, and the stored form of its parameters. -/
structure Request where
  text : String
  params : List Stored
  deriving DecidableEq

inductive Call
  | connect
  | execute (r : Request)
  /-- Executes an insertion and asks for the number of the new row. -/
  | insert (r : Request)
  | query (r : Request)
  | close
  deriving DecidableEq

/-- What the store answers a call with; an executed statement tells how many rows it touched. -/
def Call.Answer : Call → Type
  | .connect => Outcome Unit
  | .execute _ => Outcome Nat
  | .insert _ => Outcome (Number .int64)
  | .query _ => Outcome (List Row)
  | .close => Unit

inductive Session (α : Type)
  | done (a : α)
  | ask (c : Call) (next : c.Answer → Session α)

namespace Session

variable {α β σ : Type}

def bind : Session α → (α → Session β) → Session β
  | .done a, f => f a
  | .ask c next, f => .ask c fun answer => (next answer).bind f

/-- Goes on only if the session came to a value. -/
def andThen (s : Session (Outcome α)) (f : α → Session (Outcome β)) : Session (Outcome β) :=
  s.bind fun
    | .ok a => f a
    | .error e => .done (.error e)

def execute (r : Request) : Session (Outcome Nat) := .ask (.execute r) .done

def insert (r : Request) : Session (Outcome (Number .int64)) := .ask (.insert r) .done

def query (r : Request) : Session (Outcome (List Row)) := .ask (.query r) .done

/-- Runs `body` on a connection of its own, which is closed whatever becomes of it. -/
def connected (body : Session (Outcome α)) : Session (Outcome α) :=
  .ask .connect fun
    | .error e => .done (.error e)
    | .ok () => body.bind fun result => .ask .close fun () => .done result

/-- Sends an insertion, if it could be written. -/
def insertOne : Outcome Request → Session (Outcome (Number .int64))
  | .ok r => insert r
  | .error e => .done (.error e)

/-- Sends the insertions one after the other, up to the first that is no request or fails. -/
def insertEach : List (Outcome Request) → Session (Outcome (List (Number .int64)))
  | [] => .done (.ok [])
  | .error e :: _ => .done (.error e)
  | .ok r :: rest =>
    (insert r).andThen fun id => (insertEach rest).andThen fun ids => .done (.ok (id :: ids))

def begin : Request := ⟨"BEGIN TRANSACTION", []⟩

def commit : Request := ⟨"COMMIT", []⟩

def rollback : Request := ⟨"ROLLBACK", []⟩

/-- Runs `body` in a transaction, which is taken back if `body` fails.  How the store answers that
does not matter then. -/
def transaction (body : Session (Outcome α)) : Session (Outcome α) :=
  (execute begin).andThen fun _ =>
    body.bind fun
      | .ok a => (execute commit).andThen fun _ => .done (.ok a)
      | .error e => (execute rollback).bind fun _ => .done (.error e)

/-- The result of a session, the calls it made, and the state that `answer` leaves. -/
def run (answer : (c : Call) → σ → c.Answer × σ) : Session α → σ → α × List Call × σ
  | .done a, s => (a, [], s)
  | .ask c next, s =>
    let (reply, s) := answer c s
    let (a, calls, s) := (next reply).run answer s
    (a, c :: calls, s)

end Session

end RecordMap
