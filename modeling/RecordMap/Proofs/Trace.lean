import Mathlib.Tactic.Common
import RecordMap.Session

/-!
# Traces of sessions

The trace of a session is what passes between it and the store: every call with its answer.  Its
calls are those that a run records (`calls_run`), and the trace of one session followed by another
is the one trace behind the other (`trace_bind`).
-/

namespace RecordMap

/-- A call and the answer of the store. -/
structure Exchange where
  call : Call
  answer : call.Answer

def Outcome.isOk {α : Type} : Outcome α → Bool
  | .ok _ => true
  | .error _ => false

/-- Whether the store did what it was called for.  A connection can always be closed. -/
def Exchange.succeeded : Exchange → Bool
  | ⟨.connect, a⟩ => Outcome.isOk a
  | ⟨.execute _, a⟩ => Outcome.isOk a
  | ⟨.insert _, a⟩ => Outcome.isOk a
  | ⟨.query _, a⟩ => Outcome.isOk a
  | ⟨.close, _⟩ => true

namespace Session

variable {α β σ : Type} (answer : (c : Call) → σ → c.Answer × σ)

def trace : Session α → σ → List Exchange
  | .done _, _ => []
  | .ask c next, s => ⟨c, (answer c s).1⟩ :: trace (next (answer c s).1) (answer c s).2

def result (x : Session α) (s : σ) : α := (x.run answer s).1

/-- The state in which a session leaves the store. -/
def final (x : Session α) (s : σ) : σ := (x.run answer s).2.2

theorem calls_run : ∀ (x : Session α) (s : σ),
    (x.run answer s).2.1 = (x.trace answer s).map Exchange.call
  | .done _, _ => rfl
  | .ask c next, s => by
    rw [trace, List.map_cons, ← calls_run]
    rfl

@[simp] theorem trace_done (a : α) (s : σ) : (done a).trace answer s = [] := rfl

@[simp] theorem result_done (a : α) (s : σ) : (done a).result answer s = a := rfl

@[simp] theorem final_done (a : α) (s : σ) : (done a).final answer s = s := rfl

@[simp] theorem trace_ask (c : Call) (next : c.Answer → Session α) (s : σ) :
    (ask c next).trace answer s
      = ⟨c, (answer c s).1⟩ :: (next (answer c s).1).trace answer (answer c s).2 := rfl

@[simp] theorem result_ask (c : Call) (next : c.Answer → Session α) (s : σ) :
    (ask c next).result answer s = (next (answer c s).1).result answer (answer c s).2 := rfl

@[simp] theorem final_ask (c : Call) (next : c.Answer → Session α) (s : σ) :
    (ask c next).final answer s = (next (answer c s).1).final answer (answer c s).2 := rfl

theorem trace_bind (f : α → Session β) : ∀ (x : Session α) (s : σ),
    (x.bind f).trace answer s
      = x.trace answer s ++ (f (x.result answer s)).trace answer (x.final answer s)
  | .done _, _ => rfl
  | .ask c next, s => congrArg (_ :: ·) (trace_bind f (next (answer c s).1) (answer c s).2)

theorem result_bind (f : α → Session β) : ∀ (x : Session α) (s : σ),
    (x.bind f).result answer s = (f (x.result answer s)).result answer (x.final answer s)
  | .done _, _ => rfl
  | .ask c next, s => result_bind f (next (answer c s).1) (answer c s).2

theorem final_bind (f : α → Session β) : ∀ (x : Session α) (s : σ),
    (x.bind f).final answer s = (f (x.result answer s)).final answer (x.final answer s)
  | .done _, _ => rfl
  | .ask c next, s => final_bind f (next (answer c s).1) (answer c s).2

end Session

end RecordMap
