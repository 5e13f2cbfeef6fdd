import RecordMap.Operation

/-!
# Handles and declarations

An engine is used through handles that share all of it: what it has come to remember by an operation
through one of them, it remembers for every other.  A type can be declared anew between two
operations, and an operation takes the declaration that is in force when it begins.
-/

namespace RecordMap

variable {α : Type}

structure World where
  engine : Engine
  /-- The handles are counted from 0, which is the one that the engine was built with. -/
  lastHandle : Nat
  /-- The declaration in force for each type, by the full name of the type. -/
  declared : String → Declaration

inductive Event : Type 1
  | clone (handle : Nat)
  | declare (typeName : String) (d : Declaration)
  | perform {α : Type} (handle : Nat) (t : RecordType α) (op : Operation α)

namespace World

def named (w : World) (typeName : String) : NamedDeclaration := ⟨typeName, w.declared typeName⟩

/-- An engine with the models of the given types, and its first handle. -/
def build (config : Config) (typeNames : List String) (declared : String → Declaration) :
    Outcome World :=
  (Engine.build config (typeNames.map fun n => ⟨n, declared n⟩)).map fun e => ⟨e, 0, declared⟩

def hasHandle (w : World) (handle : Nat) : Bool := decide (handle ≤ w.lastHandle)

def clone (w : World) : World := { w with lastHandle := w.lastHandle + 1 }

def declare (w : World) (typeName : String) (d : Declaration) : World :=
  { w with declared := fun n => if n = typeName then d else w.declared n }

/-- The type as it is declared now. -/
def current (w : World) (t : RecordType α) : RecordType α :=
  { t with toNamedDeclaration := w.named t.typeName }

def perform (w : World) (t : RecordType α) (op : Operation α) :
    Session (Outcome op.Result) × World :=
  ((w.engine.perform (w.current t) op).1,
    { w with engine := (w.engine.perform (w.current t) op).2 })

/-- What does not happen through a handle there is does not happen. -/
def step (w : World) : Event → World
  | .clone handle => if w.hasHandle handle then w.clone else w
  | .declare typeName d => w.declare typeName d
  | .perform handle t op => if w.hasHandle handle then (w.perform t op).2 else w

def after (w : World) (events : List Event) : World := events.foldl step w

end World

end RecordMap
