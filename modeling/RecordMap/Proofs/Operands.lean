import RecordMap.Proofs.Lowering
import RecordMap.Proofs.Reading

/-!
# Operands of connectives

The operands of the connectives in a text are seen in its reading: a value stands under a
connective if one of the operands of the connective is its placeholder, in brackets or not
(`Reading.compared`).  What the text of a term brings to connectives is told by the term's parts,
one lemma for each kind of term.

Which of the bound values belongs to a placeholder is known by counting the placeholders before it,
and a text has as many of them as it binds values (`Term.holes_reading`).
-/

namespace RecordMap

open Sql

namespace Sql

def Sign.isConnective : Sign → Bool
  | .connective _ => true
  | .like | .is | .isNot | .join => false

namespace Reading

/-- A reading without the brackets around it. -/
def bare : Reading → Reading
  | .group r => r.bare
  | r => r

mutual

/-- The number of placeholders. -/
def holes : Reading → Nat
  | .column _ | .text _ | .number _ => 0
  | .hole => 1
  | .group r => r.holes
  | .binary _ l r => l.holes + r.holes
  | .call _ rs => allHoles rs

def allHoles : List Reading → Nat
  | [] => 0
  | r :: rs => r.holes + allHoles rs

end

/-- The value of an operand that is a placeholder, in brackets or not.  The values of all its
placeholders are `vs`. -/
def operand (r : Reading) (vs : List Value) : List Value :=
  match r.bare with
  | .hole => vs
  | _ => []

mutual

/-- The values that are operands of connectives.  The values of all placeholders are `vs`, from left
to right. -/
def compared : Reading → List Value → List Value
  | .column _, _ | .text _, _ | .number _, _ | .hole, _ => []
  | .group r, vs => r.compared vs
  | .binary s l r, vs =>
    (if s.isConnective then
      l.operand (vs.take l.holes) ++ r.operand (vs.drop l.holes) else []) ++
    (l.compared (vs.take l.holes) ++ r.compared (vs.drop l.holes))
  | .call _ rs, vs => allCompared rs vs

def allCompared : List Reading → List Value → List Value
  | [], _ => []
  | r :: rs, vs => r.compared (vs.take r.holes) ++ allCompared rs (vs.drop r.holes)

end

end Reading

namespace Term

variable (inline : Bool) {t : Term}

/-- The values that a term binds, from left to right. -/
def params (t : Term) : List Value := (Query.ofPieces (t.emission inline)).params

/-- The value that a term brings to a connective above it, if it is written as a placeholder. -/
def operand (t : Term) : List Value := (t.reading inline).operand (t.params inline)

/-- The values that are operands of connectives in the text of a term. -/
def compared (t : Term) : List Value := (t.reading inline).compared (t.params inline)

theorem params_bracketed (a b : List Piece) (middle : String) :
    (Query.ofPieces (bracketed a middle b)).params
      = (Query.ofPieces a).params ++ (Query.ofPieces b).params := by
  simp [bracketed, Query.ofPieces, Query.ofPieces_append, Query.append, Query.empty]

theorem params_withWildcards (leading trailing : Bool) (a : List Piece) :
    (Query.ofPieces (withWildcards leading trailing a)).params = (Query.ofPieces a).params := by
  cases leading <;> cases trailing <;>
    simp [withWildcards, Query.ofPieces, Query.ofPieces_append, Query.append, Query.empty]

theorem params_column (name : String) : (column name).params inline = [] := by
  rw [params, emission_column]
  rfl

theorem params_binary (c : Connective) (l r : Term) :
    (binary c l r).params inline = l.params inline ++ r.params inline := by
  rw [params, emission_binary, params_bracketed]
  rfl

theorem params_isNull (negated : Bool) (t : Term) :
    (isNull negated t).params inline = t.params inline ++ [.null] := by
  rw [params, emission_isNull, params_bracketed]
  rfl

theorem params_like (t p : Term) :
    (like t p).params inline = t.params inline ++ p.params inline := by
  rw [params, emission_like, params_bracketed]
  rfl

theorem params_equals (t x : Term) :
    (equals t x).params inline = t.params inline ++ x.params inline := by
  rw [params, emission_equals, params_bracketed, params, params]
  simp [Query.ofPieces, Query.ofPieces_append, Query.append, Query.empty]

theorem params_pattern (leading trailing : Bool) (t : Term) :
    (pattern leading trailing t).params inline = t.params inline := by
  rw [params, emission_pattern, params_withWildcards]
  rfl

theorem params_call (name : String) (ts : List Term) :
    (call name ts).params inline = ts.flatMap (params inline) := by
  rw [params, emission_call, List.cons_append, Query.ofPieces, Query.ofPieces_append,
    Query.append, Query.params_separated, List.flatMap_map]
  exact List.append_nil _

/-- A value is written as a placeholder or has no part in what is bound. -/
theorem literal_cases (v : Value) :
    valueReading inline v = .hole ∧ (literal v).params inline = [v] ∨
    (∃ s, valueReading inline v = .text s ∨ valueReading inline v = .number s) ∧
      (literal v).params inline = [] ∧ v ≠ .null := by
  cases inline with
  | false => exact .inl ⟨rfl, rfl⟩
  | true =>
    rw [params, emission_literal, Piece.written, if_pos rfl, Piece.inlined, valueReading,
      if_pos rfl]
    rcases hs : literal? v with _ | s
    · exact .inl ⟨rfl, rfl⟩
    · refine .inr ⟨?_, rfl, ?_⟩
      · rcases v.text? with _ | t
        · exact ⟨s, .inr rfl⟩
        · exact ⟨t, .inl rfl⟩
      · rintro rfl
        cases hs

theorem holes_surrounded (leading trailing : Bool) (r : Reading) :
    (surrounded leading trailing r).holes = r.holes := by
  cases leading <;> cases trailing <;> simp [surrounded, Reading.holes]

mutual

/-- As many placeholders are read as values are bound. -/
theorem holes_reading : ∀ t : Term, (t.reading inline).holes = (t.params inline).length
  | .column name => by
    rw [params_column]
    rfl
  | .literal v => by
    rw [reading]
    rcases literal_cases inline v with ⟨hr, hp⟩ | ⟨⟨s, hr | hr⟩, hp, -⟩ <;> rw [hr, hp] <;> rfl
  | .binary c l r => by
    rw [params_binary, List.length_append, ← holes_reading l, ← holes_reading r]
    rfl
  | .isNull negated t => by
    rw [params_isNull, List.length_append, ← holes_reading t]
    rfl
  | .like t p => by
    rw [params_like, List.length_append, ← holes_reading t, ← holes_reading p]
    rfl
  | .equals t x => by
    rw [params_equals, List.length_append, ← holes_reading t, ← holes_reading x]
    rfl
  | .pattern leading trailing t => by
    rw [params_pattern, ← holes_reading t, reading, holes_surrounded]
  | .call name ts => by
    rw [params_call, ← allHoles_readings ts]
    rfl

theorem allHoles_readings : ∀ ts : List Term,
    Reading.allHoles (readings inline ts) = (ts.flatMap (params inline)).length
  | [] => rfl
  | t :: ts => by
    rw [List.flatMap_cons, List.length_append, ← holes_reading t, ← allHoles_readings ts]
    rfl

end

/-! ## The operands of each kind of term -/

variable {inline}

theorem take_params (t : Term) (vs : List Value) :
    (t.params inline ++ vs).take (t.reading inline).holes = t.params inline := by
  rw [holes_reading, List.take_left']
  rfl

theorem drop_params (t : Term) (vs : List Value) :
    (t.params inline ++ vs).drop (t.reading inline).holes = vs := by
  rw [holes_reading, List.drop_left']
  rfl

theorem compared_column (name : String) : (column name).compared inline = [] := by
  rw [compared, reading, Reading.compared]

theorem compared_literal (v : Value) : (literal v).compared inline = [] := by
  rw [compared, reading]
  rcases literal_cases inline v with ⟨hr, -⟩ | ⟨⟨s, hr | hr⟩, -, -⟩ <;>
    rw [hr, Reading.compared]

theorem compared_binary (c : Connective) (l r : Term) :
    (binary c l r).compared inline
      = l.operand inline ++ r.operand inline ++ (l.compared inline ++ r.compared inline) := by
  rw [compared, params_binary, reading, Reading.compared, take_params, drop_params]
  rfl

theorem compared_isNull (negated : Bool) (t : Term) :
    (isNull negated t).compared inline = t.compared inline := by
  rw [compared, params_isNull, reading, Reading.compared, take_params, drop_params,
    Reading.compared, List.append_nil]
  cases negated <;> rfl

theorem compared_like (t p : Term) :
    (like t p).compared inline = t.compared inline ++ p.compared inline := by
  rw [compared, params_like, reading, Reading.compared, take_params, drop_params]
  rfl

theorem compared_equals (t x : Term) :
    (equals t x).compared inline
      = t.operand inline ++ x.operand inline ++ (t.compared inline ++ x.compared inline) := by
  rw [compared, params_equals, reading, Reading.compared, take_params, drop_params,
    Reading.compared]
  rfl

theorem compared_surrounded (leading trailing : Bool) {r : Reading} {vs : List Value}
    (h : r.holes = vs.length) : (surrounded leading trailing r).compared vs = r.compared vs := by
  cases leading <;> cases trailing <;>
    simp [surrounded, Reading.compared, Reading.holes, Sign.isConnective, h]

theorem compared_pattern (leading trailing : Bool) (t : Term) :
    (pattern leading trailing t).compared inline = t.compared inline := by
  rw [compared, params_pattern, reading, compared_surrounded _ _ (holes_reading inline t)]
  rfl

theorem allCompared_readings : ∀ ts : List Term,
    Reading.allCompared (readings inline ts) (ts.flatMap (params inline))
      = ts.flatMap (compared inline)
  | [] => rfl
  | t :: ts => by
    rw [List.flatMap_cons, readings, Reading.allCompared, take_params, drop_params,
      allCompared_readings ts, List.flatMap_cons]
    rfl

theorem compared_call (name : String) (ts : List Term) :
    (call name ts).compared inline = ts.flatMap (compared inline) := by
  rw [compared, params_call, reading, Reading.compared, allCompared_readings]

/-- A null is brought to a connective by no term but itself. -/
theorem null_mem_operand (h : ∀ leading trailing x, t ≠ .pattern leading trailing x) :
    .null ∈ t.operand inline ↔ t = .literal .null := by
  cases t with
  | literal v =>
    rw [operand, reading]
    rcases literal_cases inline v with ⟨hr, hp⟩ | ⟨⟨s, hr | hr⟩, -, hv⟩
    · simp [hr, hp, Reading.operand, Reading.bare, eq_comm]
    · simp [hr, Reading.operand, Reading.bare, hv]
    · simp [hr, Reading.operand, Reading.bare, hv]
  | pattern leading trailing x => exact absurd rfl (h leading trailing x)
  | _ => simp [operand, reading, Reading.operand, Reading.bare]

theorem compared_of_surround {m : Method} {leading trailing : Bool} {x p : Term}
    (h : surround m leading trailing x = .ok p) : p.compared inline = x.compared inline := by
  rcases surround_cases h with ⟨v, s, rfl, -, rfl⟩ | ⟨-, rfl⟩
  · rw [compared_literal, compared_literal]
  · exact compared_pattern _ _ _

end Term

end Sql

end RecordMap
