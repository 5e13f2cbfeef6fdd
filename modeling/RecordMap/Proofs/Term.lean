import RecordMap.Proofs.Outcome
import RecordMap.Sql.Predicate

/-!
# Terms

The term of a filter is what the filter asks of the store, with all that can be settled beforehand
settled: fields are columns, captured and converted values are values, comparisons with null are
tests.  Its pieces are the SQL it stands for, with each literal still open.

Compiling a filter is writing its term (`compile_eq_lower`): whether literals stand in the text or
are bound is decided piece by piece, after the term is known.
-/

namespace RecordMap

open Sql

namespace Sql

inductive Term
  | column (name : String)
  | literal (v : Value)
  | binary (c : Connective) (left right : Term)
  | isNull (negated : Bool) (operand : Term)
  | like (target pattern : Term)
  | equals (target operand : Term)
  /-- A pattern put together by the store, with wildcards at its ends. -/
  | pattern (leading trailing : Bool) (inner : Term)
  | call (name : String) (arguments : List Term)

namespace Piece

/-- A bound value as a literal, if it has one. -/
def inlined : Piece → Piece
  | .text s => .text s
  | .bound v =>
    match literal? v with
    | some s => .text s
    | none => .bound v

def written (inline : Bool) (p : Piece) : Piece := if inline then p.inlined else p

@[simp] theorem written_text (inline : Bool) (s : String) :
    written inline (.text s) = .text s := by
  cases inline <;> rfl

@[simp] theorem written_null (inline : Bool) : written inline (.bound .null) = .bound .null := by
  cases inline <;> rfl

end Piece

namespace Term

def isNullLiteral : Term → Bool
  | .literal .null => true
  | _ => false

/-- The pieces of `a`, the text `middle` and the pieces of `b`, in brackets. -/
def bracketed (a : List Piece) (middle : String) (b : List Piece) : List Piece :=
  .text "(" :: a ++ .text middle :: b ++ [.text ")"]

def withWildcards (leading trailing : Bool) (inner : List Piece) : List Piece :=
  .text "(" :: (if leading then [.text "'%' || "] else []) ++ inner ++
    (if trailing then [.text " || '%'"] else []) ++ [.text ")"]

mutual

/-- The text of a term, with all of its literals bound. -/
def pieces : Term → List Piece
  | .column name => [.text (identifier name)]
  | .literal v => [.bound v]
  | .binary c l r => bracketed (pieces l) (" " ++ c.sign ++ " ") (pieces r)
  | .isNull negated x =>
    bracketed (pieces x) (if negated then " is not " else " is ") [.bound .null]
  | .like t p => bracketed (pieces t) " LIKE " (pieces p)
  | .equals t x => bracketed (pieces t) " = " (.text "(" :: pieces x ++ [.text ")"])
  | .pattern leading trailing x => withWildcards leading trailing (pieces x)
  | .call name arguments =>
    .text (Text.lowercase name ++ "(") :: Piece.separated ", " (argumentPieces arguments) ++
      [.text ")"]

def argumentPieces : List Term → List (List Piece)
  | [] => []
  | t :: ts => pieces t :: argumentPieces ts

end

/-- The pieces of a term, its literals written into the text or bound. -/
def emission (inline : Bool) (t : Term) : List Piece := t.pieces.map (Piece.written inline)

/-- A value is left for what stands above it to write. -/
def fragment (inline : Bool) : Term → Fragment
  | .literal v => .value v
  | t => .sql (Query.ofPieces (t.emission inline))

/-- The test that an equality with null stands for. -/
def compareNull (c : Connective) (other : Term) : Outcome Term :=
  match c with
  | .eq => .ok (.isNull false other)
  | .ne => .ok (.isNull true other)
  | c => Outcome.fail (.nullComparison c.sign)

def compare (c : Connective) (left right : Term) : Outcome Term :=
  if left.isNullLiteral then compareNull c right
  else if right.isNullLiteral then compareNull c left
  else .ok (.binary c left right)

def surround (m : Method) (leading trailing : Bool) (argument : Term) : Outcome Term :=
  match argument with
  | .literal .null => Outcome.fail (.filter (.nullPattern m.name))
  | .literal v =>
    match Fragment.patternText? v with
    | some s =>
      .ok (.literal (.text
        ((if leading then "%" else "") ++ s ++ (if trailing then "%" else ""))))
    | none => Outcome.fail (.filter (.unmatchable m.name v))
  | t => .ok (.pattern leading trailing t)

def applyMethod (m : Method) (target argument : Term) : Outcome Term :=
  match m with
  | .like => .ok (.like target argument)
  | .equals => .ok (.equals target argument)
  | .contains => (surround m true true argument).map (.like target)
  | .startsWith => (surround m false true argument).map (.like target)
  | .endsWith => (surround m true false argument).map (.like target)

def apply (name : String) : List Term → Outcome Term
  | [] => .ok (.call name [])
  | target :: rest =>
    match Method.ofName? name with
    | none => .ok (.call name (target :: rest))
    | some m =>
      match rest with
      | [argument] => applyMethod m target argument
      | _ => Outcome.fail (.filter (.argumentCount name rest.length))

def capture (name : String) : Term → Outcome Term
  | .literal v => .ok (.literal v)
  | _ => Outcome.fail (.filter (.capturedNonValue name))

def convert (t : Term) (ty : FieldType) : Outcome Term :=
  match t with
  | .literal v => (v.convert ty).map .literal
  | t => .ok t

end Term

end Sql

namespace Filter

mutual

def lower (m : Model) : Filter → Outcome Term
  | .value v => .ok (.literal v)
  | .field name => (m.storedName name).map .column
  | .binary (.arithmetic a) _ _ => Outcome.fail (.unsupportedOperator a.sign)
  | .binary (.connective c) l r => do
    let l ← lower m l
    let r ← lower m r
    Term.compare c l r
  | .captured name inner => do
    let t ← lower m inner
    Term.capture name t
  | .convert inner ty => do
    let t ← lower m inner
    t.convert ty
  | .method receiver name arguments => do
    let t ← lower m receiver
    let ts ← lowerAll m arguments
    Term.apply name (t :: ts)
  | .function name arguments => do
    let ts ← lowerAll m arguments
    Term.apply name ts

def lowerAll (m : Model) : List Filter → Outcome (List Term)
  | [] => .ok []
  | f :: fs => do
    let t ← lower m f
    let ts ← lowerAll m fs
    return t :: ts

end

end Filter

namespace Sql.Query

theorem ofPieces_append (ps qs : List Piece) :
    ofPieces (ps ++ qs) = (ofPieces ps).append (ofPieces qs) := by
  induction ps with
  | nil => simp [ofPieces, empty, append]
  | cons p ps ih => cases p <;> simp [ofPieces, ih, append, String.append_assoc]

theorem binary_ofPieces (sign : String) (a b : List Piece) :
    binary sign (ofPieces a) (ofPieces b)
      = ofPieces (Term.bracketed a (" " ++ sign ++ " ") b) := by
  simp [Term.bracketed, ofPieces, ofPieces_append, append, binary, empty, String.append_assoc]

theorem isNull_ofPieces (negated : Bool) (a : List Piece) :
    (ofPieces a).isNull negated
      = ofPieces (Term.bracketed a (if negated then " is not " else " is ") [.bound .null]) := by
  have h : bound .null = ofPieces [.bound .null] := by simp [bound, ofPieces, empty]
  rw [isNull, h, binary_ofPieces]
  cases negated <;> rfl

theorem equals_ofPieces (a b : List Piece) :
    equals (ofPieces a) (ofPieces b)
      = ofPieces (Term.bracketed a " = " (.text "(" :: b ++ [.text ")"])) := by
  have h1 : ∀ s : String, " = (" ++ s = " = " ++ ("(" ++ s) := fun s => by
    rw [← String.append_assoc]
    rfl
  have h2 : ("))" : String) = ")" ++ ")" := rfl
  simp [Term.bracketed, ofPieces, ofPieces_append, append, equals, empty, String.append_assoc, h1,
    h2]

theorem pattern_ofPieces (leading trailing : Bool) (a : List Piece) :
    (ofPieces a).pattern leading trailing
      = ofPieces (Term.withWildcards leading trailing a) := by
  have h1 : ("'%' || " : String) = wildcard ++ " || " := rfl
  have h2 : (" || '%'" : String) = " || " ++ wildcard := rfl
  cases leading <;> cases trailing <;>
    simp [Term.withWildcards, ofPieces, ofPieces_append, append, pattern, empty,
      String.append_assoc, h1, h2]

theorem text_separated (separator : String) :
    ∀ pss : List (List Piece), (ofPieces (Piece.separated separator pss)).text
      = String.intercalate separator (pss.map fun ps => (ofPieces ps).text)
  | [] => by simp [Piece.separated, ofPieces, empty]
  | [ps] => by simp [Piece.separated]
  | ps :: qs :: rest => by
    have ih := text_separated separator (qs :: rest)
    simp only [List.map_cons] at ih
    simp [Piece.separated, ofPieces, ofPieces_append, append, ih, String.append_assoc]

theorem params_separated (separator : String) :
    ∀ pss : List (List Piece), (ofPieces (Piece.separated separator pss)).params
      = pss.flatMap fun ps => (ofPieces ps).params
  | [] => by simp [Piece.separated, ofPieces, empty]
  | [ps] => by simp [Piece.separated]
  | ps :: qs :: rest => by
    have ih := params_separated separator (qs :: rest)
    simp only [List.flatMap_cons] at ih
    simp [Piece.separated, ofPieces, ofPieces_append, append, ih]

theorem call_ofPieces (name : String) (pss : List (List Piece)) :
    call name (pss.map ofPieces)
      = ofPieces (.text (Text.lowercase name ++ "(") :: Piece.separated ", " pss ++
          [.text ")"]) := by
  simp [call, ofPieces, ofPieces_append, append, empty, text_separated, params_separated,
    String.append_assoc, Function.comp_def, List.flatMap_map]

end Sql.Query

namespace Sql.Term

variable (inline : Bool)

theorem map_separated (g : Piece → Piece) {separator : String}
    (h : g (.text separator) = .text separator) :
    ∀ pss : List (List Piece), (Piece.separated separator pss).map g
      = Piece.separated separator (pss.map (List.map g))
  | [] => rfl
  | [_] => rfl
  | ps :: qs :: rest => by
    have ih := map_separated g h (qs :: rest)
    simp only [List.map_cons] at ih
    simp [Piece.separated, ih, h]

theorem argumentPieces_eq_map : ∀ ts : List Term, argumentPieces ts = ts.map pieces
  | [] => rfl
  | t :: ts => by rw [argumentPieces, argumentPieces_eq_map ts, List.map_cons]

@[simp] theorem emission_column (name : String) :
    (column name).emission inline = [.text (identifier name)] := by
  simp [emission, pieces]

@[simp] theorem emission_literal (v : Value) :
    (literal v).emission inline = [(Piece.bound v).written inline] := rfl

@[simp] theorem emission_binary (c : Connective) (l r : Term) :
    (binary c l r).emission inline
      = bracketed (l.emission inline) (" " ++ c.sign ++ " ") (r.emission inline) := by
  simp [emission, pieces, bracketed]

@[simp] theorem emission_isNull (negated : Bool) (t : Term) :
    (isNull negated t).emission inline
      = bracketed (t.emission inline) (if negated then " is not " else " is ")
        [.bound .null] := by
  simp [emission, pieces, bracketed]

@[simp] theorem emission_like (t p : Term) :
    (like t p).emission inline = bracketed (t.emission inline) " LIKE " (p.emission inline) := by
  simp [emission, pieces, bracketed]

@[simp] theorem emission_equals (t x : Term) :
    (equals t x).emission inline
      = bracketed (t.emission inline) " = " (.text "(" :: x.emission inline ++ [.text ")"]) := by
  simp [emission, pieces, bracketed]

@[simp] theorem emission_pattern (leading trailing : Bool) (t : Term) :
    (pattern leading trailing t).emission inline
      = withWildcards leading trailing (t.emission inline) := by
  cases leading <;> cases trailing <;> simp [emission, pieces, withWildcards]

@[simp] theorem emission_call (name : String) (ts : List Term) :
    (call name ts).emission inline
      = .text (Text.lowercase name ++ "(") :: Piece.separated ", " (ts.map (emission inline)) ++
        [.text ")"] := by
  have h : ts.map (emission inline)
      = (argumentPieces ts).map (List.map (Piece.written inline)) := by
    rw [argumentPieces_eq_map, List.map_map]
    rfl
  rw [h, ← map_separated _ (Piece.written_text inline _)]
  simp [emission, pieces]

theorem render_fragment (t : Term) :
    (t.fragment inline).render inline = Query.ofPieces (t.emission inline) := by
  cases t with
  | literal v =>
    cases inline
    · simp [fragment, Fragment.render, Piece.written, Query.ofPieces, Query.bound, Query.empty]
    · simp only [fragment, Fragment.render, emission_literal, Piece.written, ↓reduceIte,
        Piece.inlined]
      cases literal? v <;> simp [Query.ofPieces, Query.bound, Query.empty]
  | _ => rfl

theorem isNull_fragment (t : Term) : (t.fragment inline).isNull = t.isNullLiteral := by
  cases t with
  | literal v => cases v <;> rfl
  | _ => rfl

theorem compareNull_fragment (c : Connective) (t : Term) :
    Fragment.compareNull inline c (t.fragment inline)
      = (compareNull c t).map (fragment inline) := by
  have h : ∀ negated, Fragment.sql (((t.fragment inline).render inline).isNull negated)
      = (isNull negated t).fragment inline := by
    intro negated
    rw [render_fragment, Query.isNull_ofPieces, fragment, emission_isNull]
    simp
  cases c with
  | eq => exact congrArg Except.ok (h false)
  | ne => exact congrArg Except.ok (h true)
  | _ => rfl

theorem compare_fragment (c : Connective) (l r : Term) :
    Fragment.compare inline c (l.fragment inline) (r.fragment inline)
      = (compare c l r).map (fragment inline) := by
  simp only [Fragment.compare, compare, isNull_fragment]
  split_ifs
  · exact compareNull_fragment inline c r
  · exact compareNull_fragment inline c l
  · rw [render_fragment, render_fragment, Query.binary_ofPieces, ← emission_binary]
    rfl

theorem like_fragment (t p : Term) :
    Fragment.like inline (t.fragment inline) (p.fragment inline)
      = (like t p).fragment inline := by
  rw [Fragment.like, render_fragment, render_fragment, Query.binary_ofPieces, fragment,
    emission_like]
  · rfl
  · simp

theorem surround_fragment (m : Method) (leading trailing : Bool) (t : Term) :
    Fragment.surround m leading trailing (t.fragment inline)
      = (surround m leading trailing t).map (fragment inline) := by
  have hsql : ∀ ps : List Piece,
      Fragment.sql ((Query.ofPieces ps).pattern leading trailing)
        = .sql (Query.ofPieces (withWildcards leading trailing ps)) := by
    intro ps
    rw [Query.pattern_ofPieces]
  cases t with
  | literal v =>
    have hv : v = .null ∨ v ≠ .null := Decidable.em _
    rcases hv with rfl | hv
    · rfl
    · simp only [fragment, Fragment.surround, surround]
      cases Fragment.patternText? v <;> rfl
  | _ =>
    simp only [fragment, Fragment.surround, surround, hsql, ← emission_pattern]
    rfl

theorem applyMethod_fragment (m : Method) (t x : Term) :
    Fragment.applyMethod inline m (t.fragment inline) (x.fragment inline)
      = (applyMethod m t x).map (fragment inline) := by
  have hlike : ∀ o : Outcome Term,
      (o.map (fragment inline)).map (Fragment.like inline (t.fragment inline))
        = (o.map (like t)).map (fragment inline) := by
    rintro (e | p)
    · rfl
    · exact congrArg Except.ok (like_fragment inline t p)
  cases m with
  | like => exact congrArg Except.ok (like_fragment inline t x)
  | equals =>
    simp only [Fragment.applyMethod, applyMethod, render_fragment, Query.equals_ofPieces,
      ← emission_equals]
    rfl
  | _ => simp only [Fragment.applyMethod, applyMethod, surround_fragment, hlike]

theorem call_fragment (name : String) (ts : List Term) :
    Fragment.call inline name (ts.map (fragment inline)) = (call name ts).fragment inline := by
  have h : (ts.map (fragment inline)).map (Fragment.render inline)
      = (ts.map (emission inline)).map Query.ofPieces := by
    simp only [List.map_map]
    exact List.map_congr_left fun t _ => render_fragment inline t
  rw [Fragment.call, h, Query.call_ofPieces, ← emission_call]
  rfl

theorem apply_fragment (name : String) (ts : List Term) :
    Fragment.apply inline name (ts.map (fragment inline))
      = (apply name ts).map (fragment inline) := by
  cases ts with
  | nil => exact congrArg Except.ok (call_fragment inline name [])
  | cons t rest =>
    simp only [List.map_cons, Fragment.apply, apply]
    rcases Method.ofName? name with _ | m
    · exact congrArg Except.ok (call_fragment inline name (t :: rest))
    · rcases rest with _ | ⟨x, _ | ⟨y, more⟩⟩
      · rfl
      · exact applyMethod_fragment inline m t x
      · simp only [List.map_cons, List.length_cons, List.length_map]
        rfl

theorem capture_fragment (name : String) (t : Term) :
    Fragment.capture name (t.fragment inline) = (capture name t).map (fragment inline) := by
  cases t <;> rfl

theorem convert_fragment (t : Term) (ty : FieldType) :
    (t.fragment inline).convert ty = (t.convert ty).map (fragment inline) := by
  cases t with
  | literal v =>
    simp only [fragment, Fragment.convert, convert]
    cases v.convert ty <;> rfl
  | _ => rfl

end Sql.Term

namespace Filter

mutual

/-- Compiling a filter is writing its term. -/
theorem compile_eq_lower (m : Model) (inline : Bool) : ∀ f : Filter,
    f.compile m inline = (f.lower m).map (Term.fragment inline)
  | .value v => rfl
  | .field name => by
    simp only [compile, lower]
    cases m.storedName name with
    | error e => rfl
    | ok c => simp [Except.map, Term.fragment, Query.ofPieces, Query.empty]
  | .binary (.arithmetic a) _ _ => rfl
  | .binary (.connective c) l r => by
    simp only [compile, lower, compile_eq_lower m inline l, compile_eq_lower m inline r]
    rcases l.lower m with e | l
    · rfl
    rcases r.lower m with e | r
    · rfl
    exact Term.compare_fragment inline c l r
  | .captured name inner => by
    simp only [compile, lower, compile_eq_lower m inline inner]
    rcases inner.lower m with e | t
    · rfl
    exact Term.capture_fragment inline name t
  | .convert inner ty => by
    simp only [compile, lower, compile_eq_lower m inline inner]
    rcases inner.lower m with e | t
    · rfl
    exact Term.convert_fragment inline t ty
  | .method receiver name arguments => by
    simp only [compile, lower, compile_eq_lower m inline receiver,
      compileAll_eq_lowerAll m inline arguments]
    rcases receiver.lower m with e | t
    · rfl
    rcases lowerAll m arguments with e | ts
    · rfl
    exact Term.apply_fragment inline name (t :: ts)
  | .function name arguments => by
    simp only [compile, lower, compileAll_eq_lowerAll m inline arguments]
    rcases lowerAll m arguments with e | ts
    · rfl
    exact Term.apply_fragment inline name ts

theorem compileAll_eq_lowerAll (m : Model) (inline : Bool) : ∀ fs : List Filter,
    compileAll m inline fs = (lowerAll m fs).map (List.map (Term.fragment inline))
  | [] => rfl
  | f :: fs => by
    simp only [compileAll, lowerAll, compile_eq_lower m inline f,
      compileAll_eq_lowerAll m inline fs]
    rcases f.lower m with e | t
    · rfl
    rcases lowerAll m fs with e | ts <;> rfl

end

end Filter

/-- A condition is its filter's term, piece by piece. -/
theorem Model.predicate_eq_lower (m : Model) (inline : Bool) (f : Filter) :
    m.predicate inline f = (f.lower m).map fun t => Query.ofPieces (t.emission inline) := by
  rw [Model.predicate, Filter.compile_eq_lower]
  rcases f.lower m with e | t
  · rfl
  · exact congrArg Except.ok (Term.render_fragment inline t)

end RecordMap
