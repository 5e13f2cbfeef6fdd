import RecordMap.Proofs.Placeholders

/-!
# Literals in the text

A filter can be compiled with its literals in the text or with all of them bound.  The two differ in
nothing but that: they fail together, and with the same fault, and filling in the placeholders of
the one gives the other (`inlined_ofPieces`).

Filling in goes by the text alone.  It finds the placeholders as a store finds them, so no term is
needed to tell where a literal belongs.
-/

namespace RecordMap

open Sql

namespace Sql

/-- The marked characters with the literals of the values for the placeholders.  A placeholder
whose value has no literal stays. -/
def filled : List (Char × Bool) → List Value → List Char
  | [], _ => []
  | (c, false) :: ms, vs => c :: filled ms vs
  | (c, true) :: ms, [] => c :: filled ms []
  | (c, true) :: ms, v :: vs => ((literal? v).map String.toList).getD [c] ++ filled ms vs

/-- The query with literals for the placeholders of the values that have one. -/
def Query.inlined (q : Query) : Query where
  text := String.ofList (filled (Region.marked .outside q.text.toList) q.params)
  params := q.params.filter fun v => (literal? v).isNone

theorem filled_append (ms : List (Char × Bool)) (vs : List Value) :
    ∀ cs : List Char, filled (cs.map (·, false) ++ ms) vs = cs ++ filled ms vs
  | [] => rfl
  | c :: cs => by
    rw [List.map_cons, List.cons_append, filled, filled_append ms vs cs, List.cons_append]

theorem filled_marked : ∀ ps : List Piece,
    filled (Piece.marked ps) (Query.ofPieces ps).params
      = (Query.ofPieces (ps.map Piece.inlined)).text.toList
  | [] => rfl
  | .text s :: ps => by
    rw [Piece.marked, Query.ofPieces, filled_append, filled_marked ps, List.map_cons,
      Piece.inlined, Query.ofPieces, String.toList_append]
  | .bound v :: ps => by
    rw [Piece.marked, Query.ofPieces, filled, filled_marked ps, List.map_cons, Piece.inlined]
    rcases literal? v with _ | s
    · rw [Query.ofPieces, String.toList_append]
      rfl
    · rw [Query.ofPieces, String.toList_append]
      rfl

theorem params_inlined : ∀ ps : List Piece,
    (Query.ofPieces (ps.map Piece.inlined)).params
      = (Query.ofPieces ps).params.filter fun v => (literal? v).isNone
  | [] => rfl
  | .text s :: ps => by
    rw [List.map_cons, Piece.inlined, Query.ofPieces, params_inlined ps, Query.ofPieces]
  | .bound v :: ps => by
    have ih := params_inlined ps
    rw [List.map_cons, Piece.inlined, Query.ofPieces.eq_3, List.filter_cons]
    rcases literal? v with _ | s
    · rw [Query.ofPieces, ih]
      rfl
    · rw [Query.ofPieces, ih]
      rfl

/-- Filling in a query is inlining its pieces. -/
theorem inlined_ofPieces {ps : List Piece} (h : Piece.AllClosed ps) :
    (Query.ofPieces ps).inlined = Query.ofPieces (ps.map Piece.inlined) := by
  rw [Query.inlined, marked_ofPieces h, filled_marked, ← params_inlined, String.ofList_toList]

theorem Term.emission_true (t : Term) :
    t.emission true = (t.emission false).map Piece.inlined := by
  simp [emission, Piece.written]

end Sql

/-- With its literals in the text a filter compiles to the query with all of them bound, filled in;
and it fails as that does. -/
theorem predicate_inlined (m : Model) (f : Filter) (hf : f.callsHave hasNoMark = true) :
    m.predicate true f = (m.predicate false f).map Query.inlined := by
  rw [Model.predicate_eq_lower, Model.predicate_eq_lower]
  rcases ht : f.lower m with e | t
  · rfl
  · refine congrArg Except.ok ?_
    show Query.ofPieces (t.emission true) = (Query.ofPieces (t.emission false)).inlined
    rw [inlined_ofPieces (Filter.closed_of_lower ht hf false), Term.emission_true]

theorem predicate_inlined_notes :
    notes.predicate false noteFilter = .ok noteQuery ∧
    notes.predicate true noteFilter = .ok noteQuery.inlined ∧
    noteQuery.inlined.params = [.null] := by
  have hq : notes.predicate false noteFilter = .ok noteQuery := by decide +kernel
  refine ⟨hq, ?_, by decide +kernel⟩
  rw [predicate_inlined notes noteFilter (by decide +kernel), hq]
  rfl

end RecordMap
