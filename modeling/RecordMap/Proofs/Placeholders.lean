import RecordMap.Proofs.Regions
import RecordMap.Sql.Generate

/-!
# Placeholders

A store reads a statement from left to right and gives the first value to the first placeholder, the
second to the second, and so on.  The places where it finds placeholders are those where the pieces
of the statement bind values, in the same order (`aligned_ofPieces`), so each value comes to the
place it was bound for.

That holds of every statement that binds values (`aligned_sent`): nothing that is written into
the text, be it a name, a literal or a pattern, can add a placeholder or hide one.
-/

namespace RecordMap

open Sql

namespace Sql

/-- The places of the marked characters, if the first character stands at place `i`. -/
def marksFrom : Nat → List (Char × Bool) → List Nat
  | _, [] => []
  | i, (_, true) :: ms => i :: marksFrom (i + 1) ms
  | i, (_, false) :: ms => marksFrom (i + 1) ms

/-- The places of the placeholders of a text, from left to right. -/
def placeholders (text : String) : List Nat := marksFrom 0 (Region.marked .outside text.toList)

/-- The bound values with the places of their placeholders, if the pieces start at place `i`. -/
def Piece.placedFrom : Nat → List Piece → List (Nat × Value)
  | _, [] => []
  | i, .text s :: ps => placedFrom (i + s.toList.length) ps
  | i, .bound v :: ps => (i, v) :: placedFrom (i + 1) ps

/-- A query that has the text of the pieces, and a placeholder for each of its values where, and in
the order in which, the pieces bind them. -/
structure Query.Aligned (q : Query) (ps : List Piece) : Prop where
  text : q.text = (Query.ofPieces ps).text
  count : (placeholders q.text).length = q.params.length
  order : (placeholders q.text).zip q.params = Piece.placedFrom 0 ps

theorem marksFrom_append (ms : List (Char × Bool)) :
    ∀ (cs : List Char) (i : Nat),
      marksFrom i (cs.map (·, false) ++ ms) = marksFrom (i + cs.length) ms
  | [], _ => rfl
  | c :: cs, i => by
    rw [List.map_cons, List.cons_append, marksFrom, marksFrom_append ms cs, List.length_cons]
    congr 1
    omega

theorem marksFrom_marked : ∀ (ps : List Piece) (i : Nat),
    marksFrom i (Piece.marked ps) = (Piece.placedFrom i ps).map Prod.fst
  | [], _ => rfl
  | .text s :: ps, i => by
    rw [Piece.marked, marksFrom_append, marksFrom_marked ps, Piece.placedFrom]
  | .bound v :: ps, i => by
    rw [Piece.marked, marksFrom, marksFrom_marked ps, Piece.placedFrom, List.map_cons]

theorem params_ofPieces : ∀ (ps : List Piece) (i : Nat),
    (Query.ofPieces ps).params = (Piece.placedFrom i ps).map Prod.snd
  | [], _ => rfl
  | .text s :: ps, i => by rw [Query.ofPieces, params_ofPieces ps, Piece.placedFrom]
  | .bound v :: ps, i => by
    rw [Query.ofPieces, params_ofPieces ps (i + 1), Piece.placedFrom, List.map_cons]

theorem aligned_ofPieces {ps : List Piece} (h : Piece.AllClosed ps) :
    (Query.ofPieces ps).Aligned ps := by
  have hplaces : placeholders (Query.ofPieces ps).text = (Piece.placedFrom 0 ps).map Prod.fst := by
    rw [placeholders, marked_ofPieces h, marksFrom_marked]
  have hparams := params_ofPieces ps 0
  refine ⟨rfl, ?_, ?_⟩
  · rw [hplaces, hparams, List.length_map, List.length_map]
  · rw [hplaces, hparams, List.zip_map', List.map_id'']
    exact fun _ => rfl

theorem closed_intercalate {separator : String} (hs : Closed separator.toList) :
    ∀ {ss : List String}, (∀ s ∈ ss, Closed s.toList) →
      Closed (String.intercalate separator ss).toList
  | [], _ => Closed.nil
  | [s], h => by simpa using h
  | s :: r :: rest, h => by
    have ih := closed_intercalate hs (fun x hx => h x (List.mem_cons_of_mem _ hx))
    rw [String.intercalate_cons_cons, String.toList_append, String.toList_append]
    exact ((h s List.mem_cons_self).append hs).append ih

namespace Statement

/-- The pieces of a statement as it is sent, where those of its condition are `condition`. -/
def sent (framed : Bool) (s : Statement) (condition : List Piece) : List Piece :=
  .text (if framed then "BEGIN TRANSACTION;\n" else "") :: s.pieces ++ condition ++
    [.text (if framed then ";\nEND TRANSACTION;" else ";")]

theorem serialize_eq {framed : Bool} {s : Statement} {condition : List Piece}
    (h : s.condition = Query.ofPieces condition) :
    s.serialize framed = Query.ofPieces (s.sent framed condition) := by
  have hb : s.body = Query.ofPieces (s.pieces ++ condition) := by
    rw [body, h, Query.ofPieces_append]
  cases framed <;>
    simp [serialize, hb, sent, Query.ofPieces, Query.ofPieces_append, Query.append, Query.between,
      Query.empty, String.append_assoc]

theorem allClosed_sent {framed : Bool} {s : Statement} {condition : List Piece}
    (hs : Piece.AllClosed s.pieces) (hc : Piece.AllClosed condition) :
    Piece.AllClosed (s.sent framed condition) := by
  refine Piece.AllClosed.append (Piece.allClosed_text ?_ (hs.append hc))
    (Piece.allClosed_text ?_ Piece.allClosed_nil)
  · cases framed <;> exact closed_of_hasNoMark rfl
  · cases framed <;> exact closed_of_hasNoMark rfl

theorem allClosed_assignment (a : String × Value) : Piece.AllClosed (assignment a) := by
  refine Piece.allClosed_text ?_ (Piece.allClosed_bound Piece.allClosed_nil)
  rw [String.toList_append]
  exact (closed_identifier a.1).append (closed_of_hasNoMark rfl)

/-- The statements that bind values: all but those that make and drop a table. -/
def bindsValues : Statement → Bool
  | .createTable _ _ | .dropTable _ _ => false
  | _ => true

theorem closed_around {front back : String} (name : String) (hf : hasNoMark front = true)
    (hb : hasNoMark back = true) : Closed (front ++ identifier name ++ back).toList := by
  rw [String.toList_append, String.toList_append]
  exact ((closed_of_hasNoMark hf).append (closed_identifier name)).append (closed_of_hasNoMark hb)

theorem closed_columns (columns : List String) :
    Closed (String.intercalate ", " (columns.map identifier)).toList := by
  refine closed_intercalate (closed_of_hasNoMark rfl) fun s hs => ?_
  obtain ⟨c, -, rfl⟩ := List.mem_map.1 hs
  exact closed_identifier c

theorem allClosed_pieces {s : Statement} (h : s.bindsValues = true) :
    Piece.AllClosed s.pieces := by
  have hmark : ∀ {r : String}, hasNoMark r = true → Closed r.toList := closed_of_hasNoMark
  have hone : ∀ {r : String}, Closed r.toList → Piece.AllClosed [.text r] := fun hr =>
    Piece.allClosed_text hr Piece.allClosed_nil
  cases s with
  | createTable table columns => cases h
  | dropTable table ifExists => cases h
  | insert table columns values =>
    rw [pieces]
    split_ifs
    · exact hone (closed_around table rfl rfl)
    · refine Piece.AllClosed.append (Piece.allClosed_text ?_
        (Piece.allClosed_separated (hmark rfl) fun ps hps => ?_)) (hone (hmark rfl))
      · have hfront : Closed ("INSERT INTO " ++ identifier table ++ " (").toList :=
          closed_around table rfl rfl
        rw [String.toList_append, String.toList_append]
        exact (hfront.append (closed_columns columns)).append (hmark rfl)
      · obtain ⟨v, -, rfl⟩ := List.mem_map.1 hps
        exact Piece.allClosed_bound Piece.allClosed_nil
  | update table assignments key =>
    refine Piece.AllClosed.append (Piece.allClosed_text (closed_around table rfl rfl)
      (Piece.allClosed_separated (hmark rfl) fun ps hps => ?_))
      (Piece.allClosed_text (hmark rfl) (allClosed_assignment key))
    obtain ⟨a, -, rfl⟩ := List.mem_map.1 hps
    exact allClosed_assignment a
  | delete table key =>
    exact Piece.allClosed_text (closed_around table rfl rfl) (allClosed_assignment key)
  | select table filter =>
    cases filter with
    | none =>
      refine hone ?_
      rw [String.toList_append]
      exact (hmark rfl).append (closed_identifier table)
    | some q => exact hone (closed_around table rfl rfl)

/-- A statement is aligned with its own pieces and those of its condition. -/
theorem aligned_sent {framed : Bool} {s : Statement} {condition : List Piece}
    (hs : s.bindsValues = true) (hq : s.condition = Query.ofPieces condition)
    (hc : Piece.AllClosed condition) :
    (s.serialize framed).Aligned (s.sent framed condition) := by
  rw [serialize_eq hq]
  exact aligned_ofPieces (allClosed_sent (allClosed_pieces hs) hc)

end Statement

end Sql

/-- In every statement of a model the placeholders stand where the values were bound, in the order
of the values. -/
theorem aligned_serialize (m : Model) (inline framed : Bool) :
    (∀ (f : Filter) (q : Query), f.callsHave hasNoMark = true → m.predicate inline f = .ok q →
      ∃ t, f.lower m = .ok t ∧ ((m.selectWhere q).serialize framed).Aligned
        ((m.selectWhere q).sent framed (t.emission inline))) ∧
    (∀ (record : Record) (s : Statement),
      m.insert record = .ok s ∨ m.update record = .ok s ∨ m.delete record = .ok s →
      (s.serialize framed).Aligned (s.sent framed [])) := by
  constructor
  · intro f q hf hq
    rw [Model.predicate_eq_lower] at hq
    rcases ht : f.lower m with e | t <;> rw [ht] at hq
    · cases hq
    refine ⟨t, rfl, Statement.aligned_sent rfl ?_ (Filter.closed_of_lower ht hf inline)⟩
    exact (Except.ok.inj hq).symm
  · intro record s hs
    have hnone : s.bindsValues = true ∧ s.condition = Query.ofPieces [] := by
      rcases hs with hs | hs | hs
      · obtain ⟨_, -, hs⟩ := Outcome.bind_eq_ok hs
        obtain ⟨pairs, -, hs⟩ := Outcome.bind_eq_ok hs
        rw [← Except.ok.inj hs]
        exact ⟨rfl, rfl⟩
      · obtain ⟨key, -, hs⟩ := Outcome.bind_eq_ok hs
        obtain ⟨pairs, -, hs⟩ := Outcome.bind_eq_ok hs
        split_ifs at hs
        · cases hs
        · rw [← Except.ok.inj hs]
          exact ⟨rfl, rfl⟩
      · obtain ⟨key, -, hs⟩ := Outcome.bind_eq_ok hs
        rw [← Except.ok.inj hs]
        exact ⟨rfl, rfl⟩
    exact Statement.aligned_sent hnone.1 hnone.2 Piece.allClosed_nil

/-- Notes with a key and a title whose column has a quote and a question mark in its name. -/
def noteDeclaration : Declaration where
  name := "Note"
  table := some "notes"
  fields := [
    ⟨"id", .int .int64, none, some keyWords, none, none, false, none⟩,
    ⟨"title", .text, some "what\x22?", none, none, none, false, none⟩]

def notes : Model where
  name := "Note"
  table := "notes"
  columns := [
    ⟨0, "id", "id", .int .int64, some .bigInt, some keyWords, none, none⟩,
    ⟨1, "title", "what\x22?", .text, some (.varChar none), none, none, none⟩]
  key := ⟨0, "id", "id", .int .int64, some .bigInt, some keyWords, none, none⟩

/-- The notes without a title, or whose title has in it what the store looks up under `?`. -/
def noteFilter : Filter :=
  .compare .or (.compare .eq .null (.field "title"))
    (.method (.field "title") "Contains" [.function "lookup" [.value (.text "?")]])

def noteQuery : Query where
  text := "((\x22what\x22\x22?\x22 is ?) or " ++
    "(\x22what\x22\x22?\x22 LIKE ('%' || lookup(?) || '%')))"
  params := [.null, .text "?"]

def noteUpdate : Statement :=
  .update "notes" [("what\x22?", .text "why?")] ("id", .int .int64 ⟨7, by decide⟩)

theorem aligned_serialize_notes :
    noteDeclaration.build = .ok notes ∧
    placeholders ((notes.selectWhere noteQuery).serialize false).text = [41, 78] ∧
    (∃ t, noteFilter.lower notes = .ok t ∧
      ((notes.selectWhere noteQuery).serialize false).Aligned
        ((notes.selectWhere noteQuery).sent false (t.emission false))) ∧
    (noteUpdate.serialize false).Aligned (noteUpdate.sent false []) := by
  have h := aligned_serialize notes false false
  refine ⟨by decide +kernel, by decide +kernel, ?_, ?_⟩
  · exact h.1 noteFilter noteQuery (by decide +kernel) (by decide +kernel)
  · exact h.2 [.int .int64 ⟨7, by decide⟩, .text "why?"] noteUpdate
      (.inr (.inl (by decide +kernel)))

end RecordMap
