import RecordMap.Proofs.Accepted
import RecordMap.Proofs.Delimiters

/-!
# Statements from their texts

A statement of a model is all that its text and its parameters can stand for (`serialize_inj`): no
name of a table or a column, whatever is in it, makes one statement read as another.

The words in front of the table show what the statement does (`Verb.words_inj`); the table, and the
columns behind it, are delimited.
-/

namespace RecordMap

open Sql

namespace Sql

section Verbs

/-- What a statement does, by the words in front of the name of its table. -/
inductive Verb
  | create
  | drop (ifExists : Bool)
  | insert
  | update
  | delete
  | select
  deriving DecidableEq

def Verb.words : Verb → String
  | .create => "CREATE TABLE IF NOT EXISTS "
  | .drop false => "DROP TABLE "
  | .drop true => "DROP TABLE IF EXISTS "
  | .insert => "INSERT INTO "
  | .update => "UPDATE "
  | .delete => "DELETE FROM "
  | .select => "SELECT * FROM "

/-- The words of a statement show what it does: no table has a name that is written as `IF`. -/
theorem Verb.words_inj {v w : Verb} {s t : String} {x y : List Char} (hx : Breaks x)
    (hy : Breaks y) (h : v.words.toList ++ ((identifier s).toList ++ x)
      = w.words.toList ++ ((identifier t).toList ++ y)) : v = w := by
  have hif : ∀ {name : String} {z r : List Char}, Breaks z →
      (identifier name).toList ++ z ≠ 'I' :: 'F' :: ' ' :: r := fun hz =>
    identifier_ne_keyword "IF" rfl (by decide) hz (breaks_blank _)
  rcases v with _ | (_ | _) | _ | _ | _ | _ <;> rcases w with _ | (_ | _) | _ | _ | _ | _ <;>
    simp [words] at h ⊢
  · exact hif hx h
  · exact hif hy h.symm

end Verbs

namespace Statement

def verb : Statement → Verb
  | .createTable _ _ => .create
  | .dropTable _ ifExists => .drop ifExists
  | .insert _ _ _ => .insert
  | .update _ _ _ => .update
  | .delete _ _ => .delete
  | .select _ _ => .select

/-- What follows the name of the table. -/
def remainder : Statement → String
  | .createTable _ columns => " (" ++ listed columnDef columns ++ ")"
  | .dropTable _ _ => ""
  | .insert _ columns values =>
    if columns.isEmpty then " DEFAULT VALUES"
    else " (" ++ listed identifier columns ++ ") VALUES (" ++ listed (fun _ => "?") values ++ ")"
  | .update _ assignments key =>
    " SET " ++ listed (identifier · ++ " = ?") (assignments.map Prod.fst) ++ " WHERE " ++
      identifier key.1 ++ " = ?"
  | .delete _ key => " WHERE " ++ identifier key.1 ++ " = ?"
  | .select _ none => ""
  | .select _ (some _) => " WHERE "

theorem text_pieces (s : Statement) :
    (Query.ofPieces s.pieces).text = s.verb.words ++ identifier s.table ++ s.remainder := by
  cases s with
  | createTable table columns =>
    simp [pieces, Query.ofPieces, Query.empty, verb, Verb.words, remainder, listed,
      String.append_assoc, Statement.table]
  | dropTable table ifExists =>
    cases ifExists <;>
      simp [pieces, Query.ofPieces, Query.empty, verb, Verb.words, remainder, Statement.table]
  | insert table columns values =>
    rw [pieces, remainder]
    split_ifs
    · simp [Query.ofPieces, Query.empty, verb, Verb.words, Statement.table]
    · simp [Query.ofPieces, Query.ofPieces_append, Query.append, Query.empty,
        Query.text_separated, verb, Verb.words, Statement.table, listed, String.append_assoc,
        Function.comp_def]
  | update table assignments key =>
    simp [pieces, Query.ofPieces, Query.ofPieces_append, Query.append, Query.empty,
      Query.text_separated, verb, Verb.words, Statement.table, listed, remainder, assignment,
      String.append_assoc, Function.comp_def]
  | delete table key =>
    simp [pieces, Query.ofPieces, Query.empty, verb, Verb.words, Statement.table, remainder,
      assignment, String.append_assoc]
  | select table filter =>
    cases filter <;>
      simp [pieces, Query.ofPieces, Query.empty, verb, Verb.words, remainder, Statement.table,
        String.append_assoc]

theorem breaks_remainder (s : Statement) : Breaks s.remainder.toList := by
  cases s with
  | createTable table columns => simp [remainder, Breaks, isBreak]
  | dropTable table ifExists => trivial
  | insert table columns values =>
    rw [remainder]
    split_ifs
    · rfl
    · simp [Breaks, isBreak]
  | update table assignments key => simp [remainder, Breaks, isBreak]
  | delete table key => simp [remainder, Breaks, isBreak]
  | select table filter =>
    cases filter <;> simp [remainder, Breaks, isBreak]

/-- The statements without a condition of their own that have a column for each value and say
something of at least one column, with no markers but the standard ones. -/
def Formed : Statement → Prop
  | .createTable _ columns => columns ≠ [] ∧ ∀ c ∈ columns, ∀ w ∈ c.markers, w ∈ standardMarkers
  | .insert _ columns values => columns.length = values.length
  | .update _ assignments _ => assignments ≠ []
  | .select _ filter => filter = none
  | .dropTable _ _ | .delete _ _ => True

/-- The values that a statement binds, in order. -/
def bound : Statement → List Value
  | .insert _ _ values => values
  | .update _ assignments key => assignments.map Prod.snd ++ [key.2]
  | .delete _ key => [key.2]
  | .createTable _ _ | .dropTable _ _ | .select _ _ => []

theorem params_pieces {s : Statement} (hs : s.Formed) :
    (Query.ofPieces s.pieces).params = s.bound := by
  cases s with
  | insert table columns values =>
    rw [pieces]
    split_ifs with hempty
    · rw [List.isEmpty_iff.1 hempty] at hs
      rw [bound, List.length_eq_zero_iff.1 hs.symm]
      rfl
    · simp [Query.ofPieces, Query.ofPieces_append, Query.append, Query.params_separated,
        Query.empty, List.flatMap_map, bound]
  | update table assignments key =>
    have hone : ∀ a : String × Value, (Query.ofPieces (assignment a)).params = [a.2] :=
      fun _ => rfl
    simp [pieces, Query.ofPieces, Query.ofPieces_append, Query.append, Query.params_separated,
      List.flatMap_map, ← List.map_eq_flatMap, bound, hone]
  | select table filter =>
    cases hs
    rfl
  | _ => rfl

variable {s t : Statement}

/-- The lists of a statement end with a bracket or with the blank in front of a word. -/
theorem listed_identifier_inj {f : String → String} (hf : Delimited (fun _ => True) Breaks f)
    {as bs : List String} (ha : as ≠ []) (hb : bs ≠ []) {x y : List Char}
    (hx : Breaks x ∧ x.head? ≠ some ',') (hy : Breaks y ∧ y.head? ≠ some ',')
    (h : (listed f as).toList ++ x = (listed f bs).toList ++ y) : as = bs ∧ x = y :=
  hf.list (fun _ => rfl) ⟨ha, fun _ _ => trivial⟩ ⟨hb, fun _ _ => trivial⟩ hx hy h

theorem insert_columns_inj {table table' : String} {cs ds : List String} {vs ws : List Value}
    (h : (insert table cs vs).remainder.toList = (insert table' ds ws).remainder.toList) :
    cs = ds := by
  have hends : ∀ r : List Char, Breaks (')' :: r) ∧ (')' :: r).head? ≠ some ',' :=
    fun r => ⟨rfl, by simp⟩
  rcases cs with _ | ⟨c, cs⟩ <;> rcases ds with _ | ⟨d, ds⟩
  · rfl
  · simp [remainder] at h
  · simp [remainder] at h
  · simp only [remainder, List.isEmpty_cons, Bool.false_eq_true, ↓reduceIte,
      String.toList_append, List.append_assoc] at h
    exact (listed_identifier_inj delimited_identifier (by simp) (by simp) (hends _) (hends _)
      (List.append_cancel_left h)).1

theorem delete_key_inj {table table' : String} {key key' : String × Value}
    (h : (delete table key).remainder.toList = (delete table' key').remainder.toList) :
    key.1 = key'.1 := by
  simp only [remainder, String.toList_append, List.append_assoc] at h
  exact (delimited_identifier trivial trivial (breaks_blank _) (breaks_blank _)
    (List.append_cancel_left h)).1

theorem update_names_inj {table table' : String} {as bs : List (String × Value)}
    {key key' : String × Value} (ha : as ≠ []) (hb : bs ≠ [])
    (h : (update table as key).remainder.toList = (update table' bs key').remainder.toList) :
    as.map Prod.fst = bs.map Prod.fst ∧ key.1 = key'.1 := by
  have hends : ∀ r : List Char, Breaks (' ' :: r) ∧ (' ' :: r).head? ≠ some ',' :=
    fun r => ⟨rfl, by simp⟩
  have hassign : Delimited (fun _ => True) Breaks fun name => identifier name ++ " = ?" :=
    delimited_identifier.append fun _ _ => rfl
  simp only [remainder, String.toList_append, List.append_assoc] at h
  obtain ⟨hnames, hkey⟩ := listed_identifier_inj hassign (by simpa using ha) (by simpa using hb)
    (hends _) (hends _) (List.append_cancel_left h)
  have hdelete : (delete table key).remainder.toList = (delete table' key').remainder.toList := by
    simpa [remainder, String.toList_append] using hkey
  exact ⟨hnames, delete_key_inj hdelete⟩

theorem Formed.eq_of_text (hs : s.Formed) (ht : t.Formed) (hverb : s.verb = t.verb)
    (htable : s.table = t.table) (hrest : s.remainder.toList = t.remainder.toList)
    (hbound : s.bound = t.bound) : s = t := by
  cases s with
  | createTable table cs =>
    cases t with
    | createTable table' ds =>
      have hends : Closes [')'] ∧ [')'].head? ≠ some ',' := ⟨.inr rfl, by decide⟩
      simp only [remainder, String.toList_append, List.append_assoc] at hrest
      have hcs := (delimited_column.list (fun _ => .inl rfl) hs ht hends hends
        (List.append_cancel_left hrest)).1
      exact congrArg₂ createTable htable hcs
    | _ => cases hverb
  | dropTable table ifExists =>
    cases t with
    | dropTable table' ifExists' => exact congrArg₂ dropTable htable (Verb.drop.inj hverb)
    | _ => cases hverb
  | insert table cs vs =>
    cases t with
    | insert table' ds ws =>
      rw [insert_columns_inj hrest, show vs = ws from hbound, show table = table' from htable]
    | _ => cases hverb
  | update table as key =>
    cases t with
    | update table' bs key' =>
      obtain ⟨hnames, hkey⟩ := update_names_inj hs ht hrest
      obtain ⟨hvalues, hvalue⟩ := List.append_inj' hbound rfl
      have has : as = bs := by
        rw [← List.zip_unzip as, ← List.zip_unzip bs, List.unzip_eq_map, List.unzip_eq_map,
          hnames, hvalues]
      rw [has, show table = table' from htable, Prod.ext hkey (List.cons.inj hvalue).1]
    | _ => cases hverb
  | delete table key =>
    cases t with
    | delete table' key' =>
      exact congrArg₂ delete htable (Prod.ext (delete_key_inj hrest) (List.cons.inj hbound).1)
    | _ => cases hverb
  | select table filter =>
    cases t with
    | select table' filter' =>
      cases hs
      cases ht
      exact congrArg (select · none) htable
    | _ => cases hverb

/-- The statements that are made of models and records, but for a selection with a condition and a
table with markers of its own. -/
inductive Made : Statement → Prop
  | createTable {m : Model} {s : Statement} (h : m.createTable = .ok s)
      (hw : ∀ c ∈ m.columnDefs, ∀ w ∈ c.markers, w ∈ standardMarkers) : Made s
  | dropTable (m : Model) (ifExists : Bool) : Made (m.dropTable ifExists)
  | insert {m : Model} {record : Record} {s : Statement} (h : m.insert record = .ok s) : Made s
  | update {m : Model} {record : Record} {s : Statement} (h : m.update record = .ok s) : Made s
  | delete {m : Model} {record : Record} {s : Statement} (h : m.delete record = .ok s) : Made s
  | selectAll (m : Model) : Made m.selectAll

theorem Made.formed (h : s.Made) : s.Formed := by
  cases h with
  | @createTable m s h hw =>
    unfold Model.createTable at h
    split_ifs at h with hempty
    · cases h
    · rw [← Except.ok.inj h]
      exact ⟨by simpa using hempty, hw⟩
  | dropTable m ifExists => trivial
  | insert h =>
    obtain ⟨-, -, rfl⟩ := Model.eq_of_insert h
    simp [Formed]
  | update h =>
    obtain ⟨key, -, h⟩ := Outcome.bind_eq_ok h
    obtain ⟨pairs, -, h⟩ := Outcome.bind_eq_ok h
    split_ifs at h with hempty
    · cases h
    · rw [← Except.ok.inj h]
      simpa [Formed] using hempty
  | delete h =>
    obtain ⟨key, -, h⟩ := Outcome.bind_eq_ok h
    rw [← Except.ok.inj h]
    trivial
  | selectAll m => rfl

theorem Formed.body_eq (hs : s.Formed) : s.body = Query.ofPieces s.pieces := by
  have hcondition : s.condition = .empty := by
    cases s with
    | select table filter =>
      cases hs
      rfl
    | _ => rfl
  simp [body, hcondition, Query.append, Query.empty]

end Statement

theorem Query.between_inj {front back : String} {q r : Query}
    (h : q.between front back = r.between front back) : q = r := by
  obtain ⟨htext, hparams⟩ := Query.mk.inj h
  have hq : q.text = r.text := (String.append_right_inj _).1 ((String.append_left_inj _).1 htext)
  cases q
  cases r
  simp_all

end Sql

/-- A statement that is made of a model, accepted or not, is known from its text and parameters,
whatever names its table and columns have. -/
theorem serialize_inj {s t : Statement} (hs : s.Made) (ht : t.Made) (framed : Bool)
    (h : s.serialize framed = t.serialize framed) : s = t := by
  have hbody : s.body = t.body := by cases framed <;> exact Query.between_inj h
  rw [hs.formed.body_eq, ht.formed.body_eq] at hbody
  have htext := congrArg (fun q => q.text.toList) hbody
  simp only [Statement.text_pieces, String.toList_append, List.append_assoc] at htext
  have hverb := Verb.words_inj s.breaks_remainder t.breaks_remainder htext
  rw [hverb] at htext
  obtain ⟨htable, hrest⟩ := delimited_identifier trivial trivial s.breaks_remainder
    t.breaks_remainder (List.append_cancel_left htext)
  refine hs.formed.eq_of_text ht.formed hverb htable hrest ?_
  rw [← Statement.params_pieces hs.formed, ← Statement.params_pieces ht.formed, hbody]

/-- Two notes with one key are deleted by one statement. -/
theorem serialize_inj_notes :
    ∃ s t, notes.delete [.int .int64 ⟨7, by decide⟩, .text "why?"] = .ok s ∧
      notes.delete [.int .int64 ⟨7, by decide⟩, .null] = .ok t ∧
      s.serialize true = t.serialize true ∧ s = t := by
  have hs : notes.delete [.int .int64 ⟨7, by decide⟩, .text "why?"]
      = .ok (.delete "notes" ("id", .int .int64 ⟨7, by decide⟩)) := by decide +kernel
  have ht : notes.delete [.int .int64 ⟨7, by decide⟩, .null]
      = .ok (.delete "notes" ("id", .int .int64 ⟨7, by decide⟩)) := by decide +kernel
  exact ⟨_, _, hs, ht, rfl, serialize_inj (.delete hs) (.delete ht) true rfl⟩

end RecordMap
