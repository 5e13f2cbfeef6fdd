import RecordMap.Proofs.Ignored
import RecordMap.Proofs.OneStatement
import RecordMap.Proofs.ReadBack

/-!
# Rows in another order and letter case

Column names differ in more than the case of their letters.  So no column takes the entry of
another, and a row is read as if nothing left it (`ofRow_eq_foldlM`).

If the names of the row differ so too, a name stands for one of its entries at most
(`entry?_eq_some_iff`).  What is read is then known from the values under the names of the columns,
in whatever order and letter case the row has them (`ofRow_eq_of_rearranged`).
-/

namespace RecordMap

open Session Sql Text

namespace Row

/-- The names of the row are different with the case of ASCII letters left aside. -/
def Distinct (r : Row) : Prop := (r.entries.map fun e => foldCase e.1).Nodup

instance (r : Row) : Decidable r.Distinct := inferInstanceAs (Decidable (List.Nodup _))

theorem mem_of_found {r : Row} {name : String} {e : String × Stored}
    (h : r.entry? name = some e) : e ∈ r.entries ∧ foldCase e.1 = foldCase name := by
  rw [entry?_eq_or, Option.or_eq_some_iff] at h
  rcases h with h | ⟨-, h⟩
  · have hname : e.1 = name := by simpa using List.find?_some h
    exact ⟨List.mem_of_find?_eq_some h, by rw [hname]⟩
  · have hname : sameCaseless e.1 name = true := by simpa using List.find?_some h
    exact ⟨List.mem_of_find?_eq_some h, beq_iff_eq.1 hname⟩

theorem exists_found {r : Row} {name : String} {e : String × Stored} (he : e ∈ r.entries)
    (hname : foldCase e.1 = foldCase name) : ∃ e', r.entry? name = some e' := by
  have hfound : (r.entries.find? fun e => sameCaseless e.1 name).isSome = true :=
    List.find?_isSome.2 ⟨e, he, beq_iff_eq.2 hname⟩
  rw [← Option.isSome_iff_exists, entry?_eq_or, Option.isSome_or, hfound, Bool.or_true]

/-- The entry that leaves the row is that of no other name. -/
theorem get?_erase (r : Row) {name other : String} (hne : foldCase name ≠ foldCase other) :
    (r.erase name).get? other = r.get? other := by
  have hkept : ∀ e : String × Stored, foldCase e.1 = foldCase other → e.1 ≠ name := by
    rintro e he rfl
    exact hne he
  rw [get?_eq_map, get?_eq_map, entry?_eq_or, entry?_eq_or, r.find?_erase fun e he => ?_,
    r.find?_erase fun e he => ?_]
  · exact hkept e (beq_iff_eq.1 he)
  · exact hkept e (by rw [of_decide_eq_true he])

namespace Distinct

variable {r : Row} (h : r.Distinct)

include h

/-- A name stands for one entry at most, and an exact match has no other to win over. -/
theorem entry?_eq_some_iff {name : String} {e : String × Stored} :
    r.entry? name = some e ↔ e ∈ r.entries ∧ foldCase e.1 = foldCase name := by
  refine ⟨mem_of_found, fun ⟨he, hname⟩ => ?_⟩
  obtain ⟨e', he'⟩ := exists_found he hname
  obtain ⟨hmem, hname'⟩ := mem_of_found he'
  rw [he', List.inj_on_of_nodup_map h hmem he (hname'.trans hname.symm)]

theorem get?_eq_some_iff {name : String} {v : Stored} :
    r.get? name = some v ↔ ∃ n, (n, v) ∈ r.entries ∧ foldCase n = foldCase name := by
  simp only [get?_eq_map, Option.map_eq_some_iff, h.entry?_eq_some_iff]
  constructor
  · rintro ⟨⟨n, v⟩, he, rfl⟩
    exact ⟨n, he⟩
  · rintro ⟨n, he⟩
    exact ⟨(n, v), he, rfl⟩

end Distinct

/-- What can be done to a row with the values under the given names left as they are. -/
inductive Rearranged (names : List String) :
    List (String × Stored) → List (String × Stored) → Prop
  | perm {es es' : List (String × Stored)} (h : es.Perm es') : Rearranged names es es'
  | recased {n n' : String} (v : Stored) (es : List (String × Stored))
      (h : sameCaseless n n' = true) : Rearranged names ((n, v) :: es) ((n', v) :: es)
  | added {n : String} (v : Stored) (es : List (String × Stored))
      (h : ∀ name ∈ names, sameCaseless n name = false) : Rearranged names es ((n, v) :: es)
  | removed {n : String} (v : Stored) (es : List (String × Stored))
      (h : ∀ name ∈ names, sameCaseless n name = false) : Rearranged names ((n, v) :: es) es
  | trans {es es' es'' : List (String × Stored)} (h : Rearranged names es es')
      (h' : Rearranged names es' es'') : Rearranged names es es''

theorem exists_mem_cons_iff {n name : String} (h : sameCaseless n name = false) (v w : Stored)
    (es : List (String × Stored)) :
    (∃ n', (n', v) ∈ (n, w) :: es ∧ foldCase n' = foldCase name) ↔
      ∃ n', (n', v) ∈ es ∧ foldCase n' = foldCase name := by
  have hfold : foldCase n ≠ foldCase name := beq_eq_false_iff_ne.1 h
  simp only [List.mem_cons, Prod.mk.injEq, or_and_right, exists_or, and_assoc, exists_eq_left,
    hfold, and_false, false_or]

/-- The invariant of a rearrangement.  In between, a row may have one of the names twice. -/
theorem Rearranged.mem_iff {names : List String} {es es' : List (String × Stored)}
    (h : Rearranged names es es') {name : String} (hname : name ∈ names) (v : Stored) :
    (∃ n, (n, v) ∈ es ∧ foldCase n = foldCase name) ↔
      ∃ n, (n, v) ∈ es' ∧ foldCase n = foldCase name := by
  induction h with
  | perm h => simp only [h.mem_iff]
  | @recased n n' w es h =>
    have hfold : foldCase n = foldCase n' := beq_iff_eq.1 h
    simp only [List.mem_cons, Prod.mk.injEq, or_and_right, exists_or, and_assoc,
      exists_eq_left, hfold]
  | added w es h => exact (exists_mem_cons_iff (h name hname) v w es).symm
  | removed w es h => exact exists_mem_cons_iff (h name hname) v w es
  | trans _ _ ih ih' => exact ih.trans ih'

theorem Rearranged.get?_eq {names : List String} {r r' : Row}
    (h : Rearranged names r.entries r'.entries) (hr : r.Distinct) (hr' : r'.Distinct)
    {name : String} (hname : name ∈ names) : r'.get? name = r.get? name := by
  refine Option.ext fun v => ?_
  rw [hr'.get?_eq_some_iff, hr.get?_eq_some_iff, h.mem_iff hname]

end Row

open Row

/-- Two columns of an accepted model differ in more than the case of their letters, as they do in
their small letters. -/
theorem Declaration.nodup_foldCase_stored {d : Declaration} {m : Model} (hm : d.build = .ok m) :
    (m.stored.map fun c => foldCase c.name).Nodup := by
  obtain ⟨hd, key, -, rfl⟩ := eq_of_build hm
  have hfields : ((d.fields.map Field.columnName).map foldCase).Nodup := by
    rw [List.map_map, List.Nodup, List.pairwise_map]
    exact hd.names.imp fun hne h => hne (lowercase_of_foldCase h)
  rw [← map_name_columnsOf, List.map_map] at hfields
  exact hfields.sublist (List.filter_sublist.map _)

namespace RecordType

variable {α : Type} {t : RecordType α} {m : Model}

/-- Reads one column of a row and leaves the row as it is. -/
def readColumn (t : RecordType α) (m : Model) (r : Row) (a : α) (c : Column) : Outcome α :=
  match r.get? c.name with
  | none => Outcome.fail (.remark (.absent c.name m.table))
  | some raw => do
    let v ← (raw.read c.ty).during (.reading c.name m.table)
    t.load c v a

/-- A column that is loaded takes its own entry with it and no other column's. -/
theorem exists_loadColumn_eq (t : RecordType α) (m : Model) (r : Row) (a : α) (c : Column) :
    ∃ r' : Row, t.loadColumn m (r, a) c = (t.readColumn m r a c).map (r', ·) ∧
      ∀ name, foldCase c.name ≠ foldCase name → r'.get? name = r.get? name := by
  rcases he : r.entry? c.name with _ | ⟨n, raw⟩
  · refine ⟨r, ?_, fun _ _ => rfl⟩
    simp only [loadColumn, readColumn, take?_eq_map, get?_eq_map, he]
    rfl
  · have hfold : foldCase n = foldCase c.name := (mem_of_found he).2
    refine ⟨r.erase n, ?_, fun name hne => r.get?_erase (hfold ▸ hne)⟩
    simp only [loadColumn, readColumn, take?_eq_map, get?_eq_map, he, Option.map_some]
    rcases (raw.read c.ty).during (.reading c.name m.table) with e | v
    · rfl
    · change (t.load c v a).bind _ = (t.load c v a).map _
      cases t.load c v a <;> rfl

/-- The walk that takes each column out of the row reads what was in it at the start. -/
theorem foldlM_loadColumn_eq (t : RecordType α) (m : Model) (start : Row) :
    ∀ (cs : List Column) {r : Row} (a : α), (cs.map fun c => foldCase c.name).Nodup →
      (∀ c ∈ cs, r.get? c.name = start.get? c.name) →
      (cs.foldlM (t.loadColumn m) (r, a)).map Prod.snd = cs.foldlM (t.readColumn m start) a
  | [], _, _, _, _ => rfl
  | c :: cs, r, a, hnames, hsame => by
    rw [List.map_cons, List.nodup_cons] at hnames
    rw [List.forall_mem_cons] at hsame
    obtain ⟨r', hstep, hrest⟩ := exists_loadColumn_eq t m r a c
    have hread : t.readColumn m r a c = t.readColumn m start a c := by
      rw [readColumn, readColumn, hsame.1]
    rw [List.foldlM_cons, List.foldlM_cons, hstep, hread]
    rcases t.readColumn m start a c with e | b
    · rfl
    · have hkept : ∀ c' ∈ cs, r'.get? c'.name = start.get? c'.name := by
        intro c' hc'
        have hne : foldCase c.name ≠ foldCase c'.name := fun h =>
          hnames.1 (List.mem_map.2 ⟨c', hc', h.symm⟩)
        rw [hrest _ hne, hsame.2 c' hc']
      exact foldlM_loadColumn_eq t m start cs b hnames.2 hkept

section

variable {d : Declaration} (hm : d.build = .ok m)

include hm

/-- A row is read as if nothing left it, and like any other with the same values. -/
theorem ofRow_eq_foldlM (t : RecordType α) {r start : Row}
    (hsame : ∀ c ∈ m.stored, r.get? c.name = start.get? c.name) :
    t.ofRow m r = m.stored.foldlM (t.readColumn m start) t.blank :=
  foldlM_loadColumn_eq t m start m.stored t.blank (Declaration.nodup_foldCase_stored hm) hsame

theorem ofRow_eq_of_rearranged (t : RecordType α) {r r' : Row} (hr : r.Distinct)
    (hr' : r'.Distinct) (h : Rearranged (m.stored.map Column.name) r.entries r'.entries) :
    t.ofRow m r' = t.ofRow m r := by
  have hsame : ∀ c ∈ m.stored, r'.get? c.name = r.get? c.name := fun c hc =>
    h.get?_eq hr hr' (List.mem_map_of_mem hc)
  exact (ofRow_eq_foldlM hm t hsame).trans (ofRow_eq_foldlM hm t fun _ _ => rfl).symm

end

end RecordType

/-- The selections of values of a type, and what they select with unless it cannot be made. -/
inductive Engine.Selects {α : Type} (e : Engine) (t : RecordType α) (m : Model) :
    Session (Outcome (List α)) → Outcome Statement → Prop
  | all : Selects e t m (e.selectAll t).1 (.ok m.selectAll)
  | filtered (f : Filter) : Selects e t m (e.selectWhere t f).1 (m.selection e.config f)

/-- On a connection the one call is made, and its answer is all that the session comes to. -/
theorem Session.trace_single {β σ : Type} {c : Call} (finish : c.Answer → Outcome β)
    {answer : (c : Call) → σ → c.Answer × σ} {st : σ} (hopen : (answer .connect st).1 = .ok ())
    {y : c.Answer} (hy : (answer c (answer .connect st).2).1 = y) :
    (single c finish).trace answer st = [⟨.connect, .ok ()⟩, ⟨c, y⟩, ⟨.close, ()⟩] ∧
      (single c finish).result answer st = finish y := by
  simp only [single, trace_ask, result_ask, hopen, trace_done, result_done, hy, and_true]
  rfl

theorem Engine.Selects.eq_selectRows {α : Type} {e : Engine} {t : RecordType α} {m : Model}
    {s : Session (Outcome (List α))} {statement : Outcome Statement}
    (h : e.Selects t m s statement) (hm : (e.describe t.toNamedDeclaration).1 = .ok m) :
    s = selectRows t m statement := by
  cases h with
  | all => exact onModel_of_describe hm _
  | filtered f => exact onModel_of_describe hm _

/-- A row is read alike in every order and letter case of its entries, and whatever else is in it:
to the same value, or with the same fault.  A selection asks for rows unless its statement cannot be
sent.  The rows with which the store answers are all read, in their order, or the selection fails
for the first that is no value. -/
theorem rows_read_of_build {d : Declaration} {m : Model} (hm : d.build = .ok m)
    {α : Type} (t : RecordType α) :
    (∀ r r' : Row, r.Distinct → r'.Distinct →
      Rearranged (m.stored.map Column.name) r.entries r'.entries →
      t.ofRow m r' = t.ofRow m r) ∧
    ∀ e : Engine, (e.describe t.toNamedDeclaration).1 = .ok m →
      ∀ s statement, e.Selects t m s statement →
        (∀ fault, statement.bind Statement.request = .error fault → s = .done (.error fault)) ∧
        ∀ q, statement.bind Statement.request = .ok q →
          ∀ {σ : Type} (answer : (c : Call) → σ → c.Answer × σ) (st : σ) rows,
            (answer .connect st).1 = .ok () →
            (answer (.query q) (answer .connect st).2).1 = .ok rows →
            s.trace answer st = [⟨.connect, .ok ()⟩, ⟨.query q, .ok rows⟩, ⟨.close, ()⟩] ∧
            (∀ as, s.result answer st = .ok as ↔ rows.map (t.ofRow m) = as.map .ok) ∧
            ((∃ as, s.result answer st = .ok as) ↔ ∀ row ∈ rows, ∃ a, t.ofRow m row = .ok a) ∧
            ∀ fault, s.result answer st = .error fault ↔
              ∃ before row after, rows = before ++ row :: after ∧
                (∀ b ∈ before, ∃ a, t.ofRow m b = .ok a) ∧ t.ofRow m row = .error fault := by
  refine ⟨fun r r' hr hr' h => RecordType.ofRow_eq_of_rearranged hm t hr hr' h,
    fun e he s statement hs => ⟨fun fault hfault => ?_,
      fun q hq σ answer st rows hopen hrows => ?_⟩⟩
  · exact (hs.eq_selectRows he).trans (Engine.selectRows_of_fault hfault)
  have hsingle := (hs.eq_selectRows he).trans (Engine.selectRows_of_request hq)
  obtain ⟨htrace, hresult⟩ := Session.trace_single (c := .query q)
    (fun x => Except.bind x fun rows => rows.mapM (t.ofRow m)) hopen hrows
  rw [hsingle, hresult]
  refine ⟨htrace, fun as => Outcome.mapM_eq_ok_iff, ⟨fun ⟨as, has⟩ row hrow => ?_,
    Outcome.exists_mapM_eq_ok⟩, fun fault => Outcome.mapM_eq_error_iff⟩
  obtain ⟨a, -, ha⟩ := Outcome.exists_mem_zip_of_mapM has hrow
  exact ⟨a, ha⟩

namespace Declaration

/-- The row of a visit with its entries in another order and letter case, and another cache. -/
def movedRow : Row :=
  .ofList [("at", .null), ("CACHE", .null), ("SCORE", .null), ("Id", .integer (.clamp _ 7))]

/-- A store that answers every selection with the same rows. -/
def rowsAnswer (rows : List Row) : (c : Call) → Unit → c.Answer × Unit
  | .connect, _ => (.ok (), ())
  | .execute _, _ => (.ok 0, ())
  | .insert _, _ => (.ok (.clamp _ 0), ())
  | .query _, _ => (.ok rows, ())
  | .close, _ => ((), ())

theorem rearranged_movedRow :
    Rearranged (visits.stored.map Column.name) visitRow.entries movedRow.entries := by
  have hcache : ∀ name ∈ visits.stored.map Column.name, sameCaseless "cache" name = false ∧
      sameCaseless "CACHE" name = false := by decide +kernel
  let seven : Stored := .integer (.clamp _ 7)
  have hid : Rearranged (visits.stored.map Column.name) visitRow.entries
      [("Id", seven), ("Score", .null), ("at", .null)] :=
    .trans (.removed (.text "x") _ fun name hname => (hcache name hname).1)
      (.recased seven _ (by decide +kernel))
  have hscore : Rearranged (visits.stored.map Column.name)
      [("Id", seven), ("Score", .null), ("at", .null)]
      [("CACHE", .null), ("SCORE", .null), ("Id", seven), ("at", .null)] :=
    .trans (.perm (.swap ..)) (.trans (.recased .null _ (by decide +kernel))
      (.added .null _ fun name hname => (hcache name hname).2))
  exact .trans hid (.trans hscore (.perm (by decide +kernel)))

/-- The visits with the number seven. -/
def seventhVisit : Filter := .compare .eq (.field "id") (.value (.int .int32 (.clamp _ 7)))

/-- The moved row is read like the other, and a selection ends at a row without entries, with a
filter or without. -/
theorem rows_read_of_build_visits :
    loading.ofRow visits movedRow = loading.ofRow visits visitRow ∧
    ∃ fault, loading.ofRow visits .empty = .error fault ∧
      ((Engine.mk .standard []).selectAll loading).1.result
        (rowsAnswer [visitRow, .empty, movedRow]) () = .error fault ∧
      ((Engine.mk .standard []).selectWhere loading seventhVisit).1.result
        (rowsAnswer [visitRow, .empty, movedRow]) () = .error fault := by
  obtain ⟨hmoved, hselect⟩ := rows_read_of_build build_visitDeclaration loading
  have hvisitRow : visitRow.Distinct := by decide +kernel
  have hmovedRow : movedRow.Distinct := by decide +kernel
  refine ⟨hmoved _ _ hvisitRow hmovedRow rearranged_movedRow, ?_⟩
  have hempty : loading.ofRow visits .empty
      = .error (.ofCause (.remark (.absent "at" "Visit"))) := by
    decide +kernel
  have hvisit : loading.ofRow visits visitRow
      = .ok [("at", .null), ("id", .int .int32 ⟨7, by decide⟩), ("score", .null)] := by
    decide +kernel
  have hdescribe : ((Engine.mk .standard []).describe loading.toNamedDeclaration).1 = .ok visits := by
    decide +kernel
  have hfails : ∀ s statement, (Engine.mk .standard []).Selects loading visits s statement →
      (∃ q, statement.bind Statement.request = .ok q) →
      s.result (rowsAnswer [visitRow, .empty, movedRow]) ()
        = .error (.ofCause (.remark (.absent "at" "Visit"))) := by
    rintro s statement hs ⟨q, hq⟩
    obtain ⟨-, -, -, hfails⟩ := (hselect _ hdescribe s statement hs).2 q hq
      (rowsAnswer [visitRow, .empty, movedRow]) () [visitRow, .empty, movedRow] rfl rfl
    refine (hfails _).2 ⟨[visitRow], .empty, [movedRow], rfl, ?_, hempty⟩
    exact List.forall_mem_singleton.2 ⟨_, hvisit⟩
  refine ⟨_, hempty, hfails _ _ .all ⟨⟨"SELECT * FROM Visit;", []⟩, ?_⟩,
    hfails _ _ (.filtered seventhVisit) ⟨⟨"SELECT * FROM Visit WHERE (id = 7);", []⟩, ?_⟩⟩
  · decide +kernel
  · decide +kernel

end Declaration

end RecordMap
