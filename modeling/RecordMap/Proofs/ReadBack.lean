import RecordMap.Proofs.Accepted
import RecordMap.Proofs.Lookups

/-!
# Reading back what was written

The row of an inserted record has the stored form of each of its values under the name of its
column.  The walk over the columns finds each of them, since taking one out leaves the others in the
row and a field once filled stays as it is (`foldlM_loadColumn`).  So the record comes back, up to
parts of seconds (`ofRow_of_insert`).
-/

namespace RecordMap

open Sql

namespace Row

def Holds (r : Row) (name : String) (raw : Stored) : Prop :=
  r.entries.find? (·.1 = name) = some (name, raw)

theorem Holds.take? {r : Row} {name : String} {raw : Stored} (h : r.Holds name raw) :
    r.take? name = some (raw, r.erase name) := by
  unfold Holds at h
  rw [take?_eq_map, entry?, h]
  rfl

/-- What leaves the row with a name is found by no search for another. -/
theorem find?_erase (r : Row) {name : String} {p : String × Stored → Bool}
    (hp : ∀ e, p e = true → e.1 ≠ name) : (r.erase name).entries.find? p = r.entries.find? p := by
  rw [Row.erase, List.find?_filter]
  congr 1
  funext e
  rcases hfound : p e with _ | _
  · simp
  · simp [hp e hfound]

theorem Holds.erase {r : Row} {name other : String} {raw : Stored} (h : r.Holds name raw)
    (hne : name ≠ other) : (r.erase other).Holds name raw := by
  rw [Holds, r.find?_erase fun e he => ?_, h]
  rwa [of_decide_eq_true he]

theorem putEntry_of_notMem {name : String} {raw : Stored} : ∀ {entries : List (String × Stored)},
    name ∉ entries.map Prod.fst → putEntry name raw entries = entries ++ [(name, raw)]
  | [], _ => rfl
  | e :: es, h => by
    rw [List.map_cons, List.mem_cons, not_or] at h
    rw [putEntry, if_neg (Ne.symm h.1), putEntry_of_notMem h.2, List.cons_append]

theorem entries_foldl_push : ∀ (entries : List (String × Stored)) {r : Row},
    ((r.entries ++ entries).map Prod.fst).Nodup →
      (entries.foldl (fun r e => r.push e.1 e.2) r).entries = r.entries ++ entries
  | [], r, _ => (List.append_nil _).symm
  | e :: es, r, h => by
    have happend : r.entries ++ e :: es = (r.entries ++ [e]) ++ es := by simp
    have hnew : e.1 ∉ r.entries.map Prod.fst := by
      rw [List.map_append, List.map_cons] at h
      exact (List.nodup_middle.1 h).notMem ∘ List.mem_append_left _
    have hpush : (r.push e.1 e.2).entries = r.entries ++ [e] := putEntry_of_notMem hnew
    rw [List.foldl_cons, happend, ← hpush]
    refine entries_foldl_push es ?_
    rwa [hpush, ← happend]

/-- Entries under different names are all in the row of them. -/
theorem holds_ofList {entries : List (String × Stored)} (h : (entries.map Prod.fst).Nodup)
    {name : String} {raw : Stored} (hmem : (name, raw) ∈ entries) :
    (ofList entries).Holds name raw := by
  have hentries : (ofList entries).entries = entries := entries_foldl_push entries h
  obtain ⟨e, hfound⟩ : ∃ e, entries.find? (·.1 = name) = some e :=
    Option.isSome_iff_exists.1 (List.find?_isSome.2 ⟨_, hmem, by simp⟩)
  have hname : e.1 = name := by simpa using List.find?_some hfound
  have he : e = (name, raw) :=
    List.inj_on_of_nodup_map h (List.mem_of_find?_eq_some hfound) hmem hname
  rw [Holds, hentries, hfound, he]

end Row

namespace RecordType

variable {α : Type} {t : RecordType α}

/-- A value of the column's type that is loaded stands in the record, which stays as it is
elsewhere. -/
def Keeps (t : RecordType α) (c : Column) : Prop :=
  ∀ (v : Value) (a : α), v.isA c.ty = true → ∃ b, t.load c v a = .ok b ∧
    (t.record b)[c.index]? = some v ∧ ∀ i, i ≠ c.index → (t.record b)[i]? = (t.record a)[i]?

theorem loadColumn_eq_ok {m : Model} {c : Column} {row : Row} {raw : Stored} {v : Value}
    (hc : t.Keeps c) (hrow : row.Holds c.name raw) (hread : raw.read c.ty = .ok v) (a : α) :
    ∃ b, t.loadColumn m (row, a) c = .ok (row.erase c.name, b) ∧
      (t.record b)[c.index]? = some v ∧
      ∀ i, i ≠ c.index → (t.record b)[i]? = (t.record a)[i]? := by
  obtain ⟨b, hload, hb⟩ := hc v a (Stored.isA_of_read hread)
  refine ⟨b, ?_, hb⟩
  simp only [loadColumn, hrow.take?, hread]
  change (t.load c v a >>= fun b => _) = _
  rw [hload]
  rfl

/-- Columns whose values are in the row are all loaded, and nothing else changes. -/
theorem foldlM_loadColumn {m : Model} {p : Column → Value → Prop} :
    ∀ {cs : List Column} {row : Row} {a : α}, (∀ c ∈ cs, t.Keeps c) →
      (cs.map Column.name).Nodup → (cs.map Column.index).Nodup →
      (∀ c ∈ cs, ∃ raw v, row.Holds c.name raw ∧ raw.read c.ty = .ok v ∧ p c v) →
      ∃ s, cs.foldlM (t.loadColumn m) (row, a) = .ok s ∧
        (∀ c ∈ cs, ∃ v, (t.record s.2)[c.index]? = some v ∧ p c v) ∧
        ∀ i, i ∉ cs.map Column.index → (t.record s.2)[i]? = (t.record a)[i]?
  | [], row, a, _, _, _, _ =>
    ⟨(row, a), rfl, fun _ hc => absurd hc List.not_mem_nil, fun _ _ => rfl⟩
  | c :: cs, row, a, hkeeps, hnames, hindexes, hrow => by
    rw [List.map_cons, List.nodup_cons] at hnames hindexes
    rw [List.forall_mem_cons] at hkeeps hrow
    obtain ⟨raw, v, hraw, hread, hv⟩ := hrow.1
    obtain ⟨b, hstep, hloaded, hframe⟩ := loadColumn_eq_ok (m := m) hkeeps.1 hraw hread a
    -- the other columns have other names, so their entries are still in the row
    have hrest : ∀ c' ∈ cs, ∃ raw v, (row.erase c.name).Holds c'.name raw ∧
        raw.read c'.ty = .ok v ∧ p c' v := by
      intro c' hc'
      obtain ⟨raw', v', hraw', hv'⟩ := hrow.2 c' hc'
      have hne : c'.name ≠ c.name := fun h => hnames.1 (h ▸ List.mem_map_of_mem hc')
      exact ⟨raw', v', hraw'.erase hne, hv'⟩
    obtain ⟨s, hwalk, hvalues, hsame⟩ :=
      foldlM_loadColumn (a := b) hkeeps.2 hnames.2 hindexes.2 hrest
    refine ⟨s, ?_, ?_, fun i hi => ?_⟩
    · rw [List.foldlM_cons, hstep]
      exact hwalk
    · rw [List.forall_mem_cons]
      exact ⟨⟨v, (hsame _ hindexes.1).trans hloaded, hv⟩, hvalues⟩
    · rw [List.map_cons, List.mem_cons, not_or] at hi
      rw [hsame i hi.2, hframe i hi.1]

end RecordType

def Model.counted (m : Model) : List Column := m.stored.filter Column.isAutoIncrement

theorem Model.counted_append_inserted_perm (m : Model) : (m.counted ++ m.inserted).Perm m.stored :=
  List.filter_append_perm Column.isAutoIncrement m.stored

/-- What is in the row that an insertion makes: what was bound, and the number it got. -/
def Model.written (m : Model) (params : List Stored) (id : Number .int64) :
    List (String × Stored) :=
  (m.inserted.map Column.name).zip params ++ m.counted.map fun c => (c.name, .integer id)

/-- What comes back in a column of a record that was written under the number `id`. -/
inductive Column.Returns (c : Column) (record : Record) (id : Number .int64) : Value → Prop
  | kept {v : Value} (hc : c.isAutoIncrement = false) (hv : record[c.index]? = some v) :
      Returns c record id v.truncated
  | counted {k : IntType} {n : Number k} (hc : c.isAutoIncrement = true) (hty : c.ty = .int k)
      (hn : n.toInt = id.toInt) : Returns c record id (.int k n)

section

variable {d : Declaration} {m : Model} (hm : d.build = .ok m)

include hm

theorem exists_int_of_counted {c : Column} (hc : c ∈ m.counted) :
    ∃ k, c.ty = .int k ∧ k.isStorable = true := by
  obtain ⟨hstored, hauto⟩ := List.mem_filter.1 hc
  obtain ⟨f, -, -, hf, hcf⟩ := Declaration.exists_storable_of_stored hm hstored
  rw [hcf] at hauto
  have hinteger : c.ty.isInteger = true := by
    rw [hcf]
    exact (hf.counted hauto).2
  have hty : c.ty ≠ .int .uint64 := by
    rw [hcf]
    exact hf.ty
  cases hk : c.ty with
  | int k => exact ⟨k, rfl, IntType.isStorable_of_ne (hk ▸ hty)⟩
  | _ =>
    rw [hk] at hinteger
    cases hinteger

theorem getElem?_of_insert {record : Record} {s : Statement} (h : m.insert record = .ok s)
    {c : Column} (hc : c ∈ m.columns) : record[c.index]? = some (Model.valueAt record c) := by
  have hlength := (Model.eq_of_insert h).1
  obtain ⟨hd, key, -, rfl⟩ := Declaration.eq_of_build hm
  obtain ⟨f, -, hf, -⟩ := Declaration.mem_columnsOf hc
  have hindex := (List.getElem?_eq_some_iff.1 hf).1
  rw [Declaration.length_columnsOf] at hlength
  rw [Model.valueAt, List.getD_eq_getElem?_getD, List.getElem?_eq_getElem (by omega)]
  rfl

theorem nodup_written {params : List Stored} (hparams : params.length = m.inserted.length)
    (id : Number .int64) : ((m.written params id).map Prod.fst).Nodup := by
  have hnames : (m.written params id).map Prod.fst = (m.inserted ++ m.counted).map Column.name := by
    rw [Model.written, List.map_append, List.map_fst_zip (by simp [hparams]), List.map_map,
      List.map_append]
    rfl
  have hperm : (m.inserted ++ m.counted).Perm m.stored :=
    List.perm_append_comm.trans m.counted_append_inserted_perm
  rw [hnames, (hperm.map Column.name).nodup_iff]
  obtain ⟨hd, key, -, rfl⟩ := Declaration.eq_of_build hm
  exact hd.nodup_name_columnsOf.sublist (List.filter_sublist.map Column.name)

variable {record : Record} {s : Statement} (hs : m.insert record = .ok s)

include hs

/-- The row has a stored form of what comes back in each column. -/
theorem exists_written_read {params : List Stored} {id : Number .int64}
    (hparams : m.inserted.mapM (fun c => (Model.valueAt record c).stored) = .ok params)
    (hid : ∀ c ∈ m.counted, ∀ k, c.ty = .int k → k.min ≤ id.toInt ∧ id.toInt ≤ k.max)
    {c : Column} (hc : c ∈ m.stored) :
    ∃ raw v, (c.name, raw) ∈ m.written params id ∧ raw.read c.ty = .ok v ∧
      c.Returns record id v := by
  rcases hauto : c.isAutoIncrement with _ | _
  · have hinserted : c ∈ m.inserted := List.mem_filter.2 ⟨hc, by rw [hauto]; rfl⟩
    obtain ⟨raw, hzip, hraw⟩ := Outcome.exists_mem_zip_of_mapM hparams hinserted
    refine ⟨raw, (Model.valueAt record c).truncated, List.mem_append_left _ ?_, ?_, ?_⟩
    · rw [List.zip_map_left]
      exact List.mem_map_of_mem hzip
    · have hisA := (Model.eq_of_insert hs).2.1 c hinserted
      exact Stored.read_eq_ok_iff.2 (Stored.read?_of_stored hisA hraw)
    · exact .kept hauto (getElem?_of_insert hm hs (List.mem_of_mem_filter hc))
  · have hcounted : c ∈ m.counted := List.mem_filter.2 ⟨hc, hauto⟩
    obtain ⟨k, hk, hstorable⟩ := exists_int_of_counted hm hcounted
    refine ⟨.integer id, .int k ⟨id.toInt, hid c hcounted k hk⟩, List.mem_append_right _ ?_, ?_,
      .counted hauto hk rfl⟩
    · exact List.mem_map_of_mem hcounted
    · rw [hk]
      exact Stored.read_eq_ok_iff.2 (Value.ofInt?_of_storable hstorable ⟨id.toInt, _⟩)

/-- A record that can be inserted is read back from its row, in whatever order the store gives the
columns: with the values that it had, the number that the row got, and the defaults of the ignored
fields. -/
theorem ofRow_of_insert : ∃ values r,
    s = .insert m.table (m.inserted.map Column.name) values ∧ s.request = .ok r ∧
    ∀ id : Number .int64,
      (∀ c ∈ m.counted, ∀ k, c.ty = .int k → k.min ≤ id.toInt ∧ id.toInt ≤ k.max) →
    ∀ entries, entries.Perm (m.written r.params id) →
    ∀ {α : Type} (t : RecordType α), (∀ c ∈ m.stored, t.Keeps c) →
      ∃ a, t.ofRow m (Row.ofList entries) = .ok a ∧
        (∀ c ∈ m.stored, ∃ v, (t.record a)[c.index]? = some v ∧ c.Returns record id v) ∧
        ∀ c ∈ m.columns, c.isStored = false →
          (t.record a)[c.index]? = (t.record t.blank)[c.index]? := by
  obtain ⟨r, hr, hparams⟩ := params_of_insert hm hs
  refine ⟨_, r, (Model.eq_of_insert hs).2.2, hr, fun id hid entries hentries α t ht => ?_⟩
  have hnodup : (entries.map Prod.fst).Nodup := by
    rw [(hentries.map Prod.fst).nodup_iff]
    exact nodup_written hm (Outcome.length_of_mapM hparams) id
  have hrow : ∀ c ∈ m.stored, ∃ raw v, (Row.ofList entries).Holds c.name raw ∧
      raw.read c.ty = .ok v ∧ c.Returns record id v := by
    intro c hc
    obtain ⟨raw, v, hmem, hv⟩ := exists_written_read hm hs hparams hid hc
    exact ⟨raw, v, Row.holds_ofList hnodup (hentries.mem_iff.2 hmem), hv⟩
  obtain ⟨hd, key, -, rfl⟩ := Declaration.eq_of_build hm
  have hindexes := Declaration.nodup_index_columnsOf d.fields
  obtain ⟨⟨row, a⟩, hwalk, hvalues, hframe⟩ := RecordType.foldlM_loadColumn (a := t.blank) ht
    (hd.nodup_name_columnsOf.sublist (List.filter_sublist.map _))
    (hindexes.sublist (List.filter_sublist.map _)) hrow
  refine ⟨a, ?_, hvalues, fun c hc hstored => hframe c.index fun hmem => ?_⟩
  · rw [RecordType.ofRow, hwalk]
    rfl
  · obtain ⟨c', hc', hindex⟩ := List.mem_map.1 hmem
    obtain ⟨hcolumn', hstored'⟩ := List.mem_filter.1 hc'
    rw [List.inj_on_of_nodup_map hindexes hcolumn' hc hindex, hstored] at hstored'
    cases hstored'

end

/-- A type whose values give the value of each place. -/
def RecordType.byPlace (d : NamedDeclaration) (blank : Nat → Value) : RecordType (Nat → Value) where
  toNamedDeclaration := d
  blank := blank
  record values := (List.range d.declaration.fields.length).map values
  load c v values := .ok (Function.update values c.index v)

theorem RecordType.keeps_byPlace {d : NamedDeclaration} {blank : Nat → Value} {c : Column}
    (hc : c.index < d.declaration.fields.length) : (byPlace d blank).Keeps c := by
  intro v values _
  refine ⟨_, rfl, ?_, fun i hi => ?_⟩
  · simp [byPlace, hc]
  · simp only [byPlace, List.getElem?_map]
    rcases hplace : (List.range d.declaration.fields.length)[i]? with _ | j
    · rfl
    · obtain ⟨-, rfl⟩ := List.getElem?_eq_some_iff.1 hplace
      simp [Function.update_of_ne hi]

/-- A visit that is not counted yet, whose cache is not kept. -/
def visitRecord : Record := [.text "cold", Value.early, .null, .null]

def visitEntries : List (String × Stored) :=
  [("id", .integer (.clamp _ 7)), ("Score", .null), ("at", .integer ⟨-90, by decide⟩)]

def visitType : RecordType (Nat → Value) :=
  .byPlace ⟨"Visit", Declaration.visitDeclaration⟩ fun _ => .text "warm"

/-- The visit is read back at a whole second, with the cache at its default. -/
theorem ofRow_of_insert_visits :
    ∃ values, visitType.ofRow Declaration.visits (.ofList visitEntries) = .ok values ∧
      values 0 = .text "warm" ∧ values 1 = .timestamp ⟨-90, 0, by decide, by decide⟩ := by
  have hinsert : Declaration.visits.insert visitRecord
      = .ok (.insert "Visit" ["at", "Score"] [Value.early, .null]) := by decide +kernel
  obtain ⟨-, r, -, hr, hback⟩ := ofRow_of_insert Declaration.build_visitDeclaration hinsert
  have hrequest : (Statement.insert "Visit" ["at", "Score"] [Value.early, .null]).request
      = .ok ⟨"INSERT INTO Visit (at, Score) VALUES (?, ?);",
          [.integer ⟨-90, by decide⟩, .null]⟩ := by decide +kernel
  obtain rfl := Except.ok.inj (hr.symm.trans hrequest)
  have hkeeps : ∀ c ∈ Declaration.visits.stored, visitType.Keeps c := by
    intro c hc
    have hindex : ∀ c ∈ Declaration.visits.stored, c.index < 4 := by decide
    exact RecordType.keeps_byPlace (hindex c hc)
  have hid : ∀ c ∈ Declaration.visits.counted, ∀ k, c.ty = .int k → k.min ≤ 7 ∧ 7 ≤ k.max := by
    have hcounted : Declaration.visits.counted = [Declaration.visits.key] := by decide +kernel
    intro c hc k hk
    rw [hcounted, List.mem_singleton] at hc
    obtain rfl : IntType.int32 = k := by
      rw [hc] at hk
      injection hk
    decide
  obtain ⟨values, hvalues, hstored, hignored⟩ :=
    hback ⟨7, by decide⟩ hid visitEntries (by decide +kernel) visitType hkeeps
  refine ⟨values, hvalues, ?_, ?_⟩
  · exact Option.some.inj (hignored Declaration.visits.columns[0] (by decide) rfl)
  · obtain ⟨v, hv, hreturns⟩ := hstored Declaration.visits.columns[1] (by decide)
    have hvalue : values 1 = v := Option.some.inj hv
    cases hreturns with
    | kept _ hrecord =>
      rw [hvalue, ← Option.some.inj hrecord]
      rfl
    | counted hauto => cases hauto

end RecordMap
