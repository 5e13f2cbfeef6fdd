import RecordMap.Engine
import RecordMap.Proofs.Placeholders
import RecordMap.Proofs.WellFormed

/-!
# Insertions into accepted models

An insertion brings the values of its record, one for each column that does not count up, and each
of them has its column's type (`eq_of_insert`).  In an accepted model a stored column has a type
that the store knows.  So what an insertion binds has a stored form, and the insertion can be sent
(`params_of_insert`).
-/

namespace RecordMap

open Sql

namespace Model

variable {m : Model} {record : Record}

def valueAt (record : Record) (c : Column) : Value := record.getD c.index .null

theorem isA_of_columnValue {c : Column} {v : Value} (h : m.columnValue c record = .ok v) :
    v = valueAt record c ∧ v.isA c.ty = true := by
  unfold columnValue at h
  simp only [] at h
  split_ifs at h with hv
  · rw [← Except.ok.inj h]
    exact ⟨rfl, hv⟩
  · cases h

theorem isA_of_fieldValue {required : Bool} {c : Column} {a : String × Value}
    (h : m.fieldValue record required c = .ok a) :
    a = (c.name, valueAt record c) ∧ (valueAt record c).isA c.ty = true := by
  obtain ⟨v, hv, h⟩ := Outcome.bind_eq_ok h
  obtain ⟨rfl, hisA⟩ := isA_of_columnValue hv
  split_ifs at h
  · cases h
  · exact ⟨(Except.ok.inj h).symm, hisA⟩

theorem checkRecord_eq_ok {u : Unit} (h : m.checkRecord record = .ok u) :
    record.length = m.columns.length := by
  unfold checkRecord at h
  split_ifs at h with hlength
  · exact hlength
  · cases h

/-- What the insertion of a record says, and what has been checked of the record. -/
theorem eq_of_insert {s : Statement} (h : m.insert record = .ok s) :
    record.length = m.columns.length ∧
      (∀ c ∈ m.inserted, (valueAt record c).isA c.ty = true) ∧
      s = .insert m.table (m.inserted.map Column.name) (m.inserted.map (valueAt record)) := by
  obtain ⟨u, hcheck, h⟩ := Outcome.bind_eq_ok h
  obtain ⟨pairs, hpairs, h⟩ := Outcome.bind_eq_ok h
  have hmap : pairs = m.inserted.map fun c => (c.name, valueAt record c) :=
    Outcome.eq_map_of_mapM hpairs fun ha => (isA_of_fieldValue ha).1
  refine ⟨checkRecord_eq_ok hcheck, fun c hc => ?_, ?_⟩
  · obtain ⟨a, -, ha⟩ := Outcome.exists_mem_zip_of_mapM hpairs hc
    exact (isA_of_fieldValue ha).2
  · rw [← Except.ok.inj h, hmap, List.map_map, List.map_map]
    rfl

end Model

/-- The values of an insertion are bound as they are, in order. -/
theorem params_insert (framed : Bool) (table : String) {columns : List String} {values : List Value}
    (h : columns = [] → values = []) :
    ((Statement.insert table columns values).serialize framed).params = values := by
  have hparams : ((Statement.insert table columns values).serialize framed).params
      = (Query.ofPieces (Statement.insert table columns values).pieces).params := by
    cases framed <;> simp [Statement.serialize, Query.between, Statement.body, Query.append,
      Statement.condition, Query.empty]
  rw [hparams, Statement.pieces]
  split_ifs with hempty
  · rw [h (List.isEmpty_iff.1 hempty)]
    rfl
  · simp [Query.ofPieces, Query.ofPieces_append, Query.append, Query.params_separated, Query.empty,
      List.flatMap_map]

theorem Sql.Statement.request_eq_ok {s : Statement} {params : List Stored}
    (h : (s.serialize false).params.mapM Value.stored = .ok params) :
    s.request = .ok ⟨(s.serialize false).text, params⟩ := by
  simp only [Statement.request, h]
  rfl

/-- What is sent is the text of the statement and the stored forms of its parameters. -/
theorem Sql.Statement.of_request {s : Statement} {r : Request} (h : s.request = .ok r) :
    r.text = (s.serialize false).text ∧
      (s.serialize false).params.mapM Value.stored = .ok r.params := by
  obtain ⟨params, hparams, h⟩ := Outcome.bind_eq_ok h
  have hr := Except.ok.inj h
  exact ⟨congrArg Request.text hr.symm, hparams.trans (congrArg (Except.ok ·.params) hr)⟩

/-- An insertion into an accepted model can be sent, with the stored forms of its values. -/
theorem params_of_insert {d : Declaration} {m : Model} (hm : d.build = .ok m) {record : Record}
    {s : Statement} (h : m.insert record = .ok s) :
    ∃ r, s.request = .ok r ∧
      m.inserted.mapM (fun c => (Model.valueAt record c).stored) = .ok r.params := by
  obtain ⟨-, hisA, rfl⟩ := Model.eq_of_insert h
  have hstored : ∀ c ∈ m.inserted, ∃ raw, (Model.valueAt record c).stored = .ok raw := by
    intro c hc
    have hcolumn : c ∈ m.stored := List.mem_of_mem_filter hc
    obtain ⟨f, -, -, hf, hcf⟩ := Declaration.exists_storable_of_stored hm hcolumn
    have hty : c.ty ≠ .int .uint64 := by
      rw [hcf]
      exact hf.ty
    exact Value.stored_of_isA hty (hisA c hc)
  obtain ⟨params, hparams⟩ := Outcome.exists_mapM_eq_ok hstored
  refine ⟨⟨_, params⟩, Statement.request_eq_ok ?_, hparams⟩
  rw [params_insert false m.table (by simp), List.mapM_map]
  exact hparams

theorem request_of_insert {d : Declaration} {m : Model} (hm : d.build = .ok m) {record : Record}
    {s : Statement} (h : m.insert record = .ok s) : ∃ r, s.request = .ok r := by
  obtain ⟨r, hr, -⟩ := params_of_insert hm h
  exact ⟨r, hr⟩

end RecordMap
