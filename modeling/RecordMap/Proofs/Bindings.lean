import RecordMap.Proofs.OneStatement
import RecordMap.Proofs.Unambiguous

/-!
# What statements bind

A statement that could be made of a record can be sent (`exists_request_of_write`).  For each of its
columns it binds the value of the record, in the form in which a field of the column's type is kept.
The value was checked against the type when the statement was made, and the type when the model was,
so nothing is left that could fail.

Hence a batch that has begun to call the store can only fail with a fault of the store's
(`Course.fault?_eq`).
-/

namespace RecordMap

open Sql

/-- The statements that bind values of a record. -/
inductive Writing
  | insert
  | update
  | delete

namespace Model

def write (m : Model) : Writing → Record → Outcome Statement
  | .insert => m.insert
  | .update => m.update
  | .delete => m.delete

/-- The columns that a statement binds values for, in the order of its placeholders. -/
def boundColumns (m : Model) : Writing → List Column
  | .insert => m.inserted
  | .update => m.updated ++ [m.key]
  | .delete => [m.key]

end Model

/-- The names under which a statement binds its values, in the order of the placeholders. -/
def Sql.Statement.boundNames : Statement → List String
  | .insert _ columns _ => columns
  | .update _ assignments key => assignments.map Prod.fst ++ [key.1]
  | .delete _ key => [key.1]
  | .createTable _ _ | .dropTable _ _ | .select _ _ => []

theorem Sql.Statement.params_serialize {s : Statement} (hs : s.Formed) (framed : Bool) :
    (s.serialize framed).params = s.bound := by
  rw [← params_pieces hs, ← hs.body_eq]
  cases framed <;> rfl

namespace Model

variable {m : Model} {record : Record} {s : Statement}

theorem eq_of_keyValue {key : String × Value} (h : m.keyValue record = .ok key) :
    record.length = m.columns.length ∧ (valueAt record m.key).isA m.key.ty = true ∧
      key = (m.key.name, valueAt record m.key) := by
  obtain ⟨u, hcheck, h⟩ := Outcome.bind_eq_ok h
  obtain ⟨v, hv, h⟩ := Outcome.bind_eq_ok h
  obtain ⟨rfl, hisA⟩ := isA_of_columnValue hv
  split_ifs at h
  · cases h
  · exact ⟨checkRecord_eq_ok hcheck, hisA, (Except.ok.inj h).symm⟩

/-- What the update of a record says, and what has been checked of the record. -/
theorem eq_of_update (h : m.update record = .ok s) :
    record.length = m.columns.length ∧
      (∀ c ∈ m.updated ++ [m.key], (valueAt record c).isA c.ty = true) ∧
      s = .update m.table (m.updated.map fun c => (c.name, valueAt record c))
        (m.key.name, valueAt record m.key) := by
  obtain ⟨key, hkey, h⟩ := Outcome.bind_eq_ok h
  obtain ⟨hlength, hisA, rfl⟩ := eq_of_keyValue hkey
  obtain ⟨pairs, hpairs, h⟩ := Outcome.bind_eq_ok h
  have hmap : pairs = m.updated.map fun c => (c.name, valueAt record c) :=
    Outcome.eq_map_of_mapM hpairs fun ha => (isA_of_fieldValue ha).1
  refine ⟨hlength, List.forall_mem_append.2 ⟨fun c hc => ?_, by simpa using hisA⟩, ?_⟩
  · obtain ⟨a, -, ha⟩ := Outcome.exists_mem_zip_of_mapM hpairs hc
    exact (isA_of_fieldValue ha).2
  · split_ifs at h
    · cases h
    · rw [← Except.ok.inj h, hmap]

theorem eq_of_delete (h : m.delete record = .ok s) :
    record.length = m.columns.length ∧ (valueAt record m.key).isA m.key.ty = true ∧
      s = .delete m.table (m.key.name, valueAt record m.key) := by
  obtain ⟨key, hkey, h⟩ := Outcome.bind_eq_ok h
  obtain ⟨hlength, hisA, rfl⟩ := eq_of_keyValue hkey
  exact ⟨hlength, hisA, (Except.ok.inj h).symm⟩

/-- A statement binds the values that the record has for its columns, each of its column's type. -/
theorem bound_of_write {k : Writing} (h : m.write k record = .ok s) :
    record.length = m.columns.length ∧
      (∀ c ∈ m.boundColumns k, (valueAt record c).isA c.ty = true) ∧
      s.boundNames = (m.boundColumns k).map Column.name ∧
      s.bound = (m.boundColumns k).map (valueAt record) := by
  cases k with
  | insert =>
    obtain ⟨hlength, hisA, rfl⟩ := eq_of_insert h
    exact ⟨hlength, hisA, rfl, rfl⟩
  | update =>
    obtain ⟨hlength, hisA, rfl⟩ := eq_of_update h
    exact ⟨hlength, hisA, by simp [Statement.boundNames, boundColumns],
      by simp [Statement.bound, boundColumns]⟩
  | delete =>
    obtain ⟨hlength, hisA, rfl⟩ := eq_of_delete h
    exact ⟨hlength, by simpa [boundColumns] using hisA, rfl, rfl⟩

theorem made_of_write {k : Writing} (h : m.write k record = .ok s) : s.Made := by
  cases k with
  | insert => exact .insert h
  | update => exact .update h
  | delete => exact .delete h

section

variable {d : Declaration} (hm : d.build = .ok m)

include hm

theorem key_mem_stored : m.key ∈ m.stored := by
  obtain ⟨hd, key, hkey, rfl⟩ := Declaration.eq_of_build hm
  have hmem : key ∈ Declaration.columnsOf d.fields := List.mem_of_find?_eq_some hkey
  have hisKey : key.isKey = true := List.find?_some hkey
  obtain ⟨f, hf, -, hcolumn⟩ := Declaration.mem_columnsOf hmem
  refine List.mem_filter.2 ⟨hmem, ?_⟩
  rw [hcolumn] at hisKey ⊢
  rw [(hd.fields f hf).isStored_columnAt, (hd.fields f hf).key hisKey]
  rfl

theorem mem_stored_of_bound {k : Writing} {c : Column} (hc : c ∈ m.boundColumns k) :
    c ∈ m.stored := by
  cases k with
  | insert => exact List.mem_of_mem_filter hc
  | update =>
    rcases List.mem_append.1 hc with hc | hc
    · exact List.mem_of_mem_filter (List.mem_of_mem_filter hc)
    · rw [List.mem_singleton.1 hc]
      exact key_mem_stored hm
  | delete =>
    rw [List.mem_singleton.1 hc]
    exact key_mem_stored hm

/-- What a statement binds for its columns is what fields of their types keep of the record. -/
theorem exists_request_of_write {k : Writing} (h : m.write k record = .ok s) :
    ∃ params, s.request = .ok ⟨(s.serialize false).text, params⟩ ∧
      (m.boundColumns k).mapM (fun c => (valueAt record c).storedAs c.ty) = .ok params := by
  obtain ⟨-, hisA, -, hbound⟩ := bound_of_write h
  have hty : ∀ c ∈ m.boundColumns k, c.ty ≠ .int .uint64 := by
    intro c hc
    have hcolumn := mem_stored_of_bound hm hc
    obtain ⟨f, -, -, hf, hcf⟩ := Declaration.exists_storable_of_stored hm hcolumn
    rw [hcf]
    exact hf.ty
  have hstored : ∀ c ∈ m.boundColumns k,
      (valueAt record c).storedAs c.ty = (valueAt record c).stored :=
    fun c hc => Value.storedAs_of_isA (hty c hc) (hisA c hc)
  obtain ⟨params, hparams⟩ := Outcome.exists_mapM_eq_ok fun c hc =>
    (Value.exists_storedAs (hty c hc) (hisA c hc)).imp fun _ hraw => hraw.1
  refine ⟨params, Statement.request_eq_ok ?_, hparams⟩
  rw [Statement.params_serialize (made_of_write h).formed, hbound, List.mapM_map,
    Outcome.mapM_eq_ok_iff, ← Outcome.map_of_mapM hparams]
  exact (List.map_congr_left hstored).symm

end

end Model

def Outcome.fault? {α : Type} : Outcome α → Option Fault
  | .ok _ => none
  | .error e => some e

theorem Insertions.fault?_eq {rs : List Request} {xs : List Exchange}
    {x : Outcome (List (Number .int64))} (h : Insertions rs xs x) :
    Outcome.fault? x = xs.findSome? Exchange.fault? := by
  induction h with
  | nil => rfl
  | refused r rest e => rfl
  | @inserted rest xs x r id h ih =>
    have hfirst : Exchange.fault? ⟨.insert r, .ok id⟩ = none := rfl
    rw [List.findSome?_cons, hfirst, ← ih]
    cases x <;> rfl

/-- A batch fails with the first fault that the store answers with. -/
theorem Course.fault?_eq {rs : List Request} {xs : List Exchange}
    {x : Outcome (List (Number .int64))} (h : Course rs xs x) :
    Outcome.fault? x = xs.findSome? Exchange.fault? := by
  cases h with
  | unconnected e => rfl
  | unbegun e => rfl
  | committed _ _ h | uncommitted _ _ h | rolledBack _ _ h =>
    have hxs := h.fault?_eq
    simp only [List.findSome?_cons, List.findSome?_append, ← hxs]
    rfl

namespace Engine

variable {α : Type} {e : Engine} {t : RecordType α} {m : Model} {d : Declaration}

/-- A batch is rejected before it calls the store, or all that it has to send is known. -/
theorem insertMany_cases (he : e.config.atomicBatches = true)
    (hm : (e.describe t.toNamedDeclaration).1 = .ok m) (hd : d.build = .ok m) (as : List α) :
    (∃ fault, (e.insertMany t as).1 = .done (.error fault)) ∨
      ∃ rs, (e.insertMany t as).1 = Session.batch rs := by
  rcases as with _ | ⟨a, as⟩
  · exact .inl ⟨_, rfl⟩
  have heq := insertMany_eq he hm (List.cons_ne_nil a as)
  rcases hss : (a :: as).mapM fun a => m.insert (t.record a) with fault | ss <;> rw [hss] at heq
  · exact .inl ⟨fault, heq⟩
  · obtain ⟨rs, hrs⟩ := exists_requests hd hss
    refine .inr ⟨rs, heq.trans ?_⟩
    rw [Session.batch, ← Outcome.map_of_mapM hrs]

end Engine

/-- What can be written can be sent.  A statement that an accepted model makes of a record binds,
for each of its columns, what a field of the column's type keeps of the record's value.  So no batch
that has called the store fails by itself: its fault is the first that the store answers with. -/
theorem sendable_of_build {d : Declaration} {m : Model} (hm : d.build = .ok m) :
    (∀ (k : Writing) (record : Record) (s : Statement), m.write k record = .ok s →
      record.length = m.columns.length ∧
      s.boundNames = (m.boundColumns k).map Column.name ∧
      ∃ params, s.request = .ok ⟨(s.serialize false).text, params⟩ ∧
        (m.boundColumns k).mapM (fun c => (Model.valueAt record c).storedAs c.ty) = .ok params) ∧
    ∀ {α σ : Type} (e : Engine) (t : RecordType α), e.config.atomicBatches = true →
      (e.describe t.toNamedDeclaration).1 = .ok m →
      ∀ (as : List α) (answer : (c : Call) → σ → c.Answer × σ) (st : σ),
        (e.insertMany t as).1.trace answer st ≠ [] →
        Outcome.fault? ((e.insertMany t as).1.result answer st)
          = ((e.insertMany t as).1.trace answer st).findSome? Exchange.fault? := by
  refine ⟨fun k record s hs => ?_, fun e t he hdescribe as answer st hcalled => ?_⟩
  · obtain ⟨hlength, -, hnames, -⟩ := Model.bound_of_write hs
    exact ⟨hlength, hnames, Model.exists_request_of_write hm hs⟩
  · obtain ⟨fault, hbatch⟩ | ⟨rs, hbatch⟩ := Engine.insertMany_cases he hdescribe hm as
    · rw [hbatch] at hcalled
      exact absurd rfl hcalled
    · rw [hbatch]
      exact (course_batch answer rs st).fault?_eq

/-- A note is updated by its key, and of two equal notes the second is refused by the store. -/
theorem sendable_of_build_notes :
    (∃ s params, notes.write .update Engine.noteRecord = .ok s ∧
      s.boundNames = ["what\x22?", "id"] ∧
      s.request = .ok ⟨(s.serialize false).text, params⟩ ∧
      params = [.text "why?", .integer (Number.one _)]) ∧
    Outcome.fault? (Engine.noteSession.result Engine.ledgerAnswer ([], none))
      = (Engine.noteSession.trace Engine.ledgerAnswer ([], none)).findSome? Exchange.fault? := by
  have hnotes : noteDeclaration.build = .ok notes := by decide +kernel
  obtain ⟨hwrite, hbatch⟩ := sendable_of_build hnotes
  have hupdate : notes.write .update Engine.noteRecord
      = .ok (.update "notes" [("what\x22?", .text "why?")] ("id", .int .int64 (Number.one _))) := by
    decide +kernel
  obtain ⟨-, hnames, params, hrequest, hparams⟩ := hwrite _ _ _ hupdate
  refine ⟨⟨_, params, hupdate, hnames, hrequest, ?_⟩, ?_⟩
  · exact Except.ok.inj (hparams.symm.trans (by decide +kernel))
  · exact hbatch _ Engine.noteType rfl (by decide +kernel) _ _ _ (List.cons_ne_nil _ _)

end RecordMap
