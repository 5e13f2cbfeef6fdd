import RecordMap.Proofs.Outcome
import RecordMap.Proofs.WellFormed

/-!
# What the statements of a record contain

A record has a value for each field of its declaration, in the order of the fields (`entries`).  An
insertion brings the entries that go to the table and do not count up, an update sets the ones that
are no key, and updates and deletions go by the entry of the key.

Each statement makes its demands on the record one after the other: on its length, on its key, and
then field by field on the type of the value and on null.  The statement comes of a record that
meets them all, and of any other the fault of the first that it does not (`statements_of_record`).
-/

namespace RecordMap

open Sql

/-- A condition on a record, and the fault of a record that does not meet it. -/
structure Demand where
  met : Bool
  fault : Fault

namespace Demand

/-- `a` if all of the demands are met, or else the fault of the first that is not. -/
def enforce {α : Type} (a : α) : List Demand → Outcome α
  | [] => .ok a
  | d :: ds => if d.met then enforce a ds else .error d.fault

/-- The fault is that of the first demand that is not met. -/
inductive First : List Demand → Fault → Prop
  | here {d : Demand} {ds : List Demand} (h : d.met = false) : First (d :: ds) d.fault
  | next {d : Demand} {ds : List Demand} {e : Fault} (h : d.met = true) (rest : First ds e) :
    First (d :: ds) e

variable {α β : Type} {a : α} {b : β} {d : Demand} {ds es : List Demand}

theorem enforce_cons_of_met (h : d.met = true) : enforce a (d :: ds) = enforce a ds := if_pos h

theorem enforce_cons_of_not_met (h : d.met = false) : enforce a (d :: ds) = .error d.fault := by
  rw [enforce, h]
  rfl

theorem enforce_unless (broken : Bool) (c : Cause) (a : α) :
    (if broken then Outcome.fail c else pure a) = enforce a [⟨!broken, .ofCause c⟩] := by
  cases broken <;> rfl

/-- What comes after demands that are all met makes demands of its own. -/
theorem enforce_bind (f : α → Outcome β) : ∀ {ds : List Demand},
    ((∀ d ∈ ds, d.met = true) → f a = enforce b es) → enforce a ds >>= f = enforce b (ds ++ es)
  | [], h => h (List.forall_mem_nil _)
  | d :: ds, h => by
    rcases hd : d.met with _ | _
    · rw [List.cons_append, enforce_cons_of_not_met hd, enforce_cons_of_not_met hd]
      rfl
    · rw [List.cons_append, enforce_cons_of_met hd, enforce_cons_of_met hd]
      exact enforce_bind f fun hds => h (List.forall_mem_cons.2 ⟨hd, hds⟩)

theorem enforce_bind_pure (f : α → β) (ds : List Demand) :
    (enforce a ds >>= fun a => pure (f a)) = enforce (f a) ds := by
  have hbind : (enforce a ds >>= fun a => pure (f a)) = enforce (f a) (ds ++ []) :=
    enforce_bind (fun a => pure (f a)) fun _ => rfl
  rwa [List.append_nil] at hbind

/-- A walk that makes its demands element by element makes them all in order. -/
theorem mapM_enforce (g : α → β) (demands : α → List Demand) : ∀ as : List α,
    as.mapM (fun a => enforce (g a) (demands a)) = enforce (as.map g) (as.flatMap demands)
  | [] => rfl
  | a :: as => by
    rw [List.mapM_cons, List.flatMap_cons, mapM_enforce g demands as]
    exact enforce_bind (fun b => enforce (as.map g) (as.flatMap demands) >>= fun bs => pure (b :: bs))
      fun _ => enforce_bind_pure _ _

theorem enforce_eq_ok_iff {x : α} : ∀ {ds : List Demand},
    enforce a ds = .ok x ↔ (∀ d ∈ ds, d.met = true) ∧ x = a
  | [] => by
    rw [enforce, Except.ok.injEq, eq_comm]
    exact (and_iff_right (List.forall_mem_nil _)).symm
  | d :: ds => by
    rw [List.forall_mem_cons]
    rcases hd : d.met with _ | _
    · rw [enforce_cons_of_not_met hd]
      constructor
      · intro h
        cases h
      · rintro ⟨⟨h, -⟩, -⟩
        cases h
    · rw [enforce_cons_of_met hd, enforce_eq_ok_iff, eq_self, true_and]

theorem enforce_eq_error_iff {e : Fault} : ∀ {ds : List Demand},
    enforce a ds = .error e ↔ First ds e
  | [] => by
    constructor
    · intro h
      cases h
    · intro h
      cases h
  | d :: ds => by
    rcases hd : d.met with _ | _
    · rw [enforce_cons_of_not_met hd]
      constructor
      · intro h
        rw [← Except.error.inj h]
        exact .here hd
      · intro h
        cases h with
        | here => rfl
        | next hmet => exact absurd (hmet.symm.trans hd) (by decide)
    · rw [enforce_cons_of_met hd, enforce_eq_error_iff]
      constructor
      · exact .next hd
      · intro h
        cases h with
        | here hmet => exact absurd (hmet.symm.trans hd) (by decide)
        | next _ rest => exact rest

end Demand

/-- The computation succeeds if all of the demands are met, and then comes to `a`.  Otherwise it
comes to the fault of the first that is not. -/
structure Outcome.Enforces {α : Type} (x : Outcome α) (ds : List Demand) (a : α) : Prop where
  ok_iff : (∃ b, x = .ok b) ↔ ∀ d ∈ ds, d.met = true
  value : ∀ b, x = .ok b → b = a
  error_iff : ∀ e, x = .error e ↔ Demand.First ds e

theorem Demand.enforces {α : Type} (a : α) (ds : List Demand) : (enforce a ds).Enforces ds a where
  ok_iff := by
    constructor
    · rintro ⟨b, hb⟩
      exact (enforce_eq_ok_iff.1 hb).1
    · intro hmet
      exact ⟨a, enforce_eq_ok_iff.2 ⟨hmet, rfl⟩⟩
  value _ hb := (enforce_eq_ok_iff.1 hb).2
  error_iff _ := enforce_eq_error_iff

/-- A field with the value that a record has for it. -/
structure Entry where
  field : Field
  value : Value

namespace Entry

variable (x : Entry) (table : String)

def isKey : Bool := x.field.key.isSome

/-- Whether an insertion brings the value, which the store does not make itself. -/
def isInserted : Bool := !x.field.ignored && !x.field.autoIncrement.isSome

def isUpdated : Bool := !x.field.ignored && !x.isKey

def column : String := x.field.columnName

/-- The value under the name of its column. -/
def pair : String × Value := (x.column, x.value)

def typed : Demand where
  met := x.value.isA x.field.ty
  fault := (Fault.ofCause (.conversion x.value x.field.ty.label)).context
    (.ofCause (.remark (.writing x.column table)))

def given : Demand where
  met := !x.value.isNullOrNil
  fault := .ofCause (.nullConstraint table x.column)

/-- What an update or a deletion demands of the key. -/
def identifying : Demand where
  met := !x.value.isMissingKey
  fault := .ofCause (.missingKey table x.column x.value)

/-- The demands on a value, which only may not be null if it is `required`. -/
def demands (required : Bool) : List Demand :=
  x.typed table :: if required then [x.given table] else []

end Entry

namespace Declaration

variable (d : Declaration) (record : Record)

def entries : List Entry := List.zipWith Entry.mk d.fields record

def keyEntries : List Entry := (d.entries record).filter Entry.isKey

def insertedEntries : List Entry := (d.entries record).filter Entry.isInserted

def updatedEntries : List Entry := (d.entries record).filter Entry.isUpdated

/-- The record has as many values as there are fields. -/
def sized : Demand where
  met := record.length = d.fields.length
  fault := .ofCause (.model d.name (.recordSize record.length d.fields.length))

def insertDemands : List Demand :=
  d.sized record :: (d.insertedEntries record).flatMap fun x =>
    x.demands d.tableName (x.field.notNull.isSome || x.isKey)

def deleteDemands : List Demand :=
  d.sized record :: (d.keyEntries record).flatMap fun x =>
    [x.typed d.tableName, x.identifying d.tableName]

/-- There is something to set besides the key. -/
def updating : Demand where
  met := !(d.updatedEntries record).isEmpty
  fault := .ofCause (.model d.name .nothingToUpdate)

def updateDemands : List Demand :=
  d.deleteDemands record ++
    (d.updatedEntries record).flatMap (fun x => x.demands d.tableName x.field.notNull.isSome) ++
    [d.updating record]

/-- The entry of the column that stands at a place of the declaration. -/
def entryAt (record : Record) (p : Field × Nat) : Entry := ⟨p.1, record.getD p.2 .null⟩

variable {d : Declaration} {record : Record}

theorem length_of_sized (h : (d.sized record).met = true) : record.length = d.fields.length :=
  of_decide_eq_true h

theorem entries_eq (h : record.length = d.fields.length) :
    d.entries record = d.fields.zipIdx.map (entryAt record) := by
  refine List.ext_getElem? fun i => ?_
  rw [entries, List.getElem?_zipWith, List.getElem?_map, List.getElem?_zipIdx]
  rcases Nat.lt_or_ge i record.length with hi | hi
  · rw [List.getElem?_eq_getElem hi, List.getElem?_eq_getElem (h ▸ hi)]
    simp [entryAt, hi]
  · rw [List.getElem?_eq_none hi, List.getElem?_eq_none (h ▸ hi)]
    rfl

/-- A walk over columns of a model is one over the entries of a record, if it goes by the fields of
the columns and by their places only. -/
theorem mapM_filter_columnsOf {β : Type} (h : record.length = d.fields.length) {p : Column → Bool}
    {q : Entry → Bool} (hpq : ∀ f ∈ d.fields, ∀ i v, p (f.columnAt i) = q ⟨f, v⟩)
    {g : Column → Outcome β} {g' : Entry → Outcome β}
    (hg : ∀ f i, g (f.columnAt i) = g' ⟨f, record.getD i .null⟩) :
    ((columnsOf d.fields).filter p).mapM g = ((d.entries record).filter q).mapM g' := by
  have hwalk : (g ∘ fun p : Field × Nat => p.1.columnAt p.2) = g' ∘ entryAt record :=
    funext fun p => hg p.1 p.2
  rw [entries_eq h, columnsOf, List.filter_map, List.filter_map, List.mapM_map, List.mapM_map,
    hwalk]
  congr 1
  refine List.filter_congr fun p hp => hpq p.1 ?_ p.2 _
  exact List.fst_mem_of_mem_zipIdx hp

end Declaration

theorem Field.not_isNullable_columnAt (f : Field) (i : Nat) :
    (!(f.columnAt i).isNullable) = f.notNull.isSome := Option.not_isNone f.notNull

namespace Model

variable {d : Declaration} {m : Model} {record : Record}

theorem columnValue_eq_enforce (m : Model) (f : Field) (i : Nat) (record : Record) :
    m.columnValue (f.columnAt i) record = Demand.enforce (record.getD i .null)
      [Entry.typed ⟨f, record.getD i .null⟩ m.table] := by
  rcases hv : (record.getD i .null).isA f.ty with _ | _
  · rw [Demand.enforce_cons_of_not_met hv]
    exact if_neg (Bool.eq_false_iff.1 hv)
  · rw [Demand.enforce_cons_of_met hv]
    exact if_pos hv

theorem fieldValue_eq_enforce (m : Model) (required : Bool) (f : Field) (i : Nat)
    (record : Record) :
    m.fieldValue record required (f.columnAt i) = Demand.enforce
      (Entry.pair ⟨f, record.getD i .null⟩)
      (Entry.demands ⟨f, record.getD i .null⟩ m.table required) := by
  rw [fieldValue, columnValue_eq_enforce, Entry.demands]
  refine Demand.enforce_bind _ fun _ => ?_
  cases required with
  | false => rfl
  | true => exact Demand.enforce_unless _ _ _

section

variable (hm : d.build = .ok m)

include hm

theorem name_of_build : m.name = d.name := by
  obtain ⟨-, key, -, rfl⟩ := Declaration.eq_of_build hm
  rfl

theorem table_of_build : m.table = d.tableName := by
  obtain ⟨-, key, -, rfl⟩ := Declaration.eq_of_build hm
  rfl

theorem checkRecord_eq_enforce (record : Record) :
    m.checkRecord record = Demand.enforce () [d.sized record] := by
  obtain ⟨-, key, -, rfl⟩ := Declaration.eq_of_build hm
  unfold checkRecord
  rw [Declaration.length_columnsOf]
  by_cases hlength : record.length = d.fields.length
  · rw [if_pos hlength, Demand.enforce_cons_of_met (decide_eq_true hlength)]
    rfl
  · rw [if_neg hlength, Demand.enforce_cons_of_not_met (decide_eq_false hlength)]
    rfl

theorem checkRecord_bind {α : Type} {a : α} {ds : List Demand} (f : Unit → Outcome α)
    (h : record.length = d.fields.length → f () = Demand.enforce a ds) :
    m.checkRecord record >>= f = Demand.enforce a (d.sized record :: ds) := by
  rw [checkRecord_eq_enforce hm]
  exact Demand.enforce_bind f fun hmet => h (Declaration.length_of_sized (hmet _ (by simp)))

theorem mapM_inserted (hlength : record.length = d.fields.length) :
    m.inserted.mapM (fun c => m.fieldValue record (!c.isNullable || c.isKey) c)
      = Demand.enforce ((d.insertedEntries record).map Entry.pair)
        ((d.insertedEntries record).flatMap fun x =>
          x.demands d.tableName (x.field.notNull.isSome || x.isKey)) := by
  obtain ⟨hd, key, -, rfl⟩ := Declaration.eq_of_build hm
  rw [← Demand.mapM_enforce, inserted, stored, List.filter_filter]
  refine Declaration.mapM_filter_columnsOf hlength (fun f hf i v => ?_) fun f i => ?_
  · rw [(hd.fields f hf).isStored_columnAt, Bool.and_comm]
    rfl
  · rw [fieldValue_eq_enforce, f.not_isNullable_columnAt]
    rfl

/-- A key of the table may count up, but nothing else does, so an update leaves out the key only. -/
theorem mapM_updated (hlength : record.length = d.fields.length) :
    m.updated.mapM (fun c => m.fieldValue record (!c.isNullable) c)
      = Demand.enforce ((d.updatedEntries record).map Entry.pair)
        ((d.updatedEntries record).flatMap fun x =>
          x.demands d.tableName x.field.notNull.isSome) := by
  obtain ⟨hd, key, -, rfl⟩ := Declaration.eq_of_build hm
  rw [← Demand.mapM_enforce, updated, inserted, stored, List.filter_filter, List.filter_filter]
  refine Declaration.mapM_filter_columnsOf hlength (fun f hf i v => ?_) fun f i => ?_
  · have hcounted : f.ignored = false → f.autoIncrement.isSome = true → f.key.isSome = true :=
      fun hstored hauto => (((hd.fields f hf).storable hstored).counted hauto).1
    rw [(hd.fields f hf).isStored_columnAt]
    change (!f.key.isSome && !f.autoIncrement.isSome && !f.ignored) = (!f.ignored && !f.key.isSome)
    rcases hignored : f.ignored with _ | _
    · rcases hauto : f.autoIncrement.isSome with _ | _
      · simp
      · rw [hcounted hignored hauto]
        rfl
    · simp
  · rw [fieldValue_eq_enforce, f.not_isNullable_columnAt]

theorem insert_eq_enforce (record : Record) :
    m.insert record = Demand.enforce (.insert d.tableName
      ((d.insertedEntries record).map Entry.column) ((d.insertedEntries record).map Entry.value))
      (d.insertDemands record) := by
  refine checkRecord_bind hm _ fun hlength => ?_
  rw [mapM_inserted hm hlength]
  refine (Demand.enforce_bind_pure _ _).trans ?_
  rw [List.map_map, List.map_map, table_of_build hm]
  rfl

theorem length_keyEntries (hlength : record.length = d.fields.length) :
    (d.keyEntries record).length = 1 := by
  obtain ⟨hd, -⟩ := Declaration.eq_of_build hm
  have hfields : d.fields.zipIdx.map Prod.fst = d.fields := List.zipIdx_map_fst 0 d.fields
  rw [← hd.key, ← hfields, Declaration.keyEntries, Declaration.entries_eq hlength,
    ← List.countP_eq_length_filter, List.countP_map, List.countP_map]
  rfl

/-- In a record of the right length the key has one entry, and updates and deletions go by it. -/
theorem exists_keyEntry (record : Record) : ∃ k : Entry,
    (record.length = d.fields.length → d.keyEntries record = [k]) ∧
      m.keyValue record = Demand.enforce k.pair (d.deleteDemands record) := by
  obtain ⟨hd, key, hkey, hm'⟩ := Declaration.eq_of_build hm
  obtain ⟨f, hf, hat, hcolumn⟩ := Declaration.mem_columnsOf (List.mem_of_find?_eq_some hkey)
  have hisKey : f.key.isSome = true := by
    have := List.find?_some hkey
    rwa [hcolumn] at this
  have hentries : record.length = d.fields.length →
      d.keyEntries record = [⟨f, record.getD key.index .null⟩] := fun hlength => by
    obtain ⟨k, hk⟩ := List.length_eq_one_iff.1 (length_keyEntries hm hlength)
    have hmem : ⟨f, record.getD key.index .null⟩ ∈ d.keyEntries record := by
      refine List.mem_filter.2 ⟨?_, hisKey⟩
      rw [Declaration.entries_eq hlength]
      exact List.mem_map.2 ⟨(f, key.index), List.mem_zipIdx_iff_getElem?.2 hat, rfl⟩
    rw [hk, List.mem_singleton] at hmem
    rw [hk, hmem]
  refine ⟨⟨f, record.getD key.index .null⟩, hentries, checkRecord_bind hm _ fun hlength => ?_⟩
  rw [hentries hlength, hm', hcolumn, columnValue_eq_enforce]
  exact Demand.enforce_bind _ fun _ => Demand.enforce_unless _ _ _

theorem delete_eq_enforce {k : Entry}
    (hk : m.keyValue record = Demand.enforce k.pair (d.deleteDemands record)) :
    m.delete record = Demand.enforce (.delete d.tableName k.pair) (d.deleteDemands record) := by
  rw [delete, hk]
  refine (Demand.enforce_bind_pure _ _).trans ?_
  rw [table_of_build hm]

theorem update_eq_enforce {k : Entry}
    (hk : m.keyValue record = Demand.enforce k.pair (d.deleteDemands record)) :
    m.update record = Demand.enforce
      (.update d.tableName ((d.updatedEntries record).map Entry.pair) k.pair)
      (d.updateDemands record) := by
  rw [update, hk, Declaration.updateDemands, List.append_assoc]
  refine Demand.enforce_bind _ fun hmet => ?_
  have hlength : record.length = d.fields.length :=
    Declaration.length_of_sized (hmet _ List.mem_cons_self)
  rw [mapM_updated hm hlength]
  refine Demand.enforce_bind _ fun _ => ?_
  rw [List.isEmpty_map, name_of_build hm, table_of_build hm]
  exact Demand.enforce_unless _ _ _

end

end Model

theorem Entry.field_sublist : ∀ (fs : List Field) (record : Record),
    ((List.zipWith Entry.mk fs record).map Entry.field).Sublist fs
  | [], _ => List.Sublist.refl _
  | _ :: _, [] => List.nil_sublist _
  | f :: fs, _ :: record => (field_sublist fs record).cons_cons f

/-- No two entries go to one column. -/
theorem Declaration.nodup_column_entries {d : Declaration} (hd : d.WellFormed) (record : Record) :
    ((d.entries record).map Entry.column).Nodup := by
  have hsublist := (Entry.field_sublist d.fields record).map Field.columnName
  rw [List.map_map] at hsublist
  exact hd.nodup_columnName.sublist hsublist

/-- Insertions, updates and deletions make their demands on a record in order.  If it meets them
all, an insertion brings the values that go to the table and do not count up, and an update sets all
but the key, in the order of the declaration and each under the name of its own column; updates and
deletions go by the one entry of the key. -/
theorem statements_of_record {d : Declaration} {m : Model} (hm : d.build = .ok m)
    (record : Record) : ∃ k : Entry,
    (record.length = d.fields.length → d.keyEntries record = [k]) ∧
    (m.insert record).Enforces (d.insertDemands record) (.insert d.tableName
      ((d.insertedEntries record).map Entry.column) ((d.insertedEntries record).map Entry.value)) ∧
    (m.update record).Enforces (d.updateDemands record)
      (.update d.tableName ((d.updatedEntries record).map Entry.pair) k.pair) ∧
    (m.delete record).Enforces (d.deleteDemands record) (.delete d.tableName k.pair) ∧
    ((d.insertedEntries record).map Entry.column).Nodup ∧
    ((d.updatedEntries record).map Entry.column).Nodup := by
  obtain ⟨k, hk, hkey⟩ := Model.exists_keyEntry hm record
  have hnodup := Declaration.nodup_column_entries (Declaration.eq_of_build hm).1 record
  refine ⟨k, hk, ?_, ?_, ?_, hnodup.sublist (List.filter_sublist.map _),
    hnodup.sublist (List.filter_sublist.map _)⟩
  · rw [Model.insert_eq_enforce hm]
    exact Demand.enforces _ _
  · rw [Model.update_eq_enforce hm hkey]
    exact Demand.enforces _ _
  · rw [Model.delete_eq_enforce hm hkey]
    exact Demand.enforces _ _

/-- A visit that has no number yet. -/
def newVisit : Record := [.text "cold", Value.early, .int .int32 (Number.zero _), .null]

/-- The visit can be inserted, whatever is in its cache and its number, but not deleted. -/
theorem statements_of_record_visits :
    Declaration.visits.insert newVisit
      = .ok (.insert "Visit" ["at", "Score"] [Value.early, .null]) ∧
    Declaration.visits.delete newVisit
      = Outcome.fail (.missingKey "Visit" "id" (.int .int32 (Number.zero _))) := by
  obtain ⟨k, -, hinsert, -, hdelete, -⟩ :=
    statements_of_record Declaration.build_visitDeclaration newVisit
  refine ⟨?_, (hdelete.error_iff _).2 ?_⟩
  · obtain ⟨s, hs⟩ := hinsert.ok_iff.2 (by decide +kernel)
    rw [hs, hinsert.value s hs]
    rfl
  · exact .next rfl (.next rfl (.here rfl))

end RecordMap
