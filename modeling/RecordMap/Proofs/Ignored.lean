import RecordMap.Proofs.WellFormed
import RecordMap.RecordType
import RecordMap.Sql.Predicate

/-!
# Ignored fields

A declaration without its ignored fields is kept in the same table by the same statements.  The two
models differ in the places of their columns, and in columns that are in no table (`Moved`), and
nothing that is said to the store, or read from it, shows either (`exists_alike_of_build`).
-/

namespace RecordMap

open Sql

def Column.moved (place : Nat → Nat) (c : Column) : Column := { c with index := place c.index }

namespace Filter

mutual

def names : Filter → List String
  | .value _ => []
  | .field name => [name]
  | .binary _ l r => names l ++ names r
  | .captured _ inner => names inner
  | .convert inner _ => names inner
  | .method receiver _ arguments => names receiver ++ namesAll arguments
  | .function _ arguments => namesAll arguments

def namesAll : List Filter → List String
  | [] => []
  | f :: fs => names f ++ namesAll fs

end

variable {m' m : Model} {inline : Bool}

mutual

/-- Models that store the names in a filter alike compile it alike. -/
theorem compile_congr : ∀ (f : Filter),
    (∀ name ∈ f.names, m'.storedName name = m.storedName name) →
      f.compile m' inline = f.compile m inline
  | .value _, _ => rfl
  | .field name, h => by
    rw [compile, compile, h name (List.mem_singleton_self name)]
  | .binary (.arithmetic _) _ _, _ => rfl
  | .binary (.connective _) l r, h => by
    rw [names, List.forall_mem_append] at h
    rw [compile, compile, compile_congr l h.1, compile_congr r h.2]
  | .captured _ inner, h => by
    rw [compile, compile, compile_congr inner h]
  | .convert inner _, h => by
    rw [compile, compile, compile_congr inner h]
  | .method receiver _ arguments, h => by
    rw [names, List.forall_mem_append] at h
    rw [compile, compile, compile_congr receiver h.1, compileAll_congr arguments h.2]
  | .function _ arguments, h => by
    rw [compile, compile, compileAll_congr arguments h]

theorem compileAll_congr : ∀ (fs : List Filter),
    (∀ name ∈ namesAll fs, m'.storedName name = m.storedName name) →
      compileAll m' inline fs = compileAll m inline fs
  | [], _ => rfl
  | f :: fs, h => by
    rw [namesAll, List.forall_mem_append] at h
    rw [compileAll, compileAll, compile_congr f h.1, compileAll_congr fs h.2]

end

end Filter

/-- Two types whose values are filled alike, field by field. -/
structure RecordType.LoadsAs {α : Type} (t' t : RecordType α) : Prop where
  blank : t'.blank = t.blank
  load : ∀ c' c : Column, c.field = c'.field → t.load c = t'.load c'

/-- The columns of one model are the stored columns of the other, from other places. -/
structure Model.Moved (place : Nat → Nat) (m' m : Model) : Prop where
  name : m'.name = m.name
  table : m'.table = m.table
  columns : m'.stored = m'.columns
  stored : m.stored = m'.stored.map (Column.moved place)
  key : m.key = m'.key.moved place

namespace Model

theorem columnDefs_eq (m : Model) : m.columnDefs =
    m.stored.filterMap fun c => c.sqlType.map fun ty => ⟨c.name, ty, c.markers⟩ := by
  unfold columnDefs stored
  rw [List.filterMap_filter]
  congr
  funext c
  unfold Column.isStored
  cases c.sqlType <;> rfl

theorem column?_eq_or (m : Model) (name : String) : m.column? name =
    (m.columns.find? (·.field = name)).or (m.columns.find? (·.name = name)) := by
  unfold column?
  split <;> simp [*]

namespace Moved

variable {place : Nat → Nat} {m' m : Model} (h : Moved place m' m)

include h

theorem createTable_eq : m'.createTable = m.createTable := by
  have hdefs : m'.columnDefs = m.columnDefs := by
    rw [columnDefs_eq, columnDefs_eq, h.stored, List.filterMap_map]
    rfl
  rw [createTable, createTable, hdefs, h.name, h.table]

theorem dropTable_eq (ifExists : Bool) : m'.dropTable ifExists = m.dropTable ifExists := by
  rw [dropTable, dropTable, h.table]

theorem selectAll_eq : m'.selectAll = m.selectAll := by
  rw [selectAll, selectAll, h.table]

theorem inserted_eq : m.inserted = m'.inserted.map (Column.moved place) := by
  rw [inserted, inserted, h.stored, List.filter_map]
  rfl

theorem updated_eq : m.updated = m'.updated.map (Column.moved place) := by
  rw [updated, updated, h.inserted_eq, List.filter_map]
  rfl

section Records

variable {record' record : Record}
  (hvalues : ∀ i, record'.getD i .null = record.getD (place i) .null)

include hvalues

theorem columnValue_eq (c : Column) :
    m.columnValue (c.moved place) record = m'.columnValue c record' := by
  unfold columnValue
  rw [hvalues, h.table]
  rfl

theorem fieldValue_eq (required : Bool) (c : Column) :
    m.fieldValue record required (c.moved place) = m'.fieldValue record' required c := by
  unfold fieldValue
  rw [h.columnValue_eq hvalues, h.table]
  rfl

variable (hcheck' : m'.checkRecord record' = .ok ()) (hcheck : m.checkRecord record = .ok ())

include hcheck' hcheck

theorem keyValue_eq : m'.keyValue record' = m.keyValue record := by
  unfold keyValue
  rw [hcheck', hcheck, h.key, h.columnValue_eq hvalues, h.table]
  rfl

theorem insert_eq : m'.insert record' = m.insert record := by
  unfold insert
  rw [hcheck', hcheck, h.inserted_eq, List.mapM_map, h.table]
  simp only [Function.comp_def, h.fieldValue_eq hvalues]
  rfl

theorem update_eq : m'.update record' = m.update record := by
  unfold update
  rw [h.keyValue_eq hvalues hcheck' hcheck, h.updated_eq, List.mapM_map, h.table, h.name]
  simp only [Function.comp_def, h.fieldValue_eq hvalues]
  rfl

theorem delete_eq : m'.delete record' = m.delete record := by
  unfold delete
  rw [h.keyValue_eq hvalues hcheck' hcheck, h.table]

end Records

/-- A search that no unstored column answers finds the same column, from its other place. -/
theorem find?_eq {p : Column → Bool} (hmoved : ∀ c, p (c.moved place) = p c)
    (hp : ∀ c ∈ m.columns, c.isStored = false → p c = false) :
    m.columns.find? p = (m'.columns.find? p).map (Column.moved place) := by
  have hstored : m.columns.find? p = m.stored.find? p := by
    rw [Model.stored, ← List.head?_filter, ← List.head?_filter, List.filter_filter]
    congr 1
    refine List.filter_congr fun c hc => ?_
    rcases hs : c.isStored with _ | _
    · rw [hp c hc hs]
      rfl
    · rw [Bool.and_true]
  rw [hstored, h.stored, List.find?_map, ← h.columns]
  congr 2
  exact funext hmoved

theorem column?_eq {name : String}
    (hname : ∀ c ∈ m.columns, c.isStored = false → c.field ≠ name ∧ c.name ≠ name) :
    m.column? name = (m'.column? name).map (Column.moved place) := by
  have hfield := h.find?_eq (p := fun c => c.field = name) (fun _ => rfl)
    fun c hc hs => by simpa using (hname c hc hs).1
  have hcolumn := h.find?_eq (p := fun c => c.name = name) (fun _ => rfl)
    fun c hc hs => by simpa using (hname c hc hs).2
  rw [column?_eq_or, column?_eq_or, hfield, hcolumn, Option.map_or]

theorem storedName_eq {name : String}
    (hname : ∀ c ∈ m.columns, c.isStored = false → c.field ≠ name ∧ c.name ≠ name) :
    m'.storedName name = m.storedName name := by
  rw [storedName, storedName, h.column?_eq hname, h.name]
  rcases m'.column? name <;> rfl

theorem predicate_eq {f : Filter} (hf : ∀ name ∈ f.names, ∀ c ∈ m.columns, c.isStored = false →
    c.field ≠ name ∧ c.name ≠ name) (inline : Bool) :
    m'.predicate inline f = m.predicate inline f := by
  rw [predicate, predicate, f.compile_congr fun name hname => h.storedName_eq (hf name hname)]

theorem ofRow_eq {α : Type} {t' t : RecordType α} (ht : t'.LoadsAs t) (row : Row) :
    t'.ofRow m' row = t.ofRow m row := by
  have hcolumn : ∀ (s : Row × α) (c : Column),
      t.loadColumn m s (c.moved place) = t'.loadColumn m' s c := by
    intro s c
    unfold RecordType.loadColumn
    rw [ht.load c (c.moved place) rfl, h.table]
    rfl
  rw [RecordType.ofRow, RecordType.ofRow, h.stored, List.foldlM_map, ht.blank]
  simp only [hcolumn]

end Moved

end Model

namespace Declaration

def kept (d : Declaration) : Declaration :=
  { d with fields := d.fields.filter fun f => !f.ignored }

/-- The values of a record for the fields that are not ignored. -/
def keptValues (d : Declaration) (record : Record) : Record :=
  ((d.fields.zip record).filter fun p => !p.1.ignored).map Prod.snd

def keptPlaces (d : Declaration) : List (Field × Nat) :=
  d.fields.zipIdx.filter fun p => !p.1.ignored

/-- The place of the `i`th field that is not ignored. -/
def place (d : Declaration) (i : Nat) : Nat := (d.keptPlaces.map Prod.snd).getD i d.fields.length

theorem WellFormed.kept {d : Declaration} (h : d.WellFormed) : d.kept.WellFormed where
  table := h.table
  fields f hf := h.fields f (List.mem_of_mem_filter hf)
  names := h.names.filter _
  key := by
    rw [Declaration.kept, List.countP_filter, ← h.key]
    refine List.countP_congr fun f hf => ?_
    have := (h.fields f hf).key
    rw [Bool.and_eq_true, Bool.not_eq_true']
    tauto

theorem fields_kept (d : Declaration) : d.kept.fields = d.keptPlaces.map Prod.fst := by
  have hfields : d.fields.zipIdx.map Prod.fst = d.fields := List.zipIdx_map_fst 0 d.fields
  rw [kept, keptPlaces]
  conv_lhs => rw [← hfields]
  rw [List.filter_map]
  rfl

theorem stored_columnsOf {fs : List Field} (h : ∀ f ∈ fs, f.WellFormed) :
    (columnsOf fs).filter Column.isStored
      = (fs.zipIdx.filter fun p => !p.1.ignored).map fun p => p.1.columnAt p.2 := by
  rw [columnsOf, List.filter_map]
  congr 1
  refine List.filter_congr fun p hp => ?_
  exact (h p.1 (List.fst_mem_of_mem_zipIdx hp)).isStored_columnAt p.2

theorem zip_record {d : Declaration} {record : Record} (h : record.length = d.fields.length) :
    d.fields.zip record = d.fields.zipIdx.map fun p => (p.1, record.getD p.2 .null) := by
  refine List.ext_getElem (by simp [h]) fun i hi hi' => ?_
  rw [List.length_zip] at hi
  have hrecord : i < record.length := by omega
  simp [hrecord]

theorem keptValues_eq {d : Declaration} {record : Record} (h : record.length = d.fields.length) :
    d.keptValues record = d.keptPlaces.map fun p => record.getD p.2 .null := by
  rw [keptValues, zip_record h, List.filter_map, List.map_map]
  rfl

theorem place_of_getElem? {d : Declaration} {i : Nat} {p : Field × Nat}
    (h : d.keptPlaces[i]? = some p) : d.place i = p.2 := by
  simp [place, h]

/-- The columns without the ignored fields are the stored columns with them, from other places. -/
theorem map_moved_columnsOf (d : Declaration) :
    (columnsOf d.kept.fields).map (Column.moved d.place)
      = d.keptPlaces.map fun p => p.1.columnAt p.2 := by
  refine List.ext_getElem? fun i => ?_
  rw [List.getElem?_map, getElem?_columnsOf, fields_kept, List.getElem?_map, List.getElem?_map]
  rcases hp : d.keptPlaces[i]? with _ | p
  · rfl
  · have hplace := place_of_getElem? hp
    simp [Column.moved, Field.columnAt, hplace]

theorem getD_keptValues {d : Declaration} {record : Record}
    (h : record.length = d.fields.length) (i : Nat) :
    (d.keptValues record).getD i .null = record.getD (d.place i) .null := by
  rw [keptValues_eq h, List.getD_eq_getElem?_getD, List.getElem?_map]
  rcases hp : d.keptPlaces[i]? with _ | p
  · have hplace : d.place i = record.length := by simp [place, hp, h]
    simp [hplace]
  · rw [place_of_getElem? hp]
    rfl

theorem moved_of_build {d : Declaration} {m m' : Model} (hm : d.build = .ok m)
    (hm' : d.kept.build = .ok m') : Model.Moved d.place m' m := by
  obtain ⟨hd, key, hkey, rfl⟩ := eq_of_build hm
  obtain ⟨hd', key', hkey', rfl⟩ := eq_of_build hm'
  have hstored' : (columnsOf d.kept.fields).filter Column.isStored = columnsOf d.kept.fields := by
    refine List.filter_eq_self.2 fun c hc => ?_
    obtain ⟨f, hf, -, hcf⟩ := mem_columnsOf hc
    rw [hcf, (hd'.fields f hf).isStored_columnAt]
    exact (List.mem_filter.1 hf).2
  have hmoved : (columnsOf d.fields).filter Column.isStored
      = (columnsOf d.kept.fields).map (Column.moved d.place) := by
    rw [stored_columnsOf hd.fields, map_moved_columnsOf]
    rfl
  refine ⟨rfl, rfl, hstored', ?_, ?_⟩
  · rw [Model.stored, Model.stored, hstored', hmoved]
  · -- the key without the ignored fields is a key with them, and there is only one
    have hmem : key'.moved d.place ∈ (columnsOf d.fields).filter Column.isStored :=
      hmoved ▸ List.mem_map_of_mem (List.mem_of_find?_eq_some hkey')
    have hisKey : key'.isKey = true := List.find?_some hkey'
    exact hd.eq_of_isKey (List.mem_of_find?_eq_some hkey) (List.find?_some hkey)
      (List.mem_of_mem_filter hmem) hisKey

end Declaration

/-- What is said to the store, and read from it, shows no difference between the model of a
declaration and a model without its ignored fields. -/
structure Model.Alike (d : Declaration) (m' m : Model) : Prop where
  createTable : m'.createTable = m.createTable
  dropTable : ∀ ifExists, m'.dropTable ifExists = m.dropTable ifExists
  selectAll : m'.selectAll = m.selectAll
  insert : ∀ record, record.length = d.fields.length →
    m'.insert (d.keptValues record) = m.insert record
  update : ∀ record, record.length = d.fields.length →
    m'.update (d.keptValues record) = m.update record
  delete : ∀ record, record.length = d.fields.length →
    m'.delete (d.keptValues record) = m.delete record
  predicate : ∀ (f : Filter) (inline : Bool),
    (∀ g ∈ d.fields, g.ignored = true → g.name ∉ f.names ∧ g.columnName ∉ f.names) →
      m'.predicate inline f = m.predicate inline f
  ofRow : ∀ {α : Type} (t' t : RecordType α), t'.LoadsAs t →
    ∀ row, t'.ofRow m' row = t.ofRow m row

namespace Declaration

/-- An accepted declaration is accepted without its ignored fields too, and its model is like the
one that it has with them. -/
theorem exists_alike_of_build {d : Declaration} {m : Model} (hm : d.build = .ok m) :
    ∃ m', d.kept.build = .ok m' ∧ m'.Alike d m := by
  obtain ⟨hd, key, -, hmodel⟩ := eq_of_build hm
  obtain ⟨-, key', -, hm'⟩ | ⟨hnot, -⟩ := d.kept.build_cases
  swap
  · exact absurd hd.kept hnot
  have hmoved := moved_of_build hm hm'
  have hcheck : ∀ record : Record, record.length = d.fields.length →
      m.checkRecord record = .ok () := by
    intro record hrecord
    exact if_pos (by rw [hmodel, length_columnsOf, hrecord])
  have hcheck' : ∀ record : Record, record.length = d.fields.length →
      Model.checkRecord ⟨d.kept.name, d.kept.tableName, columnsOf d.kept.fields, key'⟩
        (d.keptValues record) = .ok () := by
    intro record hrecord
    refine if_pos ?_
    rw [keptValues_eq hrecord, length_columnsOf, fields_kept, List.length_map, List.length_map]
  refine ⟨_, hm', hmoved.createTable_eq, hmoved.dropTable_eq, hmoved.selectAll_eq,
    fun record hrecord => ?_, fun record hrecord => ?_, fun record hrecord => ?_,
    fun f inline hf => hmoved.predicate_eq (fun name hname c hc hstored => ?_) inline,
    fun t' t ht row => hmoved.ofRow_eq ht row⟩
  · exact hmoved.insert_eq (getD_keptValues hrecord) (hcheck' record hrecord)
      (hcheck record hrecord)
  · exact hmoved.update_eq (getD_keptValues hrecord) (hcheck' record hrecord)
      (hcheck record hrecord)
  · exact hmoved.delete_eq (getD_keptValues hrecord) (hcheck' record hrecord)
      (hcheck record hrecord)
  · rw [hmodel] at hc
    obtain ⟨g, hg, -, hcg⟩ := mem_columnsOf hc
    rw [hcg, (hd.fields g hg).isStored_columnAt] at hstored
    have hnames := hf g hg (by simpa using hstored)
    rw [hcg]
    constructor
    · rintro rfl
      exact hnames.1 hname
    · rintro rfl
      exact hnames.2 hname

/-- Collects what is loaded, under the names of the fields. -/
def loading : RecordType (List (String × Value)) where
  typeName := "Visit"
  declaration := visitDeclaration
  blank := []
  record _ := []
  load c v loaded := .ok (loaded ++ [(c.field, v)])

def visitRow : Row :=
  .ofList [("cache", .text "x"), ("ID", .integer (.clamp _ 7)), ("Score", .null), ("at", .null)]

/-- Whatever the cache holds, the same is inserted, and it is not read from the row. -/
theorem exists_alike_of_build_visits :
    ∃ m', visitDeclaration.kept.build = .ok m' ∧
      m'.insert [Value.early, .null, .null]
        = visits.insert [.text "none", Value.early, .null, .null] ∧
      m'.predicate true (.field "score") = visits.predicate true (.field "score") ∧
      loading.ofRow m' visitRow
        = .ok [("at", .null), ("id", .int .int32 ⟨7, by decide⟩), ("score", .null)] := by
  obtain ⟨m', hm', halike⟩ := exists_alike_of_build build_visitDeclaration
  refine ⟨m', hm', halike.insert [.text "none", Value.early, .null, .null] rfl,
    halike.predicate _ _ (by decide +kernel), ?_⟩
  have hloads : loading.LoadsAs loading := ⟨rfl, fun c' c h => by simp only [loading, h]⟩
  rw [halike.ofRow loading loading hloads]
  decide +kernel

end Declaration

end RecordMap
