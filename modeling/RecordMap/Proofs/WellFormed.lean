import RecordMap.Proofs.RoundTrip
import RecordMap.Sql.Generate

/-!
# Well-formed declarations

A declaration is accepted if and only if it is well formed, a condition on its fields in which
their order does not matter (`build_cases`).  The walk over the fields keeps one invariant: the
draft has the columns of the fields so far, and the key among them (`addField_cases`).

So a model is known from its declaration (`eq_of_build`), and what the rest of the engine counts
on can be read off it (`describes_of_build`).
-/

namespace RecordMap

namespace Field

/-- The conditions on a field that goes to the table. -/
structure Storable (f : Field) : Prop where
  ty : f.ty ≠ .int .uint64
  length : f.maxLength.isSome = true → f.ty.isText = true
  counted : f.autoIncrement.isSome = true → f.key.isSome = true ∧ f.ty.isInteger = true

structure WellFormed (f : Field) : Prop where
  named : f.columnName ≠ ""
  key : f.key.isSome = true → f.ignored = false
  storable : f.ignored = false → f.Storable

def sizedType (f : Field) (ty : SqlType) : SqlType :=
  match f.maxLength with
  | some n => .varChar (some n)
  | none => ty

def countedType (f : Field) (ty : SqlType) : SqlType :=
  if f.autoIncrement.isSome then .integer else ty

def keptType (f : Field) : Option SqlType :=
  f.ty.sqlType.toOption.map fun ty => f.countedType (f.sizedType ty)

/-- The column of a well-formed field at place `i` of its declaration. -/
def columnAt (f : Field) (i : Nat) : Column where
  index := i
  field := f.name
  name := f.columnName
  ty := f.ty
  sqlType := if f.ignored then none else f.keptType
  key := f.key
  autoIncrement := f.autoIncrement
  notNull := f.notNull

end Field

/-- The faults with which the fields of a model can be rejected: a flaw of the model, or the type of
a field that goes to the table. -/
def Fault.Rejects (e : Fault) (model : String) (fs : List Field) : Prop :=
  (∃ flaw, e = .ofCause (.model model flaw)) ∨
    ∃ f ∈ fs, f.ignored = false ∧ f.ty = .int .uint64 ∧ e.root = .unstorable f.ty.label

theorem Fault.Rejects.mono {e : Fault} {model : String} {fs gs : List Field}
    (h : e.Rejects model fs) (hsub : fs ⊆ gs) : e.Rejects model gs := by
  rcases h with h | ⟨f, hf, h⟩
  · exact .inl h
  · exact .inr ⟨f, hsub hf, h⟩

namespace Field

variable (f : Field) (model : String)

theorem sized_cases (ty : SqlType) :
    ((f.maxLength.isSome = true → f.ty.isText = true) ∧
        f.sized model ty = .ok (f.sizedType ty)) ∨
      (¬ (f.maxLength.isSome = true → f.ty.isText = true) ∧
        f.sized model ty = Outcome.fail (.model model (.lengthOfNonText f.name))) := by
  unfold sized sizedType
  rcases f.maxLength with _ | n
  · exact .inl ⟨nofun, rfl⟩
  · by_cases htext : f.ty.isText = true
    · exact .inl ⟨fun _ => htext, if_pos htext⟩
    · exact .inr ⟨fun h => htext (h rfl), if_neg htext⟩

theorem counted_cases (ty : SqlType) :
    ((f.autoIncrement.isSome = true → f.key.isSome = true ∧ f.ty.isInteger = true) ∧
        f.counted model ty = .ok (f.countedType ty)) ∨
      (¬ (f.autoIncrement.isSome = true → f.key.isSome = true ∧ f.ty.isInteger = true) ∧
        f.counted model ty = Outcome.fail (.model model (.autoIncrementOfNonKey f.name))) := by
  unfold counted countedType
  simp only [← Bool.and_eq_true]
  split_ifs with hauto hkey
  · exact .inl ⟨fun _ => hkey, rfl⟩
  · exact .inr ⟨fun h => hkey (h hauto), rfl⟩
  · exact .inl ⟨fun h => absurd h hauto, rfl⟩

/-- The column type of a field that goes to the table: its type, then its length, then its counter
are looked at. -/
theorem storedType_cases (hf : f.ignored = false) :
    (f.Storable ∧ ∃ ty, f.keptType = some ty ∧ f.storedType model = .ok ty) ∨
      (¬ f.Storable ∧ ∃ e, f.storedType model = .error e ∧ e.Rejects model [f]) := by
  by_cases hty : f.ty = .int .uint64
  · refine .inr ⟨fun h => h.ty hty, (Fault.ofCause (.unstorable f.ty.label)).context
      (.ofCause (.remark (.declaring f.name model))), ?_,
      .inr ⟨f, List.mem_singleton_self f, hf, hty, rfl⟩⟩
    rw [storedType, hty]
    rfl
  obtain ⟨ty, hsql⟩ := FieldType.exists_sqlType_iff.2 hty
  have hstored : f.storedType model = f.sized model ty >>= f.counted model := by
    rw [storedType, hsql]
    rfl
  rcases f.sized_cases model ty with ⟨hlength, hsized⟩ | ⟨hlength, hsized⟩ <;>
    rw [hsized] at hstored
  · change f.storedType model = f.counted model (f.sizedType ty) at hstored
    rcases f.counted_cases model (f.sizedType ty) with ⟨hcounted, hok⟩ | ⟨hcounted, herror⟩
    · refine .inl ⟨⟨hty, hlength, hcounted⟩, _, ?_, hstored.trans hok⟩
      rw [keptType, hsql]
      rfl
    · exact .inr ⟨fun h => hcounted h.counted, _, hstored.trans herror, .inl ⟨_, rfl⟩⟩
  · exact .inr ⟨fun h => hlength h.length, _, hstored, .inl ⟨_, rfl⟩⟩

theorem columnType_cases :
    ((f.key.isSome = true → f.ignored = false) ∧ (f.ignored = false → f.Storable) ∧
        f.columnType model = .ok (f.columnAt 0).sqlType) ∨
      (¬ f.WellFormed ∧ ∃ e, f.columnType model = .error e ∧ e.Rejects model [f]) := by
  unfold columnType columnAt
  split_ifs with hignored hkey
  · refine .inr ⟨fun h => ?_, _, rfl, .inl ⟨_, rfl⟩⟩
    rw [h.key hkey] at hignored
    cases hignored
  · exact .inl ⟨fun h => absurd h hkey, fun h => absurd h (by rw [hignored]; decide), rfl⟩
  · have hf : f.ignored = false := by simpa using hignored
    rcases f.storedType_cases model hf with ⟨hstorable, ty, hkept, hty⟩ | ⟨hnot, e, he, hrejects⟩
    · refine .inl ⟨fun _ => hf, fun _ => hstorable, ?_⟩
      rw [hty, hkept]
      rfl
    · refine .inr ⟨fun h => hnot (h.storable hf), e, ?_, hrejects⟩
      rw [he]
      rfl

theorem toColumn_cases (i : Nat) :
    (f.WellFormed ∧ f.toColumn model i = .ok (f.columnAt i)) ∨
      (¬ f.WellFormed ∧ ∃ e, f.toColumn model i = .error e ∧ e.Rejects model [f]) := by
  unfold toColumn
  split_ifs with hname
  · exact .inr ⟨fun h => h.named (by simpa using hname), _, rfl, .inl ⟨_, rfl⟩⟩
  · rcases f.columnType_cases model with ⟨hkey, hstorable, hty⟩ | ⟨hnot, e, he, hrejects⟩
    · refine .inl ⟨⟨by simpa using hname, hkey, hstorable⟩, ?_⟩
      rw [hty]
      rfl
    · refine .inr ⟨hnot, e, ?_, hrejects⟩
      rw [he]
      rfl

theorem WellFormed.isStored_columnAt {f : Field} (h : f.WellFormed) (i : Nat) :
    (f.columnAt i).isStored = !f.ignored := by
  unfold columnAt Column.isStored
  rcases hignored : f.ignored with _ | _
  · obtain ⟨ty, hty⟩ := FieldType.exists_sqlType_iff.2 (h.storable hignored).ty
    simp [keptType, hty, Except.toOption]
  · simp

theorem WellFormed.storable_of_isStored {f : Field} (h : f.WellFormed) {i : Nat}
    (hstored : (f.columnAt i).isStored = true) : f.Storable := by
  rw [h.isStored_columnAt] at hstored
  exact h.storable (by simpa using hstored)

/-- A column in the table that counts up is a key of the store's own integer type. -/
theorem WellFormed.counted_columnAt {f : Field} (h : f.WellFormed) {i : Nat}
    (hstored : (f.columnAt i).isStored = true) (hauto : f.autoIncrement.isSome = true) :
    f.key.isSome = true ∧ f.ty.isInteger = true ∧ (f.columnAt i).sqlType = some .integer := by
  have hstorable := h.storable_of_isStored hstored
  obtain ⟨hkey, hinteger⟩ := hstorable.counted hauto
  obtain ⟨ty, hty⟩ := FieldType.exists_sqlType_iff.2 hstorable.ty
  refine ⟨hkey, hinteger, ?_⟩
  simp [columnAt, h.key hkey, keptType, hty, Except.toOption, countedType, hauto]

end Field

namespace Declaration

def columnsOf (fs : List Field) : List Column := fs.zipIdx.map fun p => p.1.columnAt p.2

theorem columnsOf_concat (fs : List Field) (f : Field) :
    columnsOf (fs ++ [f]) = columnsOf fs ++ [f.columnAt fs.length] := by
  simp [columnsOf, List.zipIdx_append]

@[simp] theorem length_columnsOf (fs : List Field) : (columnsOf fs).length = fs.length := by
  simp [columnsOf]

theorem getElem?_columnsOf (fs : List Field) (i : Nat) :
    (columnsOf fs)[i]? = fs[i]?.map fun f => f.columnAt i := by
  simp [columnsOf, Function.comp_def]

theorem mem_columnsOf {fs : List Field} {c : Column} (h : c ∈ columnsOf fs) :
    ∃ f ∈ fs, fs[c.index]? = some f ∧ c = f.columnAt c.index := by
  obtain ⟨i, hi⟩ := List.mem_iff_getElem?.1 h
  rw [getElem?_columnsOf] at hi
  obtain ⟨f, hf, rfl⟩ := Option.map_eq_some_iff.1 hi
  exact ⟨f, List.mem_of_getElem? hf, hf, rfl⟩

theorem nodup_index_columnsOf (fs : List Field) : ((columnsOf fs).map Column.index).Nodup := by
  have hplaces : (columnsOf fs).map Column.index = fs.zipIdx.map Prod.snd := by
    rw [columnsOf, List.map_map]
    rfl
  rw [hplaces, List.zipIdx_map_snd]
  exact List.nodup_range'

/-- What some column has, whatever its place, some field has. -/
theorem exists_columnsOf (fs : List Field) {p : Column → Prop} {q : Field → Prop}
    (hpq : ∀ (f : Field) (i : Nat), p (f.columnAt i) ↔ q f) :
    (∃ c ∈ columnsOf fs, p c) ↔ ∃ f ∈ fs, q f := by
  constructor
  · rintro ⟨c, hc, hp⟩
    obtain ⟨f, hf, -, hcf⟩ := mem_columnsOf hc
    rw [hcf, hpq] at hp
    exact ⟨f, hf, hp⟩
  · rintro ⟨f, hf, hq⟩
    obtain ⟨i, hi⟩ := List.mem_iff_getElem?.1 hf
    refine ⟨f.columnAt i, List.mem_iff_getElem?.2 ⟨i, ?_⟩, (hpq f i).2 hq⟩
    rw [getElem?_columnsOf, hi]
    rfl

end Declaration

/-- Fields that can stand in one model, as far as their columns and keys go. -/
structure Compatible (fs : List Field) : Prop where
  fields : ∀ f ∈ fs, f.WellFormed
  names : fs.Pairwise fun f g => Text.lowercase f.columnName ≠ Text.lowercase g.columnName
  key : fs.countP (fun f => f.key.isSome) ≤ 1

namespace Compatible

theorem nil : Compatible [] :=
  ⟨fun _ hf => absurd hf List.not_mem_nil, .nil, Nat.zero_le 1⟩

theorem of_append {fs gs : List Field} (h : Compatible (fs ++ gs)) : Compatible fs where
  fields f hf := h.fields f (List.mem_append_left _ hf)
  names := (List.pairwise_append.1 h.names).1
  key := by
    have := h.key
    rw [List.countP_append] at this
    omega

theorem concat_iff {fs : List Field} (h : Compatible fs) (f : Field) :
    Compatible (fs ++ [f]) ↔ f.WellFormed ∧
      (∀ g ∈ fs, Text.lowercase g.columnName ≠ Text.lowercase f.columnName) ∧
      (f.key.isSome = true → ∀ g ∈ fs, ¬ g.key.isSome = true) := by
  have hkey : fs.countP (fun f => f.key.isSome) = 0 ↔ ∀ g ∈ fs, ¬ g.key.isSome = true :=
    List.countP_eq_zero
  constructor
  · intro hf
    refine ⟨hf.fields f (by simp), fun g hg => ?_, fun hk => hkey.1 ?_⟩
    · exact (List.pairwise_append.1 hf.names).2.2 g hg f (List.mem_singleton_self f)
    · have := hf.key
      rw [List.countP_append, List.countP_singleton, if_pos hk] at this
      omega
  · rintro ⟨hf, hnames, hk⟩
    refine ⟨fun g hg => ?_, List.pairwise_append.2 ⟨h.names, List.pairwise_singleton _ _, ?_⟩, ?_⟩
    · rcases List.mem_append.1 hg with hg | hg
      · exact h.fields g hg
      · rwa [List.mem_singleton.1 hg]
    · intro g hg f' hf'
      rw [List.mem_singleton.1 hf']
      exact hnames g hg
    · rw [List.countP_append, List.countP_singleton]
      have := h.key
      split_ifs with hfk
      · rw [hkey.2 (hk hfk)]
      · omega

end Compatible

namespace Draft

/-- The draft of the fields so far. -/
def of (fs : List Field) : Draft :=
  ⟨Declaration.columnsOf fs, (Declaration.columnsOf fs).find? Column.isKey⟩

theorem hasName_of (fs : List Field) (name : String) :
    (of fs).hasName name = true ↔
      ∃ g ∈ fs, Text.lowercase g.columnName = Text.lowercase name := by
  simp only [hasName, of, List.any_eq_true, beq_iff_eq]
  exact Declaration.exists_columnsOf fs fun _ _ => Iff.rfl

theorem of_concat (fs : List Field) (f : Field) :
    of (fs ++ [f]) = ⟨(of fs).columns ++ [f.columnAt fs.length],
      (of fs).key.or (if (f.columnAt fs.length).isKey = true then some (f.columnAt fs.length)
        else none)⟩ := by
  simp only [of, Declaration.columnsOf_concat, List.find?_append, List.find?_singleton]

theorem isSome_key_of (fs : List Field) :
    (of fs).key.isSome = true ↔ ∃ g ∈ fs, g.key.isSome = true := by
  simp only [of, List.find?_isSome]
  exact Declaration.exists_columnsOf fs fun _ _ => Iff.rfl

/-- A column joins the draft if its name is new and it is the only key. -/
theorem add_cases (fs : List Field) (model : String) (f : Field) :
    ((∀ g ∈ fs, Text.lowercase g.columnName ≠ Text.lowercase f.columnName) ∧
        (f.key.isSome = true → ∀ g ∈ fs, ¬ g.key.isSome = true) ∧
        (of fs).add model (f.columnAt fs.length) = .ok (of (fs ++ [f]))) ∨
      (¬ ((∀ g ∈ fs, Text.lowercase g.columnName ≠ Text.lowercase f.columnName) ∧
          (f.key.isSome = true → ∀ g ∈ fs, ¬ g.key.isSome = true)) ∧
        ∃ flaw, (of fs).add model (f.columnAt fs.length) = Outcome.fail (.model model flaw)) := by
  unfold add
  by_cases hname : (of fs).hasName (f.columnAt fs.length).name = true
  · obtain ⟨g, hg, hsame⟩ := (hasName_of fs _).1 hname
    exact .inr ⟨fun h => h.1 g hg hsame, _, if_pos hname⟩
  have hnew : ∀ g ∈ fs, Text.lowercase g.columnName ≠ Text.lowercase f.columnName :=
    fun g hg hsame => hname ((hasName_of fs _).2 ⟨g, hg, hsame⟩)
  have hkey : (of fs).key.isSome = true ↔ ∃ g ∈ fs, g.key.isSome = true := isSome_key_of fs
  rw [if_neg hname]
  split_ifs with hisKey hsecond
  · obtain ⟨g, hg, hgk⟩ := hkey.1 hsecond
    exact .inr ⟨fun h => h.2 hisKey g hg hgk, _, rfl⟩
  · refine .inl ⟨hnew, fun _ g hg hgk => hsecond (hkey.2 ⟨g, hg, hgk⟩), ?_⟩
    have hnone : (of fs).key = none := by simpa using hsecond
    rw [of_concat, hnone, Option.none_or, if_pos hisKey]
  · refine .inl ⟨hnew, fun hk => absurd hk hisKey, ?_⟩
    rw [of_concat, if_neg hisKey, Option.or_none]

theorem addField_cases {fs : List Field} (hfs : Compatible fs) (model : String) (f : Field) :
    (Compatible (fs ++ [f]) ∧ (of fs).addField model f = .ok (of (fs ++ [f]))) ∨
      (¬ Compatible (fs ++ [f]) ∧
        ∃ e, (of fs).addField model f = .error e ∧ e.Rejects model [f]) := by
  rw [hfs.concat_iff]
  have hlength : (of fs).columns.length = fs.length := Declaration.length_columnsOf fs
  rcases f.toColumn_cases model fs.length with ⟨hf, hcolumn⟩ | ⟨hf, e, he, hrejects⟩
  · have hstep : (of fs).addField model f = (of fs).add model (f.columnAt fs.length) := by
      rw [addField, hlength, hcolumn]
      rfl
    rw [hstep]
    rcases add_cases fs model f with ⟨hnew, hkey, hadd⟩ | ⟨hnot, flaw, hadd⟩
    · exact .inl ⟨⟨hf, hnew, hkey⟩, hadd⟩
    · exact .inr ⟨fun h => hnot h.2, _, hadd, .inl ⟨flaw, rfl⟩⟩
  · refine .inr ⟨fun h => hf h.1, e, ?_, hrejects⟩
    rw [addField, hlength, he]
    rfl

/-- The walk comes to the draft of all the fields, or ends at one that does not go with those
before it. -/
theorem foldlM_addField_cases (model : String) : ∀ (gs : List Field) {fs : List Field},
    Compatible fs →
    (Compatible (fs ++ gs) ∧ gs.foldlM (addField model) (of fs) = .ok (of (fs ++ gs))) ∨
      (¬ Compatible (fs ++ gs) ∧
        ∃ e, gs.foldlM (addField model) (of fs) = .error e ∧ e.Rejects model gs)
  | [], fs, hfs => by
    rw [List.append_nil]
    exact .inl ⟨hfs, rfl⟩
  | g :: gs, fs, hfs => by
    have happend : fs ++ g :: gs = (fs ++ [g]) ++ gs := by simp
    rw [List.foldlM_cons, happend]
    rcases addField_cases hfs model g with ⟨hcompatible, hstep⟩ | ⟨hnot, e, hstep, hrejects⟩
    · rw [hstep]
      rcases foldlM_addField_cases model gs hcompatible with h | ⟨hnot, e, he, hrejects⟩
      · exact .inl h
      · exact .inr ⟨hnot, e, he, hrejects.mono (List.subset_cons_self g gs)⟩
    · rw [hstep]
      refine .inr ⟨fun h => hnot h.of_append, e, rfl, hrejects.mono ?_⟩
      simp

end Draft

namespace Declaration

structure WellFormed (d : Declaration) : Prop where
  table : d.tableName ≠ ""
  fields : ∀ f ∈ d.fields, f.WellFormed
  names : d.fields.Pairwise fun f g => Text.lowercase f.columnName ≠ Text.lowercase g.columnName
  key : d.fields.countP (fun f => f.key.isSome) = 1

theorem WellFormed.perm {d d' : Declaration} (hname : d'.name = d.name)
    (htable : d'.table = d.table) (hfields : d'.fields.Perm d.fields) (h : d.WellFormed) :
    d'.WellFormed where
  table := by
    have hsame : d'.tableName = d.tableName := by rw [tableName, tableName, htable, hname]
    rw [hsame]
    exact h.table
  fields f hf := h.fields f (hfields.mem_iff.1 hf)
  names := (hfields.pairwise_iff fun hne => hne.symm).2 h.names
  key := (hfields.countP_eq _).trans h.key

theorem build_of_walk {d : Declaration} {draft : Draft} (htable : d.tableName.isEmpty = false)
    (hwalk : d.fields.foldlM (Draft.addField d.name) Draft.empty = .ok draft) :
    d.build = match draft.key with
      | some key => .ok ⟨d.name, d.tableName, draft.columns, key⟩
      | none => Outcome.fail (.model d.name .noKey) := by
  unfold build
  rw [htable, hwalk]
  rfl

/-- A declaration that is well formed has a model, known from its fields; and one that is not is
rejected. -/
theorem build_cases (d : Declaration) :
    (d.WellFormed ∧ ∃ key, (columnsOf d.fields).find? Column.isKey = some key ∧
        d.build = .ok ⟨d.name, d.tableName, columnsOf d.fields, key⟩) ∨
      (¬ d.WellFormed ∧ ∃ e, d.build = .error e ∧ e.Rejects d.name d.fields) := by
  rcases htable : d.tableName.isEmpty with _ | _
  swap
  · exact .inr ⟨fun h => h.table (by simpa using htable), _, if_pos htable, .inl ⟨_, rfl⟩⟩
  rcases Draft.foldlM_addField_cases d.name d.fields Compatible.nil with
    ⟨hcompatible, hwalk⟩ | ⟨hnot, e, hwalk, hrejects⟩ <;> rw [List.nil_append] at *
  · have hbuild := build_of_walk htable hwalk
    have hpositive : (Draft.of d.fields).key.isSome = true ↔
        0 < d.fields.countP (fun f => f.key.isSome) := by
      rw [Draft.isSome_key_of, List.countP_pos_iff]
    rcases hkey : (Draft.of d.fields).key with _ | key <;> rw [hkey] at hbuild hpositive
    · refine .inr ⟨fun h => ?_, _, hbuild, .inl ⟨_, rfl⟩⟩
      rw [h.key] at hpositive
      exact absurd (hpositive.2 Nat.one_pos) nofun
    · -- the walk lets no second key in, and here it has found one
      have hpos := hpositive.1 rfl
      have hle := hcompatible.key
      exact .inl ⟨⟨by simpa using htable, hcompatible.fields, hcompatible.names, by omega⟩, key,
        hkey, hbuild⟩
  · refine .inr ⟨fun h => hnot ⟨h.fields, h.names, h.key.le⟩, e, ?_, hrejects⟩
    have hempty : Draft.of [] = Draft.empty := rfl
    unfold build
    rw [htable, ← hempty, hwalk]
    rfl

theorem eq_of_build {d : Declaration} {m : Model} (h : d.build = .ok m) :
    d.WellFormed ∧ ∃ key, (columnsOf d.fields).find? Column.isKey = some key ∧
      m = ⟨d.name, d.tableName, columnsOf d.fields, key⟩ := by
  rcases d.build_cases with ⟨hd, key, hkey, hm⟩ | ⟨-, e, he, -⟩
  · exact ⟨hd, key, hkey, Except.ok.inj (h.symm.trans hm)⟩
  · rw [he] at h
    cases h

/-- A stored column of an accepted model is the column of a field that goes to the table. -/
theorem exists_storable_of_stored {d : Declaration} {m : Model} (h : d.build = .ok m) {c : Column}
    (hc : c ∈ m.stored) : ∃ f ∈ d.fields, f.WellFormed ∧ f.Storable ∧ c = f.columnAt c.index := by
  obtain ⟨hd, key, -, rfl⟩ := eq_of_build h
  obtain ⟨hcolumn, hstored⟩ := List.mem_filter.1 hc
  obtain ⟨f, hf, -, hcf⟩ := mem_columnsOf hcolumn
  rw [hcf] at hstored
  exact ⟨f, hf, hd.fields f hf, (hd.fields f hf).storable_of_isStored hstored, hcf⟩

theorem WellFormed.nodup_columnName {d : Declaration} (hd : d.WellFormed) :
    (d.fields.map Field.columnName).Nodup := by
  rw [List.Nodup, List.pairwise_map]
  exact hd.names.imp fun hne h => hne (by rw [h])

theorem map_name_columnsOf (fs : List Field) :
    (columnsOf fs).map Column.name = fs.map Field.columnName := by
  have hfields : fs.zipIdx.map Prod.fst = fs := List.zipIdx_map_fst 0 fs
  conv_rhs => rw [← hfields]
  rw [columnsOf, List.map_map, List.map_map]
  rfl

theorem WellFormed.nodup_name_columnsOf {d : Declaration} (hd : d.WellFormed) :
    ((columnsOf d.fields).map Column.name).Nodup :=
  map_name_columnsOf d.fields ▸ hd.nodup_columnName

theorem countP_columnsOf (fs : List Field) :
    (columnsOf fs).countP Column.isKey = fs.countP fun f => f.key.isSome := by
  have hfields : fs.zipIdx.map Prod.fst = fs := List.zipIdx_map_fst 0 fs
  conv_rhs => rw [← hfields]
  rw [columnsOf, List.countP_map, List.countP_map]
  rfl

/-- One field has a key marker, so one column does. -/
theorem WellFormed.eq_of_isKey {d : Declaration} (hd : d.WellFormed) {c k : Column}
    (hc : c ∈ columnsOf d.fields) (hck : c.isKey = true) (hk : k ∈ columnsOf d.fields)
    (hkk : k.isKey = true) : c = k := by
  have hcount : ((columnsOf d.fields).filter Column.isKey).length = 1 := by
    rw [← List.countP_eq_length_filter, countP_columnsOf, hd.key]
  obtain ⟨x, hx⟩ := List.length_eq_one_iff.1 hcount
  have hc' : c ∈ (columnsOf d.fields).filter Column.isKey := List.mem_filter.2 ⟨hc, hck⟩
  have hk' : k ∈ (columnsOf d.fields).filter Column.isKey := List.mem_filter.2 ⟨hk, hkk⟩
  rw [hx, List.mem_singleton] at hc' hk'
  rw [hc', hk']

end Declaration

/-- What the engine counts on in the model of a declaration. -/
structure Model.Describes (m : Model) (d : Declaration) : Prop where
  length : m.columns.length = d.fields.length
  /-- Each field has its column, at its place, and the column is in the table unless the field is
  ignored. -/
  columns : ∀ (i : Nat) (f : Field), d.fields[i]? = some f → ∃ c, m.columns[i]? = some c ∧
    c = ⟨i, f.name, f.columnName, f.ty, c.sqlType, f.key, f.autoIncrement, f.notNull⟩ ∧
    c.sqlType.isSome = !f.ignored
  key : m.columns[m.key.index]? = some m.key ∧ m.key.isStored = true
  isKey_iff : ∀ c ∈ m.columns, c.isKey = true ↔ c = m.key
  counted : ∀ c ∈ m.stored, c.isAutoIncrement = true → c = m.key ∧ c.sqlType = some .integer
  table : ∃ cs, m.createTable = .ok (.createTable d.tableName cs) ∧
    List.Forall₂ (fun c k => c.name = k.name ∧ c.sqlType = some k.ty ∧ c.markers = k.markers)
      m.stored cs

theorem Model.forall₂_columnDefs (m : Model) :
    List.Forall₂ (fun c k => c.name = k.name ∧ c.sqlType = some k.ty ∧ c.markers = k.markers)
      m.stored m.columnDefs := by
  unfold stored columnDefs
  induction m.columns with
  | nil => exact .nil
  | cons c cs ih =>
    rcases hty : c.sqlType with _ | ty
    · rwa [List.filter_cons_of_neg (by simp [Column.isStored, hty]),
        List.filterMap_cons_none (by rw [hty]; rfl)]
    · rw [List.filter_cons_of_pos (by simp [Column.isStored, hty]),
        List.filterMap_cons_some (by rw [hty]; rfl)]
      exact .cons ⟨rfl, hty, rfl⟩ ih

namespace Declaration

theorem describes_of_build {d : Declaration} {m : Model} (h : d.build = .ok m) :
    m.Describes d := by
  obtain ⟨hd, key, hkey, rfl⟩ := eq_of_build h
  have hmem : key ∈ columnsOf d.fields := List.mem_of_find?_eq_some hkey
  have hisKey : key.isKey = true := List.find?_some hkey
  obtain ⟨g, hg, hat, hcolumn⟩ := mem_columnsOf hmem
  have hkeyAt : (columnsOf d.fields)[key.index]? = some key := by
    rw [getElem?_columnsOf, hat, Option.map_some, ← hcolumn]
  have hkept : key.isStored = true := by
    have hgkey : g.key.isSome = true := by rwa [hcolumn] at hisKey
    rw [hcolumn, (hd.fields g hg).isStored_columnAt, (hd.fields g hg).key hgkey]
    rfl
  refine ⟨length_columnsOf _, fun i f hf => ?_, ⟨hkeyAt, hkept⟩, fun c hc => ⟨fun hck => ?_, ?_⟩,
    fun c hc hauto => ?_, ?_⟩
  · refine ⟨f.columnAt i, ?_, rfl, (hd.fields f (List.mem_of_getElem? hf)).isStored_columnAt i⟩
    rw [getElem?_columnsOf, hf]
    rfl
  · exact hd.eq_of_isKey hc hck hmem hisKey
  · rintro rfl
    exact hisKey
  · obtain ⟨hc, hstored⟩ := List.mem_filter.1 hc
    obtain ⟨f, hf, -, hcf⟩ := mem_columnsOf hc
    rw [hcf] at hstored hauto
    obtain ⟨hfkey, -, hsql⟩ := (hd.fields f hf).counted_columnAt hstored hauto
    rw [← hcf] at hsql
    exact ⟨hd.eq_of_isKey hc (by rwa [hcf]) hmem hisKey, hsql⟩
  · have hdefs := Model.forall₂_columnDefs ⟨d.name, d.tableName, columnsOf d.fields, key⟩
    refine ⟨_, if_neg fun hempty => ?_, hdefs⟩
    rw [List.isEmpty_iff.1 hempty, List.forall₂_nil_right_iff] at hdefs
    have : key ∈ ([] : List Column) := hdefs ▸ List.mem_filter.2 ⟨hmem, hkept⟩
    cases this

/-- A declaration is accepted if and only if it is well formed, whatever the order of its fields.
The model of an accepted one describes it, and a fault of a rejected one says what is wrong with the
model or which type the store does not know. -/
theorem build_isOk_iff_wellFormed (d : Declaration) :
    ((∃ m, d.build = .ok m) ↔ d.WellFormed) ∧
    (∀ d' : Declaration, d'.name = d.name → d'.table = d.table → d'.fields.Perm d.fields →
      ((∃ m, d'.build = .ok m) ↔ ∃ m, d.build = .ok m)) ∧
    (∀ m, d.build = .ok m → m.Describes d) ∧
    ∀ e, d.build = .error e → e.Rejects d.name d.fields := by
  have haccepted : ∀ d : Declaration, (∃ m, d.build = .ok m) ↔ d.WellFormed := by
    intro d
    rcases d.build_cases with ⟨hd, key, -, hm⟩ | ⟨hnot, e, he, -⟩
    · exact ⟨fun _ => hd, fun _ => ⟨_, hm⟩⟩
    · exact ⟨fun ⟨m, hm⟩ => (by rw [he] at hm; cases hm), fun h => absurd h hnot⟩
  refine ⟨haccepted d, fun d' hname htable hfields => ?_, fun m hm => describes_of_build hm,
    fun e he => ?_⟩
  · rw [haccepted, haccepted]
    exact ⟨fun h => h.perm hname.symm htable.symm hfields.symm,
      fun h => h.perm hname htable hfields⟩
  · rcases d.build_cases with ⟨-, key, -, hm⟩ | ⟨-, e', he', hrejects⟩
    · rw [hm] at he
      cases he
    · rw [← Except.error.inj (he'.symm.trans he)]
      exact hrejects

/-- Visits of a page: the cache stands in the declaration, but not in the table. -/
def visitDeclaration : Declaration where
  name := "Visit"
  table := some ""
  fields := [
    ⟨"cache", .int .uint64, none, none, some autoIncrementWords, none, true, some 3⟩,
    ⟨"at", .timestamp, none, none, none, some notNullWords, false, none⟩,
    ⟨"id", .int .int32, none, some keyWords, some autoIncrementWords, none, false, none⟩,
    ⟨"score", .single, some "Score", none, none, none, false, none⟩]

def visits : Model where
  name := "Visit"
  table := "Visit"
  columns := [
    ⟨0, "cache", "cache", .int .uint64, none, none, some autoIncrementWords, none⟩,
    ⟨1, "at", "at", .timestamp, some .integer, none, none, some notNullWords⟩,
    ⟨2, "id", "id", .int .int32, some .integer, some keyWords, some autoIncrementWords, none⟩,
    ⟨3, "score", "Score", .single, some .float, none, none, none⟩]
  key := ⟨2, "id", "id", .int .int32, some .integer, some keyWords, some autoIncrementWords, none⟩

theorem build_visitDeclaration : visitDeclaration.build = .ok visits := by decide +kernel

def cacheDeclaration : Declaration where
  name := "Cache"
  table := none
  fields := [⟨"cache", .int .uint64, none, none, none, none, false, none⟩]

def cacheFault : Fault :=
  (Fault.ofCause (.unstorable "u64")).context (.ofCause (.remark (.declaring "cache" "Cache")))

/-- Visits are accepted with their fields in any order, and a cache is rejected for its type. -/
theorem build_isOk_iff_wellFormed_visits :
    visitDeclaration.build = .ok visits ∧ visits.Describes visitDeclaration ∧
    (∃ m, Declaration.build ⟨"Visit", some "", visitDeclaration.fields.reverse⟩ = .ok m) ∧
    cacheDeclaration.build = .error cacheFault ∧
    cacheFault.Rejects "Cache" cacheDeclaration.fields := by
  have hcache : cacheDeclaration.build = .error cacheFault := by decide +kernel
  obtain ⟨-, hperm, hdescribes, -⟩ := build_isOk_iff_wellFormed visitDeclaration
  obtain ⟨-, -, -, hrejects⟩ := build_isOk_iff_wellFormed cacheDeclaration
  refine ⟨build_visitDeclaration, hdescribes _ build_visitDeclaration, ?_, hcache,
    hrejects _ hcache⟩
  exact (hperm ⟨"Visit", some "", visitDeclaration.fields.reverse⟩ rfl rfl
    (List.reverse_perm _)).2 ⟨_, build_visitDeclaration⟩

end Declaration

end RecordMap
