import RecordMap.Proofs.Rearranged
import RecordMap.Scalar

/-!
# Loading what was read

Whatever is read from the store for a type is a value of the type, and so is what a conversion to it
gives.  A scalar takes every value of its own type, only null needs a slot that may be empty
(`Slot.load_cases`).  What a scalar takes from other types, texts and wider numbers, a row never
asks of it.

So if the fields of a type are such slots, a row in which every column can be read fails for no
other reason than a null where a value is required (`foldlM_readColumn_cases`).
-/

namespace RecordMap

theorem Value.isA_of_convert {v w : Value} {ty : FieldType} (h : v.convert ty = .ok w) :
    w.isA ty = true := by
  unfold convert at h
  split_ifs at h with hv
  · rwa [← Except.ok.inj h]
  · obtain ⟨raw, -, h⟩ := Outcome.bind_eq_ok h
    rcases hread : raw.read? ty with _ | u <;> rw [hread] at h
    · cases h
    · rw [← Except.ok.inj h]
      exact (Stored.gives_read? hread).isA

theorem Value.exists_storedAs_iff {v : Value} {ty : FieldType} :
    (∃ raw, v.storedAs ty = .ok raw) ↔ ty ≠ .int .uint64 ∧ v.isA ty = true := by
  constructor
  · rintro ⟨raw, h⟩
    obtain ⟨t, ht, h⟩ := Outcome.bind_eq_ok h
    refine ⟨FieldType.exists_sqlType_iff.1 ⟨t, ht⟩, ?_⟩
    split_ifs at h with hv
    · exact hv
    · cases h
  · rintro ⟨hty, hv⟩
    exact (exists_storedAs hty hv).imp fun _ h => h.1

namespace Scalar

/-- A scalar takes each value of its type for what it is. -/
theorem load_of_isA {s : Scalar} {v : Value} (h : v.isA s.fieldType = true) (hv : v ≠ .null) :
    ∃ x, s.load v = .ok x ∧ s.value x = v := by
  obtain ⟨x, hx, hvalue⟩ : ∃ x, s.load? v = some x ∧ s.value x = v := by
    cases v with
    | null => exact absurd rfl hv
    | int t n =>
      cases s <;> simp only [Value.isA, fieldType, decide_eq_true_eq, Bool.false_eq_true] at h
      subst h
      exact ⟨n, n.ofInt?_toInt, rfl⟩
    | enumeration n => cases s <;> cases h
    | _ =>
      cases s <;> cases h
      exact ⟨_, rfl, rfl⟩
  exact ⟨x, by rw [load, hx], hvalue⟩

theorem load_null (s : Scalar) :
    s.load .null = Outcome.fail (.conversion .null s.fieldType.label) := by
  cases s <;> rfl

theorem loadOptional_of_ne {s : Scalar} {v : Value} (hv : v ≠ .null) :
    s.loadOptional v = (s.load v).map some := by
  cases v with
  | null => exact absurd rfl hv
  | _ => rfl

end Scalar

/-- The type of a field in a program: a scalar, or one that may be absent. -/
inductive Slot
  | required (s : Scalar)
  | optional (s : Scalar)

namespace Slot

def Carrier : Slot → Type
  | required s => s.Carrier
  | optional s => Option s.Carrier

def fieldType : Slot → FieldType
  | required s | optional s => s.fieldType

def load : (f : Slot) → Value → Outcome f.Carrier
  | required s => s.load
  | optional s => s.loadOptional

def value : (f : Slot) → f.Carrier → Value
  | required s => s.value
  | optional s => s.optionalValue

/-- A slot takes the values of its type, but for null where a value is required. -/
def Takes : Slot → Value → Prop
  | required _, v => v ≠ .null
  | optional _, _ => True

/-- A slot keeps the value of its type that it takes. -/
theorem load_cases (f : Slot) {v : Value} (h : v.isA f.fieldType = true) :
    (f.Takes v ∧ ∃ x, f.load v = .ok x ∧ f.value x = v) ∨
      (¬ f.Takes v ∧ f.load v = Outcome.fail (.conversion .null f.fieldType.label)) := by
  by_cases hv : v = .null
  · subst hv
    cases f with
    | required s => exact .inr ⟨fun hne => hne rfl, s.load_null⟩
    | optional s => exact .inl ⟨trivial, none, rfl, rfl⟩
  · refine .inl ?_
    cases f with
    | required s => exact ⟨hv, Scalar.load_of_isA h hv⟩
    | optional s =>
      obtain ⟨x, hx, hvalue⟩ := Scalar.load_of_isA h hv
      refine ⟨trivial, some x, ?_, hvalue⟩
      rw [load, Scalar.loadOptional_of_ne hv, hx]
      rfl

end Slot

/-- Values of the column are loaded into a field whose type is the slot. -/
structure RecordType.Fills {α : Type} (t : RecordType α) (c : Column) (f : Slot) : Prop where
  ty : c.ty = f.fieldType
  load : ∃ put : f.Carrier → α → α, ∀ v a, t.load c v a = (f.load v).map (put · a)

namespace Column

/-- The row has a value for the column, and the slot takes it. -/
def LoadsFrom (f : Slot) (r : Row) (c : Column) : Prop :=
  ∃ raw v, r.get? c.name = some raw ∧ raw.read c.ty = .ok v ∧ f.Takes v

/-- Why the field of the column cannot be filled from the row. -/
inductive Refusal (m : Model) (f : Slot) (r : Row) (c : Column) : Fault → Prop
  | absent (h : r.get? c.name = none) :
    Refusal m f r c (.ofCause (.remark (.absent c.name m.table)))
  | unreadable {raw : Stored} {e : Fault} (h : r.get? c.name = some raw)
      (hread : raw.read c.ty = .error e) :
    Refusal m f r c (e.context (.ofCause (.remark (.reading c.name m.table))))
  | null {raw : Stored} {v : Value} (h : r.get? c.name = some raw)
      (hread : raw.read c.ty = .ok v) (hv : ¬ f.Takes v) :
    Refusal m f r c (.ofCause (.conversion .null f.fieldType.label))

theorem Refusal.not_loadsFrom {m : Model} {f : Slot} {r : Row} {c : Column} {e : Fault}
    (h : c.Refusal m f r e) : ¬ c.LoadsFrom f r := by
  rintro ⟨raw, v, hraw, hread, hv⟩
  cases h with
  | absent h =>
    rw [h] at hraw
    cases hraw
  | unreadable h hread' =>
    obtain rfl := Option.some.inj (h.symm.trans hraw)
    exact absurd (hread'.symm.trans hread) nofun
  | null h hread' hv' =>
    obtain rfl := Option.some.inj (h.symm.trans hraw)
    obtain rfl := Except.ok.inj (hread'.symm.trans hread)
    exact hv' hv

end Column

namespace RecordType

variable {α : Type} {t : RecordType α} {m : Model}

theorem readColumn_of_read {r : Row} {c : Column} {raw : Stored} {v : Value}
    (h : r.get? c.name = some raw) (hread : raw.read c.ty = .ok v) (a : α) :
    t.readColumn m r a c = t.load c v a := by
  rw [readColumn, h]
  simp only [hread]
  rfl

/-- One column is loaded, whatever the fields hold so far, or refuses. -/
theorem readColumn_cases {c : Column} {f : Slot} (h : t.Fills c f) (m : Model) (r : Row) :
    (c.LoadsFrom f r ∧ ∀ a, ∃ b, t.readColumn m r a c = .ok b) ∨
      ∃ e, c.Refusal m f r e ∧ ∀ a, t.readColumn m r a c = .error e := by
  obtain ⟨put, hput⟩ := h.load
  rcases hraw : r.get? c.name with _ | raw
  · refine .inr ⟨_, .absent hraw, fun a => ?_⟩
    rw [readColumn, hraw]
    rfl
  rcases hread : raw.read c.ty with e | v
  · refine .inr ⟨_, .unreadable hraw hread, fun a => ?_⟩
    rw [readColumn, hraw]
    simp only [hread]
    rfl
  have hisA : v.isA f.fieldType = true := h.ty ▸ Stored.isA_of_read hread
  obtain ⟨htakes, x, hx, -⟩ | ⟨hrefuses, hload⟩ := f.load_cases hisA
  · refine .inl ⟨⟨raw, v, hraw, hread, htakes⟩, fun a => ⟨put x a, ?_⟩⟩
    rw [readColumn_of_read hraw hread, hput, hx]
    rfl
  · refine .inr ⟨_, .null hraw hread hrefuses, fun a => ?_⟩
    rw [readColumn_of_read hraw hread, hput, hload]
    rfl

theorem refusal_of_readColumn {c : Column} {f : Slot} (h : t.Fills c f) {r : Row} {a : α}
    {e : Fault} (he : t.readColumn m r a c = .error e) : c.Refusal m f r e := by
  obtain ⟨-, hloads⟩ | ⟨e', hrefusal, hfails⟩ := readColumn_cases h m r
  · obtain ⟨b, hb⟩ := hloads a
    exact absurd (he.symm.trans hb) nofun
  · rwa [← Except.error.inj ((hfails a).symm.trans he)]

/-- All columns are loaded or one refuses, as the others do not matter to it. -/
theorem foldlM_readColumn_eq_ok_iff {slot : Column → Slot} (r : Row) :
    ∀ {cs : List Column} (a : α), (∀ c ∈ cs, t.Fills c (slot c)) →
      ((∃ b, cs.foldlM (t.readColumn m r) a = .ok b) ↔ ∀ c ∈ cs, c.LoadsFrom (slot c) r)
  | [], a, _ => iff_of_true ⟨a, List.foldlM_nil⟩ (List.forall_mem_nil _)
  | c :: cs, a, hfills => by
    rw [List.forall_mem_cons] at hfills
    rw [List.foldlM_cons, List.forall_mem_cons]
    obtain ⟨hloads, hstep⟩ | ⟨e, hrefusal, hstep⟩ := readColumn_cases hfills.1 m r
    · obtain ⟨b, hb⟩ := hstep a
      rw [hb]
      exact (foldlM_readColumn_eq_ok_iff r b hfills.2).trans (and_iff_right hloads).symm
    · rw [hstep a]
      exact iff_of_false nofun fun h => hrefusal.not_loadsFrom h.1

end RecordType

/-- What is read for a type is of the type, and the field that it is meant for takes it, unless it
is null and the field needs a value.  So where the walk over a row ends at a field of a scalar type,
the column was absent, or could not be read, or was null. -/
theorem loads_of_read :
    (∀ raw ty v, Stored.read raw ty = .ok v → v.isA ty = true) ∧
    (∀ v ty w, Value.convert v ty = .ok w → w.isA ty = true) ∧
    (∀ v ty, (∃ raw, Value.storedAs v ty = .ok raw) ↔ ty ≠ .int .uint64 ∧ v.isA ty = true) ∧
    (∀ (s : Scalar) raw v, Stored.read raw s.fieldType = .ok v →
      (v ≠ .null → ∃ x, s.load v = .ok x ∧ s.loadOptional v = .ok (some x) ∧ s.value x = v) ∧
      (v = .null → s.load v = Outcome.fail (.conversion .null s.fieldType.label) ∧
        s.loadOptional v = .ok none)) ∧
    ∀ {d : Declaration} {m : Model}, d.build = .ok m → ∀ {α : Type} (t : RecordType α) (r : Row),
      (∀ e, t.ofRow m r = .error e → ∃ before c after a, m.stored = before ++ c :: after ∧
        before.foldlM (t.readColumn m r) t.blank = .ok a ∧ t.readColumn m r a c = .error e ∧
        ∀ f, t.Fills c f → c.Refusal m f r e) ∧
      ∀ slot : Column → Slot, (∀ c ∈ m.stored, t.Fills c (slot c)) →
        ((∃ a, t.ofRow m r = .ok a) ↔ ∀ c ∈ m.stored, c.LoadsFrom (slot c) r) := by
  refine ⟨fun raw ty v h => Stored.isA_of_read h, fun v ty w h => Value.isA_of_convert h,
    fun v ty => Value.exists_storedAs_iff, fun s raw v h => ⟨fun hv => ?_, ?_⟩,
    fun {d m} hm α t r => ?_⟩
  · obtain ⟨x, hx, hvalue⟩ := Scalar.load_of_isA (Stored.isA_of_read h) hv
    refine ⟨x, hx, ?_, hvalue⟩
    rw [Scalar.loadOptional_of_ne hv, hx]
    rfl
  · rintro rfl
    exact ⟨s.load_null, rfl⟩
  · rw [RecordType.ofRow_eq_foldlM hm t fun _ _ => rfl]
    refine ⟨fun e he => ?_, fun slot hfills =>
      RecordType.foldlM_readColumn_eq_ok_iff r t.blank hfills⟩
    obtain ⟨before, c, after, a, hstored, hbefore, hc⟩ := Outcome.foldlM_eq_error he
    exact ⟨before, c, after, a, hstored, hbefore, hc,
      fun f hf => RecordType.refusal_of_readColumn hf hc⟩

/-- The fields of a visit in a program: its number is required, the others may be absent. -/
def visitSlot (c : Column) : Slot :=
  match c.index with
  | 1 => .optional .timestamp
  | 2 => .required (.int .int32)
  | _ => .optional .single

/-- Loads visits into three fields, without the cache. -/
def slottedType : RecordType (Option Timestamp × Number .int32 × Option Single) where
  typeName := "Visit"
  declaration := Declaration.visitDeclaration
  blank := (none, .clamp _ 0, none)
  record _ := []
  load c v a :=
    match c.index with
    | 1 => (Scalar.timestamp.loadOptional v).map fun x => (x, a.2)
    | 2 => ((Scalar.int .int32).load v).map fun x => (a.1, x, a.2.2)
    | _ => (Scalar.single.loadOptional v).map fun x => (a.1, a.2.1, x)

theorem forall_stored_visits {p : Column → Prop} (h1 : p Declaration.visits.columns[1])
    (h2 : p Declaration.visits.columns[2]) (h3 : p Declaration.visits.columns[3]) :
    ∀ c ∈ Declaration.visits.stored, p c := by
  have hstored : Declaration.visits.stored = Declaration.visits.columns.tail := by decide +kernel
  rw [hstored, Declaration.visits, List.tail_cons, List.forall_mem_cons, List.forall_mem_cons,
    List.forall_mem_singleton]
  exact ⟨h1, h2, h3⟩

theorem fills_slottedType :
    ∀ c ∈ Declaration.visits.stored, slottedType.Fills c (visitSlot c) :=
  forall_stored_visits ⟨rfl, fun x a => (x, a.2), fun _ _ => rfl⟩
    ⟨rfl, fun x a => (a.1, x, a.2.2), fun _ _ => rfl⟩
    ⟨rfl, fun x a => (a.1, a.2.1, x), fun _ _ => rfl⟩

def numberlessRow : Row := .ofList [("id", .null), ("Score", .null), ("at", .null)]

/-- A number is taken for what it is.  A visit is loaded from its row, and one without a number is
not, as its field needs one. -/
theorem loads_of_read_visits :
    (∃ x, (Scalar.int .int16).load (.int .int16 ⟨7, by decide⟩) = .ok x ∧
      (Scalar.int .int16).value x = .int .int16 ⟨7, by decide⟩) ∧
    (∃ a, slottedType.ofRow Declaration.visits Declaration.visitRow = .ok a) ∧
    ∃ e, slottedType.ofRow Declaration.visits numberlessRow = .error e ∧
      ∃ c : Column, c.Refusal Declaration.visits (visitSlot c) numberlessRow e := by
  obtain ⟨-, -, -, hscalar, hrows⟩ := loads_of_read
  refine ⟨?_, ?_, ?_⟩
  · have hread : (Stored.text "+07").read (.int .int16) = .ok (.int .int16 ⟨7, by decide⟩) := by
      decide +kernel
    obtain ⟨x, hx, -, hvalue⟩ := (hscalar (.int .int16) _ _ hread).1 nofun
    exact ⟨x, hx, hvalue⟩
  · obtain ⟨-, hloads⟩ := hrows Declaration.build_visitDeclaration slottedType Declaration.visitRow
    refine (hloads visitSlot fills_slottedType).2 (forall_stored_visits ?_ ?_ ?_)
    · exact ⟨.null, .null, by decide +kernel, rfl, trivial⟩
    · exact ⟨.integer (.clamp _ 7), .int .int32 ⟨7, by decide⟩, by decide +kernel,
        by decide +kernel, nofun⟩
    · exact ⟨.null, .null, by decide +kernel, rfl, trivial⟩
  · obtain ⟨hfails, -⟩ := hrows Declaration.build_visitDeclaration slottedType numberlessRow
    have hrefused : Outcome.isOk (slottedType.ofRow Declaration.visits numberlessRow) = false := by
      decide +kernel
    rcases he : slottedType.ofRow Declaration.visits numberlessRow with e | a
    · obtain ⟨before, c, after, -, hstored, -, -, hrefusal⟩ := hfails e he
      have hc : c ∈ Declaration.visits.stored := by simp [hstored]
      exact ⟨e, rfl, c, hrefusal _ (fills_slottedType c hc)⟩
    · rw [he] at hrefused
      cases hrefused

end RecordMap
