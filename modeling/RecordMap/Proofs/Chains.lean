import RecordMap.Proofs.Placeholders
import RecordMap.Proofs.WholeNumbers

/-!
# Chains of conversions

A value carries a number if the store keeps it as the number, or if it is the numeral that is
written for it (`Value.Carries`).  A conversion to an integer type or to text succeeds if the number
is one of the type, and what it gives carries the number still (`Carries.convert_iff`,
`Carries.of_convert`).  So a chain of them never changes the number, whatever types it goes through
(`convert_chain`).
-/

namespace RecordMap

open Sql

namespace FieldType

/-- The types in which a whole number can be written in full: text, and the integer types that the
store can hold. -/
def IsDecimal (ty : FieldType) : Prop := ty = .text ∨ ∃ t, t ≠ IntType.uint64 ∧ ty = .int t

/-- Whether the number is one of the type, if the type is bounded. -/
def Has (n : ℤ) : FieldType → Prop
  | .int t => t.min ≤ n ∧ n ≤ t.max
  | _ => True

end FieldType

namespace Number

theorem eq_of_toInt {t : IntType} {a b : Number t} (h : a.toInt = b.toInt) : a = b := Subtype.ext h

theorem exists_toInt_iff {t : IntType} {n : ℤ} :
    (∃ k : Number t, k.toInt = n) ↔ t.min ≤ n ∧ n ≤ t.max := by
  constructor
  · rintro ⟨k, rfl⟩
    exact k.2
  · intro h
    exact ⟨⟨n, h⟩, rfl⟩

end Number

namespace Value

variable {v w x : Value} {n : Number .int64} {u : IntType} {ty : FieldType}

/-- The value is one that says which number it is. -/
def Carries (v : Value) (n : Number .int64) : Prop :=
  v.stored = .ok (.integer n) ∨ v = .text (String.ofList (Decimal.ofInt n.toInt))

theorem stored_int_iff {k : Number u} (hu : u ≠ .uint64) :
    (int u k).stored = .ok (.integer n) ↔ k.toInt = n.toInt := by
  obtain ⟨kept, hkept, hk⟩ : ∃ kept : Number .int64,
      (int u k).stored = .ok (.integer kept) ∧ kept.toInt = k.toInt :=
    ⟨⟨k.toInt, Stored.within_int64 hu k⟩,
      dif_pos (IntType.isStorable_iff.2 hu), rfl⟩
  rw [hkept, Except.ok.injEq, Stored.integer.injEq, ← hk]
  exact ⟨congrArg Number.toInt, Number.eq_of_toInt⟩

/-- A number below zero has no numeral that an unsigned type would read, but it is not in the type
either. -/
theorem readText?_ofInt (n : ℤ) (hu : u ≠ .uint64) :
    Stored.readText? (String.ofList (Decimal.ofInt n)) (.int u) = ofInt? u n := by
  rw [Stored.readText?, String.toList_ofList]
  by_cases h : u.isSigned = true ∨ 0 ≤ n
  · rw [Decimal.readInt?_eq_some_iff.2 (Decimal.spells_ofInt h), Option.bind_some]
  · obtain ⟨hunsigned, hn⟩ := not_or.1 h
    have hmin : u.min = 0 := by cases u <;> first | rfl | exact absurd rfl hunsigned
    have hsign : Decimal.ofInt n = '-' :: Decimal.ofNat n.natAbs := if_pos (not_le.1 hn)
    have hnone : ofInt? u n = none := Option.eq_none_iff_forall_ne_some.2 fun w hw => by
      obtain ⟨k, -, hk⟩ := (ofInt?_eq_some_iff hu).1 hw
      have hk' : u.min ≤ k.toInt := k.2.1
      omega
    rw [hsign, Decimal.readInt?, if_neg hunsigned, Option.bind_none, hnone]

theorem convert_of_stored {raw : Stored} (hisA : v.isA ty = false) (hv : v.stored = .ok raw) :
    v.convert ty = .ok x ↔ raw.read? ty = some x := by
  rw [convert, if_neg (by simp [hisA]), hv]
  rcases hread : raw.read? ty with _ | w
  · simp [bind, Except.bind, hread, Outcome.fail]
  · simp [bind, Except.bind, hread]

theorem foldlM_convert_concat (v : Value) (tys : List FieldType) (ty : FieldType) :
    (tys ++ [ty]).foldlM convert v = tys.foldlM convert v >>= fun w => w.convert ty := by
  simp [List.foldlM_append]

namespace Carries

/-- A value that carries a number converts to an integer type as that number, or not at all. -/
theorem convert_int_iff (hv : v.Carries n) (hu : u ≠ .uint64) :
    v.convert (.int u) = .ok x ↔ ∃ k : Number u, x = .int u k ∧ k.toInt = n.toInt := by
  rw [← ofInt?_eq_some_iff hu]
  rcases hv with hv | rfl
  · rcases hisA : v.isA (.int u) with _ | _
    · exact convert_of_stored hisA hv
    -- It has the type already, and no conversion takes place.
    · rw [convert, if_pos hisA, Except.ok.injEq]
      cases v with
      | null => cases hv
      | int t k =>
        obtain rfl : t = u := by simpa [isA] using hisA
        rw [← (stored_int_iff hu).1 hv,
          ofInt?_of_storable (IntType.isStorable_iff.2 hu), Option.some.injEq]
      | _ => cases hisA
  · rw [convert_of_stored rfl rfl, ← readText?_ofInt n.toInt hu]
    rfl

theorem convert_text (hv : v.Carries n) :
    v.convert .text = .ok (.text (String.ofList (Decimal.ofInt n.toInt))) := by
  rcases hv with hv | rfl
  · have hisA : v.isA .text = false := by cases v <;> first | rfl | cases hv
    exact (convert_of_stored hisA hv).2 rfl
  · rfl

theorem convert_iff (hv : v.Carries n) (hty : ty.IsDecimal) :
    (∃ w, v.convert ty = .ok w) ↔ ty.Has n.toInt := by
  obtain rfl | ⟨u, hu, rfl⟩ := hty
  · exact iff_of_true ⟨_, hv.convert_text⟩ trivial
  · simp only [hv.convert_int_iff hu, FieldType.Has, ← Number.exists_toInt_iff]
    constructor
    · rintro ⟨w, k, -, hk⟩
      exact ⟨k, hk⟩
    · rintro ⟨k, hk⟩
      exact ⟨_, k, rfl, hk⟩

theorem of_convert (hv : v.Carries n) (hty : ty.IsDecimal) (h : v.convert ty = .ok w) :
    w.Carries n := by
  obtain rfl | ⟨u, hu, rfl⟩ := hty
  · rw [hv.convert_text] at h
    exact .inr (Except.ok.inj h).symm
  · obtain ⟨k, rfl, hk⟩ := (hv.convert_int_iff hu).1 h
    exact .inl ((stored_int_iff hu).2 hk)

theorem foldlM_convert_iff : ∀ {tys : List FieldType} {v : Value}, v.Carries n →
    (∀ ty ∈ tys, ty.IsDecimal) →
    ((∃ w, tys.foldlM convert v = .ok w) ↔ ∀ ty ∈ tys, ty.Has n.toInt)
  | [], v, _, _ => iff_of_true ⟨v, rfl⟩ nofun
  | ty :: tys, v, hv, htys => by
    obtain ⟨hty, htys⟩ := List.forall_mem_cons.1 htys
    rw [List.forall_mem_cons, ← hv.convert_iff hty]
    simp only [List.foldlM_cons, Outcome.bind_eq_ok_iff]
    constructor
    · rintro ⟨w, y, hy, hw⟩
      exact ⟨⟨y, hy⟩, (foldlM_convert_iff (hv.of_convert hty hy) htys).1 ⟨w, hw⟩⟩
    · rintro ⟨⟨y, hy⟩, hhas⟩
      obtain ⟨w, hw⟩ := (foldlM_convert_iff (hv.of_convert hty hy) htys).2 hhas
      exact ⟨w, y, hy, hw⟩

theorem of_foldlM_convert : ∀ {tys : List FieldType} {v : Value}, v.Carries n →
    (∀ ty ∈ tys, ty.IsDecimal) → tys.foldlM convert v = .ok w → w.Carries n
  | [], v, hv, _, h => by
    rw [← Except.ok.inj h]
    exact hv
  | ty :: tys, v, hv, htys, h => by
    obtain ⟨hty, htys⟩ := List.forall_mem_cons.1 htys
    rw [List.foldlM_cons] at h
    obtain ⟨y, hy, h⟩ := Outcome.bind_eq_ok h
    exact of_foldlM_convert (hv.of_convert hty hy) htys h

end Carries

end Value

namespace Filter

/-- The value at the bottom of a filter, and the types to which it is converted on its way up, if
there is nothing but captures and conversions above it. -/
def conversions? : Filter → Option (Value × List FieldType)
  | .value v => some (v, [])
  | .captured _ f => f.conversions?
  | .convert f ty => f.conversions?.map fun c => (c.1, c.2 ++ [ty])
  | .field _ | .binary _ _ _ | .method _ _ _ | .function _ _ => none

/-- Such a filter comes to what the chain of its conversions makes of the value. -/
theorem compile_of_conversions? (m : Model) (inline : Bool) :
    ∀ (f : Filter) {v : Value} {tys : List FieldType}, f.conversions? = some (v, tys) →
      f.compile m inline = (tys.foldlM Value.convert v).map .value
  | .value v, _, _, h => by
    cases h
    rfl
  | .captured name f, v, tys, h => by
    rw [compile, compile_of_conversions? m inline f h]
    cases tys.foldlM Value.convert v <;> rfl
  | .convert f ty, _, _, h => by
    obtain ⟨⟨v, tys⟩, hf, h⟩ := Option.map_eq_some_iff.1 h
    cases h
    rw [compile, compile_of_conversions? m inline f hf, Value.foldlM_convert_concat]
    cases tys.foldlM Value.convert v <;> rfl
  | .field _, _, _, h | .binary _ _ _, _, _, h | .method _ _ _, _, _, h
  | .function _ _, _, _, h => by cases h

end Filter

/-- Let a value be kept as a whole number.  A chain of conversions to text and to integer types
comes to a value if the number is one of each type.  Then the value converts to an integer type just
as the first one does: as that number, or not at all.  And that is what a filter binds. -/
theorem convert_chain {v : Value} {n : Number .int64} (hv : v.stored = .ok (.integer n))
    {tys : List FieldType} (htys : ∀ ty ∈ tys, ty.IsDecimal) {u : IntType} (hu : u ≠ .uint64) :
    ((∃ w, tys.foldlM Value.convert v = .ok w) ↔ ∀ ty ∈ tys, ty.Has n.toInt) ∧
    (∀ w, tys.foldlM Value.convert v = .ok w →
      ∀ x, (w.convert (.int u) = .ok x ↔ v.convert (.int u) = .ok x) ∧
        (v.convert (.int u) = .ok x ↔ ∃ k : Number u, x = .int u k ∧ k.toInt = n.toInt)) ∧
    ∀ f : Filter, f.conversions? = some (v, tys ++ [.int u]) → ∀ (m : Model) (inline : Bool) y,
      f.compile m inline = .ok y ↔ (∀ ty ∈ tys, ty.Has n.toInt) ∧
        ∃ k : Number u, y = .value (.int u k) ∧ k.toInt = n.toInt := by
  have hcarries : v.Carries n := .inl hv
  have hlast : ∀ w, tys.foldlM Value.convert v = .ok w → ∀ x, w.convert (.int u) = .ok x ↔
      ∃ k : Number u, x = .int u k ∧ k.toInt = n.toInt := fun w hw x =>
    (hcarries.of_foldlM_convert htys hw).convert_int_iff hu
  refine ⟨hcarries.foldlM_convert_iff htys, fun w hw x => ?_, fun f hf m inline y => ?_⟩
  · rw [hlast w hw x, hcarries.convert_int_iff hu]
    exact ⟨.rfl, .rfl⟩
  · rw [Filter.compile_of_conversions? m inline f hf, Value.foldlM_convert_concat,
      Outcome.map_eq_ok_iff, ← hcarries.foldlM_convert_iff htys]
    simp only [Outcome.bind_eq_ok_iff]
    constructor
    · rintro ⟨x, ⟨w, hw, hx⟩, rfl⟩
      obtain ⟨k, rfl, hk⟩ := (hlast w hw x).1 hx
      exact ⟨⟨w, hw⟩, k, rfl, hk⟩
    · rintro ⟨⟨w, hw⟩, k, rfl, hk⟩
      exact ⟨_, ⟨w, hw, (hlast w hw _).2 ⟨k, rfl, hk⟩⟩, rfl⟩

/-- A time before 1970, by way of its text. -/
def earlyFilter : Filter := .convert (.captured "since" (.convert (.value Value.early) .text))
  (.int .int16)

/-- The time is kept as a number below zero, which no unsigned type has. -/
theorem convert_chain_early :
    earlyFilter.compile notes false = .ok (.value (.int .int16 (Number.clamp .int16 (-90)))) ∧
    ¬ ∃ w, [FieldType.text, .int .uint8].foldlM Value.convert Value.early = .ok w := by
  have hearly : Value.early.stored = .ok (.integer (Number.clamp .int64 (-90))) := by
    decide +kernel
  have hint16 : IntType.int16 ≠ .uint64 := by decide
  have htext : ∀ ty ∈ [FieldType.text], ty.IsDecimal := by simp [FieldType.IsDecimal]
  have htypes : ∀ ty ∈ [FieldType.text, .int .uint8], ty.IsDecimal := by
    simp [FieldType.IsDecimal]
  obtain ⟨-, -, hfilter⟩ := convert_chain hearly htext hint16
  refine ⟨(hfilter earlyFilter rfl notes false _).2 ⟨by simp [FieldType.Has], _, rfl, by decide⟩, ?_⟩
  rw [(convert_chain hearly htypes hint16).1]
  intro h
  exact absurd (h (.int .uint8) (by simp)).1 (by decide)

end RecordMap
