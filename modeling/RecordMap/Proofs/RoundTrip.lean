import RecordMap.Codec
import RecordMap.Proofs.Layouts
import RecordMap.Proofs.Outcome
import RecordMap.Proofs.Rounding

/-!
# Round trips through the store

A value of a field's type has a stored form, and what is read from that form is the value again
(`read?_of_stored`).  Only a timestamp changes, which loses its part of a second.

Reading takes more than storing produces.  But what it gives is of the field's type and within no
second (`gives_read?`), so it goes through the store unchanged.
-/

namespace RecordMap

namespace Number

variable {t : IntType}

@[simp] theorem ofInt?_toInt (n : Number t) : ofInt? t n.toInt = some n := dif_pos n.2

theorem toInt_of_ofInt? {n : Int} {k : Number t} (h : ofInt? t n = some k) : k.toInt = n := by
  unfold ofInt? at h
  split_ifs at h
  rw [← Option.some.inj h]
  rfl

end Number

namespace Timestamp

/-- The start of the second in which `t` lies, or of the next one if `t` lies within a second
before 1970. -/
def truncated (t : Timestamp) : Timestamp where
  seconds := if 0 ≤ t.seconds ∨ t.nanos = 0 then t.seconds else t.seconds + 1
  nanos := 0
  inRange := by
    have h := t.inRange
    unfold InRange firstSecond lastSecond at *
    split_ifs <;> omega
  within := Or.inl (by decide)

/-- Outside of leap seconds, the time that has passed since 1970 is cut off toward zero. -/
theorem seconds_truncated (t : Timestamp) (h : t.nanos < nanosPerSecond) :
    t.truncated.seconds = (t.seconds * nanosPerSecond + t.nanos).tdiv nanosPerSecond := by
  unfold nanosPerSecond at *
  simp only [truncated]
  split_ifs with hs
  · rcases hs with hs | hs
    · rw [Int.tdiv_eq_ediv_of_nonneg (by omega)]
      omega
    · rw [hs, Nat.cast_zero, add_zero, Int.mul_tdiv_cancel _ (by decide)]
  · obtain ⟨k, hk⟩ : ∃ k : Int, t.seconds * (1000000000 : ℕ) + t.nanos = -k := ⟨_, (neg_neg _).symm⟩
    rw [hk, Int.neg_tdiv, Int.tdiv_eq_ediv_of_nonneg (by omega)]
    omega

theorem ofSeconds?_wholeSeconds (t : Timestamp) : ofSeconds? t.wholeSeconds = some t.truncated := by
  have hseconds : t.wholeSeconds = t.truncated.seconds := by
    simp only [wholeSeconds, truncated]
    split_ifs <;> omega
  rw [hseconds]
  exact dif_pos ⟨t.truncated.inRange, t.truncated.within⟩

theorem truncated_of_ofSeconds? {n : Int} {t : Timestamp} (h : ofSeconds? n = some t) :
    t.truncated = t := by
  unfold ofSeconds? of? at h
  split_ifs at h
  rw [← Option.some.inj h]
  simp only [truncated, or_true, if_true]

end Timestamp

theorem Enumeration.number_of_variant? {e : Enumeration} {n : Number .int64} {v : Variant}
    (h : e.variant? n = some v) : v.number = n := by
  have := List.find?_some h
  simpa using this

theorem FieldType.exists_sqlType_iff {ty : FieldType} :
    (∃ t, ty.sqlType = .ok t) ↔ ty ≠ .int .uint64 := by
  constructor
  · rintro ⟨t, ht⟩ rfl
    cases ht
  · intro h
    cases ty with
    | int k =>
      cases k with
      | uint64 => exact absurd rfl h
      | _ => exact ⟨_, rfl⟩
    | _ => exact ⟨_, rfl⟩

theorem IntType.isStorable_iff {t : IntType} : t.isStorable = true ↔ t ≠ .uint64 := by
  cases t <;> simp [isStorable]

theorem IntType.isStorable_of_ne {t : IntType} (h : FieldType.int t ≠ .int .uint64) :
    t.isStorable = true := isStorable_iff.2 fun ht => h (by rw [ht])

namespace Value

/-- The value that the store keeps of `v`. -/
def truncated : Value → Value
  | .timestamp t => .timestamp t.truncated
  | v => v

theorem ofInt?_of_storable {t : IntType} (ht : t.isStorable = true) (n : Number t) :
    ofInt? t n.toInt = some (.int t n) := by
  rw [ofInt?, if_pos ht, Number.ofInt?_toInt]
  rfl

theorem of_ofInt? {t : IntType} {n : Int} {v : Value} (h : ofInt? t n = some v) :
    ∃ k : Number t, v = .int t k ∧ k.toInt = n := by
  unfold ofInt? at h
  split_ifs at h
  obtain ⟨k, hk, rfl⟩ := Option.map_eq_some_iff.1 h
  exact ⟨k, rfl, Number.toInt_of_ofInt? hk⟩

theorem stored_of_isA {v : Value} {ty : FieldType} (hty : ty ≠ .int .uint64)
    (hv : v.isA ty = true) : ∃ raw, v.stored = .ok raw := by
  cases v with
  | int k n =>
    cases ty with
    | int u =>
      obtain rfl : k = u := by simpa [isA] using hv
      simp [stored, IntType.isStorable_of_ne hty]
    | _ => cases hv
  | _ => exact ⟨_, rfl⟩

end Value

namespace Stored

theorem read?_of_stored {v : Value} {ty : FieldType} {raw : Stored} (hv : v.isA ty = true)
    (hraw : v.stored = .ok raw) : raw.read? ty = some v.truncated := by
  cases v with
  | int t n =>
    simp only [Value.stored] at hraw
    split_ifs at hraw with ht
    · cases ty with
      | int u =>
        obtain rfl : t = u := by simpa [Value.isA] using hv
        rw [← Except.ok.inj hraw]
        exact Value.ofInt?_of_storable ht n
      | _ => cases hv
    · cases hraw
  | enumeration n =>
    cases ty with
    | enumeration e =>
      obtain ⟨w, hw⟩ := Option.isSome_iff_exists.1 hv
      rw [← Except.ok.inj hraw]
      simp only [read?, readInteger?, hw, Option.map_some, Enumeration.number_of_variant? hw,
        Value.truncated]
    | _ => cases hv
  | null => rw [← Except.ok.inj hraw]; rfl
  | bool b =>
    cases ty <;> cases hv
    rw [← Except.ok.inj hraw]
    cases b <;> rfl
  | single x =>
    cases ty <;> cases hv
    rw [← Except.ok.inj hraw]
    simp only [read?, readReal?, Floating.cast_cast Format.single_within_double, Value.truncated]
  | timestamp t =>
    cases ty <;> cases hv
    rw [← Except.ok.inj hraw]
    exact congrArg (Option.map Value.timestamp) t.ofSeconds?_wholeSeconds
  | uuid u =>
    cases ty <;> cases hv
    rw [← Except.ok.inj hraw]
    simp only [read?, readText?, String.toList_ofList, Uuid.ofText?_text, Option.map_some,
      Value.truncated]
  | _ =>
    cases ty <;> cases hv
    rw [← Except.ok.inj hraw]
    rfl

/-- What reading gives: a value of the type asked for, with no part of a second. -/
structure Gives (ty : FieldType) (v : Value) : Prop where
  isA : v.isA ty = true
  truncated : v.truncated = v

theorem Gives.int {t : IntType} {n : Int} {v : Value} (h : Value.ofInt? t n = some v) :
    Gives (.int t) v := by
  obtain ⟨k, rfl, -⟩ := Value.of_ofInt? h
  exact ⟨by simp [Value.isA], rfl⟩

theorem gives_readInteger? {n : Number .int64} {ty : FieldType} {v : Value}
    (h : readInteger? n ty = some v) : Gives ty v := by
  cases ty with
  | int t => exact Gives.int h
  | timestamp =>
    obtain ⟨t, ht, rfl⟩ := Option.map_eq_some_iff.1 h
    exact ⟨rfl, congrArg Value.timestamp (Timestamp.truncated_of_ofSeconds? ht)⟩
  | enumeration e =>
    obtain ⟨w, hw, rfl⟩ := Option.map_eq_some_iff.1 h
    refine ⟨?_, rfl⟩
    rw [Value.isA, Enumeration.number_of_variant? hw, hw]
    rfl
  | bool | single | double | text =>
    rw [← Option.some.inj h]
    exact ⟨rfl, rfl⟩
  | uuid | bytes => cases h

theorem gives_readReal? {x : Double} {ty : FieldType} {v : Value}
    (h : readReal? x ty = some v) : Gives ty v := by
  cases ty with
  | int t =>
    obtain ⟨n, -, hn⟩ := Option.bind_eq_some_iff.1 h
    exact Gives.int hn
  | single | double | text =>
    rw [← Option.some.inj h]
    exact ⟨rfl, rfl⟩
  | bool | timestamp | enumeration | uuid | bytes => cases h

theorem gives_readText? {s : String} {ty : FieldType} {v : Value}
    (h : readText? s ty = some v) : Gives ty v := by
  cases ty with
  | int t =>
    obtain ⟨n, -, hn⟩ := Option.bind_eq_some_iff.1 h
    exact Gives.int hn
  | uuid | single | double =>
    obtain ⟨x, -, rfl⟩ := Option.map_eq_some_iff.1 h
    exact ⟨rfl, rfl⟩
  | text | bytes =>
    rw [← Option.some.inj h]
    exact ⟨rfl, rfl⟩
  | bool | timestamp | enumeration => cases h

theorem gives_readBlob? {bs : List UInt8} {ty : FieldType} {v : Value}
    (h : readBlob? bs ty = some v) : Gives ty v := by
  cases ty with
  | bytes =>
    rw [← Option.some.inj h]
    exact ⟨rfl, rfl⟩
  | _ => cases h

theorem gives_read? {raw : Stored} {ty : FieldType} {v : Value} (h : raw.read? ty = some v) :
    Gives ty v := by
  cases raw with
  | null =>
    rw [← Option.some.inj h]
    exact ⟨rfl, rfl⟩
  | integer n => exact gives_readInteger? h
  | real x => exact gives_readReal? h
  | text s => exact gives_readText? h
  | blob bs => exact gives_readBlob? h

theorem read_eq_ok_iff {raw : Stored} {ty : FieldType} {v : Value} :
    raw.read ty = .ok v ↔ raw.read? ty = some v := by
  unfold read
  rcases raw.read? ty with _ | w
  · exact ⟨nofun, nofun⟩
  · rw [Except.ok.injEq, Option.some.injEq]

theorem isA_of_read {raw : Stored} {ty : FieldType} {v : Value} (h : raw.read ty = .ok v) :
    v.isA ty = true := (gives_read? (read_eq_ok_iff.1 h)).isA

end Stored

namespace Value

/-- In a field of a value's own type the value is kept as it is without one. -/
theorem storedAs_of_isA {v : Value} {ty : FieldType} (hty : ty ≠ .int .uint64)
    (hv : v.isA ty = true) : v.storedAs ty = v.stored := by
  obtain ⟨t, ht⟩ := FieldType.exists_sqlType_iff.2 hty
  rw [storedAs, ht]
  exact if_pos hv

/-- A value of the type of its field can be kept, and what is read back is the value. -/
theorem exists_storedAs {v : Value} {ty : FieldType} (hty : ty ≠ .int .uint64)
    (hv : v.isA ty = true) : ∃ raw, v.storedAs ty = .ok raw ∧ raw.read ty = .ok v.truncated := by
  obtain ⟨raw, hraw⟩ := stored_of_isA hty hv
  exact ⟨raw, (storedAs_of_isA hty hv).trans hraw,
    Stored.read_eq_ok_iff.2 (Stored.read?_of_stored hv hraw)⟩

/-- Storing and reading are inverse up to the parts of seconds, which only values that were never
stored can have. -/
theorem storedAs_read_inverse {ty : FieldType} (hty : ty ≠ .int .uint64) :
    (∀ v : Value, v.isA ty = true →
      ∃ raw, v.storedAs ty = .ok raw ∧ raw.read ty = .ok v.truncated) ∧
    ∀ (raw : Stored) (v : Value), raw.read ty = .ok v →
      ∃ kept, v.storedAs ty = .ok kept ∧ kept.read ty = .ok v := by
  refine ⟨fun v hv => exists_storedAs hty hv, fun raw v hread => ?_⟩
  have hgives := Stored.gives_read? (Stored.read_eq_ok_iff.1 hread)
  obtain ⟨kept, hkept, hv⟩ := exists_storedAs hty hgives.isA
  rw [hgives.truncated] at hv
  exact ⟨kept, hkept, hv⟩

/-- Half a second into the 91st second before 1970. -/
def early : Value := .timestamp ⟨-91, 500000000, by decide, by decide⟩

/-- The timestamp is kept as the second after it, and a numeral with a sign and a zero in front is
read as a number that keeps. -/
theorem storedAs_read_inverse_early :
    (∃ raw, early.storedAs .timestamp = .ok raw ∧
      raw.read .timestamp = .ok (.timestamp ⟨-90, 0, by decide, by decide⟩)) ∧
    (Stored.text "+07").read (.int .int16) = .ok (.int .int16 ⟨7, by decide⟩) ∧
    ∃ kept, (Value.int .int16 ⟨7, by decide⟩).storedAs (.int .int16) = .ok kept ∧
      kept.read (.int .int16) = .ok (.int .int16 ⟨7, by decide⟩) := by
  have hread : (Stored.text "+07").read (.int .int16) = .ok (.int .int16 ⟨7, by decide⟩) := by
    decide +kernel
  have htimestamp : FieldType.timestamp ≠ .int .uint64 := by decide
  have hint : FieldType.int .int16 ≠ .int .uint64 := by decide
  exact ⟨(storedAs_read_inverse htimestamp).1 early rfl, hread,
    (storedAs_read_inverse hint).2 _ _ hread⟩

end Value

end RecordMap
