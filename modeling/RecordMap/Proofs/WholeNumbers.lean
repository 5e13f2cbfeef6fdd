import RecordMap.Proofs.Decimals
import RecordMap.Proofs.Nearest
import RecordMap.Proofs.RoundTrip

/-!
# Whole numbers read from the store

A stored value denotes a whole number if it is that number, a real with that value, or a numeral of
it (`Stored.Denotes`).  A field of an integer type is read from just the values that denote a number
of its type, and as that number; all other values are refused by name.

There is one exception.  A whole real beyond the 64-bit integers is read as the last of them on its
side, which is a number of the widest type and of no other (`Stored.read_number`).
-/

namespace RecordMap

namespace Ratio

variable {r : Ratio}

theorem toRat_of_whole (hden : 0 < r.den) (h : r.num % r.den = 0) : r.toRat = r.floor := by
  rw [toRat_eq_floor_add hden, h, Nat.cast_zero, zero_div, add_zero]

theorem whole_of_toRat {k : ℤ} (hden : 0 < r.den) (h : r.toRat = k) : r.num % r.den = 0 := by
  have hd : (r.den : ℚ) ≠ 0 := by exact_mod_cast hden.ne'
  rw [toRat, div_eq_iff hd] at h
  have hnum : (r.num : ℤ) = k * r.den := by exact_mod_cast h
  exact Nat.mod_eq_zero_of_dvd (Int.natCast_dvd_natCast.1 ⟨k, by rw [hnum, mul_comm]⟩)

end Ratio

namespace Floating

variable {f : Format}

/-- The number that a finite number is. -/
def toRat? : Floating f → Option ℚ
  | .finite negative x => some ((if negative then -1 else 1) * x.toRat)
  | _ => none

theorem toInt?_eq_some_iff {x : Floating f} {n : ℤ} :
    x.toInt? = some n ↔ x.toRat? = some (n : ℚ) := by
  rcases x with _ | _ | ⟨negative, x⟩
  · exact ⟨nofun, nofun⟩
  · exact ⟨nofun, nofun⟩
  have hvalue : (finite negative x).toRat? = some (n : ℚ) ↔
      x.ratio.toRat = ((if negative then -n else n : ℤ) : ℚ) := by
    rw [toRat?, Option.some.injEq, x.toRat_ratio]
    cases negative <;> simp [neg_eq_iff_eq_neg]
  rw [hvalue, toInt?]
  constructor
  · intro h
    obtain ⟨hwhole, h⟩ := Option.ite_none_right_eq_some.1 h
    rw [Ratio.toRat_of_whole x.den_ratio_pos hwhole, ← Option.some.inj h]
    cases negative <;> simp
  · intro h
    have hwhole := Ratio.whole_of_toRat x.den_ratio_pos h
    have hfloor : (x.ratio.floor : ℤ) = if negative then -n else n := by
      rw [Ratio.toRat_of_whole x.den_ratio_pos hwhole] at h
      exact_mod_cast h
    rw [if_pos hwhole, hfloor]
    cases negative <;> simp

end Floating

namespace Number

/-- The nearest number of a type is the number itself or one of the ends. -/
theorem clamp_cases (t : IntType) (n : ℤ) :
    (t.min ≤ n ∧ n ≤ t.max ∧ (clamp t n).toInt = n) ∨
    (n < t.min ∧ (clamp t n).toInt = t.min) ∨ (t.max < n ∧ (clamp t n).toInt = t.max) := by
  by_cases hn : t.min ≤ n ∧ n ≤ t.max
  · have hclamp : clamp t n = ⟨n, hn⟩ := dif_pos hn
    exact .inl ⟨hn.1, hn.2, by rw [hclamp]; rfl⟩
  by_cases hmin : n < t.min
  · have hclamp : clamp t n = ⟨t.min, by cases t <;> decide⟩ := (dif_neg hn).trans (if_pos hmin)
    exact .inr (.inl ⟨hmin, by rw [hclamp]; rfl⟩)
  · have hclamp : clamp t n = ⟨t.max, by cases t <;> decide⟩ := (dif_neg hn).trans (if_neg hmin)
    exact .inr (.inr ⟨by omega, by rw [hclamp]; rfl⟩)

end Number

namespace Value

theorem ofInt?_eq_some_iff {t : IntType} (ht : t ≠ .uint64) {n : ℤ} {v : Value} :
    ofInt? t n = some v ↔ ∃ k : Number t, v = .int t k ∧ k.toInt = n := by
  constructor
  · exact of_ofInt?
  · rintro ⟨k, rfl, rfl⟩
    exact ofInt?_of_storable (IntType.isStorable_iff.2 ht) k

end Value

namespace Stored

/-- The stored value says which whole number it is.  A numeral with a minus says so only for a type
that has negative numbers. -/
def Denotes (t : IntType) : Stored → ℤ → Prop
  | .integer k, n => k.toInt = n
  | .real x, n => x.toRat? = some (n : ℚ)
  | .text s, n => Decimal.Spells t.isSigned s.toList n
  | .null, _ | .blob _, _ => False

/-- The stored value is a whole real beyond the 64-bit integers, which end in `n` on its side. -/
def Overruns : Stored → ℤ → Prop
  | .real x, n => ∃ k : ℤ, x.toRat? = some (k : ℚ) ∧
      (k < IntType.int64.min ∧ n = IntType.int64.min ∨
        IntType.int64.max < k ∧ n = IntType.int64.max)
  | _, _ => False

variable {t : IntType} {v : Value}

/-- The ends of the 64-bit integers are in no other type that the store can hold. -/
theorem eq_int64_of_end (ht : t ≠ .uint64) {k : Number t}
    (h : k.toInt = IntType.int64.min ∨ k.toInt = IntType.int64.max) : t = .int64 := by
  obtain ⟨hmin, hmax⟩ := k.2
  change t.min ≤ k.toInt at hmin
  change k.toInt ≤ t.max at hmax
  cases t with
  | int64 => rfl
  | uint64 => exact absurd rfl ht
  | _ =>
    simp only [IntType.min, IntType.max] at hmin hmax h
    omega

theorem within_int64 (ht : t ≠ .uint64) (k : Number t) :
    IntType.int64.min ≤ k.toInt ∧ k.toInt ≤ IntType.int64.max := by
  have hwithin := IntType.within_int64 (IntType.isStorable_iff.2 ht)
  exact ⟨hwithin.1.trans k.2.1, k.2.2.trans hwithin.2⟩

theorem readReal?_eq_some_iff (ht : t ≠ .uint64) {x : Double} :
    readReal? x (.int t) = some v ↔ ∃ k : Number t, v = .int t k ∧
      ((real x).Denotes t k.toInt ∨ t = .int64 ∧ (real x).Overruns k.toInt) := by
  simp only [readReal?, Option.bind_eq_some_iff, Floating.toInt?_eq_some_iff,
    Value.ofInt?_eq_some_iff ht]
  constructor
  · rintro ⟨n, hn, k, rfl, hk⟩
    refine ⟨k, rfl, ?_⟩
    rcases Number.clamp_cases .int64 n with ⟨-, -, hc⟩ | ⟨hmin, hc⟩ | ⟨hmax, hc⟩ <;> rw [hc] at hk
    · exact .inl (hk ▸ hn)
    · exact .inr ⟨eq_int64_of_end ht (.inl hk), n, hn, .inl ⟨hmin, hk⟩⟩
    · exact .inr ⟨eq_int64_of_end ht (.inr hk), n, hn, .inr ⟨hmax, hk⟩⟩
  · rintro ⟨k, rfl, hk | ⟨rfl, n, hn, hk⟩⟩
    · refine ⟨k.toInt, hk, k, rfl, ?_⟩
      have hwithin := within_int64 ht k
      rcases Number.clamp_cases .int64 k.toInt with ⟨-, -, hc⟩ | ⟨hmin, -⟩ | ⟨hmax, -⟩
      · exact hc.symm
      · omega
      · omega
    · refine ⟨n, hn, k, rfl, ?_⟩
      have hends : IntType.int64.min ≤ IntType.int64.max := by decide
      rcases Number.clamp_cases .int64 n with ⟨hmin, hmax, -⟩ | ⟨hmin, hc⟩ | ⟨hmax, hc⟩ <;>
        rcases hk with ⟨hn, hk⟩ | ⟨hn, hk⟩ <;> omega

theorem read?_number_iff (ht : t ≠ .uint64) (raw : Stored) :
    raw.read? (.int t) = some v ↔ raw = .null ∧ v = .null ∨ ∃ k : Number t, v = .int t k ∧
      (raw.Denotes t k.toInt ∨ t = .int64 ∧ raw.Overruns k.toInt) := by
  cases raw with
  | null => simp [read?, Denotes, Overruns, eq_comm]
  | integer n =>
    simp only [read?, readInteger?, Value.ofInt?_eq_some_iff ht, Denotes, Overruns, reduceCtorEq,
      false_and, false_or, and_false, or_false, eq_comm]
  | real x =>
    rw [read?, readReal?_eq_some_iff ht, or_iff_right (by simp)]
  | text s =>
    simp only [read?, readText?, Option.bind_eq_some_iff, Decimal.readInt?_eq_some_iff,
      Value.ofInt?_eq_some_iff ht, Denotes, Overruns, reduceCtorEq, false_and, false_or, and_false,
      or_false]
    constructor
    · rintro ⟨n, hn, k, rfl, rfl⟩
      exact ⟨k, rfl, hn⟩
    · rintro ⟨k, rfl, hn⟩
      exact ⟨_, hn, k, rfl, rfl⟩
  | blob bs => simp [read?, readBlob?, Denotes, Overruns]

/-- A field of an integer type is read as the number that is denoted, if it is one of the type, and
null as null.  Only in the widest type is a whole real beyond its end read as well, and as that end.
All else is refused, with the value that is in the store. -/
theorem read_number {t : IntType} (ht : t ≠ .uint64) (raw : Stored) :
    (∀ v, raw.read (.int t) = .ok v ↔ raw = .null ∧ v = .null ∨
      ∃ k : Number t, v = .int t k ∧
        (raw.Denotes t k.toInt ∨ t = .int64 ∧ raw.Overruns k.toInt)) ∧
    ∀ e, raw.read (.int t) = .error e → e = .ofCause (.conversion raw.toValue t.label) := by
  refine ⟨fun v => read_eq_ok_iff.trans (read?_number_iff ht raw), fun e he => ?_⟩
  unfold read at he
  split at he
  · cases he
  · exact (Except.error.inj he).symm

/-- The first whole number beyond the 64-bit integers, as a real. -/
def pastEnd : Double := .finite false ⟨Nat.pow 2 52, 11, by decide⟩

/-- A numeral of the least number of its type is read, and what is beyond a narrow type refused. -/
theorem read_number_bounds :
    (text "-00128").read (.int .int8) = .ok (.int .int8 (Number.clamp .int8 (-128))) ∧
    (real pastEnd).read (.int .int32) = Outcome.fail (.conversion (.double pastEnd) "i32") := by
  have hrefused : (real pastEnd).read (.int .int32)
      = .error (.ofCause (.conversion (real pastEnd).toValue "i32")) := by decide +kernel
  refine ⟨?_, ?_⟩
  · refine ((read_number (by decide) _).1 _).2 (.inr ⟨_, rfl, .inl ?_⟩)
    exact Decimal.readInt?_eq_some_iff.1 (by decide +kernel)
  · rw [hrefused, (read_number (by decide) (real pastEnd)).2 _ hrefused]
    rfl

/-- In the widest type the number read is not always the one that is denoted. -/
theorem not_read_number :
    (real pastEnd).read (.int .int64) = .ok (.int .int64 (Number.clamp .int64 IntType.int64.max)) ∧
    ¬ ∀ k : Number .int64, (real pastEnd).read (.int .int64) = .ok (.int .int64 k) →
        (real pastEnd).Denotes .int64 k.toInt := by
  have hread : (real pastEnd).read (.int .int64)
      = .ok (.int .int64 (Number.clamp .int64 IntType.int64.max)) := by decide +kernel
  refine ⟨hread, fun h => ?_⟩
  have hwhole := Floating.toInt?_eq_some_iff.2 (h _ hread)
  revert hwhole
  decide +kernel

end Stored

end RecordMap
