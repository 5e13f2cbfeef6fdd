import Mathlib.Algebra.Order.Ring.Int
import RecordMap.Decimal

/-!
# Decimal numerals read and written

A numeral is digits behind at most one sign, and a minus may stand only where negative numbers can
be meant (`Spells`).  Exactly these texts are read, and as the numbers that they spell
(`readInt?_eq_some_iff`); so a number is read back from what is written for it.
-/

namespace RecordMap.Decimal

/-- The numerals of a number. -/
inductive Spells (signed : Bool) : List Char → ℤ → Prop
  | plain {ds : List Char} (hne : ds ≠ []) (hds : ∀ c ∈ ds, c.isDigit = true) :
    Spells signed ds (Nat.ofDigitChars 10 ds 0)
  | plus {ds : List Char} (hne : ds ≠ []) (hds : ∀ c ∈ ds, c.isDigit = true) :
    Spells signed ('+' :: ds) (Nat.ofDigitChars 10 ds 0)
  | minus {ds : List Char} (hsigned : signed = true) (hne : ds ≠ [])
    (hds : ∀ c ∈ ds, c.isDigit = true) : Spells signed ('-' :: ds) (-Nat.ofDigitChars 10 ds 0)

variable {signed : Bool} {cs ds : List Char}

theorem isNumeral_iff : isNumeral ds = true ↔ ds ≠ [] ∧ ∀ c ∈ ds, c.isDigit = true := by
  simp [isNumeral]

theorem readNat?_eq_some_iff {n : ℕ} : readNat? ds = some n ↔
    ds ≠ [] ∧ (∀ c ∈ ds, c.isDigit = true) ∧ Nat.ofDigitChars 10 ds 0 = n := by
  rw [readNat?, Option.ite_none_right_eq_some, isNumeral_iff, and_assoc, Option.some.injEq]

theorem readNat?_of_digits (hne : ds ≠ []) (hds : ∀ c ∈ ds, c.isDigit = true) :
    readNat? ds = some (Nat.ofDigitChars 10 ds 0) :=
  readNat?_eq_some_iff.2 ⟨hne, hds, rfl⟩

theorem readInt?_eq_some_iff {n : ℤ} : readInt? signed cs = some n ↔ Spells signed cs n := by
  constructor
  · intro h
    unfold readInt? at h
    split at h
    · obtain ⟨k, hk, rfl⟩ := Option.map_eq_some_iff.1 h
      obtain ⟨hne, hds, rfl⟩ := readNat?_eq_some_iff.1 hk
      exact .plus hne hds
    · obtain ⟨hsigned, h⟩ := Option.ite_none_right_eq_some.1 h
      obtain ⟨k, hk, rfl⟩ := Option.map_eq_some_iff.1 h
      obtain ⟨hne, hds, rfl⟩ := readNat?_eq_some_iff.1 hk
      exact .minus hsigned hne hds
    · obtain ⟨k, hk, rfl⟩ := Option.map_eq_some_iff.1 h
      obtain ⟨hne, hds, rfl⟩ := readNat?_eq_some_iff.1 hk
      exact .plain hne hds
  · intro h
    cases h with
    | plain hne hds =>
      unfold readInt?
      split
      · exact absurd (hds '+' List.mem_cons_self) (by decide)
      · exact absurd (hds '-' List.mem_cons_self) (by decide)
      · rw [readNat?_of_digits hne hds]
        rfl
    | plus hne hds =>
      rw [readInt?, readNat?_of_digits hne hds]
      rfl
    | minus hsigned hne hds =>
      rw [readInt?, if_pos hsigned, readNat?_of_digits hne hds]
      rfl

theorem spells_unsigned_iff {n : ℤ} : Spells false cs n ↔ ∃ ds, (cs = ds ∨ cs = '+' :: ds) ∧
    ds ≠ [] ∧ (∀ c ∈ ds, c.isDigit = true) ∧ n = Nat.ofDigitChars 10 ds 0 := by
  constructor
  · intro h
    cases h with
    | plain hne hds => exact ⟨_, .inl rfl, hne, hds, rfl⟩
    | plus hne hds => exact ⟨_, .inr rfl, hne, hds, rfl⟩
    | minus hsigned => cases hsigned
  · rintro ⟨ds, rfl | rfl, hne, hds, rfl⟩
    · exact .plain hne hds
    · exact .plus hne hds

theorem spells_ofInt {n : ℤ} (h : signed = true ∨ 0 ≤ n) : Spells signed (ofInt n) n := by
  have hdigits : ∀ c ∈ ofNat n.natAbs, c.isDigit = true := fun c hc =>
    Nat.isDigit_of_mem_toDigits (by decide) (by decide) hc
  have hvalue : Nat.ofDigitChars 10 (ofNat n.natAbs) 0 = n.natAbs :=
    Nat.ofDigitChars_toDigits (by decide) (by decide)
  have hne : ofNat n.natAbs ≠ [] := Nat.toDigits_ne_nil
  unfold ofInt
  split_ifs with hn
  · have hminus := Spells.minus (h.resolve_right (not_le.2 hn)) hne hdigits
    rwa [hvalue, Int.natCast_natAbs, abs_of_neg hn, neg_neg] at hminus
  · have hplain : Spells signed _ _ := .plain hne hdigits
    rwa [hvalue, Int.natCast_natAbs, abs_of_nonneg (not_lt.1 hn)] at hplain

end RecordMap.Decimal
