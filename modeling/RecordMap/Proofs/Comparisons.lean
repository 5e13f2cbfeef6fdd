import RecordMap.Proofs.Expressions
import RecordMap.Proofs.Matching
import RecordMap.Proofs.RoundTrip

/-!
# Values that compare alike

A constant is taken for a stored value: an integer if it has no point and is not too large, and else
the real nearest to it.  Two numbers are compared as numbers, whatever their kind, and some stores
round an integer that they compare with a real.

What stands for a value is taken for one that is the same, or that no comparison tells from it in
the place where it stands (`alikeAt_of_standsFor`).
-/

namespace RecordMap

open Sql

namespace Stored

def toRat? : Stored → Option ℚ
  | .integer i => some i.toInt
  | .real (.finite negative x) => some (if negative then -x.toRat else x.toRat)
  | _ => none

/-- The same value, or the same number of another kind. -/
def SameNumber (a b : Stored) : Prop := a = b ∨ ∃ q, a.toRat? = some q ∧ b.toRat? = some q

def isReal : Stored → Bool
  | .real _ => true
  | _ => false

/-- An integer becomes the real nearest to it. -/
def rounded : Stored → Stored
  | .integer i => .real (.ofInt .double i.toInt)
  | raw => raw

theorem rounded_eq {raw : Stored} (h : ∀ i, raw ≠ .integer i) : raw.rounded = raw := by
  cases raw with
  | integer i => exact absurd rfl (h i)
  | _ => rfl

theorem toRat?_eq_none {raw : Stored} (h : ∀ i, raw ≠ .integer i) (hreal : raw.isReal = false) :
    raw.toRat? = none := by
  cases raw with
  | integer i => exact absurd rfl (h i)
  | real x => cases hreal
  | _ => rfl

theorem ne_null_of_toRat? {raw : Stored} {q : ℚ} (h : raw.toRat? = some q) : raw ≠ .null := by
  rintro rfl
  cases h

section Rounded

variable (i : Number .int64)

theorem exists_rounded : ∃ y : Magnitude .double, y.IsRounding i.toInt.natAbs ∧
    (integer i).rounded = .real (.finite (decide (i.toInt < 0)) y) := by
  have hratio : (⟨i.toInt.natAbs, 1⟩ : Ratio).toRat = i.toInt.natAbs := by
    rw [Ratio.toRat, Nat.cast_one, div_one]
  have hrange : i.toInt.natAbs ≤ 2 ^ 63 := by
    have hi : IntType.int64.min ≤ i.toInt ∧ i.toInt ≤ IntType.int64.max := i.2
    simp only [IntType.min, IntType.max] at hi
    omega
  have hreach : (⟨i.toInt.natAbs, 1⟩ : Ratio).toRat < 2 ^ Format.double.maxExp := by
    rw [hratio]
    calc (i.toInt.natAbs : ℚ) ≤ 2 ^ (63 : ℤ) := by exact_mod_cast hrange
      _ < 2 ^ Format.double.maxExp := zpow_lt_zpow_right₀ one_lt_two (by decide)
  obtain ⟨y, hy⟩ :=
    Magnitude.exists_ofRatio? (f := .double) (by decide) (by decide) Nat.one_pos hreach
  refine ⟨y, hratio ▸ Magnitude.ofRatio?_isRounding (by decide) Nat.one_pos hy, ?_⟩
  rw [rounded, Floating.ofInt, Floating.ofRatio, hy]

theorem toInt_eq_natAbs :
    (i.toInt : ℚ) = if decide (i.toInt < 0) then -(i.toInt.natAbs : ℚ) else i.toInt.natAbs := by
  rw [Nat.cast_natAbs]
  split_ifs with hneg
  · rw [abs_of_neg (of_decide_eq_true hneg), Int.cast_neg, neg_neg]
  · rw [abs_of_nonneg (not_lt.1 fun h => hneg (decide_eq_true h))]

theorem toRat?_rounded (hi : |(i.toInt : ℚ)| < 2 ^ 53) :
    (integer i).rounded.toRat? = some (i.toInt : ℚ) := by
  obtain ⟨y, hy, hrounded⟩ := exists_rounded i
  have hnat : i.toInt.natAbs < 2 ^ Format.double.precision := by
    rw [← Int.cast_abs, Int.abs_eq_natAbs] at hi
    exact_mod_cast hi
  rw [hrounded, toRat?, hy.toRat_of_lt (by decide) hnat, ← toInt_eq_natAbs]

/-- A number within reach of all whole numbers is below an integer, or above it, whether the integer
is rounded or not. -/
theorem exists_toRat?_rounded {q : ℚ} (hq : |q| < 2 ^ 53) : ∃ r,
    (integer i).rounded.toRat? = some r ∧ (q < i.toInt ↔ q < r) ∧ (i.toInt < q ↔ r < q) := by
  by_cases hi : |(i.toInt : ℚ)| < 2 ^ 53
  · exact ⟨_, toRat?_rounded i hi, .rfl, .rfl⟩
  obtain ⟨y, hy, hrounded⟩ := exists_rounded i
  have hnat : (2 : ℚ) ^ 53 ≤ i.toInt.natAbs := by
    rw [← Int.cast_abs, Int.abs_eq_natAbs] at hi
    exact_mod_cast not_lt.1 hi
  have hlarge : (2 : ℚ) ^ 53 ≤ y.toRat := by
    by_contra hlt
    rw [hy.eq_of_lt (by decide) (by decide) (not_le.1 hlt)] at hnat
    exact hlt hnat
  obtain ⟨hlow, hhigh⟩ := abs_lt.1 hq
  refine ⟨_, by rw [hrounded, toRat?], ?_⟩
  rw [toInt_eq_natAbs]
  split_ifs
  · exact ⟨⟨fun h => by linarith, fun h => by linarith⟩, fun _ => by linarith, fun _ => by linarith⟩
  · exact ⟨⟨fun _ => by linarith, fun _ => by linarith⟩, fun h => by linarith, fun h => by linarith⟩

end Rounded

end Stored

namespace Sql

/-! ## What constants are taken for -/

namespace Constant

/-- The integer that a constant is, if it has no point and 64 bits hold it. -/
def whole? : Constant → Option (Number .int64)
  | .text _ => none
  | .number negative n k => if k = 0 then Number.ofInt? .int64 (if negative then -n else n) else none

/-- The stored value that a constant is taken for. -/
def stored : Constant → Stored
  | .text s => .text s
  | .number negative n k =>
    match whole? (.number negative n k) with
    | some i => .integer i
    | none => .real (Floating.ofRatio .double negative (Ratio.scale ⟨n, 1⟩ 10 k))

theorem isInteger_eq (c : Constant) : c.isInteger = c.whole?.isSome := by
  cases c with
  | text s => rfl
  | number negative n k =>
    by_cases hk : k = 0 <;> simp [isInteger, whole?, hk]

variable {negative : Bool} {n : ℕ} {k : ℤ} {x : Magnitude .double}

theorem stored_of_isRounding (h : (number negative n k).isInteger = false)
    (hx : x.IsRounding (n * 10 ^ k)) :
    (number negative n k).stored = .real (.finite negative x) := by
  rw [isInteger_eq, Option.isSome_eq_false_iff, Option.isNone_iff_eq_none] at h
  have hround : Magnitude.ofRatio? .double (Ratio.scale ⟨n, 1⟩ 10 k) = some x := by
    rw [Magnitude.ofRatio?_eq_some_iff (by decide) (Ratio.den_scale_pos Nat.one_pos (by decide) k),
      Ratio.toRat_scale _ (by decide), Ratio.toRat, Nat.cast_one, div_one]
    exact hx
  simp only [stored, h, Floating.ofRatio, hround]

theorem exists_stored_of_isInteger (h : (number negative n k).isInteger = true) :
    ∃ i : Number .int64, (number negative n k).stored = .integer i ∧
      (i.toInt : ℚ) = (if negative then -1 else 1) * (n * 10 ^ k) := by
  rw [isInteger_eq, Option.isSome_iff_exists] at h
  obtain ⟨i, hi⟩ := h
  refine ⟨i, by simp only [stored, hi], ?_⟩
  by_cases hk : k = 0
  · rw [whole?, if_pos hk] at hi
    rw [Number.toInt_of_ofInt? hi, hk]
    cases negative <;> simp
  · rw [whole?, if_neg hk] at hi
    cases hi

theorem Is.stored_eq {c : Constant} {raw : Stored} (h : c.Is raw) : c.stored = raw := by
  obtain ⟨hdenotes, hinteger, -⟩ := h
  cases hdenotes with
  | text s => rfl
  | integer hi =>
    obtain ⟨j, hj, hjrat⟩ := exists_stored_of_isInteger hinteger
    rw [hj, Stored.integer.injEq]
    refine Subtype.ext ?_
    have hrat := hjrat.trans hi.symm
    exact_mod_cast hrat
  | real hx => exact stored_of_isRounding hinteger hx

end Constant

/-! ## Comparisons -/

namespace Table

def compare (c : Connective) (a b : ℚ) : Bool :=
  match c with
  | .eq => a = b
  | .ne => a ≠ b
  | .ge => b ≤ a
  | .gt => b < a
  | .le => a ≤ b
  | .lt => a < b
  | .and | .or | .bitAnd | .bitOr => false

/-- Two numbers are compared, and of other values it is only asked whether they are the same.  There
is no answer for a null. -/
def relateExactly (c : Connective) (a b : Stored) : Stored :=
  if a = .null ∨ b = .null then .null
  else
    match a.toRat?, b.toRat? with
    | some x, some y => .ofBool (compare c x y)
    | none, none => .ofBool (c = .eq && a = b || c = .ne && a ≠ b)
    | _, _ => .ofBool (c = .ne)

/-- A comparison by a store that may round an integer to compare it with a real. -/
def relate (rounds : Bool) (c : Connective) (a b : Stored) : Stored :=
  if rounds && (a.isReal || b.isReal) then relateExactly c a.rounded b.rounded
  else relateExactly c a b

section RelateExactly

variable (c : Connective) {a a' b b' : Stored} {x x' y : ℚ}

theorem relateExactly_numbers (ha : a.toRat? = some x) (hb : b.toRat? = some y) :
    relateExactly c a b = .ofBool (compare c x y) := by
  have hnull : ¬(a = .null ∨ b = .null) :=
    not_or.2 ⟨Stored.ne_null_of_toRat? ha, Stored.ne_null_of_toRat? hb⟩
  rw [relateExactly, if_neg hnull, ha, hb]

/-- Next to what is no number, all numbers are the same. -/
theorem relateExactly_number_other (ha : a.toRat? = some x) (ha' : a'.toRat? = some x')
    (hb : b.toRat? = none) : relateExactly c a b = relateExactly c a' b := by
  rw [relateExactly, relateExactly, ha, ha', hb]
  simp only [Stored.ne_null_of_toRat? ha, Stored.ne_null_of_toRat? ha']

theorem relateExactly_other_number (ha : a.toRat? = none) (hb : b.toRat? = some x)
    (hb' : b'.toRat? = some x') : relateExactly c a b = relateExactly c a b' := by
  rw [relateExactly, relateExactly, ha, hb, hb']
  simp only [Stored.ne_null_of_toRat? hb, Stored.ne_null_of_toRat? hb']

theorem relateExactly_of_sameNumber (ha : a.SameNumber a') (hb : b.SameNumber b') :
    relateExactly c a b = relateExactly c a' b' := by
  rcases ha with rfl | ⟨x, ha, ha'⟩ <;> rcases hb with rfl | ⟨y, hb, hb'⟩
  · rfl
  · rcases hx : a.toRat? with _ | x
    · exact relateExactly_other_number c hx hb hb'
    · rw [relateExactly_numbers c hx hb, relateExactly_numbers c hx hb']
  · rcases hy : b.toRat? with _ | y
    · exact relateExactly_number_other c ha ha' hy
    · rw [relateExactly_numbers c ha hy, relateExactly_numbers c ha' hy]
  · rw [relateExactly_numbers c ha hb, relateExactly_numbers c ha' hb']

end RelateExactly

theorem compare_congr {x y x' y' : ℚ} (hlt : x < y ↔ x' < y') (hgt : y < x ↔ y' < x')
    (c : Connective) : compare c x y = compare c x' y' := by
  have heq : x = y ↔ x' = y' := by
    rw [← not_iff_not, ← ne_eq, ← ne_eq, ne_iff_lt_or_gt, ne_iff_lt_or_gt, hlt, hgt]
  cases c <;> simp only [compare, heq, hlt, hgt, ← not_lt, ne_eq]

/-- No comparison with `v` tells the two values apart. -/
def CompareAlike (rounds : Bool) (v a b : Stored) : Prop :=
  ∀ c, relate rounds c a v = relate rounds c b v ∧ relate rounds c v a = relate rounds c v b

section CompareAlike

variable {rounds : Bool} {i : Number .int64} {x : Double}

/-- Next to anything but an integer, an integer is the real to which it is rounded. -/
theorem compareAlike_rounded {q : ℚ} (hi : (Stored.integer i).rounded.toRat? = some q)
    (hx : (Stored.real x).toRat? = some q) {v : Stored} (hv : ∀ j, v ≠ .integer j) :
    CompareAlike true v (.integer i) (.real x) := by
  intro c
  cases hreal : v.isReal with
  | true =>
    have hsame : (Stored.integer i).rounded.SameNumber (.real x) := .inr ⟨q, hi, hx⟩
    simp only [relate, hreal, Bool.or_true, Bool.true_or, Bool.and_self, if_true]
    exact ⟨relateExactly_of_sameNumber c hsame (.inl rfl),
      relateExactly_of_sameNumber c (.inl rfl) hsame⟩
  | false =>
    have hinteger : (Stored.integer i).toRat? = some (i.toInt : ℚ) := rfl
    have hother := Stored.toRat?_eq_none hv hreal
    constructor
    · calc relate true c (.integer i) v
          = relateExactly c (.integer i) v := by rw [relate, hreal]; rfl
        _ = relateExactly c (.real x) v := relateExactly_number_other c hinteger hx hother
        _ = relate true c (.real x) v := by rw [relate, Stored.rounded_eq hv]; rfl
    · calc relate true c v (.integer i)
          = relateExactly c v (.integer i) := by rw [relate, hreal]; rfl
        _ = relateExactly c v (.real x) := relateExactly_other_number c hother hinteger hx
        _ = relate true c v (.real x) := by rw [relate, hreal, Stored.rounded_eq hv]; rfl

/-- An integer compares as the same real does, unless other integers are rounded to it. -/
theorem compareAlike_of_toRat (hx : (Stored.real x).toRat? = some (i.toInt : ℚ))
    (hsmall : rounds = true → |(i.toInt : ℚ)| < 2 ^ 53) (v : Stored) :
    CompareAlike rounds v (.integer i) (.real x) := by
  have hinteger : (Stored.integer i).toRat? = some (i.toInt : ℚ) := rfl
  cases rounds with
  | false =>
    have hsame : (Stored.integer i).SameNumber (.real x) := .inr ⟨_, hinteger, hx⟩
    exact fun c => ⟨relateExactly_of_sameNumber c hsame (.inl rfl),
      relateExactly_of_sameNumber c (.inl rfl) hsame⟩
  | true =>
    by_cases hv : ∃ j, v = .integer j
    · obtain ⟨j, rfl⟩ := hv
      obtain ⟨r, hr, hlt, hgt⟩ := Stored.exists_toRat?_rounded j (hsmall rfl)
      intro c
      have hj : (Stored.integer j).toRat? = some (j.toInt : ℚ) := rfl
      constructor
      · calc relateExactly c (.integer i) (.integer j)
            = .ofBool (compare c i.toInt j.toInt) := relateExactly_numbers c hinteger hj
          _ = .ofBool (compare c i.toInt r) := by rw [compare_congr hlt hgt]
          _ = relateExactly c (.real x) (Stored.integer j).rounded :=
            (relateExactly_numbers c hx hr).symm
      · calc relateExactly c (.integer j) (.integer i)
            = .ofBool (compare c j.toInt i.toInt) := relateExactly_numbers c hj hinteger
          _ = .ofBool (compare c r i.toInt) := by rw [compare_congr hgt hlt]
          _ = relateExactly c (Stored.integer j).rounded (.real x) :=
            (relateExactly_numbers c hr hx).symm
    · exact compareAlike_rounded (Stored.toRat?_rounded i (hsmall rfl)) hx fun j hj => hv ⟨j, hj⟩

end CompareAlike

/-- The values are the same, or no comparison tells them apart in this place.  There are no integers
to compare with in a column of reals. -/
def AlikeAt (rounds : Bool) (place : Place) (a b : Stored) : Prop :=
  a = b ∨ place ≠ .anywhere ∧
    ∀ v, (place = .real → ∀ j, v ≠ .integer j) → CompareAlike rounds v a b

section AlikeAt

variable {rounds negative : Bool} {place : Place} {n : ℕ} {k : ℤ} {x : Magnitude .double}

/-- The integer that a constant is, once it is rounded, is the real to which the constant is. -/
theorem toRat?_rounded_of_isRounding {i : Number .int64}
    (hi : (i.toInt : ℚ) = (if negative then -1 else 1) * (n * 10 ^ k))
    (hx : x.IsRounding (n * 10 ^ k)) :
    (Stored.integer i).rounded.toRat? = (Stored.real (.finite negative x)).toRat? := by
  have hpos : (0 : ℚ) ≤ n * 10 ^ k := by positivity
  have hnat : (i.toInt.natAbs : ℚ) = n * 10 ^ k := by
    rw [Nat.cast_natAbs, Int.cast_abs, hi]
    cases negative <;> simp [abs_of_nonneg hpos]
  obtain ⟨y, hy, hrounded⟩ := Stored.exists_rounded i
  rw [hnat] at hy
  rw [hrounded, hy.unique (by decide) hx, Stored.toRat?, Stored.toRat?]
  rcases hpos.eq_or_lt with hzero | hlt
  · -- Zero has either sign.
    rw [← hzero] at hx
    have hxzero : x.toRat = 0 := by
      exact_mod_cast Magnitude.IsRounding.toRat_of_lt (n := 0) (by decide) (by exact_mod_cast hx)
        (by decide)
    simp [hxzero]
  · have hsign : decide (i.toInt < 0) = negative := by
      rw [← Bool.coe_iff_coe, decide_eq_true_eq, ← Int.cast_lt_zero (R := ℚ), hi]
      cases negative <;> simp [hlt, hpos.not_gt]
    rw [hsign]

theorem alikeAt_of_standsFor {c : Constant} {raw : Stored} (h : c.StandsFor rounds place raw) :
    AlikeAt rounds place c.stored raw := by
  cases h with
  | same h => exact .inl h.stored_eq
  | @number _ negative n k x hplace hx hsmall =>
    cases hinteger : (Constant.number negative n k).isInteger with
    | false =>
      exact .inl (Constant.stored_of_isRounding hinteger (hx ▸ x.isRounding_toRat))
    | true =>
      obtain ⟨i, hi, hrat⟩ := Constant.exists_stored_of_isInteger hinteger
      rw [hx] at hrat
      have hreal : (Stored.real (.finite negative x)).toRat? = some (i.toInt : ℚ) := by
        rw [Stored.toRat?, hrat]
        cases negative <;> simp
      have habs : |(i.toInt : ℚ)| = x.toRat := by
        have hpos : 0 ≤ x.toRat := by
          rw [Magnitude.toRat]
          positivity
        rw [hrat]
        cases negative <;> simp [abs_of_nonneg hpos]
      rw [hi]
      exact .inr ⟨hplace, fun v _ => compareAlike_of_toRat hreal (fun hr => habs ▸ hsmall hr) v⟩
  | @rounded negative n k x hrounds hx =>
    cases hinteger : (Constant.number negative n k).isInteger with
    | false => exact .inl (Constant.stored_of_isRounding hinteger hx)
    | true =>
      obtain ⟨i, hi, hrat⟩ := Constant.exists_stored_of_isInteger hinteger
      rw [hi, hrounds]
      refine .inr ⟨by decide, fun v hv => compareAlike_rounded ?_ rfl (hv rfl)⟩
      exact toRat?_rounded_of_isRounding hrat hx

theorem AlikeAt.eq {a b : Stored} (h : AlikeAt rounds .anywhere a b) : a = b :=
  h.resolve_right fun h => h.1 rfl

theorem AlikeAt.compareAlike {a b v : Stored} (h : AlikeAt rounds place a b)
    (hv : place = .real → ∀ j, v ≠ .integer j) : CompareAlike rounds v a b := by
  rcases h with rfl | ⟨-, h⟩
  · exact fun c => ⟨rfl, rfl⟩
  · exact h v hv

end AlikeAt

end Table

end Sql

end RecordMap
