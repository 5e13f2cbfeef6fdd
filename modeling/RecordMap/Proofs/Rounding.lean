import Mathlib
import RecordMap.Floating.Basic

/-!
# Exact rounding

Rounding changes nothing that the format can hold: a fraction whose value is that of a magnitude
comes out as that magnitude (`ofRatio?_eq_some`).  A format that is finer than another and reaches
further holds all of its numbers, so a number that is widened and narrowed again is the same number
(`cast_cast`).
-/

namespace RecordMap

namespace Ratio

variable {r : Ratio}

def toRat (r : Ratio) : ℚ := r.num / r.den

theorem toRat_scale (r : Ratio) {base : ℕ} (hbase : 0 < base) (k : ℤ) :
    (r.scale base k).toRat = r.toRat * (base : ℚ) ^ k := by
  have hb : (base : ℚ) ≠ 0 := by exact_mod_cast hbase.ne'
  unfold scale
  split_ifs with hk
  · obtain ⟨n, rfl⟩ := Int.eq_ofNat_of_zero_le hk
    simp only [toRat, Nat.pow_eq, Int.toNat_natCast, zpow_natCast]
    push_cast
    ring
  · obtain ⟨n, rfl⟩ : ∃ n : ℕ, k = -n := ⟨(-k).toNat, by omega⟩
    simp only [toRat, Nat.pow_eq, neg_neg, Int.toNat_natCast, zpow_neg, zpow_natCast]
    push_cast
    rw [div_mul_eq_div_div, div_eq_mul_inv (_ / _)]

theorem den_scale_pos (hden : 0 < r.den) {base : ℕ} (hbase : 0 < base) (k : ℤ) :
    0 < (r.scale base k).den := by
  unfold scale
  split_ifs
  · exact hden
  · exact Nat.mul_pos hden (Nat.pow_pos hbase)

theorem toRat_reduced (r : Ratio) : r.reduced.toRat = r.toRat := by
  simp only [toRat, reduced]
  exact Nat.cast_div_div_div_cancel_right (Nat.gcd_dvd_right _ _) (Nat.gcd_dvd_left _ _)

theorem den_reduced_pos (hden : 0 < r.den) : 0 < r.reduced.den :=
  Nat.div_pos (Nat.gcd_le_right _ hden) (Nat.gcd_pos_of_pos_right _ hden)

theorem toRat_pos_iff (hden : 0 < r.den) : 0 < r.toRat ↔ 0 < r.num := by
  have hd : (0 : ℚ) < r.den := by exact_mod_cast hden
  rw [toRat, div_pos_iff_of_pos_right hd, Nat.cast_pos]

theorem den_le_num_iff (hden : 0 < r.den) : r.den ≤ r.num ↔ 1 ≤ r.toRat := by
  have hd : (0 : ℚ) < r.den := by exact_mod_cast hden
  rw [toRat, one_le_div hd, Nat.cast_le]

theorem reaches_iff (hden : 0 < r.den) (k : ℤ) :
    r.reaches 2 k = true ↔ (2 : ℚ) ^ k ≤ r.toRat := by
  have hk : (0 : ℚ) < 2 ^ k := by positivity
  have h := den_le_num_iff (den_scale_pos hden Nat.two_pos (-k))
  rw [toRat_scale r Nat.two_pos, zpow_neg, ← div_eq_mul_inv, Nat.cast_ofNat, one_le_div hk] at h
  simpa only [reaches, decide_eq_true_eq] using h

/-- The lengths of numerator and denominator bound a fraction up to a factor of four. -/
theorem pow_log2_sub_bounds (hnum : 0 < r.num) (hden : 0 < r.den) :
    (2 : ℚ) ^ ((r.num.log2 : ℤ) - r.den.log2 - 1) ≤ r.toRat ∧
      r.toRat < 2 ^ ((r.num.log2 : ℤ) - r.den.log2 + 1) := by
  have hd : (0 : ℚ) < r.den := by exact_mod_cast hden
  have hn1 : (2 : ℚ) ^ r.num.log2 ≤ r.num := by exact_mod_cast Nat.log2_self_le hnum.ne'
  have hn2 : (r.num : ℚ) < 2 ^ (r.num.log2 + 1) := by exact_mod_cast Nat.lt_log2_self
  have hd1 : (2 : ℚ) ^ r.den.log2 ≤ r.den := by exact_mod_cast Nat.log2_self_le hden.ne'
  have hd2 : (r.den : ℚ) < 2 ^ (r.den.log2 + 1) := by exact_mod_cast Nat.lt_log2_self
  have hpow : ∀ a b : ℕ, (2 : ℚ) ^ ((a : ℤ) - b) * 2 ^ b = 2 ^ a := by
    intro a b
    rw [zpow_sub₀ two_ne_zero, zpow_natCast, zpow_natCast, div_mul_cancel₀ _ (by positivity)]
  constructor
  · have hexp : (r.num.log2 : ℤ) - r.den.log2 - 1 = r.num.log2 - (r.den.log2 + 1 : ℕ) := by omega
    rw [toRat, le_div_iff₀ hd, hexp]
    calc (2 : ℚ) ^ ((r.num.log2 : ℤ) - (r.den.log2 + 1 : ℕ)) * r.den
        ≤ 2 ^ ((r.num.log2 : ℤ) - (r.den.log2 + 1 : ℕ)) * 2 ^ (r.den.log2 + 1) := by gcongr
      _ = 2 ^ r.num.log2 := hpow _ _
      _ ≤ r.num := hn1
  · have hexp : (r.num.log2 : ℤ) - r.den.log2 + 1 = (r.num.log2 + 1 : ℕ) - r.den.log2 := by omega
    rw [toRat, div_lt_iff₀ hd, hexp]
    calc (r.num : ℚ) < 2 ^ (r.num.log2 + 1) := hn2
      _ = 2 ^ (((r.num.log2 + 1 : ℕ) : ℤ) - r.den.log2) * 2 ^ r.den.log2 := (hpow _ _).symm
      _ ≤ 2 ^ (((r.num.log2 + 1 : ℕ) : ℤ) - r.den.log2) * r.den := by gcongr

/-- The binary order is the floor of the binary logarithm. -/
theorem binaryOrder_bounds (hnum : 0 < r.num) (hden : 0 < r.den) :
    (2 : ℚ) ^ r.binaryOrder ≤ r.toRat ∧ r.toRat < 2 ^ (r.binaryOrder + 1) := by
  obtain ⟨hlow, hhigh⟩ := pow_log2_sub_bounds hnum hden
  unfold binaryOrder
  simp only []
  split_ifs with h
  · exact ⟨(reaches_iff hden _).1 h, hhigh⟩
  · rw [reaches_iff hden, not_le] at h
    refine ⟨hlow, ?_⟩
    rwa [sub_add_cancel]

theorem le_binaryOrder_iff (hnum : 0 < r.num) (hden : 0 < r.den) (k : ℤ) :
    k ≤ r.binaryOrder ↔ (2 : ℚ) ^ k ≤ r.toRat := by
  obtain ⟨hlow, hhigh⟩ := binaryOrder_bounds hnum hden
  constructor
  · intro h
    exact (zpow_le_zpow_right₀ one_le_two h).trans hlow
  · intro h
    have := (zpow_lt_zpow_iff_right₀ (one_lt_two (α := ℚ))).1 (h.trans_lt hhigh)
    omega

/-- A fraction with a whole value is rounded to that value. -/
theorem round_of_toRat {n : ℕ} (hden : 0 < r.den) (h : r.toRat = n) : r.round = n := by
  have hd : (r.den : ℚ) ≠ 0 := by exact_mod_cast hden.ne'
  have hnum : r.num = n * r.den := by
    rw [toRat, div_eq_iff hd] at h
    exact_mod_cast h
  have hmod : r.num % r.den = 0 := by rw [hnum, Nat.mul_mod_left]
  have hfloor : r.floor = n := by rw [floor, hnum, Nat.mul_div_cancel _ hden]
  simp only [round, hmod, hfloor, mul_zero]
  exact if_pos (Or.inl hden)

end Ratio

namespace Magnitude

variable {f g : Format}

def toRat (x : Magnitude f) : ℚ := x.significand * 2 ^ x.exponent

theorem toRat_ratio (x : Magnitude f) : x.ratio.toRat = x.toRat := by
  rw [ratio, Ratio.toRat_scale _ (by decide), toRat, Ratio.toRat, Nat.cast_one, div_one,
    Nat.cast_ofNat]

theorem den_ratio_pos (x : Magnitude f) : 0 < x.ratio.den :=
  Ratio.den_scale_pos Nat.one_pos (by decide) _

theorem of?_eq_some (x : Magnitude f) : of? x.significand x.exponent = some x :=
  dif_pos x.canonical

theorem toRat_pos_iff (x : Magnitude f) : 0 < x.toRat ↔ 0 < x.significand := by
  have h : (0 : ℚ) < 2 ^ x.exponent := by positivity
  rw [toRat, mul_pos_iff_of_pos_right h, Nat.cast_pos]

/-- A canonical significand fills the precision, or the exponent cannot be smaller. -/
theorem exponent_eq_max {x : Magnitude f} {r : Ratio} (hnum : 0 < r.num) (hden : 0 < r.den)
    (h : r.toRat = x.toRat) : max f.minExp (r.binaryOrder + 1 - f.precision) = x.exponent := by
  obtain ⟨hlt, hmin, -, hcanonical⟩ := x.canonical
  have hpos : (0 : ℚ) < 2 ^ x.exponent := by positivity
  have hx : 0 < x.significand := by
    rwa [← toRat_pos_iff, ← h, Ratio.toRat_pos_iff hden]
  have hprecision : 1 ≤ f.precision := by
    by_contra h0
    have h1 : f.precision = 0 := by omega
    rw [h1] at hlt
    have h2 : Nat.pow 2 0 = 1 := rfl
    omega
  -- The significand has at most `precision` digits, so the order is below `precision + exponent`.
  have hbelow : r.binaryOrder < f.precision + x.exponent := by
    by_contra hge
    rw [not_lt, Ratio.le_binaryOrder_iff hnum hden, h, toRat, zpow_add₀ two_ne_zero, zpow_natCast,
      mul_le_mul_iff_left₀ hpos] at hge
    have : 2 ^ f.precision ≤ x.significand := by exact_mod_cast hge
    rw [Nat.pow_eq] at hlt
    omega
  rcases hcanonical with hfull | hleast
  · have habove : ((f.precision - 1 : ℕ) : ℤ) + x.exponent ≤ r.binaryOrder := by
      rw [Ratio.le_binaryOrder_iff hnum hden, h, toRat, zpow_add₀ two_ne_zero, zpow_natCast,
        mul_le_mul_iff_left₀ hpos]
      rw [Nat.pow_eq] at hfull
      exact_mod_cast hfull
    omega
  · omega

theorem nearest?_eq_some {x : Magnitude f} {r : Ratio} (hnum : 0 < r.num) (hden : 0 < r.den)
    (h : r.toRat = x.toRat) : nearest? f r = some x := by
  have hround : (r.scale 2 (-x.exponent)).round = x.significand := by
    refine Ratio.round_of_toRat (Ratio.den_scale_pos hden (by decide) _) ?_
    rw [Ratio.toRat_scale r (by decide), h, toRat, Nat.cast_ofNat, mul_assoc,
      ← zpow_add₀ two_ne_zero, add_neg_cancel, zpow_zero, mul_one]
  have hlt : x.significand ≠ Nat.pow 2 f.precision := x.canonical.1.ne
  simp only [nearest?, exponent_eq_max hnum hden h, hround, if_neg hlt]
  exact x.of?_eq_some

/-- A fraction with the value of a magnitude is rounded to it. -/
theorem ofRatio?_eq_some {x : Magnitude f} {r : Ratio} (hden : 0 < r.den)
    (h : r.toRat = x.toRat) : ofRatio? f r = some x := by
  unfold ofRatio?
  split_ifs with hnum
  · have hx : x.significand = 0 := by
      have hzero : ¬ 0 < r.toRat := by
        rw [Ratio.toRat_pos_iff hden]
        omega
      rw [h, toRat_pos_iff] at hzero
      omega
    have hexp : x.exponent = f.minExp := by
      obtain ⟨-, -, -, hfull | hleast⟩ := x.canonical
      · have : 0 < Nat.pow 2 (f.precision - 1) := Nat.pow_pos (by decide)
        omega
      · exact hleast
    have hof := x.of?_eq_some
    rwa [hx, hexp] at hof
  · have hreduced : 0 < r.reduced.num := by
      rw [← Ratio.toRat_pos_iff (Ratio.den_reduced_pos hden), Ratio.toRat_reduced,
        Ratio.toRat_pos_iff hden]
      omega
    exact nearest?_eq_some hreduced (Ratio.den_reduced_pos hden) (by rw [Ratio.toRat_reduced, h])

end Magnitude

/-- Every number of the one format is a number of the other: it has no fewer digits, and room for
them below the least exponent and above the last. -/
structure Format.Within (f g : Format) : Prop where
  precision : f.precision ≤ g.precision
  minExp : g.minExp + g.precision ≤ f.minExp
  maxExp : f.maxExp ≤ g.maxExp

theorem Format.single_within_double : single.Within double := ⟨by decide, by decide, by decide⟩

namespace Magnitude

variable {f g : Format}

/-- A finer format has each magnitude, with its significand shifted to fill the precision. -/
theorem exists_toRat_eq (hfg : f.Within g) (x : Magnitude f) :
    ∃ y : Magnitude g, y.toRat = x.toRat := by
  obtain ⟨hlt, hmin, hmax, -⟩ := x.canonical
  rw [Nat.pow_eq] at hlt
  obtain ⟨hprecision, hminExp, hmaxExp⟩ := hfg
  rcases Nat.eq_zero_or_pos x.significand with hx | hx
  · have hcanonical : g.Canonical 0 g.minExp := by
      refine ⟨Nat.pow_pos (by decide), le_refl _, by omega, Or.inr rfl⟩
    exact ⟨⟨0, g.minExp, hcanonical⟩, by simp [toRat, hx]⟩
  · have hlog : x.significand.log2 < f.precision := (Nat.log2_lt hx.ne').2 hlt
    obtain ⟨k, hk⟩ : ∃ k, k + x.significand.log2 + 1 = g.precision :=
      ⟨g.precision - 1 - x.significand.log2, by omega⟩
    have hcanonical : g.Canonical (x.significand * 2 ^ k) (x.exponent - k) := by
      refine ⟨?_, by omega, by omega, Or.inl ?_⟩
      · rw [Nat.pow_eq, ← hk, add_assoc, pow_add, mul_comm]
        exact Nat.mul_lt_mul_of_pos_left Nat.lt_log2_self (by positivity)
      · rw [Nat.pow_eq, ← hk, Nat.add_sub_cancel, pow_add, mul_comm]
        exact Nat.mul_le_mul_right _ (Nat.log2_self_le hx.ne')
    refine ⟨⟨_, _, hcanonical⟩, ?_⟩
    simp only [toRat, zpow_sub₀ (two_ne_zero (α := ℚ)), zpow_natCast]
    push_cast
    field_simp

end Magnitude

namespace Floating

variable {f g : Format}

theorem cast_of_toRat_eq {x : Magnitude f} {y : Magnitude g} (h : y.toRat = x.toRat) (s : Bool) :
    (finite s x).cast g = finite s y := by
  rw [cast, ofRatio, Magnitude.ofRatio?_eq_some x.den_ratio_pos (by rw [x.toRat_ratio, h])]

theorem cast_cast (hfg : f.Within g) : ∀ x : Floating f, (x.cast g).cast f = x
  | .nan => rfl
  | .infinite _ => rfl
  | .finite s x => by
    obtain ⟨y, hy⟩ := Magnitude.exists_toRat_eq hfg x
    rw [cast_of_toRat_eq hy, cast_of_toRat_eq hy.symm]

end Floating

end RecordMap
