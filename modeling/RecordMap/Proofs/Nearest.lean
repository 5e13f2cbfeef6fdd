import RecordMap.Floating.Shortest
import RecordMap.Proofs.Rounding

/-!
# The nearest number

A magnitude is the rounding of a number if no magnitude is nearer to it, whatever its exponent, and
it is even where another is as near.  That is what rounding gives (`ofRatio?_isRounding`), and there
is no other such magnitude (`IsRounding.unique`, `ofRatio?_eq_some_iff`).

So the shortest digits of a magnitude, read as a number and rounded, give the magnitude
(`shortest_isRounding`).
-/

namespace RecordMap

namespace Ratio

variable {r : Ratio}

/-- The whole part and the rest of a fraction, as a number of denominators. -/
theorem toRat_eq_floor_add (hden : 0 < r.den) :
    r.toRat = r.floor + (r.num % r.den : ℕ) / (r.den : ℚ) := by
  have hd : (r.den : ℚ) ≠ 0 := by exact_mod_cast hden.ne'
  rw [toRat, floor, div_eq_iff hd, add_mul, div_mul_cancel₀ _ hd]
  exact_mod_cast (Nat.div_add_mod' r.num r.den).symm

section Distance

variable {n k : ℤ} {t : ℚ}

theorem abs_add_sub_of_le (ht : 0 ≤ t) (hk : k ≤ n) : |n + t - k| = n - k + t := by
  have hk' : (k : ℚ) ≤ n := by exact_mod_cast hk
  rw [abs_of_nonneg (by linarith)]
  ring

theorem abs_add_sub_of_lt (ht : t < 1) (hk : n < k) : |n + t - k| = k - n - t := by
  have hk' : (n + 1 : ℚ) ≤ k := by exact_mod_cast hk
  rw [abs_of_nonpos (by linarith)]
  ring

/-- Up to the middle, the lower of two neighbours is the nearest whole number. -/
theorem nearest_below (ht0 : 0 ≤ t) (ht : t ≤ 1 / 2) :
    |n + t - n| ≤ |n + t - k| ∧ (k ≠ n → |n + t - k| = |n + t - n| → t = 1 / 2) := by
  rw [abs_add_sub_of_le ht0 le_rfl]
  rcases le_or_gt k n with hk | hk
  · have hk' : (k : ℚ) ≤ n := by exact_mod_cast hk
    rw [abs_add_sub_of_le ht0 hk]
    refine ⟨by linarith, fun hne heq => absurd ?_ hne⟩
    have hkn : (k : ℚ) = n := by linarith
    exact_mod_cast hkn
  · have hk' : (n + 1 : ℚ) ≤ k := by exact_mod_cast hk
    rw [abs_add_sub_of_lt (by linarith) hk]
    exact ⟨by linarith, fun _ heq => by linarith⟩

/-- From the middle on, the upper one is. -/
theorem nearest_above (ht : 1 / 2 ≤ t) (ht1 : t < 1) :
    |n + t - (n + 1 : ℤ)| ≤ |n + t - k| ∧
      (k ≠ n + 1 → |n + t - k| = |n + t - (n + 1 : ℤ)| → t = 1 / 2) := by
  rw [abs_add_sub_of_lt ht1 (Int.lt_succ n), Int.cast_add, Int.cast_one]
  rcases le_or_gt k n with hk | hk
  · have hk' : (k : ℚ) ≤ n := by exact_mod_cast hk
    rw [abs_add_sub_of_le (by linarith) hk]
    exact ⟨by linarith, fun _ heq => by linarith⟩
  · have hk' : (n + 1 : ℚ) ≤ k := by exact_mod_cast hk
    rw [abs_add_sub_of_lt ht1 hk]
    refine ⟨by linarith, fun hne heq => absurd ?_ hne⟩
    have hkn : (k : ℚ) = n + 1 := by linarith
    exact_mod_cast hkn

end Distance

/-- No whole number is nearer to a fraction than its rounding, and one that is as near leaves the
rounding even. -/
theorem round_nearest (hden : 0 < r.den) (k : ℤ) :
    |r.toRat - r.round| ≤ |r.toRat - k| ∧
      (k ≠ r.round → |r.toRat - k| = |r.toRat - r.round| → r.round % 2 = 0) := by
  have hd : (0 : ℚ) < r.den := by exact_mod_cast hden
  obtain ⟨t, ht⟩ : ∃ t : ℚ, t = (r.num % r.den : ℕ) / (r.den : ℚ) := ⟨_, rfl⟩
  have ht0 : 0 ≤ t := by rw [ht]; positivity
  have ht1 : t < 1 := by
    rw [ht, div_lt_one hd]
    exact_mod_cast Nat.mod_lt _ hden
  have hhalf : 2 * (r.num % r.den) < r.den ↔ t < 1 / 2 := by
    rw [ht, div_lt_iff₀ hd, ← Nat.cast_lt (α := ℚ)]
    push_cast
    constructor <;> intro h <;> linarith
  have htie : 2 * (r.num % r.den) = r.den ↔ t = 1 / 2 := by
    rw [ht, div_eq_iff hd.ne', ← Nat.cast_inj (R := ℚ)]
    push_cast
    constructor <;> intro h <;> linarith
  rw [toRat_eq_floor_add hden, ← ht]
  unfold round
  simp only [hhalf, htie]
  split_ifs with h
  · have hle : t ≤ 1 / 2 := h.elim le_of_lt fun h => h.1.le
    obtain ⟨hnearest, htied⟩ := nearest_below (n := r.floor) (k := k) ht0 hle
    refine ⟨hnearest, fun hne heq => ?_⟩
    have hmiddle := htied hne heq
    rcases h with h | ⟨-, heven⟩
    · exact absurd hmiddle h.ne
    · exact heven
  · have hge : 1 / 2 ≤ t := not_lt.1 fun hlt => h (.inl hlt)
    obtain ⟨hnearest, htied⟩ := nearest_above (n := r.floor) (k := k) hge ht1
    push_cast at hnearest htied ⊢
    refine ⟨hnearest, fun hne heq => ?_⟩
    -- In the middle the lower neighbour was not taken, so it is odd.
    have hodd : ¬r.floor % 2 = 0 := fun heven => h (.inr ⟨htied hne heq, heven⟩)
    omega

theorem round_le_of_toRat_lt (hden : 0 < r.den) {n : ℕ} (h : r.toRat < n) : r.round ≤ n := by
  have hd : (0 : ℚ) < r.den := by exact_mod_cast hden
  have hfloor : r.floor < n := by
    rw [toRat, div_lt_iff₀ hd] at h
    rw [floor, Nat.div_lt_iff_lt_mul hden]
    exact_mod_cast h
  unfold round
  dsimp only
  split_ifs
  · exact hfloor.le
  · exact hfloor

theorem le_round_of_le_toRat (hden : 0 < r.den) {n : ℕ} (h : (n : ℚ) ≤ r.toRat) : n ≤ r.round := by
  have hd : (0 : ℚ) < r.den := by exact_mod_cast hden
  have hfloor : n ≤ r.floor := by
    rw [toRat, le_div_iff₀ hd] at h
    rw [floor, Nat.le_div_iff_mul_le hden]
    exact_mod_cast h
  unfold round
  dsimp only
  split_ifs
  · exact hfloor
  · exact Nat.le_succ_of_le hfloor

end Ratio

namespace Magnitude

variable {f : Format} {x : Magnitude f} {r : Ratio}

/-- The rounding of a number to the nearest magnitude, a tie going to the even significand.  It is
asked for among all significands of the precision and all exponents of the format and beyond. -/
structure IsRounding (x : Magnitude f) (q : ℚ) : Prop where
  nearest : ∀ (m : ℕ) (e : ℤ), m < 2 ^ f.precision → f.minExp ≤ e →
    |q - x.toRat| ≤ |q - m * 2 ^ e|
  even : ∀ (m : ℕ) (e : ℤ), m < 2 ^ f.precision → f.minExp ≤ e → (m * 2 ^ e : ℚ) ≠ x.toRat →
    |q - m * 2 ^ e| = |q - x.toRat| → x.significand % 2 = 0

theorem isRounding_toRat (x : Magnitude f) : x.IsRounding x.toRat where
  nearest m e _ _ := by
    rw [sub_self, abs_zero]
    exact abs_nonneg _
  even m e _ _ hne h := by
    rw [sub_self, abs_zero, abs_eq_zero, sub_eq_zero] at h
    exact absurd h.symm hne

/-- Rounding gives a multiple of the power of two that goes with the order of the fraction.  A
significand that has come to fill one more digit is a power of two itself. -/
theorem toRat_of_nearest? (hprecision : 1 < f.precision) (h : nearest? f r = some x) {e : ℤ}
    (he : e = max f.minExp (r.binaryOrder + 1 - f.precision)) :
    x.toRat = (r.scale 2 (-e)).round * 2 ^ e ∧
      ((r.scale 2 (-e)).round % 2 = 0 → x.significand % 2 = 0) := by
  simp only [nearest?, ← he, of?] at h
  obtain ⟨p, hp⟩ : ∃ p, f.precision = p + 2 := ⟨f.precision - 2, by omega⟩
  split_ifs at h with hfull hcanonical hcanonical <;> cases h
  · rw [hfull]
    show ((Nat.pow 2 (f.precision - 1) : ℕ) : ℚ) * 2 ^ (e + 1) = _ ∧
      (_ → Nat.pow 2 (f.precision - 1) % 2 = 0)
    rw [hp, Nat.pow_eq, Nat.pow_eq, zpow_add₀ two_ne_zero]
    refine ⟨?_, fun _ => ?_⟩
    · push_cast
      ring
    · rw [Nat.add_sub_assoc (by decide), pow_succ, Nat.mul_mod_left]
  · exact ⟨rfl, fun heven => heven⟩

/-- A magnitude is a multiple of that power of two, or else too small to be nearest. -/
theorem exists_multiple (hnum : 0 < r.num) (hden : 0 < r.den) (hprecision : 1 < f.precision) {e : ℤ}
    (he : e = max f.minExp (r.binaryOrder + 1 - f.precision)) {m : ℕ} {e' : ℤ}
    (hm : m < 2 ^ f.precision) (he' : f.minExp ≤ e') :
    (∃ k : ℤ, (m * 2 ^ e' : ℚ) = k * 2 ^ e) ∨
      ∃ k : ℤ, |r.toRat - k * 2 ^ e| < |r.toRat - m * 2 ^ e'| := by
  rcases le_or_gt e e' with hle | hlt
  · refine .inl ⟨m * 2 ^ (e' - e).toNat, ?_⟩
    obtain ⟨n, hn⟩ := Int.eq_ofNat_of_zero_le (sub_nonneg.2 hle)
    have hsum : e' = n + e := by omega
    rw [hn, Int.toNat_natCast, hsum, zpow_add₀ two_ne_zero, zpow_natCast]
    push_cast
    ring
  · have horder : e + (f.precision - 1 : ℕ) = r.binaryOrder := by omega
    obtain ⟨hlow, -⟩ := Ratio.binaryOrder_bounds hnum hden
    rw [← horder, zpow_add₀ two_ne_zero, zpow_natCast] at hlow
    refine .inr ⟨2 ^ (f.precision - 1), ?_⟩
    have hsmall : (m * 2 ^ e' : ℚ) < 2 ^ e * 2 ^ (f.precision - 1) := by
      obtain ⟨p, hp⟩ : ∃ p, f.precision = p + 1 := ⟨f.precision - 1, by omega⟩
      have hm' : (m : ℚ) < 2 ^ f.precision := by exact_mod_cast hm
      calc (m * 2 ^ e' : ℚ) < 2 ^ f.precision * 2 ^ e' := by gcongr
        _ ≤ 2 ^ f.precision * 2 ^ (e - 1) := by
          gcongr
          · exact one_le_two
          · omega
        _ = 2 ^ e * 2 ^ (f.precision - 1) := by
          rw [hp, Nat.add_sub_cancel, zpow_sub₀ two_ne_zero, pow_succ]
          ring
    push_cast
    rw [mul_comm (2 ^ (f.precision - 1) : ℚ), abs_of_nonneg (by linarith),
      abs_of_nonneg (by linarith)]
    linarith

theorem nearest?_isRounding (hprecision : 1 < f.precision) (hnum : 0 < r.num) (hden : 0 < r.den)
    (h : nearest? f r = some x) : x.IsRounding r.toRat := by
  obtain ⟨e, he⟩ : ∃ e, e = max f.minExp (r.binaryOrder + 1 - f.precision) := ⟨_, rfl⟩
  obtain ⟨hx, heven⟩ := toRat_of_nearest? hprecision h he
  have hpow : (0 : ℚ) < 2 ^ e := by positivity
  have hscale : (r.scale 2 (-e)).toRat = r.toRat / 2 ^ e := by
    rw [Ratio.toRat_scale r (by decide), zpow_neg, Nat.cast_ofNat, div_eq_mul_inv]
  have hdist : ∀ k : ℚ, |r.toRat - k * 2 ^ e| = |(r.scale 2 (-e)).toRat - k| * 2 ^ e := by
    intro k
    rw [hscale, ← abs_of_pos hpow, ← abs_mul, abs_of_pos hpow, sub_mul, div_mul_cancel₀ _ hpow.ne']
  have hround := Ratio.round_nearest (Ratio.den_scale_pos hden (by decide : 0 < 2) (-e))
  have hnearest : ∀ k : ℤ, |r.toRat - x.toRat| ≤ |r.toRat - k * 2 ^ e| := by
    intro k
    rw [hx, hdist, hdist]
    exact mul_le_mul_of_nonneg_right (hround k).1 hpow.le
  constructor
  · intro m e' hm he'
    rcases exists_multiple hnum hden hprecision he hm he' with ⟨k, hk⟩ | ⟨k, hk⟩
    · rw [hk]
      exact hnearest k
    · exact (hnearest k).trans hk.le
  · intro m e' hm he' hne htie
    rcases exists_multiple hnum hden hprecision he hm he' with ⟨k, hk⟩ | ⟨k, hk⟩
    · rw [hk] at hne htie
      rw [hx] at hne htie
      rw [hdist, hdist] at htie
      refine heven ((hround k).2 ?_ (mul_right_cancel₀ hpow.ne' htie))
      rintro rfl
      exact hne (by push_cast; rfl)
    · exact absurd htie ((hnearest k).trans_lt hk).ne'

theorem toRat_of_zero {e : ℤ} (h : of? 0 e = some x) : x.toRat = 0 := by
  simp only [of?] at h
  split_ifs at h with hcanonical
  cases h
  simp [toRat]

theorem ofRatio?_isRounding (hprecision : 1 < f.precision) (hden : 0 < r.den)
    (h : ofRatio? f r = some x) : x.IsRounding r.toRat := by
  unfold ofRatio? at h
  split_ifs at h with hnum
  · have hr : r.toRat = x.toRat := by
      rw [toRat_of_zero h, Ratio.toRat, hnum, Nat.cast_zero, zero_div]
    rw [hr]
    exact x.isRounding_toRat
  · have hreduced : 0 < r.reduced.num := by
      rw [← Ratio.toRat_pos_iff (Ratio.den_reduced_pos hden), Ratio.toRat_reduced,
        Ratio.toRat_pos_iff hden]
      omega
    rw [← Ratio.toRat_reduced]
    exact nearest?_isRounding hprecision hreduced (Ratio.den_reduced_pos hden) h

section Unique

variable {y : Magnitude f} {q : ℚ}

theorem toRat_inj : x.toRat = y.toRat ↔ x = y := by
  refine ⟨fun h => ?_, congrArg toRat⟩
  have hx := ofRatio?_eq_some (x := x) x.den_ratio_pos x.toRat_ratio
  have hy := ofRatio?_eq_some (x := y) x.den_ratio_pos (x.toRat_ratio.trans h)
  exact Option.some.inj (hx.symm.trans hy)

/-- Between two even magnitudes there is another. -/
theorem exists_between (hprecision : 1 < f.precision) (hlt : x.toRat < y.toRat)
    (hx : x.significand % 2 = 0) (hy : y.significand % 2 = 0) :
    ∃ (m : ℕ) (e : ℤ), m < 2 ^ f.precision ∧ f.minExp ≤ e ∧
      x.toRat < m * 2 ^ e ∧ (m * 2 ^ e : ℚ) < y.toRat := by
  obtain ⟨hxlt, hxmin, -, hxfull⟩ := x.canonical
  obtain ⟨hylt, hymin, -, -⟩ := y.canonical
  obtain ⟨p, hp⟩ : ∃ p, f.precision = p + 1 := ⟨f.precision - 1, by omega⟩
  rw [Nat.pow_eq, hp, pow_succ] at hxlt hylt
  rw [Nat.pow_eq, hp, Nat.add_sub_cancel] at hxfull
  have hpow : (0 : ℚ) < 2 ^ x.exponent := by positivity
  -- A smaller exponent does not reach as far as a significand that fills the precision.
  have hexp : x.exponent ≤ y.exponent := by
    by_contra hgt
    rw [not_le] at hgt
    have hfull : 2 ^ p ≤ x.significand := hxfull.resolve_right (by omega)
    have hle : y.toRat ≤ x.toRat := by
      calc y.toRat ≤ (2 ^ p * 2 : ℕ) * 2 ^ (x.exponent - 1) := by
            rw [toRat]
            gcongr
            · exact one_le_two
            · omega
        _ = (2 ^ p : ℕ) * 2 ^ x.exponent := by
            rw [zpow_sub₀ two_ne_zero]
            push_cast
            ring
        _ ≤ x.toRat := by
            rw [toRat]
            gcongr
    exact absurd hlt hle.not_gt
  obtain ⟨n, hn⟩ := Int.eq_ofNat_of_zero_le (sub_nonneg.2 hexp)
  have hyrat : y.toRat = (y.significand * 2 ^ n : ℕ) * 2 ^ x.exponent := by
    have hsum : y.exponent = n + x.exponent := by omega
    rw [toRat, hsum, zpow_add₀ two_ne_zero, zpow_natCast]
    push_cast
    ring
  rw [hyrat, toRat, mul_lt_mul_iff_left₀ hpow, Nat.cast_lt] at hlt
  have hsucc : x.significand + 1 < y.significand * 2 ^ n := by
    have heven : y.significand * 2 ^ n % 2 = 0 := by
      rw [Nat.mul_mod, hy, Nat.zero_mul, Nat.zero_mod]
    omega
  refine ⟨x.significand + 1, x.exponent, ?_, hxmin, ?_, ?_⟩
  · rw [hp, pow_succ]
    omega
  · rw [toRat, mul_lt_mul_iff_left₀ hpow]
    exact_mod_cast Nat.lt_succ_self _
  · rw [hyrat, mul_lt_mul_iff_left₀ hpow]
    exact_mod_cast hsucc

theorem IsRounding.toRat_le (hprecision : 1 < f.precision) (hx : x.IsRounding q)
    (hy : y.IsRounding q) : x.toRat ≤ y.toRat := by
  obtain ⟨hxlt, hxmin, -, -⟩ := x.canonical
  obtain ⟨hylt, hymin, -, -⟩ := y.canonical
  rw [Nat.pow_eq] at hxlt hylt
  have htie : |q - x.toRat| = |q - y.toRat| :=
    le_antisymm (hx.nearest _ _ hylt hymin) (hy.nearest _ _ hxlt hxmin)
  by_contra hlt
  rw [not_le] at hlt
  have hxeven := hx.even _ _ hylt hymin hlt.ne htie.symm
  have hyeven := hy.even _ _ hxlt hxmin hlt.ne' htie
  obtain ⟨m, e, hm, he, hym, hmx⟩ := exists_between hprecision hlt hyeven hxeven
  -- The number is in the middle, so what lies between is nearer.
  have hmiddle : q - y.toRat = x.toRat - q := by
    rcases abs_eq_abs.1 htie with h | h <;> linarith
  have hnearer : |q - m * 2 ^ e| < |q - x.toRat| := by
    rw [abs_of_nonpos (a := q - x.toRat) (by linarith), abs_lt]
    constructor <;> linarith
  exact absurd (hx.nearest m e hm he) hnearer.not_ge

/-- A number has one rounding. -/
theorem IsRounding.unique (hprecision : 1 < f.precision) (hx : x.IsRounding q)
    (hy : y.IsRounding q) : x = y :=
  toRat_inj.1 (le_antisymm (hx.toRat_le hprecision hy) (hy.toRat_le hprecision hx))

theorem IsRounding.toRat_of_lt {n : ℕ} (hmin : f.minExp ≤ 0) (h : x.IsRounding n)
    (hn : n < 2 ^ f.precision) : x.toRat = n := by
  have hnearest := h.nearest n 0 hn hmin
  rw [zpow_zero, mul_one, sub_self, abs_zero, abs_nonpos_iff, sub_eq_zero] at hnearest
  exact hnearest.symm

/-- A whole number that is rounded to a magnitude within reach of all whole numbers is that
magnitude. -/
theorem IsRounding.eq_of_lt {n : ℕ} (hprecision : 1 < f.precision) (hmin : f.minExp ≤ 0)
    (h : x.IsRounding n) (hx : x.toRat < 2 ^ f.precision) : (n : ℚ) = x.toRat := by
  have hn : n < 2 ^ f.precision := by
    by_contra hge
    have hge' : (2 ^ f.precision : ℚ) ≤ n := by exact_mod_cast not_lt.1 hge
    have hsmaller : 2 ^ (f.precision - 1) < 2 ^ f.precision :=
      Nat.pow_lt_pow_right (by decide) (by omega)
    have hpower : ((2 ^ (f.precision - 1) : ℕ) : ℚ) * 2 ^ (1 : ℤ) = 2 ^ f.precision := by
      rw [zpow_one, Nat.cast_pow, Nat.cast_ofNat, pow_sub_one_mul (by omega)]
    have hnearest := h.nearest (2 ^ (f.precision - 1)) 1 hsmaller (by omega)
    rw [hpower, abs_of_nonneg (by linarith), abs_of_nonneg (by linarith)] at hnearest
    linarith
  exact (h.toRat_of_lt hmin hn).symm

/-- A format whose exponents go far enough has a magnitude that is nearest. -/
theorem exists_nearest? (hprecision : 1 < f.precision) (hnum : 0 < r.num) (hden : 0 < r.den)
    (hmax : max f.minExp (r.binaryOrder + 1 - f.precision) < f.maxExp) :
    ∃ y, nearest? f r = some y := by
  obtain ⟨e, he⟩ : ∃ e, e = max f.minExp (r.binaryOrder + 1 - f.precision) := ⟨_, rfl⟩
  rw [← he] at hmax
  obtain ⟨p, hp⟩ : ∃ p, f.precision = p + 1 := ⟨f.precision - 1, by omega⟩
  obtain ⟨hlow, hhigh⟩ := Ratio.binaryOrder_bounds hnum hden
  have hpow : (0 : ℚ) < 2 ^ e := by positivity
  have hscale : (r.scale 2 (-e)).toRat = r.toRat / 2 ^ e := by
    rw [Ratio.toRat_scale r (by decide), zpow_neg, Nat.cast_ofNat, div_eq_mul_inv]
  have hscaled : 0 < (r.scale 2 (-e)).den := Ratio.den_scale_pos hden (by decide) _
  have hle : (r.scale 2 (-e)).round ≤ 2 ^ f.precision := by
    refine Ratio.round_le_of_toRat_lt hscaled ?_
    rw [hscale, div_lt_iff₀ hpow, Nat.cast_pow, Nat.cast_ofNat, ← zpow_natCast,
      ← zpow_add₀ two_ne_zero]
    refine hhigh.trans_le (zpow_le_zpow_right₀ one_le_two ?_)
    omega
  have hfull : 2 ^ p ≤ (r.scale 2 (-e)).round ∨ e = f.minExp := by
    by_cases hmin : e = f.minExp
    · exact .inr hmin
    · refine .inl (Ratio.le_round_of_le_toRat hscaled ?_)
      rw [hscale, le_div_iff₀ hpow, Nat.cast_pow, Nat.cast_ofNat, ← zpow_natCast,
        ← zpow_add₀ two_ne_zero]
      refine (zpow_le_zpow_right₀ one_le_two ?_).trans hlow
      omega
  unfold nearest?
  simp only [← he, of?, Nat.pow_eq]
  split_ifs with h1 h2 h2
  · exact ⟨_, rfl⟩
  · refine absurd ⟨?_, by omega, by omega, .inl le_rfl⟩ h2
    rw [Nat.pow_eq, hp, Nat.add_sub_cancel, pow_succ]
    have := Nat.two_pow_pos p
    omega
  · exact ⟨_, rfl⟩
  · refine absurd ⟨?_, by omega, hmax.le, ?_⟩ h2
    · rw [Nat.pow_eq]
      omega
    · rwa [Nat.pow_eq, hp, Nat.add_sub_cancel]

/-- Whatever a format reaches has a rounding. -/
theorem exists_ofRatio? (hprecision : 1 < f.precision) (hexp : f.minExp < f.maxExp)
    (hden : 0 < r.den) (h : r.toRat < 2 ^ f.maxExp) : ∃ y, ofRatio? f r = some y := by
  unfold ofRatio?
  split_ifs with hzero
  · have hcanonical : f.Canonical 0 f.minExp :=
      ⟨by rw [Nat.pow_eq]; positivity, le_rfl, hexp.le, .inr rfl⟩
    exact ⟨_, dif_pos hcanonical⟩
  · have hreduced := Ratio.den_reduced_pos hden
    have hnum : 0 < r.reduced.num := by
      rw [← Ratio.toRat_pos_iff hreduced, Ratio.toRat_reduced, Ratio.toRat_pos_iff hden]
      omega
    refine exists_nearest? hprecision hnum hreduced ?_
    have horder : ¬f.maxExp ≤ r.reduced.binaryOrder := by
      rw [Ratio.le_binaryOrder_iff hnum hreduced, Ratio.toRat_reduced, not_le]
      exact h
    omega

theorem of?_eq_some_iff {m : ℕ} {e : ℤ} :
    of? m e = some x ↔ m = x.significand ∧ e = x.exponent := by
  constructor
  · intro h
    unfold of? at h
    split_ifs at h
    cases h
    exact ⟨rfl, rfl⟩
  · rintro ⟨rfl, rfl⟩
    exact x.of?_eq_some

theorem nearest?_of_isRounding (hprecision : 1 < f.precision) (hnum : 0 < r.num) (hden : 0 < r.den)
    (h : x.IsRounding r.toRat) : nearest? f r = some x := by
  -- What is nearest does not depend on how far the exponents of the format go.
  let g : Format :=
    { f with maxExp := max f.maxExp (max f.minExp (r.binaryOrder + 1 - f.precision) + 1) }
  obtain ⟨y, hy⟩ := exists_nearest? (f := g) hprecision hnum hden
    ((Int.lt_succ _).trans_le (le_max_right _ _))
  let x' : Magnitude g := ⟨x.significand, x.exponent, x.canonical.1, x.canonical.2.1,
    x.canonical.2.2.1.trans (le_max_left _ _), x.canonical.2.2.2⟩
  have hx' : x'.IsRounding r.toRat := ⟨h.nearest, h.even⟩
  have hrounding := nearest?_isRounding (f := g) hprecision hnum hden hy
  obtain rfl : y = x' := hrounding.unique hprecision hx'
  unfold nearest? at hy ⊢
  dsimp only at hy ⊢
  split_ifs at hy ⊢ with hfull
  · have hparts := of?_eq_some_iff.1 hy
    exact of?_eq_some_iff.2 hparts
  · have hparts := of?_eq_some_iff.1 hy
    exact of?_eq_some_iff.2 hparts

/-- Rounding gives the one magnitude that is the rounding, if there is one. -/
theorem ofRatio?_eq_some_iff (hprecision : 1 < f.precision) (hden : 0 < r.den) :
    ofRatio? f r = some x ↔ x.IsRounding r.toRat := by
  refine ⟨ofRatio?_isRounding hprecision hden, fun h => ?_⟩
  by_cases hnum : r.num = 0
  · have hzero : r.toRat = 0 := by rw [Ratio.toRat, hnum, Nat.cast_zero, zero_div]
    rw [hzero] at h
    have hnearest := h.nearest 0 f.minExp (by positivity) le_rfl
    rw [Nat.cast_zero, zero_mul, sub_zero, abs_zero, abs_nonpos_iff, zero_sub, neg_eq_zero]
      at hnearest
    exact ofRatio?_eq_some hden (hzero.trans hnearest.symm)
  · rw [ofRatio?, if_neg hnum]
    rw [← Ratio.toRat_reduced] at h
    refine nearest?_of_isRounding hprecision ?_ (Ratio.den_reduced_pos hden) h
    rw [← Ratio.toRat_pos_iff (Ratio.den_reduced_pos hden), Ratio.toRat_reduced,
      Ratio.toRat_pos_iff hden]
    omega

end Unique

section Shortest

variable {n : ℕ} {k : ℤ}

theorem isRounding_of_readsBack (hprecision : 1 < f.precision) (h : x.readsBack n k = true) :
    x.IsRounding (n * 10 ^ k) := by
  have hden : 0 < (Ratio.scale ⟨n, 1⟩ 10 k).den :=
    Ratio.den_scale_pos Nat.one_pos (by decide) k
  have hrounding := ofRatio?_isRounding hprecision hden (of_decide_eq_true h)
  rwa [Ratio.toRat_scale _ (by decide), Ratio.toRat, Nat.cast_one, div_one] at hrounding

theorem isRounding_of_onGrid? (hprecision : 1 < f.precision) (h : x.onGrid? k = some n) :
    x.IsRounding (n * 10 ^ k) := by
  simp only [onGrid?] at h
  split_ifs at h with h1 h2 h3 h4 <;> cases h <;> exact isRounding_of_readsBack hprecision ‹_›

theorem toRat_expansion (x : Magnitude f) :
    (x.expansion.1 * 10 ^ x.expansion.2 : ℚ) = x.toRat := by
  unfold expansion
  split_ifs with hexp
  · obtain ⟨n, hn⟩ := Int.eq_ofNat_of_zero_le hexp
    rw [toRat, hn, Int.toNat_natCast, Nat.pow_eq, zpow_natCast, zpow_zero, mul_one]
    push_cast
    rfl
  · obtain ⟨n, hn⟩ : ∃ n : ℕ, x.exponent = -n := ⟨(-x.exponent).toNat, by omega⟩
    rw [toRat, hn, neg_neg, Int.toNat_natCast, Nat.pow_eq, zpow_neg, zpow_neg, zpow_natCast,
      zpow_natCast, show (10 : ℚ) = 2 * 5 by norm_num, mul_pow]
    push_cast
    field_simp

/-- However many digits are tried. -/
theorem shortestFrom_isRounding (hprecision : 1 < f.precision) (x : Magnitude f) (order : ℤ) :
    ∀ fuel used : ℕ, x.IsRounding
      ((x.shortestFrom order used fuel).1 * 10 ^ (x.shortestFrom order used fuel).2)
  | 0, used => by
    rw [shortestFrom, toRat_expansion]
    exact x.isRounding_toRat
  | fuel + 1, used => by
    rw [shortestFrom]
    rcases hgrid : x.onGrid? (order + 1 - used) with _ | n
    · simp only []
      exact shortestFrom_isRounding hprecision x order fuel (used + 1)
    · simp only []
      exact isRounding_of_onGrid? hprecision hgrid

theorem withoutZeros_eq (n : ℕ) : (withoutZeros n).1 * 10 ^ (withoutZeros n).2 = n := by
  fun_induction withoutZeros n with
  | case1 n h hlt m k heq ih =>
    rw [heq] at ih
    simp only [] at ih ⊢
    rw [pow_succ, ← mul_assoc, ih]
    omega
  | case2 n h => simp

theorem toRat_scaled (n : ℕ) (k : ℤ) :
    ((scaled n k).1 * 10 ^ (scaled n k).2 : ℚ) = n * 10 ^ k := by
  have h : ((withoutZeros n).1 * 10 ^ (withoutZeros n).2 : ℚ) = n := by
    exact_mod_cast withoutZeros_eq n
  rw [scaled]
  show ((withoutZeros n).1 * 10 ^ (k + (withoutZeros n).2) : ℚ) = _
  rw [zpow_add₀ (by norm_num), zpow_natCast, mul_comm (10 ^ k : ℚ), ← mul_assoc, h]

/-- The shortest digits of a magnitude are a number of which it is the rounding. -/
theorem shortest_isRounding (hprecision : 1 < f.precision) (hx : x.significand ≠ 0) :
    x.IsRounding (x.shortest.1 * 10 ^ x.shortest.2) := by
  rw [shortest, if_neg hx, toRat_scaled]
  exact shortestFrom_isRounding hprecision x _ _ _

end Shortest

end Magnitude

end RecordMap
