import RecordMap.Floating.Layout
import RecordMap.Floating.Reader
import RecordMap.Proofs.Nearest

/-!
# Numerals read back

A numeral is read as the number that its digits stand for, in positions before and behind a point
(`readDecimal?_whole`, `readDecimal?_point`).  So what is written for a magnitude without an
exponent is read as its shortest digits, and a whole number as itself.
-/

namespace RecordMap.Floating

variable {ds fs : List Char}

theorem spanDigits_append (rest : List Char) (hds : ∀ c ∈ ds, c.isDigit = true)
    (hrest : ∀ c cs, rest = c :: cs → c.isDigit = false) :
    spanDigits (ds ++ rest) = (ds, rest) := by
  rw [spanDigits, List.takeWhile_append_of_pos hds, List.dropWhile_append_of_pos hds]
  rcases rest with _ | ⟨c, cs⟩
  · simp
  · simp [hrest c cs rfl]

theorem readDecimal?_whole (hne : ds ≠ []) (hds : ∀ c ∈ ds, c.isDigit = true) :
    readDecimal? ds = some (Nat.ofDigitChars 10 ds 0, 0) := by
  have hspan := spanDigits_append [] hds nofun
  rw [List.append_nil] at hspan
  simp [readDecimal?, hspan, hne, readExponent?]

theorem readDecimal?_point (hne : ds ≠ []) (hds : ∀ c ∈ ds, c.isDigit = true)
    (hfs : ∀ c ∈ fs, c.isDigit = true) :
    readDecimal? (ds ++ '.' :: fs)
      = some (Nat.ofDigitChars 10 (ds ++ fs) 0, -(fs.length : ℤ)) := by
  have hwhole := spanDigits_append ('.' :: fs) hds (by rintro _ _ ⟨⟩; rfl)
  have hfraction := spanDigits_append [] hfs nofun
  rw [List.append_nil] at hfraction
  simp [readDecimal?, hwhole, hfraction, hne, readExponent?]

theorem readDecimal?_minus (cs : List Char) : readDecimal? ('-' :: cs) = none := by
  simp [readDecimal?, spanDigits]

theorem isDigit_of_mem_zeros {n : ℤ} : ∀ c ∈ zeros n, c.isDigit = true := by
  intro c hc
  rw [(List.mem_replicate.1 hc).2]
  rfl

/-- Zeros in front of digits do not count. -/
theorem ofDigitChars_zeros_append (n : ℤ) (ds : List Char) :
    Nat.ofDigitChars 10 (zeros n ++ ds) 0 = Nat.ofDigitChars 10 ds 0 := by
  have hzeros : ∀ k, Nat.ofDigitChars 10 (List.replicate k '0') 0 = 0 := by
    intro k
    induction k with
    | zero => rfl
    | succ k ih =>
      rw [List.replicate_succ, Nat.ofDigitChars_cons]
      exact ih
  rw [Nat.ofDigitChars_append, zeros, hzeros]

theorem ofDigitChars_append_zeros (ds : List Char) (k : ℕ) :
    Nat.ofDigitChars 10 (ds ++ List.replicate k '0') 0 = Nat.ofDigitChars 10 ds 0 * 10 ^ k := by
  induction k with
  | zero => simp
  | succ k ih =>
    rw [List.replicate_succ', ← List.append_assoc, Nat.ofDigitChars_append, ih,
      Nat.ofDigitChars_cons, Nat.ofDigitChars_nil, pow_succ]
    simp
    ring

/-- Digits in positions are read as the number of which they are the digits. -/
theorem readDecimal?_positional (n : ℕ) (k : ℤ) :
    ∃ n' k', readDecimal? (positional (Nat.toDigits 10 n) (k + (Nat.toDigits 10 n).length))
        = some (n', k') ∧ (n' * 10 ^ k' : ℚ) = n * 10 ^ k := by
  obtain ⟨ds, hds⟩ : ∃ ds, ds = Nat.toDigits 10 n := ⟨_, rfl⟩
  have hdigit : ∀ c ∈ ds, c.isDigit = true := fun c hc =>
    Nat.isDigit_of_mem_toDigits (by decide) (by decide) (hds ▸ hc)
  have hne : ds ≠ [] := hds ▸ Nat.toDigits_ne_nil
  have hn : Nat.ofDigitChars 10 ds 0 = n := by
    rw [hds, Nat.ofDigitChars_toDigits (by decide) (by decide)]
  rw [← hds]
  unfold positional
  split_ifs with hpoint hwhole
  · have hfraction : ∀ c ∈ zeros (-(k + ds.length)) ++ ds, c.isDigit = true := by
      intro c hc
      rcases List.mem_append.1 hc with hc | hc
      · exact isDigit_of_mem_zeros c hc
      · exact hdigit c hc
    have hzero : ∀ c ∈ ['0'], c.isDigit = true := by simp
    have hvalue : Nat.ofDigitChars 10 (['0'] ++ (zeros (-(k + ds.length)) ++ ds)) 0 = n := by
      rw [List.singleton_append, Nat.ofDigitChars_cons]
      exact (ofDigitChars_zeros_append _ ds).trans hn
    have hread := readDecimal?_point (List.cons_ne_nil '0' []) hzero hfraction
    rw [hvalue, List.length_append, zeros, List.length_replicate] at hread
    refine ⟨n, k, ?_, rfl⟩
    rw [List.append_assoc]
    refine hread.trans ?_
    congr 2
    omega
  · refine ⟨n * 10 ^ (k + ds.length - ds.length).toNat, 0, ?_, ?_⟩
    · rw [zeros, readDecimal?_whole, ofDigitChars_append_zeros, hn]
      · simp [hne]
      · intro c hc
        rcases List.mem_append.1 hc with hc | hc
        · exact hdigit c hc
        · exact isDigit_of_mem_zeros c hc
    · obtain ⟨j, hj⟩ : ∃ j : ℕ, k = j := ⟨k.toNat, by omega⟩
      rw [hj, add_sub_cancel_right, Int.toNat_natCast, zpow_zero, mul_one, zpow_natCast]
      push_cast
      rfl
  · refine ⟨n, k, ?_, rfl⟩
    have htake : ds.take (k + ds.length).toNat ≠ [] := by
      simp [hne]
      omega
    rw [List.append_assoc, List.singleton_append, readDecimal?_point htake
      (fun c hc => hdigit c (List.mem_of_mem_take hc))
      (fun c hc => hdigit c (List.mem_of_mem_drop hc)), List.take_append_drop, hn, List.length_drop]
    congr 2
    omega

/-- What is written for a magnitude without an exponent is a number of which it is the rounding. -/
theorem readDecimal?_plain {f : Format} (hprecision : 1 < f.precision) (s : Bool)
    (x : Magnitude f) :
    ∃ cs n k, plain (.finite s x) = sign s ++ cs ∧ readDecimal? cs = some (n, k) ∧
      x.IsRounding (n * 10 ^ k) := by
  rw [plain]
  split_ifs with hx
  · refine ⟨['0'], 0, 0, rfl, by decide, ?_⟩
    have hzero : x.toRat = 0 := by rw [Magnitude.toRat, hx, Nat.cast_zero, zero_mul]
    rw [Nat.cast_zero, zero_mul, ← hzero]
    exact x.isRounding_toRat
  · obtain ⟨n, k, hread, hvalue⟩ := readDecimal?_positional x.shortest.1 x.shortest.2
    refine ⟨_, n, k, rfl, hread, ?_⟩
    rw [hvalue]
    exact Magnitude.shortest_isRounding hprecision hx

theorem readDecimal?_ofNat (n : ℕ) : readDecimal? (Decimal.ofNat n) = some (n, 0) := by
  rw [Decimal.ofNat, readDecimal?_whole Nat.toDigits_ne_nil fun c hc =>
    Nat.isDigit_of_mem_toDigits (by decide) (by decide) hc,
    Nat.ofDigitChars_toDigits (by decide) (by decide)]

end RecordMap.Floating
