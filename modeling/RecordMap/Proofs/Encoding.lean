import RecordMap.Proofs.Cutting
import RecordMap.Proofs.RoundTrip

/-!
# Encoded text

The bytes of a text in UTF-8 are read back as the text, by the reader that stops at a flaw
(`decode_encode`) and by the one that does not (`decodeLossy_encode`).  A text that is
percent-encoded is read back as its bytes (`percentDecode_percentEncode`), whatever digits are
written.
-/

namespace RecordMap.Utf8

/-- The bytes complete a sequence that has begun to a character. -/
inductive Completes : Pending → List UInt8 → Char → Prop
  | last {p : Pending} {b : UInt8} {c : Char} (h : p.step b = .char c) : Completes p [b] c
  | more {p q : Pending} {b : UInt8} {bs : List UInt8} {c : Char} (h : p.step b = .more q)
      (hbs : Completes q bs c) : Completes p (b :: bs) c

/-- The bytes are those of one character. -/
inductive Spells : List UInt8 → Char → Prop
  | one {b : UInt8} {c : Char} (h : start b = .char c) : Spells [b] c
  | more {p : Pending} {b : UInt8} {bs : List UInt8} {c : Char} (h : start b = .more p)
      (hbs : Completes p bs c) : Spells (b :: bs) c

section Sequences

theorem start_one {n : Nat} (h : n < 128) : start (UInt8.ofNat n) = .char (Char.ofNat n) := by
  have hall : ∀ n : Fin 128, start (UInt8.ofNat n) = .char (Char.ofNat n) := by decide
  exact hall ⟨n, h⟩

theorem start_two {k : Nat} (hmin : 2 ≤ k) (hmax : k < 32) :
    start (UInt8.ofNat (k + 192)) = .more ⟨1, 1, 0x80, 0xBF, k⟩ := by
  have hall : ∀ k : Fin 32, 2 ≤ k.val →
      start (UInt8.ofNat (k + 192)) = .more ⟨1, 1, 0x80, 0xBF, k⟩ := by decide
  exact hall ⟨k, hmax⟩ hmin

theorem start_three {k : Nat} (h : k < 16) :
    start (UInt8.ofNat (k + 224)) = .more ⟨1, 2, if k = 0 then 0xA0 else 0x80,
      if k = 13 then 0x9F else 0xBF, k⟩ := by
  have hall : ∀ k : Fin 16, start (UInt8.ofNat (k + 224))
      = .more ⟨1, 2, if k.val = 0 then 0xA0 else 0x80, if k.val = 13 then 0x9F else 0xBF, k⟩ := by
    decide
  exact hall ⟨k, h⟩

theorem start_four {k : Nat} (h : k < 5) :
    start (UInt8.ofNat (k + 240)) = .more ⟨1, 3, if k = 0 then 0x90 else 0x80,
      if k = 4 then 0x8F else 0xBF, k⟩ := by
  have hall : ∀ k : Fin 5, start (UInt8.ofNat (k + 240))
      = .more ⟨1, 3, if k.val = 0 then 0x90 else 0x80, if k.val = 4 then 0x8F else 0xBF, k⟩ := by
    decide
  exact hall ⟨k, h⟩

/-- A byte within the bounds adds its six bits to the value. -/
theorem step_tail {p : Pending} {m : Nat} (hm : m < 64) (hlow : p.low.toNat ≤ m + 128)
    (hhigh : m + 128 ≤ p.high.toNat) : p.step (UInt8.ofNat (m + 128))
      = if p.missing ≤ 1 then .char (Char.ofNat (p.value * 64 + m))
        else .more ⟨p.seen + 1, p.missing - 1, 0x80, 0xBF, p.value * 64 + m⟩ := by
  have hb : (UInt8.ofNat (m + 128)).toNat = m + 128 := by
    rw [UInt8.toNat_ofNat']
    omega
  have hwithin : (decide (p.low ≤ UInt8.ofNat (m + 128)) &&
      decide (UInt8.ofNat (m + 128) ≤ p.high)) = true := by
    simp only [UInt8.le_iff_toNat_le, hb, Bool.and_eq_true, decide_eq_true_eq]
    exact ⟨hlow, hhigh⟩
  have hmod : (m + 128) % 64 = m := by omega
  simp only [Pending.step, hwithin, if_true, hb, hmod]

theorem completes_last {seen value m : Nat} {c : Char} (hm : m < 64)
    (hc : Char.ofNat (value * 64 + m) = c) :
    Completes ⟨seen, 1, 0x80, 0xBF, value⟩ [UInt8.ofNat (m + 128)] c := by
  have hstep := @step_tail ⟨seen, 1, 0x80, 0xBF, value⟩ m hm (Nat.le_add_left 128 m)
    (show m + 128 ≤ 191 by omega)
  rw [if_pos le_rfl, hc] at hstep
  exact .last hstep

theorem completes_more {p : Pending} {m : Nat} {bs : List UInt8} {c : Char} (hm : m < 64)
    (hlow : p.low.toNat ≤ m + 128) (hhigh : m + 128 ≤ p.high.toNat) (hmissing : 1 < p.missing)
    (hbs : Completes ⟨p.seen + 1, p.missing - 1, 0x80, 0xBF, p.value * 64 + m⟩ bs c) :
    Completes p (UInt8.ofNat (m + 128) :: bs) c := by
  refine .more ?_ hbs
  rw [step_tail hm hlow hhigh, if_neg (by omega)]

/-- The bytes of a character are a sequence for it.  The first byte bounds the second where an
overlong form, a surrogate or too large a number could begin. -/
theorem spells_utf8EncodeChar (c : Char) : Spells (String.utf8EncodeChar c) c := by
  obtain ⟨n, hn⟩ : ∃ n, c.val.toNat = n := ⟨_, rfl⟩
  have hc : Char.ofNat n = c := by rw [← hn]; exact Char.ofNat_toNat c
  have hvalid : n < 0xD800 ∨ 0xDFFF < n ∧ n < 0x110000 := hn ▸ c.valid
  have hbound : ∀ (q : Prop) [Decidable q] (a b : UInt8),
      (if q then a else b).toNat = if q then a.toNat else b.toNat := by
    intro q _ a b
    split_ifs <;> rfl
  simp only [String.utf8EncodeChar, hn]
  split_ifs with h1 h2 h3
  · exact .one (hc ▸ start_one (by omega))
  · have hvalue : n / 64 % 32 * 64 + n % 64 = n := by omega
    exact .more (start_two (by omega) (by omega)) (completes_last (by omega) (by rw [hvalue, hc]))
  · have hvalue : (n / 4096 % 16 * 64 + n / 64 % 64) * 64 + n % 64 = n := by omega
    refine .more (start_three (by omega)) (completes_more (by omega) ?_ ?_ Nat.one_lt_two
      (completes_last (by omega) (by rw [hvalue, hc])))
    · rw [hbound]
      show (if n / 4096 % 16 = 0 then 160 else 128) ≤ _
      split_ifs <;> omega
    · rw [hbound]
      show _ ≤ (if n / 4096 % 16 = 13 then 159 else 191)
      split_ifs <;> omega
  · have hvalue : ((n / 262144 % 8 * 64 + n / 4096 % 64) * 64 + n / 64 % 64) * 64 + n % 64 = n := by
      omega
    refine .more (start_four (by omega)) (completes_more (by omega) ?_ ?_
      (show 1 < 3 from Nat.lt_of_sub_eq_succ rfl) (completes_more (by omega)
        (Nat.le_add_left 128 _) (show _ ≤ 191 by omega) Nat.one_lt_two
        (completes_last (by omega) (by rw [hvalue, hc]))))
    · rw [hbound]
      show (if n / 262144 % 8 = 0 then 144 else 128) ≤ _
      split_ifs <;> omega
    · rw [hbound]
      show _ ≤ (if n / 262144 % 8 = 4 then 143 else 191)
      split_ifs <;> omega

end Sequences

section Texts

variable {p : Pending} {bs : List UInt8} {c : Char}

theorem decodeFrom_completes (rest : List UInt8) (h : Completes p bs c) : ∀ i : Nat,
    decodeFrom i (some p) (bs ++ rest) = (decodeFrom (i + bs.length) none rest).map (c :: ·) := by
  induction h with
  | last h =>
    intro i
    rw [List.singleton_append, decodeFrom, h]
    rfl
  | @more p q b bs c h _ ih =>
    intro i
    rw [List.cons_append, decodeFrom, h]
    simp only [ih, List.length_cons]
    rw [Nat.add_assoc, Nat.add_comm 1]

theorem decodeFrom_spells (h : Spells bs c) (i : Nat) (rest : List UInt8) :
    decodeFrom i none (bs ++ rest) = (decodeFrom (i + bs.length) none rest).map (c :: ·) := by
  cases h with
  | one h =>
    rw [List.singleton_append, decodeFrom, h]
    rfl
  | @more p b bs c h hbs =>
    rw [List.cons_append, decodeFrom, h]
    simp only [decodeFrom_completes rest hbs, List.length_cons]
    rw [Nat.add_assoc, Nat.add_comm 1]

theorem decodeLossyFrom_completes (rest : List UInt8) (h : Completes p bs c) :
    decodeLossyFrom (some p) (bs ++ rest) = c :: decodeLossyFrom none rest := by
  induction h with
  | last h => rw [List.singleton_append, decodeLossyFrom, h]
  | more h _ ih =>
    rw [List.cons_append, decodeLossyFrom, h]
    exact ih

theorem decodeLossyFrom_spells (h : Spells bs c) (rest : List UInt8) :
    decodeLossyFrom none (bs ++ rest) = c :: decodeLossyFrom none rest := by
  cases h with
  | one h => rw [List.singleton_append, decodeLossyFrom, h]
  | more h hbs =>
    rw [List.cons_append, decodeLossyFrom, h]
    exact decodeLossyFrom_completes rest hbs

theorem decodeFrom_encode : ∀ (cs : List Char) (i : Nat), decodeFrom i none (encode cs) = .ok cs
  | [], _ => rfl
  | c :: cs, i => by
    rw [encode, List.flatMap_cons, decodeFrom_spells (spells_utf8EncodeChar c)]
    rw [← encode, decodeFrom_encode cs]
    rfl

/-- A text is read back from its bytes. -/
theorem decode_encode (cs : List Char) : decode (encode cs) = .ok cs := decodeFrom_encode cs 0

theorem encode_inj {cs ds : List Char} (h : encode cs = encode ds) : cs = ds := by
  have hdecode := congrArg decode h
  rw [decode_encode, decode_encode] at hdecode
  exact Except.ok.inj hdecode

theorem decodeLossy_encode : ∀ cs : List Char, decodeLossy (encode cs) = cs
  | [] => rfl
  | c :: cs => by
    rw [decodeLossy, encode, List.flatMap_cons, decodeLossyFrom_spells (spells_utf8EncodeChar c)]
    exact congrArg (c :: ·) (decodeLossy_encode cs)

end Texts

section Ascii

theorem utf8EncodeChar_ascii {c : Char} (h : c.toNat < 128) :
    String.utf8EncodeChar c = [UInt8.ofNat c.toNat] :=
  if_pos (Nat.le_of_lt_succ h)

/-- The bytes of other characters are no bytes of ASCII. -/
theorem toNat_of_mem_utf8EncodeChar {c : Char} {b : UInt8} (h : b ∈ String.utf8EncodeChar c)
    (hb : b.toNat < 128) : c.toNat = b.toNat := by
  obtain ⟨n, hn⟩ : ∃ n, c.val.toNat = n := ⟨_, rfl⟩
  show c.val.toNat = b.toNat
  simp only [String.utf8EncodeChar, hn] at h ⊢
  split_ifs at h with h1 h2 h3 <;>
    simp only [List.mem_cons, List.not_mem_nil, or_false] at h
  · rw [h, UInt8.toNat_ofNat']
    omega
  · rcases h with rfl | rfl <;> rw [UInt8.toNat_ofNat'] at hb <;> omega
  · rcases h with rfl | rfl | rfl <;> rw [UInt8.toNat_ofNat'] at hb <;> omega
  · rcases h with rfl | rfl | rfl | rfl <;> rw [UInt8.toNat_ofNat'] at hb <;> omega

end Ascii

end RecordMap.Utf8

namespace RecordMap.Connection

open Sql Text

/-- The characters that stand for themselves in an encoded path. -/
def isUnreserved (c : Char) : Bool := c.isAlphanum || ['-', '_', '.', '~', '/'].contains c

theorem high_lt (b : UInt8) : b.toNat / 16 < 16 := Nat.div_lt_of_lt_mul b.toNat_lt

theorem low_lt (b : UInt8) : b.toNat % 16 < 16 := Nat.mod_lt _ (by decide)

/-- A byte of any other character is a percent sign and two hexadecimal digits. -/
def encodeByte (digit : Fin 16 → Char) (b : UInt8) : List Char :=
  if isUnreserved (Char.ofNat b.toNat) then [Char.ofNat b.toNat]
  else ['%', digit ⟨b.toNat / 16, high_lt b⟩, digit ⟨b.toNat % 16, low_lt b⟩]

def percentEncode (digit : Fin 16 → Char) (cs : List Char) : List Char :=
  (Utf8.encode cs).flatMap (encodeByte digit)

theorem toNat_ofNat_byte (b : UInt8) : (Char.ofNat b.toNat).toNat = b.toNat := by
  have hb : b.toNat < 256 := b.toNat_lt
  have hvalid : b.toNat.isValidChar := .inl (by omega)
  simp only [Char.ofNat, hvalid, dite_true]
  rfl

theorem toNat_of_isUnreserved {c : Char} (h : isUnreserved c = true) : c.toNat < 128 := by
  rcases Bool.or_eq_true_iff.1 h with h | h
  · exact toNat_of_continuesName (by simp [continuesName, h])
  · simp only [List.contains_iff_mem, List.mem_cons, List.not_mem_nil, or_false] at h
    rcases h with rfl | rfl | rfl | rfl | rfl <;> decide

theorem percentDecode_cons_of_ne {c : Char} (hc : c ≠ '%') (cs : List Char) :
    percentDecode (c :: cs) = String.utf8EncodeChar c ++ percentDecode cs := by
  rw [percentDecode]
  rintro a b cs' rfl
  exact absurd rfl hc

theorem percentDecode_of_notMem : ∀ {cs : List Char}, '%' ∉ cs → percentDecode cs = Utf8.encode cs
  | [], _ => rfl
  | c :: cs, h => by
    rw [percentDecode_cons_of_ne (List.ne_of_not_mem_cons h).symm,
      percentDecode_of_notMem (List.not_mem_of_not_mem_cons h)]
    rfl

theorem isUnreserved_of_hexValue? {c : Char} {d : Fin 16} (h : hexValue? c = some d) :
    isUnreserved c = true := by
  have hletter : (c.isDigit = true ∨ ('a' ≤ c ∧ c ≤ 'f') ∨ ('A' ≤ c ∧ c ≤ 'F')) := by
    unfold hexValue? at h
    split_ifs at h with h1 h2 h3
    · exact .inl h1
    · exact .inr (.inl h2)
    · exact .inr (.inr h3)
  have hf : 'f' ≤ 'z' := by decide
  have hF : 'F' ≤ 'Z' := by decide
  have halphanum : c.isAlphanum = true := by
    simp only [Char.isAlphanum, Char.isAlpha, Bool.or_eq_true]
    rcases hletter with hd | ⟨hlow, hhigh⟩ | ⟨hlow, hhigh⟩
    · exact .inr hd
    · exact .inl (.inr (by
        simp only [Char.isLower, Bool.and_eq_true, decide_eq_true_eq]
        exact ⟨hlow, le_trans hhigh hf⟩))
    · exact .inl (.inl (by
        simp only [Char.isUpper, decide_eq_true_eq]
        exact ⟨hlow, le_trans hhigh hF⟩))
  simp [isUnreserved, halphanum]

section Encoded

variable {digit : Fin 16 → Char}

theorem hexByte_digits (b : UInt8) :
    hexByte ⟨b.toNat / 16, high_lt b⟩ ⟨b.toNat % 16, low_lt b⟩ = b := by
  have hvalue : b.toNat / 16 * 16 + b.toNat % 16 = b.toNat := Nat.div_add_mod' _ _
  rw [hexByte, hvalue, UInt8.ofNat_toNat]

theorem percentDecode_encodeByte (hdigit : ∀ d, hexValue? (digit d) = some d) (b : UInt8)
    (rest : List Char) : percentDecode (encodeByte digit b ++ rest) = b :: percentDecode rest := by
  unfold encodeByte
  split_ifs with h
  · have hc : Char.ofNat b.toNat ≠ '%' := by
      intro hc
      rw [hc] at h
      revert h
      decide
    rw [List.singleton_append, percentDecode_cons_of_ne hc,
      Utf8.utf8EncodeChar_ascii (toNat_of_isUnreserved h), toNat_ofNat_byte, UInt8.ofNat_toNat]
    rfl
  · simp only [List.cons_append, List.nil_append, percentDecode, hdigit, hexByte_digits]

/-- Encoded text is read back as its bytes. -/
theorem percentDecode_percentEncode (hdigit : ∀ d, hexValue? (digit d) = some d)
    (cs : List Char) : percentDecode (percentEncode digit cs) = Utf8.encode cs := by
  have hbytes : ∀ bs : List UInt8, percentDecode (bs.flatMap (encodeByte digit)) = bs := by
    intro bs
    induction bs with
    | nil => rfl
    | cons b bs ih => rw [List.flatMap_cons, percentDecode_encodeByte hdigit, ih]
  exact hbytes _

theorem percentEncode_append (digit : Fin 16 → Char) (as bs : List Char) :
    percentEncode digit (as ++ bs) = percentEncode digit as ++ percentEncode digit bs := by
  rw [percentEncode, Utf8.encode, List.flatMap_append, List.flatMap_append]
  rfl

theorem mem_encodeByte {b : UInt8} {c : Char} (h : c ∈ encodeByte digit b) :
    (c.toNat = b.toNat ∧ isUnreserved c = true) ∨ c = '%' ∨ ∃ d, c = digit d := by
  unfold encodeByte at h
  split_ifs at h with hb
  · rw [List.mem_singleton.1 h]
    exact .inl ⟨toNat_ofNat_byte b, hb⟩
  · simp only [List.mem_cons, List.not_mem_nil, or_false] at h
    rcases h with rfl | rfl | rfl
    · exact .inr (.inl rfl)
    · exact .inr (.inr ⟨_, rfl⟩)
    · exact .inr (.inr ⟨_, rfl⟩)

theorem mem_percentEncode (hdigit : ∀ d, hexValue? (digit d) = some d) {cs : List Char} {c : Char}
    (h : c ∈ percentEncode digit cs) : isUnreserved c = true ∨ c = '%' := by
  obtain ⟨b, -, hc⟩ := List.mem_flatMap.1 h
  rcases mem_encodeByte hc with ⟨-, hc⟩ | rfl | ⟨d, rfl⟩
  · exact .inl hc
  · exact .inr rfl
  · exact .inl (isUnreserved_of_hexValue? (hdigit d))

/-- A character is encoded apart from the others, and slashes are kept. -/
theorem percentEncode_intercalate (digit : Fin 16 → Char) : ∀ parts : List (List Char),
    percentEncode digit (['/'].intercalate parts)
      = ['/'].intercalate (parts.map (percentEncode digit))
  | [] => rfl
  | [part] => by simp
  | part :: next :: rest => by
    have hslash : percentEncode digit ['/'] = ['/'] := rfl
    rw [List.intercalate_cons_cons, percentEncode_append, percentEncode_append, hslash,
      percentEncode_intercalate digit (next :: rest)]
    simp [List.intercalate_cons_cons]

/-- Encoding brings in no slash. -/
theorem slash_notMem_percentEncode (hdigit : ∀ d, hexValue? (digit d) = some d) {cs : List Char}
    (h : '/' ∉ cs) : '/' ∉ percentEncode digit cs := by
  intro hmem
  obtain ⟨b, hb, hslash⟩ := List.mem_flatMap.1 hmem
  obtain ⟨c, hc, hbc⟩ := List.mem_flatMap.1 hb
  rcases mem_encodeByte hslash with ⟨hb47, -⟩ | hpercent | ⟨d, hd⟩
  · have hcb := Utf8.toNat_of_mem_utf8EncodeChar hbc (hb47 ▸ by decide)
    have hcslash : c = '/' := Char.toNat_inj.1 (hcb.trans hb47.symm)
    exact h (hcslash ▸ hc)
  · exact absurd hpercent (by decide)
  · have hvalue := hdigit d
    rw [← hd] at hvalue
    cases hvalue

theorem split_percentEncode (hdigit : ∀ d, hexValue? (digit d) = some d) (cs : List Char) :
    split '/' (percentEncode digit cs) = (split '/' cs).map (percentEncode digit) := by
  have hparts : ∀ part ∈ (split '/' cs).map (percentEncode digit), '/' ∉ part := by
    intro part hpart
    obtain ⟨p, hp, rfl⟩ := List.mem_map.1 hpart
    exact slash_notMem_percentEncode hdigit (notMem_of_mem_split hp)
  have hne : (split '/' cs).map (percentEncode digit) ≠ [] := by
    simp [split_eq_splitOn, List.splitOn_ne_nil]
  rw [← split_intercalate hparts hne, ← percentEncode_intercalate, intercalate_split]

theorem head?_percentEncode (hdigit : ∀ d, hexValue? (digit d) = some d) {c : Char} (hc : c ≠ '/')
    (cs : List Char) : ∃ d ds, percentEncode digit (c :: cs) = d :: ds ∧ d ≠ '/' := by
  rcases hd : percentEncode digit [c] with _ | ⟨d, ds⟩
  · have hdecode := percentDecode_percentEncode hdigit [c]
    rw [hd] at hdecode
    cases Utf8.encode_inj (show Utf8.encode [c] = Utf8.encode [] from hdecode.symm)
  · refine ⟨d, ds ++ percentEncode digit cs, ?_, ?_⟩
    · rw [← List.singleton_append, percentEncode_append, hd, List.cons_append]
    · rintro rfl
      have hslash := @slash_notMem_percentEncode digit hdigit [c] (by simpa using hc.symm)
      rw [hd] at hslash
      exact hslash List.mem_cons_self

end Encoded

end RecordMap.Connection
