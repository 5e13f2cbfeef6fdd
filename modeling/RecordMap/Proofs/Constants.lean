import RecordMap.Codec
import RecordMap.Proofs.Lexer
import RecordMap.Proofs.Numerals

/-!
# What literals say

A literal is read as a constant: a text, its doubled quotes undone, or a decimal number.  A constant
denotes a stored value that is the same text or the same number; next to a real, a number counts as
the real it is rounded to.

What is written for a value denotes what would be stored of it (`Value.isSpelled`).  That is not so
of unsigned 64-bit numbers, which are not stored at all, nor of singles, whose digits are the fewest
that tell them from other singles.  A whole double is written as an integer is, though it is stored
as a real.
-/

namespace RecordMap

open Sql

namespace Sql

/-- A text, or the number `n · 10 ^ k` with its sign. -/
inductive Constant
  | text (s : String)
  | number (negative : Bool) (n : Nat) (k : Int)
  deriving DecidableEq

namespace Constant

def readNumber? : List Char → Option Constant
  | '-' :: cs => (Floating.readDecimal? cs).map fun a => .number true a.1 a.2
  | cs => (Floating.readDecimal? cs).map fun a => .number false a.1 a.2

/-- The constant that a text is, if it is nothing else. -/
def read? (text : String) : Option Constant :=
  match lex text with
  | some [.text s] => some (.text s)
  | some [.number s] => readNumber? s.toList
  | _ => none

inductive Denotes : Constant → Stored → Prop
  | text (s : String) : Denotes (.text s) (.text s)
  | integer {negative : Bool} {n : ℕ} {k : ℤ} {i : Number .int64}
    (h : (i.toInt : ℚ) = (if negative then -1 else 1) * (n * 10 ^ k)) :
    Denotes (.number negative n k) (.integer i)
  | real {negative : Bool} {n : ℕ} {k : ℤ} {x : Magnitude .double} (h : x.IsRounding (n * 10 ^ k)) :
    Denotes (.number negative n k) (.real (.finite negative x))

/-- Whether a store takes the constant for an integer: it has no point, and 64 bits hold it. -/
def isInteger : Constant → Bool
  | .text _ => false
  | .number negative n k =>
    decide (k = 0) && (Number.ofInt? .int64 (if negative then -n else n)).isSome

/-- Whether there is a nul in the constant, where some stores take a request to end. -/
def hasNul : Constant → Bool
  | .text s => s.toList.contains '\x00'
  | .number .. => false

/-- The constant denotes the stored value and is of its kind, for any store. -/
def Is (c : Constant) (raw : Stored) : Prop :=
  c.Denotes raw ∧ c.isInteger = (raw matches .integer _) ∧ c.hasNul = false

theorem lex_of_lexes {cs : List Char} {ts : List Token} (h : Lexes cs ts) :
    lex (String.ofList cs) = some ts := by
  have hrun := h [] [] trivial rfl
  rw [List.append_nil, List.append_nil] at hrun
  rwa [lex, String.toList_ofList]

theorem read?_text (s : String) : read? (textLiteral s) = some (.text s) := by
  have hlex : lex (textLiteral s) = some [.text (String.ofList s.toList)] :=
    lex_of_lexes (lexes_quoted .single s.toList)
  rw [read?, hlex]
  simp

theorem readNumber?_sign {negative : Bool} {cs : List Char} {n : ℕ} {k : ℤ}
    (h : Floating.readDecimal? cs = some (n, k)) :
    readNumber? (Floating.sign negative ++ cs) = some (.number negative n k) := by
  cases negative with
  | true =>
    rw [show Floating.sign true ++ cs = '-' :: cs from rfl, readNumber?, h]
    rfl
  | false =>
    rw [show Floating.sign false ++ cs = cs from rfl]
    unfold readNumber?
    split
    · rw [Floating.readDecimal?_minus] at h
      cases h
    · rw [h]
      rfl

theorem read?_number {negative : Bool} {cs : List Char} {n : ℕ} {k : ℤ}
    (hnumeric : ∀ c ∈ cs, isNumeric c = true) (h : Floating.readDecimal? cs = some (n, k)) :
    read? (String.ofList (Floating.sign negative ++ cs)) = some (.number negative n k) := by
  have hne : Floating.sign negative ++ cs ≠ [] := by
    intro hnil
    rw [(List.append_eq_nil_iff.1 hnil).2, show Floating.readDecimal? [] = none by decide] at h
    cases h
  have hall : ∀ c ∈ Floating.sign negative ++ cs, isNumeric c = true := by
    intro c hc
    rcases List.mem_append.1 hc with hc | hc
    · exact Floating.numeric_sign negative c hc
    · exact hnumeric c hc
  rw [read?, lex_of_lexes (lexes_number hne hall)]
  simp only [String.toList_ofList]
  exact readNumber?_sign h

end Constant

end Sql

/-- Whether a literal for the value says what would be stored of it.  It need not for a single,
whose digits are its own, and an unsigned 64-bit number is not stored at all. -/
def Value.isSpelledAsStored : Value → Bool
  | .single _ => false
  | .int t _ => t.isStorable
  | _ => true

/-- Whether a literal for the value is of the kind of what would be stored of it.  The digits of a
whole double are those of an integer. -/
def Value.isSpelledInKind : Value → Bool
  | .double x => !((literal? (.double x)).bind Constant.read?).any Constant.isInteger
  | .text s => !s.toList.contains '\x00'
  | _ => true

/-- The value can be stored, and a literal for it, if there is one, is a constant that stands for
what is stored. -/
def Value.IsSpelled (standsFor : Constant → Stored → Prop) (v : Value) : Prop :=
  ∃ raw, v.stored = .ok raw ∧
    ∀ s, literal? v = some s → ∃ c, Constant.read? s = some c ∧ standsFor c raw

theorem Value.IsSpelled.mono {standsFor standsFor' : Constant → Stored → Prop} {v : Value}
    (h : v.IsSpelled standsFor) (himp : ∀ c raw, standsFor c raw → standsFor' c raw) :
    v.IsSpelled standsFor' := by
  obtain ⟨raw, hraw, hliteral⟩ := h
  refine ⟨raw, hraw, fun s hs => ?_⟩
  obtain ⟨c, hread, hc⟩ := hliteral s hs
  exact ⟨c, hread, himp c raw hc⟩

theorem Decimal.ofInt_eq (n : ℤ) :
    Decimal.ofInt n = Floating.sign (decide (n < 0)) ++ Decimal.ofNat n.natAbs := by
  unfold Decimal.ofInt Floating.sign
  split_ifs with h1 h2 h2
  · rfl
  · exact absurd (decide_eq_true h1) h2
  · exact absurd (of_decide_eq_true h2) h1
  · rfl

theorem Constant.read?_ofInt (n : ℤ) :
    Constant.read? (String.ofList (Decimal.ofInt n))
      = some (.number (decide (n < 0)) n.natAbs 0) := by
  rw [Decimal.ofInt_eq]
  exact Constant.read?_number (Decimal.numeric_ofNat _) (Floating.readDecimal?_ofNat _)

theorem signed_natAbs (n : ℤ) :
    (if decide (n < 0) then -(n.natAbs : ℤ) else n.natAbs) = n := by
  split_ifs with hn <;> simp only [decide_eq_true_eq] at hn <;> omega

theorem Constant.exists_is_integer {i : Number .int64} {n : ℤ} (h : i.toInt = n) :
    ∃ c, Constant.read? (String.ofList (Decimal.ofInt n)) = some c ∧ c.Is (.integer i) := by
  refine ⟨_, Constant.read?_ofInt n, .integer ?_, ?_, rfl⟩
  · rw [h, zpow_zero, mul_one, Nat.cast_natAbs]
    split_ifs with hn
    · rw [abs_of_neg (of_decide_eq_true hn), Int.cast_neg]
      ring
    · rw [abs_of_nonneg (not_lt.1 fun hneg => hn (decide_eq_true hneg)), one_mul]
  · have hrange : IntType.int64.min ≤ n ∧ n ≤ IntType.int64.max := h ▸ i.2
    simp only [Constant.isInteger, decide_true, Bool.true_and]
    rw [signed_natAbs, Number.ofInt?, dif_pos hrange]
    rfl

theorem Value.exists_stored_int {t : IntType} (ht : t.isStorable = true) (n : Number t) :
    ∃ i : Number .int64, i.toInt = n.toInt ∧ (Value.int t n).stored = .ok (.integer i) := by
  refine ⟨_, rfl, (Value.stored.eq_3 t n).trans (dif_pos ht)⟩

theorem exists_constant_double (b : Bool) (x : Magnitude .double) :
    ∃ n k, Constant.read? (String.ofList (Floating.plain (.finite b x))) = some (.number b n k) ∧
      (Constant.number b n k).Denotes (.real (.finite b x)) := by
  obtain ⟨cs, n, k, hplain, hread, hx⟩ := Floating.readDecimal?_plain (by decide) b x
  refine ⟨n, k, ?_, .real hx⟩
  rw [hplain]
  refine Constant.read?_number (fun c hc => ?_) hread
  refine (Floating.numeric_plain (x := .finite b x) rfl).2 c ?_
  rw [hplain]
  exact List.mem_append_right _ hc

/-- A literal denotes what would be stored of its value. -/
theorem isSpelled_and_inKind {v : Value} (hv : v.isSpelledAsStored = true) :
    v.IsSpelled fun c raw => c.Denotes raw ∧ (v.isSpelledInKind = true → c.Is raw) := by
  cases v with
  | bool b =>
    have hbool : ∀ i : Number .int64, ∃ c,
        Constant.read? (String.ofList (Decimal.ofInt i.toInt)) = some c ∧
        c.Denotes (.integer i) ∧ ((Value.bool b).isSpelledInKind = true → c.Is (.integer i)) := by
      intro i
      obtain ⟨c, hread, hc⟩ := Constant.exists_is_integer (i := i) rfl
      exact ⟨c, hread, hc.1, fun _ => hc⟩
    cases b with
    | false => exact ⟨_, rfl, fun s hs => by cases hs; exact hbool (Number.zero _)⟩
    | true => exact ⟨_, rfl, fun s hs => by cases hs; exact hbool (Number.one _)⟩
  | int t n =>
    obtain ⟨i, hi, hstored⟩ := Value.exists_stored_int hv n
    refine ⟨_, hstored, fun s hs => ?_⟩
    cases hs
    obtain ⟨c, hread, hc⟩ := Constant.exists_is_integer hi
    exact ⟨c, hread, hc.1, fun _ => hc⟩
  | double x =>
    refine ⟨_, rfl, fun s hs => ?_⟩
    cases x with
    | nan | infinite b => cases hs
    | finite b x =>
      cases hs
      obtain ⟨n, k, hread, hc⟩ := exists_constant_double b x
      refine ⟨_, hread, hc, fun h => ⟨hc, ?_, rfl⟩⟩
      have hliteral : literal? (.double (.finite b x)) = some (String.ofList _) := rfl
      rwa [Value.isSpelledInKind, hliteral, Option.bind_some, hread, Option.any_some,
        Bool.not_eq_true'] at h
  | text t =>
    refine ⟨_, rfl, fun s hs => ?_⟩
    cases hs
    refine ⟨_, Constant.read?_text t, .text t, fun h => ⟨.text t, rfl, ?_⟩⟩
    rwa [Value.isSpelledInKind, Bool.not_eq_true'] at h
  | single x => cases hv
  | null | timestamp t | uuid u | bytes bs | enumeration n =>
    exact ⟨_, rfl, fun s hs => by cases hs⟩

theorem Value.isSpelled {v : Value} (hv : v.isSpelledAsStored = true) :
    v.IsSpelled Constant.Denotes :=
  (isSpelled_and_inKind hv).mono fun _ _ h => h.1

theorem Value.isSpelled_is {v : Value} (hv : v.isSpelledAsStored = true)
    (hkind : v.isSpelledInKind = true) : v.IsSpelled Constant.Is :=
  (isSpelled_and_inKind hv).mono fun _ _ h => h.2 hkind

/-- The single nearest to a tenth. -/
def tenth : Single := .finite false ⟨13421773, -27, by decide⟩

def widenedTenth : Magnitude .double := ⟨13421773 * 2 ^ 29, -56, by decide⟩

theorem stored_tenth : (Value.single tenth).stored = .ok (.real (.finite false widenedTenth)) := by
  decide +kernel

theorem not_isRounding_tenth : ¬widenedTenth.IsRounding (1 * 10 ^ (-1 : ℤ)) := by
  intro h
  have hnearer := h.nearest 7205759403792794 (-56) (by decide) (by decide)
  simp only [Magnitude.toRat, widenedTenth] at hnearer
  norm_num [abs_of_nonpos, abs_of_nonneg] at hnearer

end RecordMap
