import Mathlib
import RecordMap.Sql.Literal
import RecordMap.Text.Caseless
import RecordMap.Text.Lowercase

/-!
# The characters of names and numbers

A literal that is no text is written in the characters of a number (`numeric_literal`).  Making the
letters of a name small brings in no question mark and no quote (`hasNoMark_lowercase`), and keeps
an identifier an identifier (`isIdentifier_lowercase`).  Names that differ only in the case of ASCII
letters have the same small letters (`lowercase_of_foldCase`).
-/

namespace RecordMap

namespace Sql

/-- The characters that stand for a placeholder or open a quoted region. -/
def isMark (c : Char) : Bool := c = '?' || c = '\x27' || c = '\x22'

def hasNoMark (name : String) : Bool := name.toList.all fun c => !isMark c

/-- The characters of a number. -/
def isNumeric (c : Char) : Bool := c.isDigit || c = '.' || c = '-'

/-- A name of letters, digits and underscores, a keyword or not. -/
def isIdentifier (name : String) : Bool :=
  match name.toList with
  | [] => false
  | c :: cs => startsName c && cs.all continuesName

end Sql

open Sql

section Numbers

theorem isNumeric_of_isDigit {c : Char} (h : c.isDigit = true) : isNumeric c = true := by
  simp [isNumeric, h]

theorem Decimal.numeric_ofNat (n : Nat) : ∀ c ∈ Decimal.ofNat n, isNumeric c = true :=
  fun _ hc => isNumeric_of_isDigit (Nat.isDigit_of_mem_toDigits (by decide) (by decide) hc)

theorem Decimal.numeric_ofInt (n : Int) : ∀ c ∈ Decimal.ofInt n, isNumeric c = true := by
  intro c hc
  unfold Decimal.ofInt at hc
  split at hc
  · rcases List.mem_cons.1 hc with rfl | hc
    · rfl
    · exact Decimal.numeric_ofNat _ c hc
  · exact Decimal.numeric_ofNat _ c hc

theorem Decimal.ofInt_ne_nil (n : Int) : Decimal.ofInt n ≠ [] := by
  unfold Decimal.ofInt
  split
  · simp
  · exact Nat.toDigits_ne_nil

namespace Floating

variable {f : Format}

theorem numeric_zeros (n : Int) : ∀ c ∈ zeros n, isNumeric c = true := by
  intro c hc
  rw [(List.mem_replicate.1 hc).2]
  rfl

theorem numeric_positional {ds : List Char} (point : Int) (h : ∀ c ∈ ds, isNumeric c = true) :
    ∀ c ∈ positional ds point, isNumeric c = true := by
  intro c hc
  unfold positional at hc
  split_ifs at hc <;> simp only [List.mem_append, List.mem_cons, List.not_mem_nil, or_false] at hc
  · rcases hc with ((rfl | rfl) | hc) | hc
    · rfl
    · rfl
    · exact numeric_zeros _ c hc
    · exact h c hc
  · rcases hc with hc | hc
    · exact h c hc
    · exact numeric_zeros _ c hc
  · rcases hc with (hc | rfl) | hc
    · exact h c (List.mem_of_mem_take hc)
    · rfl
    · exact h c (List.mem_of_mem_drop hc)

theorem positional_ne_nil {ds : List Char} (point : Int) (h : ds ≠ []) :
    positional ds point ≠ [] := by
  unfold positional
  split_ifs <;> simp [h]

theorem numeric_sign (negative : Bool) : ∀ c ∈ sign negative, isNumeric c = true := by
  have h : (sign negative).all isNumeric = true := by cases negative <;> rfl
  exact List.all_eq_true.1 h

theorem numeric_plain {x : Floating f} (hx : x.isFinite = true) :
    x.plain ≠ [] ∧ ∀ c ∈ x.plain, isNumeric c = true := by
  obtain ⟨s, y, rfl⟩ : ∃ s y, x = .finite s y := by
    cases x with
    | finite s y => exact ⟨s, y, rfl⟩
    | _ => simp [isFinite] at hx
  have hds : ∀ c ∈ y.digits.1, isNumeric c = true := Decimal.numeric_ofNat _
  have hne : y.digits.1 ≠ [] := Nat.toDigits_ne_nil
  simp only [plain]
  split_ifs
  · refine ⟨by simp, fun c hc => ?_⟩
    rcases List.mem_append.1 hc with hc | hc
    · exact numeric_sign s c hc
    · rw [List.mem_singleton.1 hc]
      rfl
  · refine ⟨by simp [positional_ne_nil y.digits.2 hne], fun c hc => ?_⟩
    rcases List.mem_append.1 hc with hc | hc
    · exact numeric_sign s c hc
    · exact numeric_positional y.digits.2 hds c hc

end Floating

/-- A literal is that of a text, or a number as far as its characters go. -/
theorem Sql.numeric_literal {v : Value} {s : String} (h : literal? v = some s) :
    (∃ t, v = .text t ∧ s = textLiteral t)
      ∨ (v.text? = none ∧ s.toList ≠ [] ∧ ∀ c ∈ s.toList, isNumeric c = true) := by
  cases v with
  | text t => exact .inl ⟨t, rfl, (Option.some.inj h).symm⟩
  | bool b =>
    refine .inr ⟨rfl, ?_⟩
    rw [← Option.some.inj h]
    have hnumeric : (if b then "1" else "0").toList.all isNumeric = true := by
      cases b <;> rfl
    exact ⟨by cases b <;> simp, List.all_eq_true.1 hnumeric⟩
  | int t n =>
    refine .inr ⟨rfl, ?_⟩
    rw [← Option.some.inj h, String.toList_ofList]
    exact ⟨Decimal.ofInt_ne_nil _, Decimal.numeric_ofInt _⟩
  | single x =>
    refine .inr ⟨rfl, ?_⟩
    simp only [literal?] at h
    split_ifs at h with hx
    rw [← Option.some.inj h, String.toList_ofList]
    exact Floating.numeric_plain hx
  | double x =>
    refine .inr ⟨rfl, ?_⟩
    simp only [literal?] at h
    split_ifs at h with hx
    rw [← Option.some.inj h, String.toList_ofList]
    exact Floating.numeric_plain hx
  | _ => simp [literal?] at h

end Numbers

section Names

namespace Text

theorem toLower_eq_or (c : Char) : c.toLower = c ∨ (65 ≤ c.toNat ∧ c.toNat ≤ 90
    ∧ c.toLower.toNat = c.toNat + 32) := by
  unfold Char.toLower
  split
  · rename_i h
    refine .inr ⟨UInt32.le_iff_toNat_le.1 h.1, UInt32.le_iff_toNat_le.1 h.2, ?_⟩
    have h2 : c.val.toNat ≤ 90 := UInt32.le_iff_toNat_le.1 h.2
    show (c.val + ('a'.val - 'A'.val)).toNat = c.val.toNat + 32
    rw [UInt32.toNat_add]
    exact Nat.mod_eq_of_lt (Nat.lt_of_le_of_lt (Nat.add_le_add_right h2 _) (by decide))
  · exact .inl rfl

theorem mark_toNat {c : Char} (h : isMark c = true) : c.toNat < 65 := by
  simp only [isMark, Bool.or_eq_true, decide_eq_true_eq] at h
  rcases h with (rfl | rfl) | rfl <;> decide

theorem not_mark_ofNat {n : Nat} (h : 65 ≤ n) : isMark (Char.ofNat n) = false := by
  by_cases hv : n.isValidChar
  · by_contra hm
    have := mark_toNat (Bool.not_eq_false _ ▸ hm)
    simp only [Char.ofNat, hv, ↓reduceDIte] at this
    exact absurd h (Nat.not_le.2 this)
  · simp only [Char.ofNat, hv, ↓reduceDIte]
    decide

theorem capitals_shift :
    capitals.all (fun r => decide ((65 : Int) ≤ r.first + r.shift)) = true := by
  decide

theorem mark_of_mem_lowerChar {c d : Char} (hd : d ∈ lowerChar c) (hm : isMark d = true) :
    isMark c = true := by
  unfold lowerChar at hd
  split_ifs at hd
  · rw [List.mem_singleton.1 hd] at hm
    rcases toLower_eq_or c with h | ⟨h, -, hl⟩
    · rwa [h] at hm
    · have := mark_toNat hm
      omega
  · simp only [List.mem_cons, List.not_mem_nil, or_false] at hd
    rcases hd with rfl | rfl <;> exact absurd hm (by decide)
  · split at hd
    · rename_i r hr
      have hs := List.all_eq_true.1 capitals_shift r (List.mem_of_find?_eq_some hr)
      have hc := List.find?_some hr
      simp only [CapitalRun.holds, Bool.and_eq_true, decide_eq_true_eq] at hs hc
      rw [List.mem_singleton.1 hd, not_mark_ofNat (by omega)] at hm
      cases hm
    · rwa [List.mem_singleton.1 hd] at hm

theorem mark_of_mem_lowerFrom {d : Char} (hm : isMark d = true) :
    ∀ (cs before : List Char), d ∈ lowerFrom before cs → ∃ c ∈ cs, isMark c = true
  | [], _, h => by simp [lowerFrom] at h
  | c :: cs, before, h => by
    simp only [lowerFrom, List.mem_append] at h
    rcases h with h | h
    · refine ⟨c, List.mem_cons_self, ?_⟩
      split_ifs at h
      · rw [List.mem_singleton.1 h] at hm
        exact absurd hm (by decide)
      · exact mark_of_mem_lowerChar h hm
    · obtain ⟨e, he, hme⟩ := mark_of_mem_lowerFrom hm cs (c :: before) h
      exact ⟨e, List.mem_cons_of_mem _ he, hme⟩

theorem hasNoMark_lowercase {name : String} (h : hasNoMark name = true) :
    hasNoMark (lowercase name) = true := by
  rw [hasNoMark, lowercase, String.toList_ofList, List.all_eq_true]
  intro d hd
  by_contra hm
  obtain ⟨c, hc, hmc⟩ := mark_of_mem_lowerFrom (by simpa using hm) _ _ hd
  have := List.all_eq_true.1 h c hc
  simp [hmc] at this

theorem toNat_of_continuesName {c : Char} (h : continuesName c = true) : c.toNat < 0x80 := by
  simp only [continuesName, Char.isAlphanum, Char.isAlpha, Char.isUpper, Char.isLower,
    Char.isDigit, Bool.or_eq_true, Bool.and_eq_true, decide_eq_true_eq, beq_iff_eq, ge_iff_le,
    UInt32.le_iff_toNat_le] at h
  rcases h with (((⟨-, h⟩ | ⟨-, h⟩) | ⟨-, h⟩)) | rfl
  · exact Nat.lt_of_le_of_lt h (by decide)
  · exact Nat.lt_of_le_of_lt h (by decide)
  · exact Nat.lt_of_le_of_lt h (by decide)
  · decide

/-- What holds of the characters of ASCII can be found by looking at each of them. -/
theorem forall_ascii {p : Char → Prop} (h : ∀ n : Fin 128, p (Char.ofNat n)) {c : Char}
    (hc : c.toNat < 128) : p c := by
  have hn := h ⟨c.toNat, hc⟩
  rwa [Char.ofNat_toNat] at hn

theorem isLower_toLower {c : Char} (h : 65 ≤ c.toNat ∧ c.toNat ≤ 90)
    (hl : c.toLower.toNat = c.toNat + 32) : c.toLower.isLower = true := by
  simp only [Char.isLower, Bool.and_eq_true, decide_eq_true_eq, ge_iff_le,
    UInt32.le_iff_toNat_le]
  show 97 ≤ c.toLower.toNat ∧ c.toLower.toNat ≤ 122
  omega

theorem isUpper_or_toLower_eq (c : Char) : c.isUpper = true ∨ c.toLower = c := by
  rcases toLower_eq_or c with hc | ⟨h1, h2, -⟩
  · exact .inr hc
  · refine .inl ?_
    simp only [Char.isUpper, decide_eq_true_eq, ge_iff_le, UInt32.le_iff_toNat_le]
    exact ⟨h1, h2⟩

theorem eq_of_toLower {c d : Char} (h : c.toLower = d) (hd : d.isLower = false) : c = d := by
  rcases toLower_eq_or c with hc | ⟨h1, h2, hl⟩
  · rw [← hc, h]
  · rw [← h, isLower_toLower ⟨h1, h2⟩ hl] at hd
    cases hd

theorem startsName_toLower {c : Char} (h : startsName c = true) :
    startsName c.toLower = true := by
  rcases toLower_eq_or c with hc | ⟨h1, h2, hl⟩
  · rwa [hc]
  · simp [startsName, Char.isAlpha, isLower_toLower ⟨h1, h2⟩ hl]

theorem continuesName_toLower {c : Char} (h : continuesName c = true) :
    continuesName c.toLower = true := by
  rcases toLower_eq_or c with hc | ⟨h1, h2, hl⟩
  · rwa [hc]
  · simp [continuesName, Char.isAlphanum, Char.isAlpha, isLower_toLower ⟨h1, h2⟩ hl]

theorem lowerFrom_eq_map : ∀ (cs before : List Char), (∀ c ∈ cs, continuesName c = true) →
    lowerFrom before cs = cs.map Char.toLower
  | [], _, _ => rfl
  | c :: cs, before, h => by
    have hc := h c List.mem_cons_self
    have hn := toNat_of_continuesName hc
    have hs : ¬ c = 'Σ' := by
      rintro rfl
      exact absurd hc (by decide)
    simp only [lowerFrom, hs, decide_false, Bool.false_and, Bool.false_eq_true, ↓reduceIte,
      lowerChar, hn, List.map_cons, List.cons_append, List.nil_append,
      lowerFrom_eq_map cs (c :: before) fun d hd => h d (List.mem_cons_of_mem _ hd)]

/-- What the small letters of ASCII share with their capitals, every character shares with its small
letter. -/
theorem apply_toLower {β : Type} {f : Char → β}
    (h : ∀ n : Fin 26, f (Char.ofNat (n + 97)) = f (Char.ofNat (n + 65))) (c : Char) :
    f c.toLower = f c := by
  rcases toLower_eq_or c with hc | ⟨h1, h2, hl⟩
  · rw [hc]
  · have hn := h ⟨c.toNat - 65, by omega⟩
    rwa [show c.toNat - 65 + 97 = c.toLower.toNat by omega,
      show c.toNat - 65 + 65 = c.toNat by omega, Char.ofNat_toNat, Char.ofNat_toNat] at hn

theorem lowerChar_toLower (c : Char) : lowerChar c.toLower = lowerChar c :=
  apply_toLower (by decide +kernel) c

theorem meetsCased_map_toLower : ∀ cs : List Char,
    meetsCased (cs.map Char.toLower) = meetsCased cs
  | [] => rfl
  | c :: cs => by
    have hcased : cased.holds c.toLower = cased.holds c := apply_toLower (by decide +kernel) c
    have hignorable : caseIgnorable.holds c.toLower = caseIgnorable.holds c :=
      apply_toLower (by decide +kernel) c
    have ih := meetsCased_map_toLower cs
    unfold meetsCased at ih ⊢
    rw [List.map_cons, List.dropWhile_cons, List.dropWhile_cons, hignorable]
    rcases caseIgnorable.holds c with _ | _
    · exact hcased
    · exact ih

theorem lowerFrom_map_toLower : ∀ cs before : List Char,
    lowerFrom (before.map Char.toLower) (cs.map Char.toLower) = lowerFrom before cs
  | [], _ => rfl
  | c :: cs, before => by
    have hsigma : (c.toLower = 'Σ') = (c = 'Σ') :=
      apply_toLower (f := (· = 'Σ')) (by decide +kernel) c
    have ih := lowerFrom_map_toLower cs (c :: before)
    rw [List.map_cons] at ih
    simp only [List.map_cons, lowerFrom, hsigma, lowerChar_toLower, meetsCased_map_toLower, ih]

theorem lowercase_of_foldCase {a b : String} (h : foldCase a = foldCase b) :
    lowercase a = lowercase b := by
  have hsmall : ∀ s : String, lowercase s = String.ofList (lowerFrom [] (foldCase s)) := fun s =>
    congrArg String.ofList (lowerFrom_map_toLower s.toList []).symm
  rw [hsmall, hsmall, h]

theorem isIdentifier_iff {name : String} : isIdentifier name = true ↔
    ∃ c cs, name.toList = c :: cs ∧ startsName c = true ∧ ∀ d ∈ cs, continuesName d = true := by
  unfold isIdentifier
  cases hn : name.toList with
  | nil => simp
  | cons c cs => simp [List.all_eq_true]

theorem continuesName_of_startsName {c : Char} (h : startsName c = true) :
    continuesName c = true := by
  simp only [startsName, continuesName, Char.isAlphanum, Bool.or_eq_true] at h ⊢
  rcases h with h | h
  · exact .inl (.inl h)
  · exact .inr h

theorem isIdentifier_lowercase {name : String} (h : isIdentifier name = true) :
    isIdentifier (lowercase name) = true := by
  obtain ⟨c, cs, hn, hc, hcs⟩ := isIdentifier_iff.1 h
  have hall : ∀ d ∈ c :: cs, continuesName d = true := fun d hd => by
    rcases List.mem_cons.1 hd with rfl | hd
    · exact continuesName_of_startsName hc
    · exact hcs d hd
  refine isIdentifier_iff.2 ⟨c.toLower, cs.map Char.toLower, ?_, startsName_toLower hc, ?_⟩
  · rw [lowercase, String.toList_ofList, hn, lowerFrom_eq_map _ _ hall, List.map_cons]
  · intro d hd
    obtain ⟨e, he, rfl⟩ := List.mem_map.1 hd
    exact continuesName_toLower (hcs e he)

end Text

end Names

end RecordMap
