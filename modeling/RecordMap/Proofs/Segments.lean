import RecordMap.Proofs.Cutting
import RecordMap.Proofs.Decimals
import RecordMap.Proofs.RoundTrip

/-!
# Segments of a list of settings

What a segment may be is said without the readers: `Brings` for the settings it can hold, `Flawed`
for what can be wrong with it.  A segment that brings a setting gives it (`setSegment_of_brings`), a
flawed one fails with its flaw (`setSegment_of_flawed`), and one that is not flawed does not fail
(`exists_setSegment`).
-/

namespace RecordMap.Connection

open Sql Text

/-- One setting and what it is set to. -/
inductive Setting
  | path (path : String)
  | busyTimeout (milliseconds : Nat)
  | foreignKeys (on : Bool)
  | journalMode (mode : JournalMode)
  | createDir (on : Bool)
  | version

namespace Setting

def key : Setting → Key
  | .path _ => .path
  | .busyTimeout _ => .busyTimeout
  | .foreignKeys _ => .foreignKeys
  | .journalMode _ => .journalMode
  | .createDir _ => .createDir
  | .version => .version

end Setting

def truthWords : Bool → List String
  | true => ["true", "1", "on", "yes"]
  | false => ["false", "0", "off", "no"]

/-- A whole number of 64 bits in decimal digits, perhaps with a plus sign. -/
def SpellsMilliseconds (n : Nat) (value : List Char) : Prop :=
  ∃ digits, (value = digits ∨ value = '+' :: digits) ∧ digits ≠ [] ∧
    (∀ c ∈ digits, c.isDigit = true) ∧ n = Nat.ofDigitChars 10 digits 0 ∧
    (n : Int) ≤ IntType.uint64.max

/-- The ways to write what a setting is set to. -/
def Setting.Spelled : Setting → String → Prop
  | .path p, value => value = p
  | .busyTimeout n, value => SpellsMilliseconds n value.toList
  | .foreignKeys b, value | .createDir b, value =>
    ∃ w ∈ truthWords b, sameCaseless w value = true
  | .journalMode m, value => sameCaseless m.text value = true
  | .version, value => value = "3"

/-- What a segment brings: one setting, or nothing if there are only blanks in it.  Only a path
could hold a semicolon or have blanks at its ends. -/
inductive Brings : List Char → Option Setting → Prop
  | nothing {blank : List Char} (h : ∀ c ∈ blank, isBlank c = true) : Brings blank none
  | setting {a b c d : List Char} {key value : String} {s : Setting}
      (ha : ∀ x ∈ a, isBlank x = true) (hb : ∀ x ∈ b, isBlank x = true)
      (hc : ∀ x ∈ c, isBlank x = true) (hd : ∀ x ∈ d, isBlank x = true)
      (hkey : sameCaseless s.key.name key = true) (hvalue : s.Spelled value)
      (hsemicolon : ';' ∉ value.toList) (htrim : trim value.toList = value.toList) :
      Brings (a ++ key.toList ++ b ++ '=' :: (c ++ value.toList ++ d)) (some s)

/-- The fault of a key whose value is none of its own. -/
def Key.flaw? (key value : String) : Key → Option ConnectionFlaw
  | .path => none
  | .busyTimeout => some (.notMilliseconds value)
  | .foreignKeys | .createDir => some (.notTruthValue key value)
  | .journalMode => some (.unknownJournalMode value)
  | .version => some (.unsupportedVersion value)

/-- What is wrong with a segment that is not blank and brings no setting. -/
inductive Flawed : List Char → ConnectionFlaw → Prop
  | noAssignment {segment : List Char} (hne : trim segment ≠ []) (h : '=' ∉ segment) :
      Flawed segment (.noAssignment (String.ofList (trim segment)))
  | unknownKey {key value : List Char} (h : '=' ∉ key)
      (hkey : ∀ k : Key, sameCaseless k.name (String.ofList (trim key)) = false) :
      Flawed (key ++ '=' :: value) (.unknownKey (String.ofList (trim key)))
  | invalid {key value : List Char} {k : Key} {flaw : ConnectionFlaw} (h : '=' ∉ key)
      (hkey : sameCaseless k.name (String.ofList (trim key)) = true)
      (hvalue : ∀ s : Setting, s.key = k → ¬ s.Spelled (String.ofList (trim value)))
      (hflaw : k.flaw? (String.ofList (trim key)) (String.ofList (trim value)) = some flaw) :
      Flawed (key ++ '=' :: value) flaw

section Keys

theorem Key.ofName?_of_same {k : Key} {key : String} (h : sameCaseless k.name key = true) :
    Key.ofName? key = some k := by
  have hfold : foldCase key = foldCase k.name := (beq_iff_eq.1 h).symm
  simp only [Key.ofName?, sameCaseless, hfold]
  cases k <;> decide

theorem Key.ofName?_of_not_same {key : String} (h : ∀ k : Key, sameCaseless k.name key = false) :
    Key.ofName? key = none := by
  rw [Key.ofName?, List.find?_eq_none]
  intro k _
  simp [h k]

/-- In whatever case a key is written, it begins with a letter of its own and has the characters
of a name. -/
theorem Key.chars_of_same {k : Key} {key : String} (h : sameCaseless k.name key = true) :
    (∃ c cs, key.toList = c :: cs ∧ c ≠ 's') ∧ ∀ c ∈ key.toList, continuesName c = true := by
  have hfold : key.toList.map Char.toLower = foldCase k.name := (beq_iff_eq.1 h).symm
  constructor
  · rcases hkey : key.toList with _ | ⟨c, cs⟩
    · rw [hkey] at hfold
      cases k <;> cases hfold
    · refine ⟨c, cs, rfl, ?_⟩
      rintro rfl
      rw [hkey, List.map_cons] at hfold
      cases k <;> exact absurd (List.cons.inj hfold).1 (by decide)
  · intro c hc
    have hlower : c.toLower ∈ foldCase k.name := hfold ▸ List.mem_map_of_mem hc
    rcases isUpper_or_toLower_eq c with hupper | heq
    · simp [continuesName, Char.isAlphanum, Char.isAlpha, hupper]
    · rw [heq] at hlower
      have hname : ∀ k : Key, (foldCase k.name).all continuesName = true := by
        rintro (_ | _ | _ | _ | _ | _) <;> decide
      exact List.all_eq_true.1 (hname k) c hlower

end Keys

section Values

variable {value : String}

theorem readMilliseconds_eq_ok {n : Nat} :
    readMilliseconds value = .ok n ↔ SpellsMilliseconds n value.toList := by
  constructor
  · intro h
    unfold readMilliseconds at h
    split at h
    · next k hk =>
      obtain ⟨m, hm, hk⟩ := Option.bind_eq_some_iff.1 hk
      obtain ⟨digits, hcs, hne, hdigits, rfl⟩ :=
        Decimal.spells_unsigned_iff.1 (Decimal.readInt?_eq_some_iff.1 hm)
      have hk := Number.toInt_of_ofInt? hk
      have hn : k.toInt.toNat = n := Except.ok.inj h
      have hmax : k.toInt ≤ IntType.uint64.max := k.2.2
      exact ⟨digits, hcs, hne, hdigits, by omega, by omega⟩
    · cases h
  · rintro ⟨digits, hcs, hne, hdigits, rfl, hmax⟩
    have hread : Decimal.readInt? false value.toList
        = some (Nat.ofDigitChars 10 digits 0 : Int) :=
      Decimal.readInt?_eq_some_iff.2
        (Decimal.spells_unsigned_iff.2 ⟨digits, hcs, hne, hdigits, rfl⟩)
    have hmin : IntType.uint64.min ≤ (Nat.ofDigitChars 10 digits 0 : Int) := Int.natCast_nonneg _
    have hfits : Number.ofInt? .uint64 (Nat.ofDigitChars 10 digits 0 : Int)
        = some ⟨_, hmin, hmax⟩ := dif_pos ⟨hmin, hmax⟩
    rw [readMilliseconds, hread, Option.bind_some, hfits]
    rfl

theorem readMilliseconds_eq_fail (h : ∀ n, ¬ SpellsMilliseconds n value.toList) :
    readMilliseconds value = Outcome.fail (.connection (.notMilliseconds value)) := by
  rcases hread : readMilliseconds value with e | n
  · unfold readMilliseconds at hread
    split at hread
    · cases hread
    · exact hread.symm
  · exact absurd (readMilliseconds_eq_ok.1 hread) (h n)

theorem readTruth_eq_ok {key : String} {b : Bool} :
    readTruth key value = .ok b ↔ ∃ w ∈ truthWords b, sameCaseless w value = true := by
  have htrue : ["true", "1", "on", "yes"].any (sameCaseless · value) = true ↔
      ∃ w ∈ truthWords true, sameCaseless w value = true := List.any_eq_true
  have hfalse : ["false", "0", "off", "no"].any (sameCaseless · value) = true ↔
      ∃ w ∈ truthWords false, sameCaseless w value = true := List.any_eq_true
  have hdisjoint : ∀ w ∈ truthWords true, ∀ w' ∈ truthWords false, foldCase w ≠ foldCase w' := by
    decide
  unfold readTruth
  split_ifs with h1 h2
  · cases b with
    | true => simp [← htrue, h1]
    | false =>
      obtain ⟨w, hw, hwv⟩ := htrue.1 h1
      simp only [Except.ok.injEq, Bool.true_eq_false, false_iff]
      rintro ⟨w', hw', hwv'⟩
      exact hdisjoint w hw w' hw' ((beq_iff_eq.1 hwv).trans (beq_iff_eq.1 hwv').symm)
  · cases b with
    | true => simp [← htrue, h1]
    | false => simp [← hfalse, h2]
  · cases b with
    | true => simp [← htrue, h1, Outcome.fail]
    | false => simp [← hfalse, h2, Outcome.fail]

theorem readTruth_eq_fail {key : String}
    (h : ∀ b, ¬ ∃ w ∈ truthWords b, sameCaseless w value = true) :
    readTruth key value = Outcome.fail (.connection (.notTruthValue key value)) := by
  rcases hread : readTruth key value with e | b
  · unfold readTruth at hread
    split_ifs at hread
    exact hread.symm
  · exact absurd (readTruth_eq_ok.1 hread) (h b)

theorem JournalMode.read_eq_ok {m : JournalMode} (h : sameCaseless m.text value = true) :
    JournalMode.read value = .ok m := by
  have hfold : foldCase value = foldCase m.text := (beq_iff_eq.1 h).symm
  have hfind : all.find? (fun m => sameCaseless m.text value) = some m := by
    simp only [sameCaseless, hfold]
    cases m <;> decide
  rw [JournalMode.read, hfind]

theorem JournalMode.read_eq_fail (h : ∀ m : JournalMode, ¬ sameCaseless m.text value = true) :
    JournalMode.read value = Outcome.fail (.connection (.unknownJournalMode value)) := by
  have hfind : all.find? (fun m => sameCaseless m.text value) = none :=
    List.find?_eq_none.2 fun m _ => h m
  rw [JournalMode.read, hfind]

end Values

/-- The settings so far, and one more. -/
def Partial.give (p : Partial) : Setting → Partial
  | .path s => { p with location := readLocation s }
  | .busyTimeout n => { p with busyTimeout := some n }
  | .foreignKeys b => { p with foreignKeys := some b }
  | .journalMode m => { p with journalMode := some m }
  | .createDir b => { p with createDir := b }
  | .version => p

section Segments

variable {key value : String} {segment : List Char}

theorem set_of_spelled {s : Setting} (hkey : sameCaseless s.key.name key = true)
    (hvalue : s.Spelled value) (p : Partial) : p.set key value = .ok (p.give s) := by
  rw [Partial.set, Key.ofName?_of_same hkey]
  cases s with
  | path s =>
    rw [show value = s from hvalue]
    rfl
  | busyTimeout n =>
    simp only [Setting.key, readMilliseconds_eq_ok.2 hvalue]
    rfl
  | foreignKeys b =>
    simp only [Setting.key, readTruth_eq_ok.2 hvalue]
    rfl
  | journalMode m =>
    simp only [Setting.key, JournalMode.read_eq_ok hvalue]
    rfl
  | createDir b =>
    simp only [Setting.key, readTruth_eq_ok.2 hvalue]
    rfl
  | version => exact if_pos hvalue

theorem set_of_not_spelled {k : Key} {flaw : ConnectionFlaw}
    (hkey : sameCaseless k.name key = true)
    (hvalue : ∀ s : Setting, s.key = k → ¬ s.Spelled value) (hflaw : k.flaw? key value = some flaw)
    (p : Partial) : p.set key value = Outcome.fail (.connection flaw) := by
  rw [Partial.set, Key.ofName?_of_same hkey]
  cases k with
  | path => cases hflaw
  | busyTimeout =>
    simp only [readMilliseconds_eq_fail fun n => hvalue (.busyTimeout n) rfl]
    cases hflaw
    rfl
  | foreignKeys =>
    simp only [readTruth_eq_fail fun b => hvalue (.foreignKeys b) rfl]
    cases hflaw
    rfl
  | journalMode =>
    simp only [JournalMode.read_eq_fail fun m => hvalue (.journalMode m) rfl]
    cases hflaw
    rfl
  | createDir =>
    simp only [readTruth_eq_fail fun b => hvalue (.createDir b) rfl]
    cases hflaw
    rfl
  | version =>
    cases hflaw
    exact if_neg (hvalue .version rfl)

theorem setSegment_of_brings {o : Option Setting} (h : Brings segment o) (p : Partial) :
    setSegment p segment = .ok (o.elim p p.give) := by
  cases h with
  | nothing h => exact setSegment_of_blank (trim_append_blanks h [])
  | @setting a b c d key value s ha hb hc hd hkey hvalue hsemicolon htrim =>
    have hname := (Key.chars_of_same hkey).2
    have hne : '=' ∉ a ++ key.toList ++ b := by
      have : '=' ∉ key.toList := fun hmem => absurd (hname '=' hmem) (by decide)
      simp [this, notMem_of_blanks (show isBlank '=' = false from rfl) ha,
        notMem_of_blanks (show isBlank '=' = false from rfl) hb]
    rw [setSegment_assignment hne, trim_between ha hb, trim_of_continuesName hname,
      trim_between hc hd, htrim, String.ofList_toList, String.ofList_toList]
    exact set_of_spelled hkey hvalue p

theorem setSegment_of_flawed {flaw : ConnectionFlaw} (h : Flawed segment flaw) (p : Partial) :
    setSegment p segment = Outcome.fail (.connection flaw) := by
  cases h with
  | noAssignment hne h => exact setSegment_of_notMem hne h p
  | unknownKey h hkey =>
    rw [setSegment_assignment h, Partial.set, Key.ofName?_of_not_same hkey]
  | invalid h hkey hvalue hflaw =>
    rw [setSegment_assignment h]
    exact set_of_not_spelled hkey hvalue hflaw p

theorem not_flawed_of_brings {o : Option Setting} (h : Brings segment o) (flaw : ConnectionFlaw) :
    ¬ Flawed segment flaw := by
  intro hflaw
  have hfail := setSegment_of_flawed hflaw Partial.empty
  rw [setSegment_of_brings h] at hfail
  cases hfail

/-- A segment that is not flawed is a setting, or nothing. -/
theorem exists_setSegment (h : ∀ flaw, ¬ Flawed segment flaw) (p : Partial) :
    ∃ q, setSegment p segment = .ok q := by
  by_cases hblank : trim segment = []
  · exact ⟨p, setSegment_of_blank hblank⟩
  by_cases hmem : '=' ∈ segment
  · obtain ⟨key, value, rfl, hkey⟩ := List.eq_append_cons_of_mem hmem
    rw [setSegment_assignment hkey]
    by_cases hname : ∃ k : Key, sameCaseless k.name (String.ofList (trim key)) = true
    · obtain ⟨k, hk⟩ := hname
      by_cases hvalue : ∃ s : Setting, s.key = k ∧ s.Spelled (String.ofList (trim value))
      · obtain ⟨s, rfl, hs⟩ := hvalue
        exact ⟨_, set_of_spelled hk hs p⟩
      · simp only [not_exists, not_and] at hvalue
        rcases hflaw : k.flaw? (String.ofList (trim key)) (String.ofList (trim value)) with _ | flaw
        · cases k with
          | path => exact absurd rfl (hvalue (.path _) rfl)
          | _ => cases hflaw
        · exact absurd (Flawed.invalid hkey hk hvalue hflaw) (h flaw)
    · simp only [not_exists, Bool.not_eq_true] at hname
      exact absurd (Flawed.unknownKey hkey hname) (h _)
  · exact absurd (Flawed.noAssignment hblank hmem) (h _)

end Segments

end RecordMap.Connection
