import RecordMap.Proofs.Delimiters

/-!
# Names as the store reads them

The store reads a name between double quotes up to the quote that is not doubled, and a bare one as
far as its letters, digits and underscores go.  A bare word that its grammar needs elsewhere is no
name, in whatever case its letters are.

A name in quotes is read for what it is, since the quotes in it are doubled
(`readQuoted?_doubled`).  A bare name is no keyword, but four words that the store keeps for itself
are not among the keywords, so these are written bare and not read as names
(`readName?_identifier`).
-/

namespace RecordMap.Sql

open Text

/-! ## The reader -/

/-- The words that the store never takes for a name. -/
def reserved : List String := [
  "ADD", "ALL", "ALTER", "AND", "AS", "AUTOINCREMENT", "BETWEEN", "CASE", "CHECK", "COLLATE",
  "COMMIT", "CONSTRAINT", "CREATE", "DEFAULT", "DEFERRABLE", "DELETE", "DISTINCT", "DROP", "ELSE",
  "ESCAPE", "EXCEPT", "EXISTS", "FOREIGN", "FROM", "GROUP", "HAVING", "IN", "INDEX", "INSERT",
  "INTERSECT", "INTO", "IS", "ISNULL", "JOIN", "LIMIT", "NOT", "NOTNULL", "NULL", "ON", "OR",
  "ORDER", "PRIMARY", "REFERENCES", "RETURNING", "SELECT", "SET", "TABLE", "THEN", "TO",
  "TRANSACTION", "UNION", "UNIQUE", "UPDATE", "USING", "VALUES", "WHEN", "WHERE"]

def isLetter (c : Char) : Bool := 'a' ≤ c && c ≤ 'z' || 'A' ≤ c && c ≤ 'Z' || c = '_'

def isWordChar (c : Char) : Bool := isLetter c || '0' ≤ c && c ≤ '9'

/-- What stands before the closing quote, and what is left behind it.  No text goes on behind a
null character. -/
def readQuoted? : List Char → Option (List Char × List Char)
  | [] => none
  | [c] => if c = '\x22' then some ([], []) else none
  | c :: d :: cs =>
    if c = '\x22' then
      if d = '\x22' then (readQuoted? cs).map fun r => ('\x22' :: r.1, r.2) else some ([], d :: cs)
    else if c = '\x00' then none
    else (readQuoted? (d :: cs)).map fun r => (c :: r.1, r.2)

/-- The name that a text begins with, and what is left behind it. -/
def readName? : List Char → Option (String × List Char)
  | [] => none
  | c :: cs =>
    if c = '\x22' then (readQuoted? cs).map fun r => (String.ofList r.1, r.2)
    else if isLetter c then
      let word := String.ofList (c :: cs.takeWhile isWordChar)
      if reserved.any fun w => sameCaseless w word then none
      else some (word, cs.dropWhile isWordChar)
    else none

/-- No letter, digit, underscore or quote goes on with a name. -/
def EndsName : List Char → Prop
  | [] => True
  | c :: _ => isWordChar c = false ∧ c ≠ '\x22'

theorem EndsName.head_ne_quote {rest : List Char} (h : EndsName rest) :
    rest.head? ≠ some '\x22' := by
  cases rest with
  | nil => simp
  | cons c cs => simpa using h.2

theorem EndsName.takeWhile_eq_nil {rest : List Char} (h : EndsName rest) :
    rest.takeWhile isWordChar = [] := by
  cases rest with
  | nil => rfl
  | cons c cs => exact List.takeWhile_cons_of_neg (by simp [h.1])

theorem EndsName.dropWhile_eq_self {rest : List Char} (h : EndsName rest) :
    rest.dropWhile isWordChar = rest := by
  cases rest with
  | nil => rfl
  | cons c cs => exact List.dropWhile_cons_of_neg (by simp [h.1])

/-! ## Names in quotes -/

theorem readQuoted?_doubled {rest : List Char} (hrest : rest.head? ≠ some '\x22') :
    ∀ {cs : List Char}, '\x00' ∉ cs →
      readQuoted? (doubled '\x22' cs ++ '\x22' :: rest) = some (cs, rest)
  | [], _ => by
    cases rest with
    | nil => rfl
    | cons d ds =>
      have hd : d ≠ '\x22' := by simpa using hrest
      simp [doubled, readQuoted?, hd]
  | c :: cs, hnul => by
    rw [List.mem_cons, not_or] at hnul
    have ih := readQuoted?_doubled hrest hnul.2
    obtain ⟨d, ds, hds⟩ : ∃ d ds, doubled '\x22' cs ++ '\x22' :: rest = d :: ds :=
      List.exists_cons_of_ne_nil (by simp)
    simp only [doubled, List.flatMap_cons, List.append_assoc] at ih hds ⊢
    by_cases hc : c = '\x22'
    · simp only [hc, ↓reduceIte, List.cons_append, List.nil_append, readQuoted?, ih,
        Option.map_some]
    · rw [if_neg hc, List.singleton_append, hds, readQuoted?, if_neg hc, if_neg (Ne.symm hnul.1),
        ← hds, ih]
      rfl

/-! ## Bare names -/

theorem isLetter_eq (c : Char) : isLetter c = startsName c := by
  rw [Bool.eq_iff_iff]
  simp only [isLetter, startsName, Char.isAlpha, Char.isUpper, Char.isLower, Char.le_def,
    Bool.or_eq_true, Bool.and_eq_true, decide_eq_true_eq, beq_iff_eq]
  exact or_congr_left or_comm

theorem isWordChar_eq (c : Char) : isWordChar c = continuesName c := by
  rw [isWordChar, isLetter_eq, startsName, continuesName, Char.isAlphanum, Bool.or_assoc,
    Bool.or_assoc, Bool.or_comm (c == '_')]
  simp [Char.isDigit, Char.le_def]

theorem isIdentifier_congr {a b : String} (h : foldCase a = foldCase b) :
    isIdentifier a = isIdentifier b := by
  have hstarts : ∀ c : Char, startsName c.toLower = startsName c :=
    apply_toLower (by decide +kernel)
  have hcontinues : ∀ c : Char, continuesName c.toLower = continuesName c :=
    apply_toLower (by decide +kernel)
  have hsmall : ∀ s : String, isIdentifier s = isIdentifier (String.ofList (foldCase s)) := by
    intro s
    unfold isIdentifier foldCase
    rw [String.toList_ofList]
    cases s.toList with
    | nil => rfl
    | cons c cs => simp [hstarts, List.all_map, Function.comp_def, hcontinues]
  rw [hsmall, h, ← hsmall]

theorem isPlain_eq (name : String) : isPlain name = (isIdentifier name && !isKeyword name) := by
  unfold isPlain isIdentifier
  cases name.toList with
  | nil => rfl
  | cons c cs => rfl

/-- Whether a name is written bare does not hang on the case of its letters. -/
theorem isPlain_congr {a b : String} (h : foldCase a = foldCase b) : isPlain a = isPlain b := by
  have hkeyword : isKeyword a = isKeyword b := by
    unfold isKeyword sameCaseless
    rw [h]
  rw [isPlain_eq, isPlain_eq, isIdentifier_congr h, hkeyword]

/-- A bare name is read to its end, unless it is reserved. -/
theorem readName?_bare {name : String} (h : isIdentifier name = true) {rest : List Char}
    (hrest : EndsName rest) : readName? (name.toList ++ rest) =
      if reserved.any fun w => sameCaseless w name then none else some (name, rest) := by
  obtain ⟨c, cs, hname, hc, hcs⟩ := isIdentifier_iff.1 h
  have hquote : c ≠ '\x22' := by
    rintro rfl
    cases hc
  have hcs' : ∀ d ∈ cs, isWordChar d = true := fun d hd => by rw [isWordChar_eq, hcs d hd]
  have hword : String.ofList (c :: cs) = name := by rw [← hname, String.ofList_toList]
  rw [hname, List.cons_append, readName?, if_neg hquote, isLetter_eq, if_pos hc,
    List.takeWhile_append_of_pos hcs', List.dropWhile_append_of_pos hcs', hrest.takeWhile_eq_nil,
    hrest.dropWhile_eq_self, List.append_nil, hword]

/-! ## Reserved words that are no keywords -/

/-- The reserved words that are written bare. -/
def overlooked : List String := ["AUTOINCREMENT", "COMMIT", "DEFERRABLE", "RETURNING"]

theorem overlooked_eq : reserved.filter (fun w => !keywords.contains w) = overlooked := by
  decide +kernel

theorem isPlain_of_overlooked : ∀ w ∈ overlooked, isPlain w = true := by decide +kernel

/-- For a name that is no keyword, these are the only reserved words. -/
theorem any_reserved {name : String} (h : isKeyword name = false) :
    (reserved.any fun w => sameCaseless w name) = overlooked.any fun w => sameCaseless w name := by
  rw [← overlooked_eq, Bool.eq_iff_iff, List.any_eq_true, List.any_eq_true]
  constructor
  · rintro ⟨w, hw, hname⟩
    have hk : w ∉ keywords := fun hk => List.any_eq_false.1 h w hk hname
    exact ⟨w, List.mem_filter.2 ⟨hw, by simpa using hk⟩, hname⟩
  · rintro ⟨w, hw, hname⟩
    exact ⟨w, (List.mem_filter.1 hw).1, hname⟩

/-- The text of a name is read as the name, whatever ends it, unless the name is one of the words
overlooked. -/
theorem readName?_identifier {name : String} (hnul : '\x00' ∉ name.toList) {rest : List Char}
    (hrest : EndsName rest) : readName? ((identifier name).toList ++ rest) =
      if overlooked.any fun w => sameCaseless w name then none else some (name, rest) := by
  cases hplain : isPlain name with
  | true =>
    have hparts := hplain
    rw [isPlain_eq, Bool.and_eq_true, Bool.not_eq_eq_eq_not, Bool.not_true] at hparts
    rw [identifier_of_isPlain hplain, readName?_bare hparts.1 hrest, any_reserved hparts.2]
  | false =>
    have hbare : ∀ w ∈ overlooked, sameCaseless w name = false := by
      intro w hw
      by_contra hsame
      have hfold : foldCase w = foldCase name := by
        simpa [sameCaseless] using hsame
      have hw' := isPlain_of_overlooked w hw
      rw [isPlain_congr hfold, hplain] at hw'
      cases hw'
    have hany : (overlooked.any fun w => sameCaseless w name) = false := by
      simpa using hbare
    rw [toList_identifier_of_not hplain, hany, List.cons_append, List.cons_append,
      List.append_assoc, List.singleton_append, readName?, if_pos rfl,
      readQuoted?_doubled hrest.head_ne_quote hnul]
    simp

/-- A quoted name with a reserved word in it is read, and a bare one that begins with one. -/
theorem readName?_identifier_commits :
    readName? "\x22to \x22\x22Commit\x22\x22\x22 = ?".toList
      = some ("to \x22Commit\x22", " = ?".toList) ∧
    readName? "Commits;".toList = some ("Commits", [';']) := by
  have hblank : EndsName " = ?".toList := ⟨rfl, by decide⟩
  have hend : EndsName [';'] := ⟨rfl, by decide⟩
  have hquoted : readName? ((identifier "to \x22Commit\x22").toList ++ " = ?".toList) = _ :=
    readName?_identifier (by decide +kernel) hblank
  have hbare : readName? ((identifier "Commits").toList ++ [';']) = _ :=
    readName?_identifier (by decide +kernel) hend
  exact ⟨hquoted, hbare⟩

/-- A name that is an overlooked word is not read. -/
theorem not_readName?_identifier : ¬ ∀ name : String, name ≠ "" → '\x00' ∉ name.toList →
    readName? (identifier name).toList = some (name, []) := by
  intro h
  have hcommit : readName? (identifier "Commit").toList = none := by decide +kernel
  rw [h "Commit" (by decide) (by decide +kernel)] at hcommit
  cases hcommit

end RecordMap.Sql
