import RecordMap.Proofs.Lexer
import RecordMap.Proofs.Placeholders

/-!
# Reading a condition

A condition can be read back from its text.  The tokens are put together by a machine with a stack
of open brackets and calls; it knows nothing of models or filters.  From the text of a condition it
makes the reading of the filter's term (`Term.reads_emission`): the same operators over the same
operands, every name and every text as it was before it was quoted.

The machine reads a part of a text in the same way wherever the part stands (`Reads`), so the proof
goes along the term, one lemma for each thing that is written around its parts.
-/

namespace RecordMap

open Sql

namespace Sql

inductive Sign
  | connective (c : Connective)
  | like
  | is
  | isNot
  | join
  deriving DecidableEq

def Sign.spelling : Sign → String
  | .connective c => c.sign
  | .like => "LIKE"
  | .is => "is"
  | .isNot => "is not"
  | .join => "||"

/-- The signs that are one token. -/
def Sign.all : List Sign :=
  [.connective .eq, .connective .ne, .connective .ge, .connective .gt, .connective .le,
    .connective .lt, .connective .and, .connective .or, .connective .bitAnd, .connective .bitOr,
    .like, .is, .join]

def Sign.ofSpelling? (s : String) : Option Sign := Sign.all.find? (·.spelling = s)

/-- What a text in SQL says. -/
inductive Reading
  | column (name : String)
  | text (s : String)
  | number (s : String)
  | hole
  | group (inner : Reading)
  | binary (s : Sign) (left right : Reading)
  | call (name : String) (arguments : List Reading)

/-- What is open, with what has been read in it: in a bracket an operand and the sign behind it, in
a call the arguments before the current one. -/
inductive Frame
  | bracket (before : Option (Reading × Sign))
  | call (name : String) (before : List Reading)

/-- The open frames, the innermost first, and the operand that has just been read. -/
structure Parsing where
  frames : List Frame
  operand : Option Reading

namespace Parsing

/-- The operand together with what stands before it in its bracket. -/
def combine : Option (Reading × Sign) → Reading → Reading
  | none, r => r
  | some (l, s), r => .binary s l r

def supply (r : Reading) : Parsing → Option Parsing
  | ⟨frames, none⟩ => some ⟨frames, some r⟩
  | ⟨_, some _⟩ => none

def enter (f : Frame) : Parsing → Option Parsing
  | ⟨frames, none⟩ => some ⟨f :: frames, none⟩
  | ⟨_, some _⟩ => none

def operate (s : String) : Parsing → Option Parsing
  | ⟨.bracket before :: frames, some r⟩ =>
    (Sign.ofSpelling? s).map fun sign => ⟨.bracket (some (combine before r, sign)) :: frames, none⟩
  | _ => none

/-- A word is a column where an operand is missing, a part of the sign if it is the `not` behind an
`is`, and a sign behind an operand. -/
def readWord (s : String) : Parsing → Option Parsing
  | ⟨.bracket (some (l, .is)) :: frames, none⟩ =>
    if s = "not" then some ⟨.bracket (some (l, .isNot)) :: frames, none⟩
    else some ⟨.bracket (some (l, .is)) :: frames, some (.column s)⟩
  | ⟨frames, none⟩ => some ⟨frames, some (.column s)⟩
  | ⟨frames, some r⟩ => operate s ⟨frames, some r⟩

def next : Parsing → Option Parsing
  | ⟨.call name before :: frames, some r⟩ => some ⟨.call name (before ++ [r]) :: frames, none⟩
  | _ => none

def close : Parsing → Option Parsing
  | ⟨.bracket none :: frames, some r⟩ => some ⟨frames, some (.group r)⟩
  | ⟨.bracket (some before) :: frames, some r⟩ => some ⟨frames, some (combine (some before) r)⟩
  | ⟨.call name before :: frames, some r⟩ => some ⟨frames, some (.call name (before ++ [r]))⟩
  | ⟨.call name [] :: frames, none⟩ => some ⟨frames, some (.call name [])⟩
  | _ => none

def step (p : Parsing) : Token → Option Parsing
  | .left => p.enter (.bracket none)
  | .right => p.close
  | .comma => p.next
  | .hole => p.supply .hole
  | .word s => p.readWord s
  | .call s => p.enter (.call s [])
  | .name s => p.supply (.column s)
  | .text s => p.supply (.text s)
  | .number s => p.supply (.number s)
  | .sign s => p.operate s

def result : Parsing → Option Reading
  | ⟨[], operand⟩ => operand
  | _ => none

end Parsing

/-- What a text says, if it can be read. -/
def parse (text : String) : Option Reading := do
  let ts ← lex text
  let p ← ts.foldlM Parsing.step ⟨[], none⟩
  p.result

namespace Term

/-- The reading of a value as it is written. -/
def valueReading (inline : Bool) (v : Value) : Reading :=
  if inline then
    match literal? v, v.text? with
    | none, _ => .hole
    | some _, some s => .text s
    | some s, none => .number s
  else .hole

/-- A reading with wildcards joined to it. -/
def surrounded (leading trailing : Bool) (r : Reading) : Reading :=
  match leading, trailing with
  | true, true => .binary .join (.binary .join (.text "%") r) (.text "%")
  | true, false => .binary .join (.text "%") r
  | false, true => .binary .join r (.text "%")
  | false, false => .group r

mutual

/-- What a term says once it is written. -/
def reading (inline : Bool) : Term → Reading
  | .column name => .column name
  | .literal v => valueReading inline v
  | .binary c l r => .binary (.connective c) (reading inline l) (reading inline r)
  | .isNull negated t => .binary (if negated then .isNot else .is) (reading inline t) .hole
  | .like t p => .binary .like (reading inline t) (reading inline p)
  | .equals t x => .binary (.connective .eq) (reading inline t) (.group (reading inline x))
  | .pattern leading trailing t => surrounded leading trailing (reading inline t)
  | .call name ts => .call (Text.lowercase name) (readings inline ts)

def readings (inline : Bool) : List Term → List Reading
  | [] => []
  | t :: ts => reading inline t :: readings inline ts

end

end Term

open Parsing

/-- The characters `cs` are read as `r`, wherever they stand. -/
def Reads (cs : List Char) (r : Reading) : Prop :=
  ∃ ts, Lexes cs ts ∧ ∀ frames, ts.foldlM step ⟨frames, none⟩ = some ⟨frames, some r⟩

/-- The characters `cs` are read as the sign `s` behind an operand in brackets. -/
def ReadsSign (cs : List Char) (s : Sign) : Prop :=
  ∃ ts, Lexes cs ts ∧ ∀ before l frames, ts.foldlM step ⟨.bracket before :: frames, some l⟩
    = some ⟨.bracket (some (combine before l, s)) :: frames, none⟩

/-- The characters `cs` fill a bracket up to its end, `r` being the last operand. -/
def ReadsInside (cs : List Char) (before : Option (Reading × Sign)) (r : Reading) : Prop :=
  ∃ ts, Lexes cs ts ∧ ∀ frames, ts.foldlM step ⟨.bracket none :: frames, none⟩
    = some ⟨.bracket before :: frames, some r⟩

/-- The characters `cs` are read as the arguments `rs` of a call, up to its end. -/
def ReadsList (cs : List Char) (rs : List Reading) : Prop :=
  ∃ ts, Lexes cs ts ∧ ∀ name before frames,
    (ts.foldlM step ⟨.call name before :: frames, none⟩) >>= close
      = some ⟨frames, some (.call name (before ++ rs))⟩

theorem parse_of_reads {text : String} {r : Reading} (h : Reads text.toList r) :
    parse text = some r := by
  obtain ⟨ts, hts, hr⟩ := h
  have hlex : lex text = some ts := by
    have := hts [] [] trivial rfl
    rwa [List.append_nil, List.append_nil] at this
  simp [parse, hlex, hr [], result]

section Operands

theorem reads_hole : Reads ['?'] .hole := ⟨[.hole], lexes_hole, fun _ => rfl⟩

theorem readWord_of_ne {s : String} (h : s ≠ "not") (frames : List Frame) :
    readWord s ⟨frames, none⟩ = some ⟨frames, some (.column s)⟩ := by
  unfold readWord
  split
  · rename_i heq
    cases heq
    rw [if_neg h]
  · rename_i heq
    cases heq
    rfl
  · rename_i heq
    cases heq

theorem reads_identifier (name : String) : Reads (identifier name).toList (.column name) := by
  unfold identifier
  split_ifs with h
  · refine ⟨[.word name], lexes_word (isIdentifier_of_isPlain h), fun frames => ?_⟩
    have hne : name ≠ "not" := by
      rintro rfl
      exact absurd h (by decide +kernel)
    simp [step, readWord_of_ne hne]
  · have hl := lexes_quoted .double name.toList
    rw [String.ofList_toList] at hl
    rw [String.toList_ofList]
    exact ⟨_, hl, fun _ => rfl⟩

theorem reads_text (s : String) : Reads (textLiteral s).toList (.text s) := by
  have hl := lexes_quoted .single s.toList
  rw [String.ofList_toList] at hl
  rw [textLiteral, String.toList_ofList]
  exact ⟨_, hl, fun _ => rfl⟩

theorem reads_number {s : String} (hne : s.toList ≠ [])
    (hs : ∀ c ∈ s.toList, isNumeric c = true) : Reads s.toList (.number s) := by
  have hl := lexes_number hne hs
  rw [String.ofList_toList] at hl
  exact ⟨_, hl, fun _ => rfl⟩

end Operands

section Brackets

variable {a b : List Char} {l r : Reading} {before : Option (Reading × Sign)}

theorem readsInside_of_reads (h : Reads a r) : ReadsInside a none r := by
  obtain ⟨ts, hts, hr⟩ := h
  exact ⟨ts, hts, fun frames => hr _⟩

/-- One more operand in a bracket, behind a sign. -/
theorem readsInside_sign {sign : List Char} {s : Sign} (ha : ReadsInside a before l)
    (hs : ReadsSign sign s) (hb : Reads b r) :
    ReadsInside (a ++ ' ' :: sign ++ ' ' :: b) (some (combine before l, s)) r := by
  obtain ⟨ts, hts, hl⟩ := ha
  obtain ⟨ss, hss, hsign⟩ := hs
  obtain ⟨us, hus, hr⟩ := hb
  refine ⟨ts ++ ss ++ us, lexes_spaced (lexes_spaced hts hss) hus, fun frames => ?_⟩
  simp [List.foldlM_append, hl, hsign, hr]

theorem reads_bracket {s : Sign} (h : ReadsInside a (some (l, s)) r) :
    Reads ('(' :: (a ++ [')'])) (.binary s l r) := by
  obtain ⟨ts, hts, hr⟩ := h
  refine ⟨.left :: (ts ++ [.right]), lexes_open (lexes_close hts), fun frames => ?_⟩
  simp [List.foldlM_append, step, enter, hr, close, combine]

theorem reads_group (h : Reads a r) : Reads ('(' :: (a ++ [')'])) (.group r) := by
  obtain ⟨ts, hts, hr⟩ := h
  refine ⟨.left :: (ts ++ [.right]), lexes_open (lexes_close hts), fun frames => ?_⟩
  simp [List.foldlM_append, step, enter, hr, close]

end Brackets

section Signs

theorem readsSign_of_spelling {cs : List Char} {t : Token} {spelling : String} {s : Sign}
    (hl : Lexes cs [t])
    (ht : ∀ frames r, step ⟨frames, some r⟩ t = operate spelling ⟨frames, some r⟩)
    (hs : Sign.ofSpelling? spelling = some s) : ReadsSign cs s := by
  refine ⟨[t], hl, fun before l frames => ?_⟩
  simp [ht, operate, hs]

theorem readsSign_word {spelling : String} {s : Sign} (hw : isIdentifier spelling = true)
    (hs : Sign.ofSpelling? spelling = some s) : ReadsSign spelling.toList s :=
  readsSign_of_spelling (lexes_word hw) (fun _ _ => by simp [step, readWord]) hs

theorem readsSign_sign {spelling : String} {s : Sign} (hne : spelling.toList ≠ [])
    (hc : spelling.toList.all isSign = true) (hs : Sign.ofSpelling? spelling = some s) :
    ReadsSign spelling.toList s := by
  have hl := lexes_sign hne (List.all_eq_true.1 hc)
  rw [String.ofList_toList] at hl
  exact readsSign_of_spelling hl (fun _ _ => rfl) hs

theorem ofSpelling_sign (c : Connective) : Sign.ofSpelling? c.sign = some (.connective c) := by
  cases c <;> rfl

/-- A connective is a word, or made of characters that no word has. -/
theorem connective_chars (c : Connective) : isIdentifier c.sign = true
    ∨ (c.sign.toList ≠ [] ∧ c.sign.toList.all isSign = true) := by
  cases c with
  | and => exact .inl rfl
  | or => exact .inl rfl
  | _ => exact .inr ⟨List.cons_ne_nil _ _, rfl⟩

theorem readsSign_connective (c : Connective) : ReadsSign c.sign.toList (.connective c) := by
  rcases connective_chars c with h | ⟨hne, h⟩
  · exact readsSign_word h (ofSpelling_sign c)
  · exact readsSign_sign hne h (ofSpelling_sign c)

theorem readsSign_like : ReadsSign "LIKE".toList .like := readsSign_word rfl rfl

theorem readsSign_join : ReadsSign "||".toList .join :=
  readsSign_sign (List.cons_ne_nil _ _) rfl rfl

/-- The `not` behind an `is` belongs to the sign. -/
theorem readsSign_is (negated : Bool) :
    ReadsSign (if negated then "is not" else "is").toList (if negated then .isNot else .is) := by
  cases negated with
  | false => exact readsSign_word rfl rfl
  | true =>
    have his : isIdentifier "is" = true := rfl
    have hnot : isIdentifier "not" = true := rfl
    have hs : Sign.ofSpelling? "is" = some .is := rfl
    refine ⟨_, lexes_spaced (lexes_word his) (lexes_word hnot), fun before l frames => ?_⟩
    simp [step, readWord, operate, hs]

end Signs

section Calls

variable {a b : List Char} {r : Reading} {rs : List Reading}

theorem readsList_one (h : Reads a r) : ReadsList a [r] := by
  obtain ⟨ts, hts, hr⟩ := h
  refine ⟨ts, hts, fun name before frames => ?_⟩
  rw [hr]
  rfl

theorem readsList_cons (ha : Reads a r) (hb : ReadsList b rs) :
    ReadsList (a ++ ',' :: ' ' :: b) (r :: rs) := by
  obtain ⟨ts, hts, hr⟩ := ha
  obtain ⟨us, hus, hrs⟩ := hb
  refine ⟨ts ++ .comma :: us, lexes_comma hts hus, fun name before frames => ?_⟩
  have h := hrs name (before ++ [r]) frames
  rw [List.append_assoc, List.singleton_append] at h
  rw [List.foldlM_append, hr, ← h]
  rfl

theorem reads_call {name : String} (hn : isIdentifier name = true) (h : ReadsList a rs) :
    Reads (name.toList ++ '(' :: (a ++ [')'])) (.call name rs) := by
  obtain ⟨ts, hts, hrs⟩ := h
  refine ⟨.call name :: (ts ++ [.right]), lexes_call hn (lexes_close hts), fun frames => ?_⟩
  have h := hrs name [] frames
  rw [List.nil_append] at h
  rw [← h]
  simp [List.foldlM_append, step, enter]

theorem reads_call_nil {name : String} (hn : isIdentifier name = true) :
    Reads (name.toList ++ ['(', ')']) (.call name []) :=
  ⟨[.call name, .right], lexes_call hn (lexes_close lexes_nil), fun _ => rfl⟩

end Calls

section Pieces

/-- The characters of the text that the pieces make. -/
def chars (ps : List Piece) : List Char := (Query.ofPieces ps).text.toList

@[simp] theorem chars_nil : chars [] = [] := rfl

@[simp] theorem chars_text (s : String) (ps : List Piece) :
    chars (.text s :: ps) = s.toList ++ chars ps := by
  rw [chars, Query.ofPieces, String.toList_append, chars]

@[simp] theorem chars_bound (v : Value) (ps : List Piece) :
    chars (.bound v :: ps) = '?' :: chars ps := by
  rw [chars, Query.ofPieces, String.toList_append, chars]
  rfl

@[simp] theorem chars_append (ps qs : List Piece) : chars (ps ++ qs) = chars ps ++ chars qs := by
  rw [chars, Query.ofPieces_append, Query.append, String.toList_append, chars, chars]

theorem reads_bracketed {a b : List Piece} {l r : Reading} {s : Sign} {spelling middle : String}
    (ha : Reads (chars a) l) (hs : ReadsSign spelling.toList s)
    (hm : middle = " " ++ spelling ++ " ") (hb : Reads (chars b) r) :
    Reads (chars (Term.bracketed a middle b)) (.binary s l r) := by
  subst hm
  have h := reads_bracket (readsInside_sign (readsInside_of_reads ha) hs hb)
  simpa [Term.bracketed, combine] using h

theorem reads_grouped {a : List Piece} {r : Reading} (h : Reads (chars a) r) :
    Reads (chars (.text "(" :: a ++ [.text ")"])) (.group r) := by
  simpa using reads_group h

theorem reads_wildcard : Reads ['\x27', '%', '\x27'] (.text "%") := reads_text "%"

theorem reads_withWildcards (leading trailing : Bool) {a : List Piece} {r : Reading}
    (h : Reads (chars a) r) :
    Reads (chars (Term.withWildcards leading trailing a)) (Term.surrounded leading trailing r) := by
  have hinside := readsInside_of_reads h
  have hfront := readsInside_sign (readsInside_of_reads reads_wildcard) readsSign_join h
  cases leading <;> cases trailing
  · simpa [Term.withWildcards, Term.surrounded] using reads_group h
  · have h := reads_bracket (readsInside_sign hinside readsSign_join reads_wildcard)
    simpa [Term.withWildcards, Term.surrounded, combine] using h
  · simpa [Term.withWildcards, Term.surrounded, combine] using reads_bracket hfront
  · have h := reads_bracket (readsInside_sign hfront readsSign_join reads_wildcard)
    simpa [Term.withWildcards, Term.surrounded, combine] using h

theorem reads_bound (v : Value) : Reads (chars [.bound v]) .hole := by
  rw [chars_bound]
  exact reads_hole

theorem reads_value (inline : Bool) (v : Value) :
    Reads (chars [(Piece.bound v).written inline]) (Term.valueReading inline v) := by
  cases inline with
  | false => exact reads_bound v
  | true =>
    rw [Piece.written, if_pos rfl, Piece.inlined, Term.valueReading, if_pos rfl]
    rcases hs : literal? v with _ | s
    · exact reads_bound v
    · rw [chars_text, chars_nil, List.append_nil]
      rcases numeric_literal hs with ⟨t, rfl, rfl⟩ | ⟨ht, hne, hn⟩
      · exact reads_text t
      · rw [ht]
        exact reads_number hne hn

end Pieces

namespace Term

mutual

/-- A term is read as what it says, if the name of every call is an identifier. -/
theorem reads_emission (inline : Bool) : ∀ t : Term, t.callsHave isIdentifier = true →
    Reads (chars (t.emission inline)) (t.reading inline)
  | .column name, _ => by
    rw [emission_column, chars_text, chars_nil, List.append_nil, reading]
    exact reads_identifier name
  | .literal v, _ => by
    rw [emission_literal, reading]
    exact reads_value inline v
  | .binary c l r, h => by
    simp only [callsHave, Bool.and_eq_true] at h
    rw [emission_binary, reading]
    exact reads_bracketed (reads_emission inline l h.1) (readsSign_connective c) rfl
      (reads_emission inline r h.2)
  | .isNull negated t, h => by
    rw [callsHave] at h
    rw [emission_isNull, reading]
    refine reads_bracketed (reads_emission inline t h) (readsSign_is negated) ?_
      (reads_bound .null)
    cases negated <;> rfl
  | .like t p, h => by
    simp only [callsHave, Bool.and_eq_true] at h
    rw [emission_like, reading]
    exact reads_bracketed (reads_emission inline t h.1) readsSign_like rfl
      (reads_emission inline p h.2)
  | .equals t x, h => by
    simp only [callsHave, Bool.and_eq_true] at h
    rw [emission_equals, reading]
    exact reads_bracketed (reads_emission inline t h.1) (readsSign_connective .eq) rfl
      (reads_grouped (reads_emission inline x h.2))
  | .pattern leading trailing t, h => by
    rw [callsHave] at h
    rw [emission_pattern, reading]
    exact reads_withWildcards leading trailing (reads_emission inline t h)
  | .call name ts, h => by
    simp only [callsHave, Bool.and_eq_true] at h
    have hname := Text.isIdentifier_lowercase h.1
    have hlist := readsList_emissions inline ts h.2
    rw [emission_call, reading]
    by_cases hts : ts = []
    · subst hts
      simpa [Piece.separated, readings] using reads_call_nil hname
    · simpa using reads_call hname (hlist hts)

theorem readsList_emissions (inline : Bool) : ∀ ts : List Term,
    allCallsHave isIdentifier ts = true → ts ≠ [] →
    ReadsList (chars (Piece.separated ", " (ts.map (emission inline)))) (readings inline ts)
  | [], _ => fun h => absurd rfl h
  | t :: ts, h => by
    rw [allCallsHave, Bool.and_eq_true] at h
    have ht := reads_emission inline t h.1
    have hlist := readsList_emissions inline ts h.2
    intro _
    rw [readings]
    rcases ts with _ | ⟨u, ts⟩
    · exact readsList_one ht
    · simpa [Piece.separated] using readsList_cons ht (hlist (by simp))

end

end Term

end Sql

theorem Method.isIdentifier_name (k : Method) : isIdentifier k.name = true := by
  cases k <;> decide

/-- A condition is read back as what its filter asks for. -/
theorem parse_predicate (m : Model) (inline : Bool) (f : Filter) (q : Query)
    (hf : f.callsHave isIdentifier = true) (hq : m.predicate inline f = .ok q) :
    ∃ t, f.lower m = .ok t ∧ parse q.text = some (t.reading inline) := by
  rw [Model.predicate_eq_lower] at hq
  rcases ht : f.lower m with e | t <;> rw [ht] at hq
  · cases hq
  refine ⟨t, rfl, ?_⟩
  have hcalls := Filter.callsHave_lower Method.isIdentifier_name m f ht hf
  rw [← Except.ok.inj hq]
  exact parse_of_reads (Term.reads_emission inline t hcalls)

/-- The notes whose title has quotes and brackets in it, as if it were a condition of its own. -/
def noteTitleFilter : Filter :=
  .compare .eq (.field "title") (.value (.text "') or ('?' = '?"))

def noteTitleQuery : Query where
  text := "(\x22what\x22\x22?\x22 = ''') or (''?'' = ''?')"
  params := []

theorem parse_predicate_notes :
    parse noteTitleQuery.text = some (.binary (.connective .eq) (.column "what\x22?")
      (.text "') or ('?' = '?")) := by
  obtain ⟨t, ht, h⟩ := parse_predicate notes true noteTitleFilter noteTitleQuery
    (by decide +kernel) (by decide +kernel)
  have hlower : noteTitleFilter.lower notes = .ok (.binary .eq (.column "what\x22?")
      (.literal (.text "') or ('?' = '?"))) := by rfl
  rw [h, ← Except.ok.inj (hlower.symm.trans ht)]
  rfl

end RecordMap
