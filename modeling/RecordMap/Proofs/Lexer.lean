import RecordMap.Proofs.Regions

/-!
# Tokens

A text in SQL is cut into tokens by an automaton over its characters.  A word, a number or a sign
goes on as long as it can, a quoted name or text up to the quote that is not doubled, and a word
with a bracket right behind it is the name of a call.

What is written for a condition is put together from parts that stay apart: behind each of them
comes a blank, a comma, a closing bracket or the end (`Breaks`), so the tokens of the whole are
those of its parts (`lexes_spaced`, `lexes_open`, `lexes_close`).
-/

namespace RecordMap.Sql

inductive Token
  | left
  | right
  | comma
  | hole
  | word (s : String)
  /-- The name of a call, with the bracket behind it. -/
  | call (s : String)
  | name (s : String)
  | text (s : String)
  | number (s : String)
  | sign (s : String)
  deriving DecidableEq

def Quote.token : Quote → String → Token
  | .single => .text
  | .double => .name

/-- What the automaton is in the middle of, and the characters of it that it has read. -/
inductive Lexing
  | idle
  | word (cs : List Char)
  | number (cs : List Char)
  | sign (cs : List Char)
  | quoted (q : Quote) (cs : List Char)
  /-- Behind a quote that closes the region, unless one more doubles it. -/
  | closing (q : Quote) (cs : List Char)
  deriving DecidableEq

def isSign (c : Char) : Bool :=
  c = '=' || c = '!' || c = '<' || c = '>' || c = '&' || c = '|'

namespace Lexing

/-- The step on a character that begins something new. -/
def start (c : Char) : Option (List Token × Lexing) :=
  if c = ' ' then some ([], .idle)
  else if c = '(' then some ([.left], .idle)
  else if c = ')' then some ([.right], .idle)
  else if c = ',' then some ([.comma], .idle)
  else if c = '?' then some ([.hole], .idle)
  else if c = Quote.single.char then some ([], .quoted .single [])
  else if c = Quote.double.char then some ([], .quoted .double [])
  else if startsName c then some ([], .word [c])
  else if isNumeric c then some ([], .number [c])
  else if isSign c then some ([], .sign [c])
  else none

/-- The step on a character behind the end of a token. -/
def startAfter (t : Token) (c : Char) : Option (List Token × Lexing) :=
  (start c).map fun r => (t :: r.1, r.2)

def step : Lexing → Char → Option (List Token × Lexing)
  | .idle, c => start c
  | .word cs, c =>
    if continuesName c then some ([], .word (cs ++ [c]))
    else if c = '(' then some ([.call (String.ofList cs)], .idle)
    else startAfter (.word (String.ofList cs)) c
  | .number cs, c =>
    if isNumeric c then some ([], .number (cs ++ [c]))
    else startAfter (.number (String.ofList cs)) c
  | .sign cs, c =>
    if isSign c then some ([], .sign (cs ++ [c]))
    else startAfter (.sign (String.ofList cs)) c
  | .quoted q cs, c =>
    if c = q.char then some ([], .closing q cs) else some ([], .quoted q (cs ++ [c]))
  | .closing q cs, c =>
    if c = q.char then some ([], .quoted q (cs ++ [c]))
    else startAfter (q.token (String.ofList cs)) c

/-- The tokens that end with the text. -/
def finish : Lexing → Option (List Token)
  | .idle => some []
  | .word cs => some [.word (String.ofList cs)]
  | .number cs => some [.number (String.ofList cs)]
  | .sign cs => some [.sign (String.ofList cs)]
  | .quoted _ _ => none
  | .closing q cs => some [q.token (String.ofList cs)]

def run : Lexing → List Char → Option (List Token)
  | s, [] => s.finish
  | s, c :: cs =>
    match s.step c with
    | some (ts, s') => (run s' cs).map (ts ++ ·)
    | none => none

end Lexing

def lex (text : String) : Option (List Token) := Lexing.idle.run text.toList

open Lexing

/-- The characters that may stand behind a token. -/
def isBreak (c : Char) : Bool := c = ' ' || c = ')' || c = ','

def Breaks : List Char → Prop
  | [] => True
  | c :: _ => isBreak c = true

/-- The characters `cs` are cut into `ts`, whatever follows behind a break. -/
def Lexes (cs : List Char) (ts : List Token) : Prop :=
  ∀ (rest : List Char) (us : List Token), Breaks rest → run .idle rest = some us →
    run .idle (cs ++ rest) = some (ts ++ us)

theorem run_cons {s : Lexing} (s' : Lexing) (ts : List Token) {c : Char}
    (h : s.step c = some (ts, s')) (cs : List Char) :
    run s (c :: cs) = (run s' cs).map (ts ++ ·) := by
  rw [run, h]

/-- The automaton goes on with what it is in the middle of. -/
theorem run_silent {s : Lexing} (s' : Lexing) {c : Char} (h : s.step c = some ([], s'))
    (cs : List Char) : run s (c :: cs) = run s' cs := by
  rw [run_cons s' [] h]
  simp

theorem isBreak_cases {c : Char} (h : isBreak c = true) : c = ' ' ∨ c = ')' ∨ c = ',' := by
  simpa [isBreak, or_assoc] using h

/-- A break ends a token. -/
theorem run_break {s : Lexing} {t : Token} (hs : s.finish = some [t])
    (hstep : ∀ c, isBreak c = true → s.step c = startAfter t c) {rest : List Char}
    {us : List Token} (hr : Breaks rest) (hus : run .idle rest = some us) :
    run s rest = some (t :: us) := by
  cases rest with
  | nil =>
    rw [run, finish] at hus
    rw [run, hs, ← Option.some.inj hus]
  | cons c cs =>
    rw [run] at hus ⊢
    rw [hstep c hr, startAfter]
    change (match start c with
      | some (ts, s') => (run s' cs).map (ts ++ ·)
      | none => none) = some us at hus
    rcases hc : start c with _ | ⟨ts, s'⟩ <;> rw [hc] at hus
    · cases hus
    · obtain ⟨vs, hvs, rfl⟩ := Option.map_eq_some_iff.1 hus
      simp [hvs]

/-- What goes on through the characters that satisfy `p` takes in all of them. -/
theorem run_through {mk : List Char → Lexing} {p : Char → Bool}
    (h : ∀ cs c, p c = true → (mk cs).step c = some ([], mk (cs ++ [c]))) (rest : List Char) :
    ∀ (cs before : List Char), (∀ c ∈ cs, p c = true) →
      run (mk before) (cs ++ rest) = run (mk (before ++ cs)) rest
  | [], before, _ => by rw [List.nil_append, List.append_nil]
  | c :: cs, before, hp => by
    rw [List.cons_append, run_silent (mk (before ++ [c])) (h before c (hp c List.mem_cons_self)),
      run_through h rest cs _ fun d hd => hp d (List.mem_cons_of_mem _ hd), List.append_assoc,
      List.singleton_append]

theorem run_quoted (q : Quote) (rest : List Char) : ∀ cs before : List Char,
    run (.quoted q before) (doubled q.char cs ++ q.char :: rest)
      = run (.closing q (before ++ cs)) rest
  | [], before => by
    rw [List.append_nil]
    exact run_silent (.closing q before) (by simp [step]) rest
  | c :: cs, before => by
    have ih := run_quoted q rest cs (before ++ [c])
    simp only [doubled, List.flatMap_cons, List.append_assoc, List.singleton_append] at ih ⊢
    split_ifs with hc
    · subst hc
      rw [List.cons_append, run_silent (.closing q before) (by simp [step]),
        List.cons_append, run_silent (.quoted q (before ++ [q.char])) (by simp [step]),
        List.nil_append, ih]
    · rw [List.cons_append, run_silent (.quoted q (before ++ [c])) (by simp [step, hc]),
        List.nil_append, ih]

section Starts

theorem start_of_startsName {c : Char} (h : startsName c = true) :
    start c = some ([], .word [c]) := by
  have hne : ∀ d, startsName d = false → c ≠ d := by
    rintro d hd rfl
    rw [h] at hd
    cases hd
  simp only [start, hne ' ' rfl, hne '(' rfl, hne ')' rfl, hne ',' rfl, hne '?' rfl,
    hne Quote.single.char rfl, hne Quote.double.char rfl, h, ↓reduceIte]

theorem startsName_of_isDigit {c : Char} (h : c.isDigit = true) : startsName c = false := by
  simp only [Char.isDigit, Bool.and_eq_true, decide_eq_true_eq, ge_iff_le,
    UInt32.le_iff_toNat_le] at h
  have h1 : 48 ≤ c.val.toNat := h.1
  have h2 : c.val.toNat ≤ 57 := h.2
  have hc : ¬ c = '_' := by
    rintro rfl
    exact absurd h2 (by decide)
  simp only [startsName, Char.isAlpha, Char.isUpper, Char.isLower, ge_iff_le,
    UInt32.le_iff_toNat_le, beq_eq_false_iff_ne.2 hc, Bool.or_false, Bool.or_eq_false_iff,
    Bool.and_eq_decide, decide_eq_true_eq, decide_eq_false_iff_not]
  exact ⟨fun h => absurd (Nat.le_trans h.1 h2) (by decide),
    fun h => absurd (Nat.le_trans h.1 h2) (by decide)⟩

theorem startsName_of_isNumeric {c : Char} (h : isNumeric c = true) : startsName c = false := by
  simp only [isNumeric, Bool.or_eq_true, decide_eq_true_eq] at h
  rcases h with (h | rfl) | rfl
  · exact startsName_of_isDigit h
  · rfl
  · rfl

theorem start_of_isNumeric {c : Char} (h : isNumeric c = true) :
    start c = some ([], .number [c]) := by
  have hne : ∀ d, isNumeric d = false → c ≠ d := by
    rintro d hd rfl
    rw [h] at hd
    cases hd
  simp only [start, hne ' ' rfl, hne '(' rfl, hne ')' rfl, hne ',' rfl, hne '?' rfl,
    hne Quote.single.char rfl, hne Quote.double.char rfl, startsName_of_isNumeric h, h, ↓reduceIte,
    Bool.false_eq_true]

theorem start_of_isSign {c : Char} (h : isSign c = true) : start c = some ([], .sign [c]) := by
  simp only [isSign, Bool.or_eq_true, decide_eq_true_eq] at h
  rcases h with ((((rfl | rfl) | rfl) | rfl) | rfl) | rfl <;> decide

end Starts

/-! ## The parts of a text -/

theorem lexes_nil : Lexes [] [] := fun _ _ _ hus => hus

theorem run_start {s : Lexing} {c : Char} (h : start c = some ([], s)) (cs : List Char) :
    run .idle (c :: cs) = run s cs := by
  have hs : step .idle c = some ([], s) := h
  exact run_silent s hs cs

/-- What begins with `c`, goes on through what satisfies `p` and ends at a break is one token. -/
theorem lexes_through (mk : List Char → Lexing) (t : List Char → Token) {p : Char → Bool}
    {c : Char} {cs : List Char} (hstart : start c = some ([], mk [c]))
    (hgo : ∀ ds d, p d = true → (mk ds).step d = some ([], mk (ds ++ [d])))
    (hend : ∀ ds d, isBreak d = true → (mk ds).step d = startAfter (t ds) d)
    (hfinish : ∀ ds, (mk ds).finish = some [t ds]) (hcs : ∀ d ∈ cs, p d = true) :
    Lexes (c :: cs) [t (c :: cs)] := by
  intro rest us hr hus
  rw [List.cons_append, run_start hstart, run_through hgo rest cs [c] hcs, List.singleton_append]
  exact run_break (hfinish _) (hend _) hr hus

theorem lexes_word {name : String} (h : isIdentifier name = true) :
    Lexes name.toList [.word name] := by
  obtain ⟨c, cs, hn, hc, hcs⟩ := Text.isIdentifier_iff.1 h
  have hname : name = String.ofList (c :: cs) := by rw [← hn, String.ofList_toList]
  rw [hn, hname]
  refine lexes_through .word (fun ds => .word (String.ofList ds))
    (start_of_startsName hc) (fun ds d hd => by simp [step, hd]) (fun ds d hd => ?_)
    (fun ds => rfl) hcs
  rcases isBreak_cases hd with rfl | rfl | rfl <;> rfl

theorem lexes_number {cs : List Char} (hne : cs ≠ []) (hcs : ∀ c ∈ cs, isNumeric c = true) :
    Lexes cs [.number (String.ofList cs)] := by
  obtain ⟨c, cs, rfl⟩ := List.exists_cons_of_ne_nil hne
  refine lexes_through .number (fun ds => .number (String.ofList ds))
    (start_of_isNumeric (hcs c List.mem_cons_self)) (fun ds d hd => by simp [step, hd])
    (fun ds d hd => ?_) (fun ds => rfl) fun d hd => hcs d (List.mem_cons_of_mem _ hd)
  rcases isBreak_cases hd with rfl | rfl | rfl <;> rfl

theorem lexes_sign {cs : List Char} (hne : cs ≠ []) (hcs : ∀ c ∈ cs, isSign c = true) :
    Lexes cs [.sign (String.ofList cs)] := by
  obtain ⟨c, cs, rfl⟩ := List.exists_cons_of_ne_nil hne
  refine lexes_through .sign (fun ds => .sign (String.ofList ds))
    (start_of_isSign (hcs c List.mem_cons_self)) (fun ds d hd => by simp [step, hd])
    (fun ds d hd => ?_) (fun ds => rfl) fun d hd => hcs d (List.mem_cons_of_mem _ hd)
  rcases isBreak_cases hd with rfl | rfl | rfl <;> rfl

theorem start_quote (q : Quote) : start q.char = some ([], .quoted q []) := by
  cases q <;> rfl

theorem lexes_quoted (q : Quote) (cs : List Char) :
    Lexes (enclose q.char cs) [q.token (String.ofList cs)] := by
  intro rest us hr hus
  rw [enclose, List.append_assoc, List.cons_append, run_start (start_quote q),
    List.singleton_append, run_quoted, List.nil_append]
  refine run_break rfl (fun d hd => ?_) hr hus
  have hq : ¬ d = q.char := by
    rcases isBreak_cases hd with rfl | rfl | rfl <;> cases q <;> decide
  simp [step, hq]

theorem lexes_hole : Lexes ['?'] [.hole] := by
  intro rest us _ hus
  rw [List.singleton_append, run_cons .idle [.hole] rfl, hus]
  rfl

theorem lexes_open {cs : List Char} {ts : List Token} (h : Lexes cs ts) :
    Lexes ('(' :: cs) (.left :: ts) := by
  intro rest us hr hus
  rw [List.cons_append, run_cons .idle [.left] rfl, h rest us hr hus]
  rfl

theorem lexes_call {name : String} {cs : List Char} {ts : List Token}
    (hn : isIdentifier name = true) (h : Lexes cs ts) :
    Lexes (name.toList ++ '(' :: cs) (.call name :: ts) := by
  obtain ⟨c, ds, hcs, hc, hds⟩ := Text.isIdentifier_iff.1 hn
  intro rest us hr hus
  have hname : String.ofList (c :: ds) = name := by rw [← hcs, String.ofList_toList]
  rw [hcs, List.append_assoc, List.cons_append, List.cons_append,
    run_start (start_of_startsName hc),
    run_through (fun es e he => by simp [step, he]) _ ds [c] hds, List.singleton_append,
    run_cons .idle [.call name] (by rw [← hname]; rfl), h rest us hr hus]
  rfl

theorem lexes_close {cs : List Char} {ts : List Token} (h : Lexes cs ts) :
    Lexes (cs ++ [')']) (ts ++ [.right]) := by
  intro rest us _ hus
  rw [List.append_assoc, List.append_assoc]
  refine h (')' :: rest) (.right :: us) rfl ?_
  rw [run_cons .idle [.right] rfl, hus]
  rfl

theorem lexes_spaced {a b : List Char} {ts us : List Token} (ha : Lexes a ts) (hb : Lexes b us) :
    Lexes (a ++ ' ' :: b) (ts ++ us) := by
  intro rest vs hr hvs
  rw [List.append_assoc, List.append_assoc]
  refine ha (' ' :: (b ++ rest)) (us ++ vs) rfl ?_
  rw [run_silent .idle rfl, hb rest vs hr hvs]

theorem lexes_comma {a b : List Char} {ts us : List Token} (ha : Lexes a ts) (hb : Lexes b us) :
    Lexes (a ++ ',' :: ' ' :: b) (ts ++ .comma :: us) := by
  intro rest vs hr hvs
  rw [List.append_assoc, List.append_assoc]
  refine ha (',' :: ' ' :: (b ++ rest)) (.comma :: (us ++ vs)) rfl ?_
  rw [run_cons .idle [.comma] rfl, run_silent .idle rfl, hb rest vs hr hvs]
  rfl

end RecordMap.Sql
