import RecordMap.Proofs.CallNames
import RecordMap.Proofs.Spelling

/-!
# Quoted regions

A text is read from left to right.  What stands between two single or two double quotes is a quoted
region, and a quote that is doubled in it stays in it; a question mark outside of every region is a
placeholder.  `Region.marked` tells the placeholders of a text from its other characters.

A closed text begins and ends outside of a region and has no placeholder.  A query put together from
pieces whose texts are closed has its placeholders where the pieces have them
(`marked_ofPieces`), and the texts of a term are closed (`closed_emission`).
-/

namespace RecordMap.Sql

inductive Quote
  | single
  | double
  deriving DecidableEq

def Quote.char : Quote → Char
  | .single => '\x27'
  | .double => '\x22'

inductive Region
  | outside
  | within (q : Quote)
  deriving DecidableEq

namespace Region

/-- Where the reading stands behind one more character, whatever follows. -/
def next : Region → Char → Region
  | .outside, c =>
    if c = Quote.single.char then .within .single
    else if c = Quote.double.char then .within .double
    else .outside
  | .within q, c => if c = q.char then .outside else .within q

theorem next_outside_quote (q : Quote) : outside.next q.char = .within q := by
  cases q <;> rfl

theorem next_within_quote (q : Quote) : (within q).next q.char = .outside := by simp [next]

theorem next_within_of_ne {q : Quote} {c : Char} (h : c ≠ q.char) :
    (within q).next c = .within q := by
  simp [next, h]

/-- The characters of a text, each with whether it is a placeholder. -/
def marked : Region → List Char → List (Char × Bool)
  | _, [] => []
  | .outside, c :: cs => (c, decide (c = '?')) :: marked (outside.next c) cs
  | .within _, [c] => [(c, false)]
  | .within q, c :: d :: cs =>
    if c = q.char ∧ d = q.char then (c, false) :: (d, false) :: marked (.within q) cs
    else (c, false) :: marked ((within q).next c) (d :: cs)

theorem marked_outside (c : Char) (cs : List Char) :
    marked .outside (c :: cs) = (c, decide (c = '?')) :: marked (outside.next c) cs := by
  rw [marked]

/-- A doubled quote closes its region and opens it again at once. -/
theorem marked_within (q : Quote) (c : Char) (cs : List Char) :
    marked (.within q) (c :: cs) = (c, false) :: marked ((within q).next c) cs := by
  cases cs with
  | nil => simp [marked]
  | cons d cs =>
    rw [marked]
    split_ifs with h
    · obtain ⟨rfl, rfl⟩ := h
      have hmark : decide (q.char = '?') = false := by cases q <;> rfl
      rw [next_within_quote, marked_outside, next_outside_quote, hmark]
    · rfl

end Region

open Region

/-- A text that leaves the reading outside of a region and has no placeholder. -/
def Closed (cs : List Char) : Prop :=
  ∀ rest, marked .outside (cs ++ rest) = cs.map (·, false) ++ marked .outside rest

theorem Closed.nil : Closed [] := fun _ => rfl

theorem Closed.append {a b : List Char} (ha : Closed a) (hb : Closed b) : Closed (a ++ b) := by
  intro rest
  rw [List.append_assoc, ha, hb, List.map_append, List.append_assoc]

theorem closed_cons {c : Char} {cs : List Char} (hc : isMark c = false) (h : Closed cs) :
    Closed (c :: cs) := by
  intro rest
  simp only [isMark, Bool.or_eq_false_iff, decide_eq_false_iff_not] at hc
  have hn : outside.next c = .outside := by
    simp [next, Quote.char, hc.1.2, hc.2]
  rw [List.cons_append, marked_outside, hn, h]
  simp [hc.1.1]

theorem closed_of_no_mark : ∀ {cs : List Char}, (∀ c ∈ cs, isMark c = false) → Closed cs
  | [], _ => Closed.nil
  | _ :: _, h => closed_cons (h _ List.mem_cons_self)
      (closed_of_no_mark fun d hd => h d (List.mem_cons_of_mem _ hd))

theorem closed_of_hasNoMark {s : String} (h : hasNoMark s = true) : Closed s.toList :=
  closed_of_no_mark fun c hc => by simpa using List.all_eq_true.1 h c hc

/-- Opening a region leads into it, and an opening quote is no placeholder. -/
theorem marked_opening (q : Quote) (cs : List Char) :
    marked .outside (q.char :: cs) = (q.char, false) :: marked (.within q) cs := by
  have hmark : decide (q.char = '?') = false := by cases q <;> rfl
  rw [marked_outside, next_outside_quote, hmark]

theorem marked_doubled (q : Quote) (rest : List Char) : ∀ cs : List Char,
    marked (.within q) (doubled q.char cs ++ q.char :: rest)
      = (doubled q.char cs).map (·, false) ++ (q.char, false) :: marked .outside rest
  | [] => by
    show marked (.within q) (q.char :: rest) = _
    rw [marked_within, next_within_quote]
    rfl
  | c :: cs => by
    have ih := marked_doubled q rest cs
    simp only [doubled, List.flatMap_cons, List.append_assoc, List.map_append] at ih ⊢
    split_ifs with hc
    · subst hc
      simp only [List.cons_append, List.nil_append, List.map_cons, List.map_nil]
      rw [marked_within, next_within_quote, marked_opening, ih]
    · simp only [List.cons_append, List.nil_append, List.map_cons, List.map_nil]
      rw [marked_within, next_within_of_ne hc, ih]

theorem closed_enclose (q : Quote) (cs : List Char) : Closed (enclose q.char cs) := by
  intro rest
  rw [enclose, List.append_assoc, List.cons_append, marked_opening, List.singleton_append,
    marked_doubled]
  simp

theorem no_mark_of_isNumeric {c : Char} (h : isNumeric c = true) : isMark c = false := by
  by_contra hm
  simp only [Bool.not_eq_false, isMark, Bool.or_eq_true, decide_eq_true_eq] at hm
  rcases hm with (rfl | rfl) | rfl <;> exact absurd h (by decide)

theorem no_mark_of_continuesName {c : Char} (h : continuesName c = true) : isMark c = false := by
  by_contra hm
  simp only [Bool.not_eq_false, isMark, Bool.or_eq_true, decide_eq_true_eq] at hm
  rcases hm with (rfl | rfl) | rfl <;> exact absurd h (by decide)

theorem isIdentifier_of_isPlain {name : String} (h : isPlain name = true) :
    isIdentifier name = true := by
  unfold isPlain at h
  unfold isIdentifier
  cases hn : name.toList with
  | nil => simp [hn] at h
  | cons c cs =>
    simp only [hn, Bool.and_eq_true] at h ⊢
    exact h.1

theorem continuesName_of_isIdentifier {name : String} (h : isIdentifier name = true) :
    ∀ c ∈ name.toList, continuesName c = true := by
  obtain ⟨c, cs, hn, hc, hcs⟩ := Text.isIdentifier_iff.1 h
  intro d hd
  rw [hn] at hd
  rcases List.mem_cons.1 hd with rfl | hd
  · exact Text.continuesName_of_startsName hc
  · exact hcs d hd

theorem closed_identifier (name : String) : Closed (identifier name).toList := by
  unfold identifier
  split_ifs with h
  · exact closed_of_no_mark fun c hc => no_mark_of_continuesName
      (continuesName_of_isIdentifier (isIdentifier_of_isPlain h) c hc)
  · rw [String.toList_ofList]
    exact closed_enclose .double name.toList

theorem closed_literal {v : Value} {s : String} (h : literal? v = some s) :
    Closed s.toList := by
  rcases numeric_literal h with ⟨t, -, rfl⟩ | ⟨-, -, hs⟩
  · rw [textLiteral, String.toList_ofList]
    exact closed_enclose .single t.toList
  · exact closed_of_no_mark fun c hc => no_mark_of_isNumeric (hs c hc)

namespace Piece

/-- The characters of the pieces, the placeholders being those of the bound values. -/
def marked : List Piece → List (Char × Bool)
  | [] => []
  | .text s :: ps => s.toList.map (·, false) ++ marked ps
  | .bound _ :: ps => ('?', true) :: marked ps

/-- Whether each text among the pieces is closed. -/
def AllClosed (ps : List Piece) : Prop := ∀ s, .text s ∈ ps → Closed s.toList

theorem allClosed_nil : AllClosed [] := fun _ h => absurd h List.not_mem_nil

theorem allClosed_text {s : String} {ps : List Piece} (hs : Closed s.toList)
    (h : AllClosed ps) : AllClosed (.text s :: ps) := by
  intro r hr
  rcases List.mem_cons.1 hr with hr | hr
  · rwa [Piece.text.inj hr]
  · exact h r hr

theorem allClosed_bound {v : Value} {ps : List Piece} (h : AllClosed ps) :
    AllClosed (.bound v :: ps) := by
  intro r hr
  rcases List.mem_cons.1 hr with hr | hr
  · cases hr
  · exact h r hr

theorem AllClosed.append {ps qs : List Piece} (hp : AllClosed ps) (hq : AllClosed qs) :
    AllClosed (ps ++ qs) := by
  intro r hr
  rcases List.mem_append.1 hr with hr | hr
  · exact hp r hr
  · exact hq r hr

theorem AllClosed.tail {p : Piece} {ps : List Piece} (h : AllClosed (p :: ps)) : AllClosed ps :=
  fun r hr => h r (List.mem_cons_of_mem _ hr)

theorem allClosed_separated {separator : String} (hs : Closed separator.toList) :
    ∀ {pss : List (List Piece)}, (∀ ps ∈ pss, AllClosed ps) → AllClosed (separated separator pss)
  | [], _ => allClosed_nil
  | [ps], h => h ps List.mem_cons_self
  | ps :: _ :: _, h => (h ps List.mem_cons_self).append
      (allClosed_text hs (allClosed_separated hs fun x hx => h x (List.mem_cons_of_mem _ hx)))

end Piece

open Piece

/-- The placeholders of a query are those of its pieces. -/
theorem marked_ofPieces : ∀ {ps : List Piece}, AllClosed ps →
    Region.marked .outside (Query.ofPieces ps).text.toList = Piece.marked ps
  | [], _ => rfl
  | .text s :: ps, h => by
    rw [Query.ofPieces, Piece.marked, String.toList_append, h s List.mem_cons_self,
      marked_ofPieces h.tail]
  | .bound v :: ps, h => by
    have hq : ("?" ++ (Query.ofPieces ps).text).toList = '?' :: (Query.ofPieces ps).text.toList :=
      String.toList_append
    rw [Query.ofPieces, Piece.marked, hq, marked_outside]
    exact congrArg (('?', true) :: ·) (marked_ofPieces h.tail)

namespace Term

theorem allClosed_bracketed {a b : List Piece} {middle : String} (ha : AllClosed a)
    (hm : hasNoMark middle = true) (hb : AllClosed b) : AllClosed (bracketed a middle b) :=
  AllClosed.append
    (allClosed_text (closed_of_hasNoMark rfl)
      (ha.append (allClosed_text (closed_of_hasNoMark hm) hb)))
    (allClosed_text (closed_of_hasNoMark rfl) allClosed_nil)

theorem closed_wildcard : Closed Query.wildcard.toList := closed_enclose .single ['%']

theorem allClosed_withWildcards {leading trailing : Bool} {ps : List Piece} (h : AllClosed ps) :
    AllClosed (withWildcards leading trailing ps) := by
  have hbar : Closed " || ".toList := closed_of_hasNoMark rfl
  have hfront : Closed "'%' || ".toList := closed_wildcard.append hbar
  have hback : Closed " || '%'".toList := hbar.append closed_wildcard
  refine AllClosed.append (allClosed_text (closed_of_hasNoMark rfl) ?_)
    (allClosed_text (closed_of_hasNoMark rfl) allClosed_nil)
  refine (AllClosed.append ?_ h).append ?_
  · split
    · exact allClosed_text hfront allClosed_nil
    · exact allClosed_nil
  · split
    · exact allClosed_text hback allClosed_nil
    · exact allClosed_nil

theorem hasNoMark_sign (c : Connective) : hasNoMark (" " ++ c.sign ++ " ") = true := by
  cases c <;> decide

mutual

/-- The texts of a term are closed, if no name of a call has a mark in it. -/
theorem closed_emission (inline : Bool) : ∀ (t : Term), t.callsHave hasNoMark = true →
    AllClosed (t.emission inline)
  | .column name, _ => by
    rw [emission_column]
    exact allClosed_text (closed_identifier name) allClosed_nil
  | .literal v, _ => by
    rw [emission_literal, Piece.written]
    split_ifs
    · rw [Piece.inlined]
      split
      · exact allClosed_text (closed_literal ‹_›) allClosed_nil
      · exact allClosed_bound allClosed_nil
    · exact allClosed_bound allClosed_nil
  | .binary c l r, h => by
    simp only [callsHave, Bool.and_eq_true] at h
    rw [emission_binary]
    exact allClosed_bracketed (closed_emission inline l h.1) (hasNoMark_sign c)
      (closed_emission inline r h.2)
  | .isNull negated t, h => by
    rw [callsHave] at h
    rw [emission_isNull]
    refine allClosed_bracketed (closed_emission inline t h) ?_ (allClosed_bound allClosed_nil)
    cases negated <;> decide
  | .like t p, h => by
    simp only [callsHave, Bool.and_eq_true] at h
    rw [emission_like]
    exact allClosed_bracketed (closed_emission inline t h.1) (by decide)
      (closed_emission inline p h.2)
  | .equals t x, h => by
    simp only [callsHave, Bool.and_eq_true] at h
    rw [emission_equals]
    refine allClosed_bracketed (closed_emission inline t h.1) (by decide) ?_
    exact AllClosed.append
      (allClosed_text (closed_of_hasNoMark rfl) (closed_emission inline x h.2))
      (allClosed_text (closed_of_hasNoMark rfl) allClosed_nil)
  | .pattern leading trailing t, h => by
    rw [callsHave] at h
    rw [emission_pattern]
    exact allClosed_withWildcards (closed_emission inline t h)
  | .call name ts, h => by
    simp only [callsHave, Bool.and_eq_true] at h
    rw [emission_call]
    have hname : Closed (Text.lowercase name ++ "(").toList := by
      rw [String.toList_append]
      exact (closed_of_hasNoMark (Text.hasNoMark_lowercase h.1)).append (closed_of_hasNoMark rfl)
    refine AllClosed.append (allClosed_text hname ?_)
      (allClosed_text (closed_of_hasNoMark rfl) allClosed_nil)
    refine allClosed_separated (closed_of_hasNoMark rfl) fun ps hps => ?_
    obtain ⟨t, ht, rfl⟩ := List.mem_map.1 hps
    exact closed_emissions inline ts h.2 t ht

theorem closed_emissions (inline : Bool) : ∀ (ts : List Term),
    allCallsHave hasNoMark ts = true → ∀ t ∈ ts, AllClosed (t.emission inline)
  | [], _ => fun _ ht => absurd ht List.not_mem_nil
  | t :: ts, h => by
    simp only [allCallsHave, Bool.and_eq_true] at h
    have ht := closed_emission inline t h.1
    have hts := closed_emissions inline ts h.2
    intro u hu
    rcases List.mem_cons.1 hu with rfl | hu
    · exact ht
    · exact hts u hu

end

end Term

end RecordMap.Sql

namespace RecordMap

open Sql

theorem Method.hasNoMark_name (k : Method) : hasNoMark k.name = true := by
  cases k <;> decide

/-- The texts of what a filter asks for are closed, if no unknown name of a call has a mark. -/
theorem Filter.closed_of_lower {m : Model} {f : Filter} {t : Term} (ht : f.lower m = .ok t)
    (hf : f.callsHave hasNoMark = true) (inline : Bool) : Piece.AllClosed (t.emission inline) :=
  Term.closed_emission inline t (callsHave_lower Method.hasNoMark_name m f ht hf)

end RecordMap
