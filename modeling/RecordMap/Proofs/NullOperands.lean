import Mathlib.Data.List.Infix
import RecordMap.Proofs.Nodes
import RecordMap.Proofs.Operands

/-!
# Nulls as operands

In SQL nothing is equal to null, so a comparison with null is written as a test for null, wherever
it stands in a filter and in whatever way its operand comes to null.

A call of `Equals` is written as an equality as well, but nothing looks for nulls in its operands.
That is the only way for a null to become an operand of a connective (`predicate_nullOperands`).
-/

namespace RecordMap

open Sql

namespace Sql.Term

theorem infix_bracketed_left (a b : List Piece) (middle : String) :
    a <:+: bracketed a middle b :=
  ⟨[.text "("], .text middle :: b ++ [.text ")"], by simp [bracketed]⟩

theorem infix_bracketed_right (a b : List Piece) (middle : String) :
    b <:+: bracketed a middle b :=
  ⟨.text "(" :: a ++ [.text middle], [.text ")"], by simp [bracketed]⟩

theorem infix_withWildcards (leading trailing : Bool) (a : List Piece) :
    a <:+: withWildcards leading trailing a :=
  ⟨_, _, (List.append_assoc _ _ _).symm⟩

theorem infix_separated (separator : String) {ps : List Piece} :
    ∀ {pss : List (List Piece)}, ps ∈ pss → ps <:+: Piece.separated separator pss
  | [qs], h => by
    obtain rfl := List.mem_singleton.1 h
    exact List.infix_rfl
  | qs :: rs :: rest, h => by
    rcases List.mem_cons.1 h with rfl | h
    · exact ⟨[], _, rfl⟩
    · exact (infix_separated separator h).trans ⟨qs ++ [.text separator], [], by
        simp [Piece.separated]⟩

/-- The terms that a term is made of. -/
def operands : Term → List Term
  | .column _ | .literal _ => []
  | .binary _ l r => [l, r]
  | .isNull _ t | .pattern _ _ t => [t]
  | .like t p => [t, p]
  | .equals t x => [t, x]
  | .call _ ts => ts

/-- The text of a term has in it the text of each term that it is made of. -/
theorem emission_infix_of_mem_operands (inline : Bool) {t u : Term} (h : u ∈ t.operands) :
    u.emission inline <:+: t.emission inline := by
  have hpair : ∀ {x y : Term}, u ∈ [x, y] → u = x ∨ u = y := by simp
  cases t with
  | column name => cases h
  | literal v => cases h
  | binary c l r =>
    rw [emission_binary]
    rcases hpair h with rfl | rfl
    · exact infix_bracketed_left _ _ _
    · exact infix_bracketed_right _ _ _
  | isNull negated t =>
    obtain rfl := List.mem_singleton.1 h
    rw [emission_isNull]
    exact infix_bracketed_left _ _ _
  | like t p =>
    rw [emission_like]
    rcases hpair h with rfl | rfl
    · exact infix_bracketed_left _ _ _
    · exact infix_bracketed_right _ _ _
  | equals t x =>
    rw [emission_equals]
    rcases hpair h with rfl | rfl
    · exact infix_bracketed_left _ _ _
    · exact List.IsInfix.trans ⟨[_], [_], rfl⟩ (infix_bracketed_right _ _ _)
  | pattern leading trailing t =>
    obtain rfl := List.mem_singleton.1 h
    rw [emission_pattern]
    exact infix_withWildcards _ _ _
  | call name ts =>
    rw [emission_call]
    exact (infix_separated _ (List.mem_map_of_mem h)).trans ⟨[_], [_], rfl⟩

theorem exists_append_of_infix {ps qs : List Piece} (h : ps <:+: qs) :
    ∃ before after : Query, Query.ofPieces qs
      = (before.append (Query.ofPieces ps)).append after := by
  obtain ⟨front, back, rfl⟩ := h
  exact ⟨.ofPieces front, .ofPieces back, by
    rw [Query.ofPieces_append, Query.ofPieces_append]⟩

end Sql.Term

namespace Filter

/-- The filter is a call of `Equals` with null among its operands. -/
def EquatesNull (f : Filter) : Prop :=
  ∃ xs, f.call? = some (Method.equals.name, xs) ∧ ∃ x ∈ xs, x.settled? = some .null

variable {m : Model} {inline : Bool} {f x : Filter} {t u : Term}

theorem equatesNull_iff {name : String} {xs : List Filter} (h : f.call? = some (name, xs)) :
    f.EquatesNull ↔ name = Method.equals.name ∧ ∃ x ∈ xs, x.settled? = some .null := by
  constructor
  · rintro ⟨ys, hys, hnull⟩
    obtain ⟨rfl, rfl⟩ := Prod.mk.inj (Option.some.inj (h.symm.trans hys))
    exact ⟨rfl, hnull⟩
  · rintro ⟨rfl, hnull⟩
    exact ⟨xs, h, hnull⟩

theorem not_equatesNull (h : f.call? = none) : ¬ f.EquatesNull := by
  rintro ⟨xs, hxs, -⟩
  rw [h] at hxs
  cases hxs

theorem not_equatesNull_of_call {name : String} {xs : List Filter} (h : f.call? = some (name, xs))
    (hname : xs = [] ∨ Method.ofName? name = none) : ¬ f.EquatesNull := by
  rw [equatesNull_iff h]
  rintro ⟨rfl, x, hx, -⟩
  rcases hname with rfl | hname
  · cases hx
  · cases hname

/-- Wildcards are put around the operand of a call, and around nothing else. -/
theorem ne_pattern_of_lower : ∀ (f : Filter) {t : Term}, f.lower m = .ok t →
    ∀ leading trailing x, t ≠ .pattern leading trailing x := by
  refine of_children fun f ih t h leading trailing x => ?_
  cases makes_of_lower h with
  | unconverted hf => exact ih _ List.mem_cons_self hf leading trailing x
  | method hf hx hy ht =>
    rcases Term.applyMethod_cases ht with ⟨-, rfl⟩ | ⟨-, rfl⟩ | ⟨_, _, _, -, -, rfl⟩ <;> nofun
  | _ => nofun

theorem null_mem_operand (h : f.lower m = .ok t) :
    .null ∈ t.operand inline ↔ f.settled? = some .null := by
  rw [Term.null_mem_operand (ne_pattern_of_lower f h), ← Term.value?_eq_some, value?_of_lower h]

/-- A null stands under a connective just where one is given to `Equals`. -/
theorem null_mem_compared : ∀ (f : Filter) {t : Term}, f.lower m = .ok t →
    (.null ∈ t.compared inline ↔ ∃ g ∈ f.nodes, g.EquatesNull) := by
  refine of_children fun f ih t h => ?_
  rw [exists_mem_nodes]
  have hpair : ∀ {P : Filter → Prop} {l r : Filter}, (∃ x ∈ [l, r], P x) ↔ P l ∨ P r := by simp
  have hone : ∀ {P : Filter → Prop} {x : Filter}, (∃ y ∈ [x], P y) ↔ P x := by simp
  cases makes_of_lower h with
  | value v => simp [Term.compared_literal, children, not_equatesNull (f := .value v) rfl]
  | field hc => simp [Term.compared_column, children, not_equatesNull (f := .field _) rfl]
  | isNull hl hr hc hx =>
    have ihl := ih _ List.mem_cons_self hl
    have ihr := ih _ (List.mem_cons_of_mem _ List.mem_cons_self) hr
    rw [or_iff_right (not_equatesNull rfl), Term.compared_isNull, children, hpair, ← ihl, ← ihr]
    rcases hx with ⟨rfl, rfl⟩ | ⟨rfl, rfl⟩ <;> simp [Term.compared_literal]
  | binary hl hr hl' hr' =>
    have ihl := ih _ List.mem_cons_self hl
    have ihr := ih _ (List.mem_cons_of_mem _ List.mem_cons_self) hr
    have hleft : .null ∉ Term.operand inline _ :=
      mt (Term.null_mem_operand (ne_pattern_of_lower _ hl)).1 hl'
    have hright : .null ∉ Term.operand inline _ :=
      mt (Term.null_mem_operand (ne_pattern_of_lower _ hr)).1 hr'
    rw [or_iff_right (not_equatesNull rfl), Term.compared_binary, children, hpair, ← ihl, ← ihr]
    simp [hleft, hright]
  | captured hf =>
    rw [or_iff_right (not_equatesNull rfl), children, hone, ← ih _ List.mem_cons_self hf]
  | converted hf hw =>
    rw [or_iff_right (not_equatesNull rfl), children, hone, ← ih _ List.mem_cons_self hf,
      Term.compared_literal, Term.compared_literal]
  | unconverted hf ht =>
    rw [or_iff_right (not_equatesNull rfl), children, hone, ← ih _ List.mem_cons_self hf]
  | @call _ name xs ts hf hts hname =>
    rw [children_of_call? hf] at ih ⊢
    rw [or_iff_right (not_equatesNull_of_call hf hname), Term.compared_call, List.mem_flatMap]
    constructor
    · rintro ⟨u, hu, hnull⟩
      obtain ⟨x, hx, hxu⟩ := Outcome.exists_of_mem_mapM hts u hu
      exact ⟨x, hx, (ih x hx hxu).1 hnull⟩
    · rintro ⟨x, hx, hnull⟩
      obtain ⟨u, hu, hxu⟩ := Outcome.exists_mem_zip_of_mapM hts hx
      exact ⟨u, (List.of_mem_zip hu).2, (ih x hx hxu).2 hnull⟩
  | @method _ x y k x' y' _ hf hx hy ht =>
    rw [equatesNull_iff hf]
    rw [children_of_call? hf] at ih ⊢
    have ihx := ih x (by simp) hx
    have ihy := ih y (by simp) hy
    rcases Term.applyMethod_cases ht with ⟨rfl, rfl⟩ | ⟨rfl, rfl⟩ | ⟨_, _, p, hw, hp, rfl⟩
    · simp [Term.compared_like, ihx, ihy, Method.name]
    · simp [Term.compared_equals, ihx, ihy, null_mem_operand hx, null_mem_operand hy, or_assoc]
    · have hne : k.name ≠ Method.equals.name := by
        cases k with
        | equals => cases hw
        | _ => decide
      simp [Term.compared_like, Term.compared_of_surround hp, ihx, ihy, hne]

/-- A comparison with null is a test for null of its other side. -/
theorem isNull_of_lower_compare {c : Connective} {l r : Filter}
    (h : (compare c l r).lower m = .ok t)
    (hx : l.settled? = some .null ∧ x = r ∨ r.settled? = some .null ∧ x = l) :
    ∃ negated u, c = Term.nullConnective negated ∧ x.lower m = .ok u ∧ t = .isNull negated u := by
  cases makes_of_lower h with
  | isNull hl hr hc hnull =>
    refine ⟨_, _, hc, ?_, rfl⟩
    rcases hx with ⟨hnull', rfl⟩ | ⟨hnull', rfl⟩
    · obtain rfl := lower_eq_literal hl hnull'
      rcases hnull with ⟨-, rfl⟩ | ⟨rfl, rfl⟩
      · exact hr
      · exact hr
    · obtain rfl := lower_eq_literal hr hnull'
      rcases hnull with ⟨rfl, rfl⟩ | ⟨-, rfl⟩
      · exact hl
      · exact hl
  | binary hl hr hl' hr' =>
    rcases hx with ⟨hnull, -⟩ | ⟨hnull, -⟩
    · exact absurd (lower_eq_literal hl hnull) hl'
    · exact absurd (lower_eq_literal hr hnull) hr'
  | call hf => cases hf
  | method hf => cases hf

/-- What is not a value has its text in that of the filter above it. -/
theorem emission_infix_of_mem_children (inline : Bool) (h : f.lower m = .ok t)
    (hx : x ∈ f.children) (hu : x.lower m = .ok u) (hs : x.settled? = none) :
    u.emission inline <:+: t.emission inline := by
  have hvalue : ∀ v, u ≠ .literal v := by
    rintro v rfl
    cases (value?_of_lower hu).trans hs
  have hterm : ∀ {u'}, x.lower m = .ok u' → u' = u := fun hu' => Except.ok.inj (hu'.symm.trans hu)
  have hpair : ∀ {y z y' z'}, x ∈ [y, z] → y.lower m = .ok y' → z.lower m = .ok z' →
      u = y' ∨ u = z' := by
    intro y z y' z' hx hy hz
    rcases List.mem_cons.1 hx with rfl | hx
    · exact .inl (hterm hy).symm
    · exact .inr (hterm (List.mem_singleton.1 hx ▸ hz)).symm
  cases makes_of_lower h with
  | value v => cases hx
  | field hc => cases hx
  | isNull hl hr hc hnull =>
    refine Term.emission_infix_of_mem_operands inline (List.mem_singleton.2 ?_)
    rcases hpair hx hl hr with rfl | rfl
    · exact ((hnull.resolve_left fun h => hvalue _ h.1).2).symm
    · exact ((hnull.resolve_right fun h => hvalue _ h.1).2).symm
  | binary hl hr hl' hr' =>
    refine Term.emission_infix_of_mem_operands inline ?_
    rcases hpair hx hl hr with rfl | rfl <;> simp [Term.operands]
  | captured hf =>
    obtain rfl := List.mem_singleton.1 hx
    exact absurd (hterm hf).symm (hvalue _)
  | converted hf hw =>
    obtain rfl := List.mem_singleton.1 hx
    exact absurd (hterm hf).symm (hvalue _)
  | unconverted hf ht =>
    obtain rfl := List.mem_singleton.1 hx
    rw [hterm hf]
  | call hf hts hname =>
    rw [children_of_call? hf] at hx
    obtain ⟨u', hmem, hu'⟩ := Outcome.exists_mem_zip_of_mapM hts hx
    obtain rfl := hterm hu'
    exact Term.emission_infix_of_mem_operands inline (List.of_mem_zip hmem).2
  | @method _ y z k y' z' _ hf hy hz ht =>
    rw [children_of_call? hf] at hx
    rcases Term.applyMethod_cases ht with ⟨-, rfl⟩ | ⟨-, rfl⟩ | ⟨leading, trailing, p, -, hp, rfl⟩
    · refine Term.emission_infix_of_mem_operands inline ?_
      rcases hpair hx hy hz with rfl | rfl <;> simp [Term.operands]
    · refine Term.emission_infix_of_mem_operands inline ?_
      rcases hpair hx hy hz with rfl | rfl <;> simp [Term.operands]
    · have hlike : ∀ {w}, w ∈ [y', p] → w.emission inline <:+: (Term.like y' p).emission inline :=
        fun hw => Term.emission_infix_of_mem_operands (t := .like y' p) inline hw
      rcases hpair hx hy hz with rfl | rfl
      · exact hlike List.mem_cons_self
      · -- what the pattern is made of is two steps below the term
        rcases Term.surround_cases hp with ⟨v, _, hv, -, -⟩ | ⟨-, rfl⟩
        · exact absurd hv (hvalue v)
        · exact (Term.emission_infix_of_mem_operands inline (List.mem_singleton.2 rfl)).trans
            (hlike (List.mem_cons_of_mem _ List.mem_cons_self))

theorem isSome_settled?_of_mem_nodes (h : f.settled?.isSome = true) :
    ∀ g ∈ f.nodes, g.settled?.isSome = true := by
  refine of_mem_nodes (P := fun g => g.settled?.isSome = true) (fun g hg => ?_) h
  cases g with
  | value v => exact List.forall_mem_nil _
  | captured name x => exact List.forall_mem_singleton.2 hg
  | convert x ty =>
    rw [settled?] at hg
    exact List.forall_mem_singleton.2 (Option.isSome_of_isSome_bind hg)
  | _ => cases hg

theorem emission_infix_of_mem_nodes (inline : Bool) : ∀ (f : Filter) {t : Term},
    f.lower m = .ok t → ∀ g ∈ f.nodes, g.settled? = none → ∀ u, g.lower m = .ok u →
      u.emission inline <:+: t.emission inline := by
  refine of_children fun f ih t h g hg hs u hu => ?_
  rcases mem_nodes_cases hg with rfl | ⟨x, hx, hg⟩
  · rw [Except.ok.inj (hu.symm.trans h)]
  · obtain ⟨v, hv⟩ := exists_lower_of_mem_children h x hx
    rcases hsettled : x.settled? with _ | w
    · exact (ih x hx hv g hg hs u hu).trans (emission_infix_of_mem_children inline h hx hv hsettled)
    · have hg' := isSome_settled?_of_mem_nodes (hsettled ▸ rfl) g hg
      rw [hs] at hg'
      cases hg'

end Filter

/-- A comparison with null is written as a test for null, wherever it stands in a filter.  A null
stands under a connective in the text just where the filter calls `Equals` with a null. -/
theorem predicate_nullOperands (m : Model) (inline : Bool) (f : Filter) (q : Query)
    (hq : m.predicate inline f = .ok q) :
    (∃ t, f.lower m = .ok t ∧ q = Query.ofPieces (t.emission inline) ∧
      (f.callsHave isIdentifier = true → parse q.text = some (t.reading inline)) ∧
      (t.reading inline).holes = q.params.length ∧
      (.null ∈ (t.reading inline).compared q.params ↔ ∃ g ∈ f.nodes, g.EquatesNull)) ∧
    ∀ c l r x, Filter.compare c l r ∈ f.nodes →
      (l.settled? = some .null ∧ x = r ∨ r.settled? = some .null ∧ x = l) →
      ∃ (negated : Bool) (p before after : Query), c = Term.nullConnective negated ∧
        m.predicate inline x = .ok p ∧ q = (before.append (p.isNull negated)).append after := by
  obtain ⟨t, ht, rfl⟩ := Model.predicate_eq_ok_iff.1 hq
  refine ⟨⟨t, ht, rfl, fun hf => ?_, Term.holes_reading inline t, Filter.null_mem_compared f ht⟩,
    fun c l r x hmem hx => ?_⟩
  · exact parse_of_reads (Term.reads_emission inline t
      (Filter.callsHave_lower Method.isIdentifier_name m f ht hf))
  · obtain ⟨u, hu⟩ := Filter.exists_lower_of_mem_nodes ht _ hmem
    obtain ⟨before, after, htext⟩ := Term.exists_append_of_infix
      (Filter.emission_infix_of_mem_nodes inline f ht _ hmem rfl u hu)
    obtain ⟨negated, x', hc, hx', rfl⟩ := Filter.isNull_of_lower_compare hu hx
    refine ⟨negated, _, before, after, hc, Model.predicate_eq_ok_iff.2 ⟨x', hx', rfl⟩, ?_⟩
    rw [htext, Query.isNull_ofPieces, Term.emission_isNull]

theorem predicate_nullOperands_notes :
    (∃ r, parse noteQuery.text = some r ∧ .null ∉ r.compared noteQuery.params) ∧
    ∃ before after : Query,
      noteQuery = (before.append ⟨"(\x22what\x22\x22?\x22 is ?)", [.null]⟩).append after := by
  have hq : notes.predicate false noteFilter = .ok noteQuery := by decide +kernel
  obtain ⟨⟨t, -, -, hparse, -, hnull⟩, hcompare⟩ :=
    predicate_nullOperands notes false noteFilter noteQuery hq
  refine ⟨⟨_, hparse (by decide +kernel), mt hnull.1 ?_⟩, ?_⟩
  · simp [noteFilter, Filter.compare, Filter.null, Filter.nodes, Filter.allNodes,
      Filter.EquatesNull, Filter.call?, Method.name]
  · obtain ⟨negated, p, before, after, hc, hp, htext⟩ :=
      hcompare .eq .null (.field "title") (.field "title")
        (by simp [noteFilter, Filter.compare, Filter.nodes]) (.inl ⟨rfl, rfl⟩)
    have htitle : notes.predicate false (.field "title")
        = .ok ⟨"\x22what\x22\x22?\x22", []⟩ := by decide +kernel
    obtain rfl := Except.ok.inj (hp.symm.trans htitle)
    cases negated with
    | false => exact ⟨before, after, htext⟩
    | true => cases hc

/-- The notes whose title equals null, asked for by a call.  No row is ever one of them. -/
def noteUntitledFilter : Filter := .method (.field "title") Method.equals.name [.null]

def noteUntitledQuery : Query where
  text := "(\x22what\x22\x22?\x22 = (?))"
  params := [.null]

/-- Not every comparison with null is written as a test for null. -/
theorem not_predicate_nullOperands :
    notes.predicate true noteUntitledFilter = .ok noteUntitledQuery ∧
    ∃ r, parse noteUntitledQuery.text = some r ∧ .null ∈ r.compared noteUntitledQuery.params := by
  refine ⟨by decide +kernel,
    .binary (.connective .eq) (.column "what\x22?") (.group .hole), by rfl, ?_⟩
  simp [noteUntitledQuery, Reading.compared, Reading.holes, Reading.operand, Reading.bare,
    Sign.isConnective]

end RecordMap
