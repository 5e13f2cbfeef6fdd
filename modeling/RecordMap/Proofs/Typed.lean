import RecordMap.Condition
import RecordMap.Proofs.Placeholders

/-!
# Conditions that always compile

A condition made of values, stored fields and the operators between them leaves a compiler nothing
to refuse: its operators all have a sign in SQL, null stands only where it can be tested for, and
what is to be found in a text is a text (`predicate_of_isRegular`).

What carries the proof is that an operand comes to a term of its own type (`Sql.Term.Fits`): if a
value is left of it, the value is one of the type, so it is never null.
-/

namespace RecordMap

open Sql

def Relation.isEquality : Relation → Bool
  | .eq | .ne => true
  | _ => false

def Operand.isAbsent {s : Scalar} : Operand s → Bool
  | .absent => true
  | _ => false

mutual

/-- Whether the operand is made of values and stored fields alone, and so has a value wherever its
fields have one. -/
def Operand.isRegular (m : Model) {s : Scalar} : Operand s → Bool
  | .value _ => true
  | .field name => m.stores name
  | .bitAnd l r | .bitOr l r => l.isRegular m && r.isRegular m
  | .condition c => c.isRegular m
  | .absent | .captured _ _ | .untyped _ | .converted _ | .call _ _ _ => false

/-- Whether the condition is about stored fields and regular operands.  An equality may also have
nothing on one of its sides, or on both. -/
def Condition.isRegular (m : Model) : Condition → Bool
  | .holds x => x.isRegular m
  | .compare field r x => m.stores field && (x.isRegular m || r.isEquality && x.isAbsent)
  | .isNull field | .isNotNull field => m.stores field
  | .equal l r | .notEqual l r =>
    (l.isRegular m || l.isAbsent) && (r.isRegular m || r.isAbsent)
  | .like field x | .contains field x | .startsWith field x | .endsWith field x
  | .equals field x => m.stores field && x.isRegular m
  | .and l r | .or l r => l.isRegular m && r.isRegular m

end

theorem Scalar.value_ne_null : ∀ (s : Scalar) (x : s.Carrier), s.value x ≠ .null
  | .bool, _ | .int _, _ | .single, _ | .double, _ | .text, _ | .timestamp, _ | .uuid, _
  | .bytes, _ => nofun

namespace Sql.Term

/-- Whether a term has values of the type: a literal is one itself, and of everything else the store
is to find the value. -/
def Fits (s : Scalar) : Term → Prop
  | .literal v => ∃ x, v = s.value x
  | _ => True

variable {s : Scalar} {l r t : Term}

theorem isNullLiteral_of_fits (h : t.Fits s) : t.isNullLiteral = false := by
  cases t with
  | literal v =>
    obtain ⟨x, rfl⟩ := h
    have hx := s.value_ne_null x
    unfold isNullLiteral
    split
    · next heq => exact absurd (Term.literal.inj heq) hx
    · rfl
  | _ => rfl

theorem compare_of_fits (c : Connective) (hl : l.Fits s) (hr : r.Fits s) :
    compare c l r = .ok (.binary c l r) := by
  simp only [compare, isNullLiteral_of_fits hl, isNullLiteral_of_fits hr, Bool.false_eq_true,
    if_false]

/-- Equality compares anything, null included. -/
theorem exists_compare_equality {q : Relation} (hq : q.isEquality = true) (l r : Term) :
    ∃ t, compare q.connective l r = .ok t ∧ t.Fits .bool := by
  have hnull : ∀ x, ∃ t, compareNull q.connective x = .ok t ∧ t.Fits .bool := by
    intro x
    cases q with
    | eq => exact ⟨.isNull false x, rfl, trivial⟩
    | ne => exact ⟨.isNull true x, rfl, trivial⟩
    | _ => cases hq
  unfold compare
  split_ifs
  · exact hnull r
  · exact hnull l
  · exact ⟨_, rfl, trivial⟩

/-- A text can be looked for with anything before or after it, and so can what the store is to find
a text in. -/
theorem exists_surround (m : Method) (leading trailing : Bool) (h : t.Fits .text) :
    ∃ u, surround m leading trailing t = .ok u := by
  cases t with
  | literal v =>
    obtain ⟨x, rfl⟩ := h
    exact ⟨_, rfl⟩
  | _ => exact ⟨_, rfl⟩

theorem exists_applyMethod (m : Method) (target : Term) (h : t.Fits .text) :
    ∃ u, applyMethod m target t = .ok u ∧ u.Fits .bool := by
  have hlike : ∀ leading trailing, ∃ u : Term,
      (surround m leading trailing t).map (Term.like target) = .ok u ∧ u.Fits .bool := by
    intro leading trailing
    obtain ⟨u, hu⟩ := exists_surround m leading trailing h
    exact ⟨.like target u, by rw [hu]; rfl, trivial⟩
  cases m with
  | like => exact ⟨_, rfl, trivial⟩
  | equals => exact ⟨_, rfl, trivial⟩
  | contains => exact hlike true true
  | startsWith => exact hlike false true
  | endsWith => exact hlike true false

end Sql.Term

namespace Filter

/-- Whether the filter comes to a term that fits the type. -/
def Yields (m : Model) (s : Scalar) (f : Filter) : Prop := ∃ t, f.lower m = .ok t ∧ t.Fits s

variable {m : Model} {name : String} {s : Scalar} {f g : Filter}

theorem exists_lower_field (h : m.stores name = true) :
    ∃ c, (Filter.field name).lower m = .ok (.column c) := by
  obtain ⟨c, hc⟩ := Model.exists_storedName h
  exact ⟨c, by rw [lower, hc]; rfl⟩

theorem yields_field (h : m.stores name = true) (s : Scalar) : (Filter.field name).Yields m s := by
  obtain ⟨c, hc⟩ := exists_lower_field h
  exact ⟨.column c, hc, trivial⟩

theorem lower_compare {c : Connective} {l r : Term} (hf : f.lower m = .ok l)
    (hg : g.lower m = .ok r) : (compare c f g).lower m = Term.compare c l r := by
  rw [compare, lower, hf, hg]
  rfl

/-- A sign between two operands of one type; what it gives may be of any. -/
theorem Yields.compare (hf : f.Yields m s) (hg : g.Yields m s) (c : Connective) (s' : Scalar) :
    (compare c f g).Yields m s' := by
  obtain ⟨l, hl, hls⟩ := hf
  obtain ⟨r, hr, hrs⟩ := hg
  rw [Yields, lower_compare hl hr, Term.compare_of_fits c hls hrs]
  exact ⟨_, rfl, trivial⟩

theorem yields_equality {q : Relation} (hq : q.isEquality = true) {l r : Term}
    (hf : f.lower m = .ok l) (hg : g.lower m = .ok r) :
    (Filter.compare q.connective f g).Yields m .bool := by
  rw [Yields, lower_compare hf hg]
  exact Term.exists_compare_equality hq l r

theorem Yields.onField (hf : f.Yields m .text) (h : m.stores name = true) (n : Method) :
    (Filter.onField name n f).Yields m .bool := by
  obtain ⟨c, hc⟩ := exists_lower_field h
  obtain ⟨t, ht, hts⟩ := hf
  have happly : (Filter.onField name n f).lower m = Term.apply n.name [.column c, t] := by
    rw [Filter.onField, lower, lowerAll, lowerAll, hc, ht]
    rfl
  rw [Yields, happly, Term.apply_method]
  exact Term.exists_applyMethod n _ hts

theorem Yields.like (hf : f.Yields m .text) (h : m.stores name = true) :
    (Filter.function Method.like.name [.field name, f]).Yields m .bool := by
  obtain ⟨c, hc⟩ := exists_lower_field h
  obtain ⟨t, ht, hts⟩ := hf
  have happly : (Filter.function Method.like.name [.field name, f]).lower m
      = Term.apply Method.like.name [.column c, t] := by
    rw [lower, lowerAll, lowerAll, lowerAll, hc, ht]
    rfl
  rw [Yields, happly, Term.apply_method]
  exact Term.exists_applyMethod .like _ hts

end Filter

theorem Operand.lower_of_isAbsent {s : Scalar} {x : Operand s} (h : x.isAbsent = true)
    (m : Model) : x.filter.lower m = .ok (.literal .null) := by
  cases x with
  | absent => rfl
  | _ => cases h

/-- A side of an equality has a term, be it null. -/
theorem Operand.exists_lower {m : Model} {s : Scalar} {x : Operand s} {b : Bool}
    (hx : b = true → x.filter.Yields m s) (h : (b || x.isAbsent) = true) :
    ∃ t, x.filter.lower m = .ok t := by
  rcases Bool.or_eq_true_iff.1 h with h | h
  · obtain ⟨t, ht, -⟩ := hx h
    exact ⟨t, ht⟩
  · exact ⟨_, lower_of_isAbsent h m⟩

section
variable {m : Model}

mutual

theorem Operand.yields : ∀ {s : Scalar} (x : Operand s), x.isRegular m = true →
    x.filter.Yields m s
  | _, .value x, _ => ⟨_, rfl, x, rfl⟩
  | s, .field name, h => Filter.yields_field h s
  | s, .bitAnd l r, h => by
    obtain ⟨hl, hr⟩ := Bool.and_eq_true_iff.1 h
    exact (l.yields hl).compare (r.yields hr) .bitAnd s
  | s, .bitOr l r, h => by
    obtain ⟨hl, hr⟩ := Bool.and_eq_true_iff.1 h
    exact (l.yields hl).compare (r.yields hr) .bitOr s
  | _, .condition c, h => c.yields h

theorem Condition.yields : ∀ c : Condition, c.isRegular m = true → c.filter.Yields m .bool
  | .holds x, h => x.yields h
  | .compare field q x, h => by
    obtain ⟨hfield, hx⟩ := Bool.and_eq_true_iff.1 h
    rcases Bool.or_eq_true_iff.1 hx with hx | hx
    · exact (Filter.yields_field hfield _).compare (x.yields hx) q.connective .bool
    · obtain ⟨c, hc⟩ := Filter.exists_lower_field hfield
      obtain ⟨hq, hx⟩ := Bool.and_eq_true_iff.1 hx
      exact Filter.yields_equality hq hc (Operand.lower_of_isAbsent hx m)
  | .isNull field, h => by
    obtain ⟨c, hc⟩ := Filter.exists_lower_field h
    exact Filter.yields_equality (show Relation.eq.isEquality = true from rfl) hc rfl
  | .isNotNull field, h => by
    obtain ⟨c, hc⟩ := Filter.exists_lower_field h
    exact Filter.yields_equality (show Relation.ne.isEquality = true from rfl) hc rfl
  | .equal l r, h => by
    obtain ⟨hl, hr⟩ := Bool.and_eq_true_iff.1 h
    obtain ⟨t, ht⟩ := Operand.exists_lower l.yields hl
    obtain ⟨u, hu⟩ := Operand.exists_lower r.yields hr
    exact Filter.yields_equality (show Relation.eq.isEquality = true from rfl) ht hu
  | .notEqual l r, h => by
    obtain ⟨hl, hr⟩ := Bool.and_eq_true_iff.1 h
    obtain ⟨t, ht⟩ := Operand.exists_lower l.yields hl
    obtain ⟨u, hu⟩ := Operand.exists_lower r.yields hr
    exact Filter.yields_equality (show Relation.ne.isEquality = true from rfl) ht hu
  | .like field x, h => by
    obtain ⟨hfield, hx⟩ := Bool.and_eq_true_iff.1 h
    exact (x.yields hx).like hfield
  | .contains field x, h => by
    obtain ⟨hfield, hx⟩ := Bool.and_eq_true_iff.1 h
    exact (x.yields hx).onField hfield .contains
  | .startsWith field x, h => by
    obtain ⟨hfield, hx⟩ := Bool.and_eq_true_iff.1 h
    exact (x.yields hx).onField hfield .startsWith
  | .endsWith field x, h => by
    obtain ⟨hfield, hx⟩ := Bool.and_eq_true_iff.1 h
    exact (x.yields hx).onField hfield .endsWith
  | .equals field x, h => by
    obtain ⟨hfield, hx⟩ := Bool.and_eq_true_iff.1 h
    exact (x.yields hx).onField hfield .equals
  | .and l r, h => by
    obtain ⟨hl, hr⟩ := Bool.and_eq_true_iff.1 h
    exact (l.yields hl).compare (r.yields hr) .and .bool
  | .or l r, h => by
    obtain ⟨hl, hr⟩ := Bool.and_eq_true_iff.1 h
    exact (l.yields hl).compare (r.yields hr) .or .bool

end

end

/-- A regular condition compiles, whether its literals stand in the text or are bound. -/
theorem predicate_of_isRegular (m : Model) (c : Condition) (h : c.isRegular m = true)
    (inline : Bool) : ∃ q, m.predicate inline c.filter = .ok q := by
  obtain ⟨t, ht, -⟩ := c.yields h
  rw [Model.predicate_eq_lower, ht]
  exact ⟨_, rfl⟩

/-- The notes with a title that begins with `100%`, and those with an odd number. -/
def noteCondition : Condition :=
  let one : Operand (.int .int64) := .value (Number.one .int64)
  let titled : Condition := .compare "title" .ne (.absent : Operand .text)
  .holds (.bitOr (.condition (.and titled (.startsWith "title" (.value "100%"))))
    (.condition (.equal (.bitAnd (.field "id") one) one)))

theorem predicate_of_isRegular_notes :
    noteCondition.isRegular notes = true ∧
    ∃ q, notes.predicate true noteCondition.filter = .ok q :=
  ⟨by decide +kernel, predicate_of_isRegular notes noteCondition (by decide +kernel) true⟩

end RecordMap
