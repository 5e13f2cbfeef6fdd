import RecordMap.Proofs.Constants
import RecordMap.Proofs.Operands

/-!
# Expressions

A condition comes to a store as a text and the values that are bound in it.  What it says is the
expression that is left once its literals are read as constants and each placeholder has its value
(`Reading.express`).

A filter with its literals in the text and the same filter with all of them bound say the same, but
for the places where the one has a constant and the other the value for which it stands
(`Term.exists_alike`).  Which constants stand for a value is a matter of the place: two is not the
same as a real two, unless it is compared with something (`Constant.StandsFor`).
-/

namespace RecordMap

open Sql

/-- The places where a constant can stand.  In a comparison with a number it is its number that
matters, and with a column of reals the real that this number is rounded to.  A column of texts or
bytes may have the constant taken for a text or bytes. -/
inductive Place
  | anywhere
  | number
  | real
  deriving DecidableEq

def SqlType.place : SqlType → Place
  | .integer | .bigInt => .number
  | .float => .real
  | .varChar _ | .blob => .anywhere

/-- The place of what is compared with a column. -/
def Model.place (m : Model) (name : String) : Place :=
  ((m.stored.find? (·.name = name)).bind Column.sqlType).elim .anywhere SqlType.place

namespace Sql

def Sign.isComparison : Sign → Bool
  | .connective c => c.isComparison
  | .like | .is | .isNot | .join => false

/-- The constant may stand for the stored value in this place.  In a comparison it is enough to be
the same number, if it is not so large that another number is rounded to it; and a store that rounds
what it compares with reals takes a number for the real nearest to it. -/
inductive Constant.StandsFor (rounds : Bool) : Place → Constant → Stored → Prop
  | same {place : Place} {c : Constant} {raw : Stored} (h : c.Is raw) :
    StandsFor rounds place c raw
  | number {place : Place} {negative : Bool} {n : ℕ} {k : ℤ} {x : Magnitude .double}
    (hplace : place ≠ .anywhere) (h : (n * 10 ^ k : ℚ) = x.toRat)
    (hsmall : rounds = true → x.toRat < 2 ^ 53) :
    StandsFor rounds place (.number negative n k) (.real (.finite negative x))
  | rounded {negative : Bool} {n : ℕ} {k : ℤ} {x : Magnitude .double} (hrounds : rounds = true)
    (h : x.IsRounding (n * 10 ^ k)) :
    StandsFor rounds .real (.number negative n k) (.real (.finite negative x))

/-- What a condition says. -/
inductive Expression
  | column (name : String)
  | constant (c : Constant)
  | value (raw : Stored)
  | group (inner : Expression)
  | binary (s : Sign) (left right : Expression)
  | call (name : String) (arguments : List Expression)

namespace Reading

mutual

/-- What is said with these values in the placeholders, and the values that are left. -/
def express : Reading → List Stored → Option (Expression × List Stored)
  | .column name, ps => some (.column name, ps)
  | .text s, ps => some (.constant (.text s), ps)
  | .number s, ps => (Constant.read? s).map fun c => (.constant c, ps)
  | .hole, [] => none
  | .hole, p :: ps => some (.value p, ps)
  | .group r, ps => do
    let (e, ps) ← express r ps
    return (.group e, ps)
  | .binary s l r, ps => do
    let (a, ps) ← express l ps
    let (b, ps) ← express r ps
    return (.binary s a b, ps)
  | .call name rs, ps => do
    let (es, ps) ← expressAll rs ps
    return (.call name es, ps)

def expressAll : List Reading → List Stored → Option (List Expression × List Stored)
  | [], ps => some ([], ps)
  | r :: rs, ps => do
    let (e, ps) ← express r ps
    let (es, ps) ← expressAll rs ps
    return (e :: es, ps)

end

end Reading

namespace Expression

/-- The place of what is compared with the expression. -/
def across (m : Model) : Expression → Place
  | .column name => m.place name
  | .group e => e.across m
  | .constant _ | .value _ | .binary .. | .call .. => .number

/-- The place on the other side of a sign. -/
def opposite (m : Model) (s : Sign) (operand : Expression) : Place :=
  if s.isComparison then operand.across m else .anywhere

mutual

/-- The expressions are the same, but for constants in the one that stand for values in the other. -/
inductive Alike (m : Model) (rounds : Bool) : Place → Expression → Expression → Prop
  | refl (place : Place) (e : Expression) : Alike m rounds place e e
  | literal {place : Place} {c : Constant} {raw : Stored} (h : c.StandsFor rounds place raw) :
    Alike m rounds place (.constant c) (.value raw)
  | group {place : Place} {e e' : Expression} (h : Alike m rounds place e e') :
    Alike m rounds place (.group e) (.group e')
  | binary {place : Place} {s : Sign} {l l' r r' : Expression}
    (hl : Alike m rounds (r.opposite m s) l l') (hr : Alike m rounds (l.opposite m s) r r') :
    Alike m rounds place (.binary s l r) (.binary s l' r')
  | call {place : Place} {name : String} {es es' : List Expression}
    (h : AllAlike m rounds es es') : Alike m rounds place (.call name es) (.call name es')

inductive AllAlike (m : Model) (rounds : Bool) : List Expression → List Expression → Prop
  | nil : AllAlike m rounds [] []
  | cons {e e' : Expression} {es es' : List Expression} (h : Alike m rounds .anywhere e e')
    (hs : AllAlike m rounds es es') : AllAlike m rounds (e :: es) (e' :: es')

end

/-- What is alike anywhere is alike in every place. -/
theorem Alike.of_anywhere {m : Model} {rounds : Bool} {place : Place} :
    ∀ {e e' : Expression}, e.Alike m rounds .anywhere e' → e.Alike m rounds place e'
  | _, _, .refl _ e => .refl _ e
  | _, _, .literal (.same h) => .literal (.same h)
  | _, _, .literal (.number hplace _ _) => absurd rfl hplace
  | _, _, .group h => .group h.of_anywhere
  | _, _, .binary hl hr => .binary hl hr
  | _, _, .call h => .call h

end Expression

/-! ## What a reading says -/

namespace Reading

/-- The reading takes just these values and says `e`. -/
def Says (r : Reading) (ps : List Stored) (e : Expression) : Prop :=
  ∀ rest, r.express (ps ++ rest) = some (e, rest)

def AllSay (rs : List Reading) (ps : List Stored) (es : List Expression) : Prop :=
  ∀ rest, expressAll rs (ps ++ rest) = some (es, rest)

section Says

variable {r l : Reading} {rs : List Reading} {ps qs : List Stored} {a b e : Expression}
  {es : List Expression}

theorem says_column (name : String) : (column name).Says [] (.column name) := fun _ => rfl

theorem says_text (s : String) : (text s).Says [] (.constant (.text s)) := fun _ => rfl

theorem says_number {s : String} {c : Constant} (h : Constant.read? s = some c) :
    (number s).Says [] (.constant c) := fun rest => by
  rw [express, h]
  rfl

theorem says_hole (p : Stored) : hole.Says [p] (.value p) := fun _ => rfl

theorem Says.group (h : r.Says ps e) : r.group.Says ps e.group := fun rest => by
  rw [express, h]
  rfl

theorem Says.binary (s : Sign) (hl : l.Says ps a) (hr : r.Says qs b) :
    (Reading.binary s l r).Says (ps ++ qs) (.binary s a b) := fun rest => by
  rw [express, List.append_assoc, hl]
  simp [hr rest]

theorem Says.call (name : String) (h : AllSay rs ps es) :
    (Reading.call name rs).Says ps (.call name es) := fun rest => by
  rw [express, h]
  rfl

theorem allSay_nil : AllSay [] [] [] := fun _ => rfl

theorem AllSay.cons (h : r.Says ps e) (hs : AllSay rs qs es) :
    AllSay (r :: rs) (ps ++ qs) (e :: es) := fun rest => by
  rw [expressAll, List.append_assoc, h]
  simp [hs rest]

end Says

end Reading

/-! ## What a term says -/

namespace Term

/-- The place of what is compared with the term. -/
def across (m : Model) : Term → Place
  | .column name => m.place name
  | .pattern false false t => t.across m
  | .pattern .. | .literal _ | .binary .. | .isNull .. | .like .. | .equals .. | .call .. => .number

/-- The place on the other side of a connective. -/
def opposite (m : Model) (c : Connective) (operand : Term) : Place :=
  if c.isComparison then operand.across m else .anywhere

mutual

/-- Every value in the term can be stored, and its literal stands for what is stored of it. -/
def IsSpelled (m : Model) (rounds : Bool) : Place → Term → Prop
  | _, .column _ => True
  | place, .literal v => v.IsSpelled (Constant.StandsFor rounds place)
  | _, .binary c l r => IsSpelled m rounds (r.opposite m c) l ∧ IsSpelled m rounds (l.opposite m c) r
  | _, .isNull _ t => IsSpelled m rounds .anywhere t
  | _, .like t p => IsSpelled m rounds .anywhere t ∧ IsSpelled m rounds .anywhere p
  | _, .equals t x =>
    IsSpelled m rounds (x.opposite m .eq) t ∧ IsSpelled m rounds (t.opposite m .eq) x
  | _, .pattern _ _ t => IsSpelled m rounds .anywhere t
  | _, .call _ ts => AllSpelled m rounds ts

def AllSpelled (m : Model) (rounds : Bool) : List Term → Prop
  | [] => True
  | t :: ts => IsSpelled m rounds .anywhere t ∧ AllSpelled m rounds ts

end

/-- What the term says once it is written in this mode and its values are stored. -/
def Says (inline : Bool) (t : Term) (e : Expression) : Prop :=
  ∃ ps, (t.params inline).mapM Value.stored = .ok ps ∧ (t.reading inline).Says ps e

def AllSay (inline : Bool) (ts : List Term) (es : List Expression) : Prop :=
  ∃ ps, (ts.flatMap (params inline)).mapM Value.stored = .ok ps ∧
    Reading.AllSay (readings inline ts) ps es

theorem mapM_stored_append {vs ws : List Value} {ps qs : List Stored}
    (hps : vs.mapM Value.stored = .ok ps) (hqs : ws.mapM Value.stored = .ok qs) :
    (vs ++ ws).mapM Value.stored = .ok (ps ++ qs) := by
  rw [Outcome.mapM_eq_ok_iff] at hps hqs ⊢
  rw [List.map_append, List.map_append, hps, hqs]

section Says

variable {inline : Bool} {t l r : Term} {a b e : Expression} {es : List Expression}
  {ts : List Term}

theorem says_column (name : String) : (column name).Says inline (.column name) :=
  ⟨[], by rw [params_column]; rfl, Reading.says_column name⟩

theorem Says.binary (c : Connective) (hl : l.Says inline a) (hr : r.Says inline b) :
    (Term.binary c l r).Says inline (.binary (.connective c) a b) := by
  obtain ⟨ps, hps, ha⟩ := hl
  obtain ⟨qs, hqs, hb⟩ := hr
  exact ⟨ps ++ qs, by rw [params_binary]; exact mapM_stored_append hps hqs, ha.binary _ hb⟩

theorem Says.isNull (negated : Bool) (h : t.Says inline e) :
    (Term.isNull negated t).Says inline
      (.binary (if negated then .isNot else .is) e (.value .null)) := by
  obtain ⟨ps, hps, he⟩ := h
  refine ⟨ps ++ [.null], ?_, he.binary _ (Reading.says_hole .null)⟩
  rw [params_isNull]
  exact mapM_stored_append hps rfl

theorem Says.like (hl : l.Says inline a) (hr : r.Says inline b) :
    (Term.like l r).Says inline (.binary .like a b) := by
  obtain ⟨ps, hps, ha⟩ := hl
  obtain ⟨qs, hqs, hb⟩ := hr
  exact ⟨ps ++ qs, by rw [params_like]; exact mapM_stored_append hps hqs, ha.binary _ hb⟩

theorem Says.equals (hl : l.Says inline a) (hr : r.Says inline b) :
    (Term.equals l r).Says inline (.binary (.connective .eq) a (.group b)) := by
  obtain ⟨ps, hps, ha⟩ := hl
  obtain ⟨qs, hqs, hb⟩ := hr
  exact ⟨ps ++ qs, by rw [params_equals]; exact mapM_stored_append hps hqs, ha.binary _ hb.group⟩

/-- An expression with wildcards joined to it. -/
def surroundedExpression (leading trailing : Bool) (e : Expression) : Expression :=
  let wildcard : Expression := .constant (.text "%")
  match leading, trailing with
  | true, true => .binary .join (.binary .join wildcard e) wildcard
  | true, false => .binary .join wildcard e
  | false, true => .binary .join e wildcard
  | false, false => .group e

theorem Says.pattern (leading trailing : Bool) (h : t.Says inline e) :
    (Term.pattern leading trailing t).Says inline (surroundedExpression leading trailing e) := by
  obtain ⟨ps, hps, he⟩ := h
  have hwildcard := Reading.says_text "%"
  have hfront := hwildcard.binary .join he
  have hback := he.binary .join hwildcard
  have hboth := hfront.binary .join hwildcard
  rw [List.append_nil] at hback hboth
  refine ⟨ps, by rw [params_pattern]; exact hps, ?_⟩
  rw [reading]
  cases leading <;> cases trailing
  · exact he.group
  · exact hback
  · exact hfront
  · exact hboth

theorem Says.call (name : String) (h : AllSay inline ts es) :
    (Term.call name ts).Says inline (.call (Text.lowercase name) es) := by
  obtain ⟨ps, hps, hes⟩ := h
  exact ⟨ps, by rw [params_call]; exact hps, Reading.Says.call _ hes⟩

theorem AllSay.nil : AllSay inline [] [] := ⟨[], rfl, Reading.allSay_nil⟩

theorem AllSay.cons (h : t.Says inline e) (hs : AllSay inline ts es) :
    AllSay inline (t :: ts) (e :: es) := by
  obtain ⟨ps, hps, he⟩ := h
  obtain ⟨qs, hqs, hes⟩ := hs
  refine ⟨ps ++ qs, ?_, Reading.AllSay.cons he hes⟩
  rw [List.flatMap_cons]
  exact mapM_stored_append hps hqs

/-- A value says the constant that its literal is, or what is stored of it. -/
theorem exists_says_literal {standsFor : Constant → Stored → Prop} {v : Value}
    (h : v.IsSpelled standsFor) : ∃ e raw, (literal v).Says true e ∧
      (literal v).Says false (.value raw) ∧
      (e = .value raw ∨ ∃ c, e = .constant c ∧ standsFor c raw) := by
  obtain ⟨raw, hraw, hliteral⟩ := h
  have hstored : [v].mapM Value.stored = .ok [raw] := by
    rw [Outcome.mapM_eq_ok_iff, List.map_singleton, List.map_singleton, hraw]
  have hbound : (literal v).Says false (.value raw) := ⟨[raw], hstored, Reading.says_hole raw⟩
  rcases hs : literal? v with _ | s
  · refine ⟨.value raw, raw, ⟨[raw], ?_, ?_⟩, hbound, .inl rfl⟩
    · rw [params, emission_literal, Piece.written, if_pos rfl, Piece.inlined, hs]
      exact hstored
    · rw [reading, valueReading, if_pos rfl, hs]
      exact Reading.says_hole raw
  · obtain ⟨c, hread, hc⟩ := hliteral s hs
    refine ⟨.constant c, raw, ⟨[], ?_, ?_⟩, hbound, .inr ⟨c, rfl, hc⟩⟩
    · rw [params, emission_literal, Piece.written, if_pos rfl, Piece.inlined, hs]
      rfl
    · rw [reading, valueReading, if_pos rfl, hs]
      rcases numeric_literal hs with ⟨t, rfl, rfl⟩ | ⟨ht, -, -⟩
      · rw [Constant.read?_text] at hread
        cases hread
        exact Reading.says_text t
      · rw [ht]
        exact Reading.says_number hread

end Says

section Alike

variable {m : Model} {rounds : Bool}

theorem opposite_eq {t : Term} {e : Expression} (c : Connective) (h : e.across m = t.across m) :
    e.opposite m (.connective c) = t.opposite m c := by
  rw [Expression.opposite, opposite, h]
  rfl

/-- Between wildcards the two stay alike. -/
theorem alike_surrounded {place : Place} (leading trailing : Bool) {e e' : Expression}
    (h : e.Alike m rounds .anywhere e') :
    (surroundedExpression leading trailing e).Alike m rounds place
      (surroundedExpression leading trailing e') := by
  cases leading <;> cases trailing
  · exact .group h.of_anywhere
  · exact .binary h (.refl _ _)
  · exact .binary (.refl _ _) h.of_anywhere
  · exact .binary (.binary (.refl _ _) h.of_anywhere) (.refl _ _)

mutual

/-- With literals and without, a term says the same up to literals that stand for values. -/
theorem exists_alike : ∀ {place : Place} {t : Term}, t.IsSpelled m rounds place →
    ∃ e e', t.Says true e ∧ t.Says false e' ∧ e.Alike m rounds place e' ∧
      e.across m = t.across m
  | place, .column name, _ => ⟨_, _, says_column name, says_column name, .refl _ _, rfl⟩
  | place, .literal v, h => by
    rw [IsSpelled] at h
    obtain ⟨e, raw, he, he', rfl | ⟨c, rfl, hc⟩⟩ := exists_says_literal h
    · exact ⟨_, _, he, he', .refl _ _, rfl⟩
    · exact ⟨_, _, he, he', .literal hc, rfl⟩
  | place, .binary c l r, h => by
    rw [IsSpelled] at h
    obtain ⟨a, a', ha, ha', hl, hla⟩ := exists_alike h.1
    obtain ⟨b, b', hb, hb', hr, hrb⟩ := exists_alike h.2
    refine ⟨_, _, ha.binary c hb, ha'.binary c hb', .binary ?_ ?_, rfl⟩
    · rwa [opposite_eq c hrb]
    · rwa [opposite_eq c hla]
  | place, .isNull negated t, h => by
    rw [IsSpelled] at h
    obtain ⟨e, e', he, he', halike, -⟩ := exists_alike h
    refine ⟨_, _, he.isNull negated, he'.isNull negated, .binary ?_ (.refl _ _), rfl⟩
    cases negated <;> exact halike
  | place, .like t p, h => by
    rw [IsSpelled] at h
    obtain ⟨a, a', ha, ha', hl, -⟩ := exists_alike h.1
    obtain ⟨b, b', hb, hb', hr, -⟩ := exists_alike h.2
    exact ⟨_, _, ha.like hb, ha'.like hb', .binary hl hr, rfl⟩
  | place, .equals t x, h => by
    rw [IsSpelled] at h
    obtain ⟨a, a', ha, ha', hl, hla⟩ := exists_alike h.1
    obtain ⟨b, b', hb, hb', hr, hrb⟩ := exists_alike h.2
    refine ⟨_, _, ha.equals hb, ha'.equals hb', .binary ?_ (.group ?_), rfl⟩
    · exact opposite_eq .eq hrb ▸ hl
    · rwa [opposite_eq .eq hla]
  | place, .pattern leading trailing t, h => by
    rw [IsSpelled] at h
    obtain ⟨e, e', he, he', halike, hacross⟩ := exists_alike h
    refine ⟨_, _, he.pattern leading trailing, he'.pattern leading trailing,
      alike_surrounded leading trailing halike, ?_⟩
    cases leading <;> cases trailing
    · exact hacross
    all_goals rfl
  | place, .call name ts, h => by
    rw [IsSpelled] at h
    obtain ⟨es, es', hes, hes', halike⟩ := exists_allAlike h
    exact ⟨_, _, Says.call name hes, Says.call name hes', .call halike, rfl⟩

theorem exists_allAlike : ∀ {ts : List Term}, AllSpelled m rounds ts →
    ∃ es es', AllSay true ts es ∧ AllSay false ts es' ∧ Expression.AllAlike m rounds es es'
  | [], _ => ⟨[], [], AllSay.nil, AllSay.nil, .nil⟩
  | t :: ts, h => by
    rw [AllSpelled] at h
    obtain ⟨e, e', he, he', halike, -⟩ := exists_alike h.1
    obtain ⟨es, es', hes, hes', hall⟩ := exists_allAlike h.2
    exact ⟨_, _, AllSay.cons he hes, AllSay.cons he' hes', .cons halike hall⟩

end

end Alike

end Term

end Sql

/-! ## Doubles in comparisons -/

namespace Value

variable {negative : Bool} {x : Magnitude .double}

theorem isSpelled_double {standsFor : Constant → Stored → Prop}
    (h : ∀ (n : ℕ) (k : ℤ), x.IsRounding (n * 10 ^ k) →
      standsFor (.number negative n k) (.real (.finite negative x))) :
    (Value.double (.finite negative x)).IsSpelled standsFor := by
  obtain ⟨n, k, hread, hc⟩ := exists_constant_double negative x
  rcases hc with _ | _ | hrounding
  refine ⟨_, rfl, fun s hs => ⟨_, ?_, h n k hrounding⟩⟩
  cases hs
  exact hread

/-- In a comparison a double may be whole where all whole numbers are doubles. -/
theorem isSpelled_compared {place : Place} (hplace : place ≠ .anywhere) (rounds : Bool)
    (hx : x.toRat < 2 ^ 53) :
    (Value.double (.finite negative x)).IsSpelled (Constant.StandsFor rounds place) := by
  refine isSpelled_double fun n k hrounding => ?_
  cases hinteger : (Constant.number negative n k).isInteger with
  | false => exact .same ⟨.real hrounding, hinteger, rfl⟩
  | true =>
    rw [Constant.isInteger, Bool.and_eq_true, decide_eq_true_eq] at hinteger
    rw [hinteger.1, zpow_zero, mul_one] at hrounding
    refine .number hplace ?_ fun _ => hx
    rw [hinteger.1, zpow_zero, mul_one, hrounding.eq_of_lt (by decide) (by decide) hx]

/-- In a comparison with a column of reals, any double will do for a store that rounds. -/
theorem isSpelled_compared_real :
    (Value.double (.finite negative x)).IsSpelled (Constant.StandsFor true .real) :=
  isSpelled_double fun _ _ hrounding => .rounded rfl hrounding

end Value

end RecordMap
