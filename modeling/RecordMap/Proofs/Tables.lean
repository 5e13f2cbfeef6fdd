import RecordMap.Proofs.Comparisons
import RecordMap.Row
import RecordMap.Session

/-!
# A store that evaluates conditions

A table reads the condition of a selection from its text, takes the values for its placeholders and
evaluates it on each of its rows (`Table.select`).

So a table cannot tell two conditions apart that say the same up to literals which stand for values
(`Expression.eval_of_alike`).
-/

namespace RecordMap

open Sql

def Stored.className : Stored → String
  | .null => "null"
  | .integer _ => "integer"
  | .real _ => "real"
  | .text _ => "text"
  | .blob _ => "blob"

namespace Sql

namespace Table

def operate (rounds : Bool) : Sign → Stored → Stored → Stored
  | .connective .and, a, b => .ofBool (a = .ofBool true && b = .ofBool true)
  | .connective .or, a, b => .ofBool (a = .ofBool true || b = .ofBool true)
  | .connective .bitAnd, _, _ | .connective .bitOr, _, _ => .null
  | .connective c, a, b => relate rounds c a b
  | .is, a, b => .ofBool (a = b)
  | .isNot, a, b => .ofBool (a ≠ b)
  | .like, _, _ | .join, _, _ => .null

/-- What a condition is about on a row.  The only function tells the class of a value. -/
def meaning (rounds : Bool) (row : Row) : Meaning where
  column name := (row.get? name).getD .null
  number s := ((Constant.read? s).map Constant.stored).getD .null
  sign := operate rounds
  call name arguments :=
    match name, arguments with
    | "typeof", [a] => .text a.className
    | _, _ => .null

/-- The condition in the text of a selection. -/
def condition? (m : Model) (text : String) : Option String := do
  let rest ← ("SELECT * FROM " ++ identifier m.table ++ " WHERE ").toList.isPrefixOf? text.toList
  let condition ← [';'].isSuffixOf? rest
  return String.ofList condition

/-- The rows on which the condition of a selection comes to be true. -/
def select (rounds : Bool) (m : Model) (rows : List Row) (r : Request) : Option (List Row) := do
  let condition ← condition? m r.text
  let x ← parse condition
  return rows.filter fun row => x.eval (meaning rounds row) r.params = some (.ofBool true, [])

/-- The answers of a store that has the rows in its only table. -/
def answer (rounds : Bool) (m : Model) (rows : List Row) : (c : Call) → Unit → c.Answer × Unit
  | .connect, s => (.ok (), s)
  | .execute _, s => (.ok 0, s)
  | .insert _, s => (.ok (Number.one _), s)
  | .query r, s =>
    (match select rounds m rows r with
      | some found => .ok found
      | none => Outcome.fail (.backend (some r.text) ⟨"syntax error", []⟩), s)
  | .close, s => ((), s)

/-- No integers are in columns of reals. -/
def HoldsReals (m : Model) (row : Row) : Prop :=
  ∀ c ∈ m.stored, c.sqlType = some .float → ∀ i, row.get? c.name ≠ some (.integer i)

/-- What stands between two operands that are compared relates them. -/
theorem exists_relate {s : Sign} (hs : s.isComparison = true) :
    ∃ c, ∀ (rounds : Bool) (row : Row) (a b : Stored),
      (meaning rounds row).operate s a b = relate rounds c a b := by
  cases s with
  | connective c => cases c <;> first | exact ⟨_, fun _ _ _ _ => rfl⟩ | cases hs
  | _ => cases hs

end Table

namespace Expression

mutual

/-- What an expression comes to. -/
def eval (M : Meaning) : Expression → Stored
  | .column name => M.column name
  | .constant c => c.stored
  | .value raw => raw
  | .group e => eval M e
  | .binary s l r => M.operate s (eval M l) (eval M r)
  | .call name es => M.call name (evalAll M es)

def evalAll (M : Meaning) : List Expression → List Stored
  | [] => []
  | e :: es => eval M e :: evalAll M es

end

mutual

/-- A reading comes to what it says, if the store takes numbers for what they say. -/
theorem eval_of_express {M : Meaning}
    (hM : ∀ s c, Constant.read? s = some c → M.number s = c.stored) :
    ∀ {r : Reading} {ps rest : List Stored} {e : Expression},
      r.express ps = some (e, rest) → r.eval M ps = some (e.eval M, rest)
  | .column name, ps, rest, e, h => by
    cases h
    rfl
  | .text s, ps, rest, e, h => by
    cases h
    rfl
  | .number s, ps, rest, e, h => by
    rw [Reading.express, Option.map_eq_some_iff] at h
    obtain ⟨c, hread, hc⟩ := h
    cases hc
    rw [Reading.eval, hM s c hread, eval]
  | .hole, [], rest, e, h => by cases h
  | .hole, p :: ps, rest, e, h => by
    cases h
    rfl
  | .group r, ps, rest, e, h => by
    rw [Reading.express] at h
    obtain ⟨⟨a, ps'⟩, hr, h⟩ := Option.bind_eq_some_iff.1 h
    cases h
    rw [Reading.eval, eval_of_express hM hr, eval]
  | .binary s l r, ps, rest, e, h => by
    rw [Reading.express] at h
    obtain ⟨⟨a, ps'⟩, hl, h⟩ := Option.bind_eq_some_iff.1 h
    obtain ⟨⟨b, ps''⟩, hr, h⟩ := Option.bind_eq_some_iff.1 h
    cases h
    rw [eval]
    exact Reading.eval_binary_eq_some (eval_of_express hM hl) (eval_of_express hM hr)
  | .call name rs, ps, rest, e, h => by
    rw [Reading.express] at h
    obtain ⟨⟨es, ps'⟩, hrs, h⟩ := Option.bind_eq_some_iff.1 h
    cases h
    rw [Reading.eval, evalAll_of_expressAll hM hrs, eval]
    rfl

theorem evalAll_of_expressAll {M : Meaning}
    (hM : ∀ s c, Constant.read? s = some c → M.number s = c.stored) :
    ∀ {rs : List Reading} {ps rest : List Stored} {es : List Expression},
      Reading.expressAll rs ps = some (es, rest) →
        Reading.evalAll M rs ps = some (evalAll M es, rest)
  | [], ps, rest, es, h => by
    cases h
    rfl
  | r :: rs, ps, rest, es, h => by
    rw [Reading.expressAll] at h
    obtain ⟨⟨e, ps'⟩, hr, h⟩ := Option.bind_eq_some_iff.1 h
    obtain ⟨⟨es', ps''⟩, hrs, h⟩ := Option.bind_eq_some_iff.1 h
    cases h
    rw [Reading.evalAll, eval_of_express hM hr, evalAll]
    simp [evalAll_of_expressAll hM hrs]

end

section Alike

variable {m : Model} {rounds : Bool} {row : Row}

theorem column_ne_integer (hrow : Table.HoldsReals m row) {name : String} (h : m.place name = .real)
    (i : Number .int64) : (Table.meaning rounds row).column name ≠ .integer i := by
  rw [Model.place] at h
  rcases hc : m.stored.find? (·.name = name) with _ | c <;> rw [hc] at h
  · cases h
  rcases hty : c.sqlType with _ | ty <;> rw [Option.bind_some, hty] at h
  · cases h
  have hfloat : c.sqlType = some .float := by
    cases ty <;> first | exact hty | cases h
  have hget := hrow c (List.mem_of_find?_eq_some hc) hfloat
  have hname := List.find?_some hc
  rw [of_decide_eq_true hname] at hget
  show (row.get? name).getD .null ≠ _
  rcases hraw : row.get? name with _ | raw
  · exact fun h => by cases h
  · rw [hraw] at hget
    exact fun h => hget i (congrArg some h)

theorem eval_ne_integer (hrow : Table.HoldsReals m row) : ∀ {e : Expression}, e.across m = .real →
    ∀ i, e.eval (Table.meaning rounds row) ≠ .integer i
  | .column name, h, i => column_ne_integer hrow h i
  | .group e, h, i => by
    rw [eval]
    exact eval_ne_integer hrow (e := e) h i
  | .constant _, h, _ | .value _, h, _ | .binary .., h, _ | .call .., h, _ => by cases h

theorem across_of_alike : ∀ {place : Place} {e e' : Expression}, e.Alike m rounds place e' →
    e'.across m = e.across m
  | _, _, _, .refl _ _ => rfl
  | _, _, _, .literal _ => rfl
  | _, _, _, .group h => by
    rw [across, across]
    exact across_of_alike h
  | _, _, _, .binary _ _ => rfl
  | _, _, _, .call _ => rfl

theorem real_of_opposite {s : Sign} {e : Expression} (h : e.opposite m s = .real) :
    e.across m = .real := by
  unfold opposite at h
  split_ifs at h
  exact h

theorem eval_binary_of_alike (hrow : Table.HoldsReals m row) {s : Sign} {l l' r r' : Expression}
    (hacross : l'.across m = l.across m)
    (hl : Table.AlikeAt rounds (r.opposite m s) (l.eval (Table.meaning rounds row))
      (l'.eval (Table.meaning rounds row)))
    (hr : Table.AlikeAt rounds (l.opposite m s) (r.eval (Table.meaning rounds row))
      (r'.eval (Table.meaning rounds row))) :
    (binary s l r).eval (Table.meaning rounds row)
      = (binary s l' r').eval (Table.meaning rounds row) := by
  rw [eval, eval]
  cases hs : s.isComparison with
  | true =>
    obtain ⟨c, hc⟩ := Table.exists_relate hs
    have hleft := hl.compareAlike (v := r.eval (Table.meaning rounds row)) fun h =>
      eval_ne_integer hrow (real_of_opposite h)
    have hright := hr.compareAlike (v := l'.eval (Table.meaning rounds row)) fun h =>
      eval_ne_integer hrow (hacross.trans (real_of_opposite h))
    rw [hc, hc]
    exact (hleft c).1.trans (hright c).2
  | false =>
    have hanywhere : ∀ e : Expression, e.opposite m s = .anywhere := fun e => by
      rw [opposite, hs]
      rfl
    rw [hanywhere] at hl hr
    rw [hl.eq, hr.eq]

mutual

/-- Expressions that are alike come to the same on every row, or in a comparison to what compares
alike. -/
theorem eval_of_alike (hrow : Table.HoldsReals m row) : ∀ {place : Place} {e e' : Expression},
    e.Alike m rounds place e' →
      Table.AlikeAt rounds place (e.eval (Table.meaning rounds row))
        (e'.eval (Table.meaning rounds row))
  | _, _, _, .refl _ e => .inl rfl
  | _, _, _, .literal h => Table.alikeAt_of_standsFor h
  | _, _, _, .group h => by
    rw [eval, eval]
    exact eval_of_alike hrow h
  | _, _, _, .binary hl hr =>
    .inl (eval_binary_of_alike hrow (across_of_alike hl) (eval_of_alike hrow hl)
      (eval_of_alike hrow hr))
  | _, _, _, @Alike.call _ _ _ name _ _ h =>
    .inl (congrArg ((Table.meaning rounds row).call name) (evalAll_of_allAlike hrow h))

theorem evalAll_of_allAlike (hrow : Table.HoldsReals m row) : ∀ {es es' : List Expression},
    AllAlike m rounds es es' →
      evalAll (Table.meaning rounds row) es = evalAll (Table.meaning rounds row) es'
  | _, _, .nil => rfl
  | _, _, .cons h hs =>
    congrArg₂ List.cons (eval_of_alike hrow h).eq (evalAll_of_allAlike hrow hs)

end

end Alike

end Expression

namespace Table

theorem serialize_selectWhere (m : Model) (q : Query) :
    (m.selectWhere q).serialize false
      = ⟨"SELECT * FROM " ++ identifier m.table ++ " WHERE " ++ q.text ++ ";", q.params⟩ := by
  simp [Model.selectWhere, Statement.serialize, Statement.body, Statement.pieces,
    Statement.condition, Query.between, Query.append, Query.ofPieces, Query.empty,
    String.append_assoc]

theorem condition?_selection (m : Model) (q : Query) :
    condition? m ((m.selectWhere q).serialize false).text = some q.text := by
  have hprefix : ("SELECT * FROM " ++ identifier m.table ++ " WHERE ").toList.isPrefixOf?
      (("SELECT * FROM " ++ identifier m.table ++ " WHERE ").toList ++ (q.text.toList ++ [';']))
        = some (q.text.toList ++ [';']) :=
    List.isPrefixOf?_eq_some_iff_append_eq.2 rfl
  have hsuffix : [';'].isSuffixOf? (q.text.toList ++ [';']) = some q.text.toList :=
    List.isSuffixOf?_eq_some_iff_append_eq.2 rfl
  have htext : ((m.selectWhere q).serialize false).text.toList
      = ("SELECT * FROM " ++ identifier m.table ++ " WHERE ").toList
        ++ (q.text.toList ++ [';']) := by
    rw [serialize_selectWhere, String.toList_append, String.toList_append,
      List.append_assoc]
    rfl
  rw [condition?, htext, hprefix, Option.bind_eq_bind, Option.bind_some, hsuffix,
    Option.bind_some, String.ofList_toList]
  rfl

/-- A table selects the rows on which the expression comes to be true that the condition says. -/
theorem select_of_express {rounds : Bool} {m : Model} {rows : List Row} {r : Request}
    {condition : String} {x : Reading} {e : Expression}
    (hcondition : condition? m r.text = some condition) (hx : parse condition = some x)
    (he : x.express r.params = some (e, [])) :
    select rounds m rows r
      = some (rows.filter fun row => e.eval (meaning rounds row) = .ofBool true) := by
  have hnumber : ∀ row s c, Constant.read? s = some c →
      (meaning rounds row).number s = c.stored := by
    intro row s c hread
    show ((Constant.read? s).map Constant.stored).getD .null = c.stored
    rw [hread]
    rfl
  have heval : ∀ row, x.eval (meaning rounds row) r.params
      = some (e.eval (meaning rounds row), []) :=
    fun row => Expression.eval_of_express (hnumber row) he
  simp [select, hcondition, hx, heval]

end Table

end Sql

end RecordMap
