import RecordMap.Proofs.Term

/-!
# Lowering, step by step

Each node of a filter makes its term, in one step, of the terms of its parts.  Here it is said once
what each step can come to: of what a comparison, a call, a capture and a conversion is made when
they succeed (`compare_cases`, `apply_cases`, `capture_eq_ok`, `convert_cases`), and why they fail
when they do not.

A term is a value just when its filter is a chain of captures and conversions over a value
(`value?_of_lower`), so what is left of a filter can be told without a model.
-/

namespace RecordMap

open Sql

/-- Whether the model keeps what goes by the name in its table. -/
def Model.stores (m : Model) (name : String) : Bool := (m.column? name).any Column.isStored

theorem Model.exists_storedName {m : Model} {name : String} (h : m.stores name = true) :
    ∃ c, m.storedName name = .ok c := by
  obtain ⟨c, hc, hs⟩ := (Option.any_eq_true _ _).1 h
  exact ⟨c.name, by simp only [storedName, hc, hs, if_true]⟩

theorem Model.storedName_of_not {m : Model} {name : String} (h : m.stores name = false) :
    ∃ e, m.storedName name = .error e ∧ e.kind = .filter := by
  rw [stores] at h
  rcases hc : m.column? name with _ | c <;> rw [hc] at h
  · exact ⟨_, by simp only [storedName, hc]; rfl, rfl⟩
  · have hs : c.isStored = false := h
    exact ⟨_, by simp only [storedName, hc, hs]; rfl, rfl⟩

/-- The calls that look for a text, each with whether something may stand before and after it. -/
def Method.wildcards? : Method → Option (Bool × Bool)
  | .contains => some (true, true)
  | .startsWith => some (false, true)
  | .endsWith => some (true, false)
  | .like | .equals => none

theorem Method.ofName?_eq_some {name : String} {k : Method} :
    Method.ofName? name = some k ↔ name = k.name := by
  constructor
  · intro h
    have hk := List.find?_some h
    exact (of_decide_eq_true hk).symm
  · rintro rfl
    cases k <;> rfl

namespace Sql.Term

/-- The value that a term is, if it is one. -/
def value? : Term → Option Value
  | .literal v => some v
  | .column _ | .binary _ _ _ | .isNull _ _ | .like _ _ | .equals _ _ | .pattern _ _ _
  | .call _ _ => none

/-- The connective that a test for null stands for. -/
def nullConnective (negated : Bool) : Connective := if negated then .ne else .eq

variable {c : Connective} {name : String} {l r t x y : Term} {ts : List Term} {e : Fault}
variable {m : Method} {leading trailing : Bool} {ty : FieldType}

theorem value?_eq_some {v : Value} : t.value? = some v ↔ t = .literal v := by
  cases t <;> simp [value?]

theorem isNullLiteral_iff : t.isNullLiteral = true ↔ t = .literal .null := by
  constructor
  · intro h
    unfold isNullLiteral at h
    split at h
    · rfl
    · cases h
  · rintro rfl
    rfl

/-! ## Comparisons -/

theorem compareNull_eq_ok (h : compareNull c x = .ok t) :
    ∃ negated, c = nullConnective negated ∧ t = .isNull negated x := by
  cases c with
  | eq => exact ⟨false, rfl, (Except.ok.inj h).symm⟩
  | ne => exact ⟨true, rfl, (Except.ok.inj h).symm⟩
  | _ => cases h

theorem compareNull_eq_error (h : compareNull c x = .error e) :
    c ≠ .eq ∧ c ≠ .ne ∧ e.kind = .nullComparison := by
  cases c with
  | eq => cases h
  | ne => cases h
  | _ => exact ⟨nofun, nofun, by rw [← Except.error.inj h]; rfl⟩

/-- A comparison is written as one, or, if one of its sides is null, as a test of the other. -/
theorem compare_cases (h : compare c l r = .ok t) :
    (∃ negated x, c = nullConnective negated ∧
      (l = .literal .null ∧ x = r ∨ r = .literal .null ∧ x = l) ∧ t = .isNull negated x) ∨
    l ≠ .literal .null ∧ r ≠ .literal .null ∧ t = .binary c l r := by
  unfold compare at h
  split_ifs at h with hl hr
  · obtain ⟨negated, hc, ht⟩ := compareNull_eq_ok h
    exact .inl ⟨negated, r, hc, .inl ⟨isNullLiteral_iff.1 hl, rfl⟩, ht⟩
  · obtain ⟨negated, hc, ht⟩ := compareNull_eq_ok h
    exact .inl ⟨negated, l, hc, .inr ⟨isNullLiteral_iff.1 hr, rfl⟩, ht⟩
  · exact .inr ⟨mt isNullLiteral_iff.2 hl, mt isNullLiteral_iff.2 hr, (Except.ok.inj h).symm⟩

theorem compare_eq_error (h : compare c l r = .error e) :
    (l = .literal .null ∨ r = .literal .null) ∧ c ≠ .eq ∧ c ≠ .ne ∧ e.kind = .nullComparison := by
  unfold compare at h
  split_ifs at h with hl hr
  · exact ⟨.inl (isNullLiteral_iff.1 hl), compareNull_eq_error h⟩
  · exact ⟨.inr (isNullLiteral_iff.1 hr), compareNull_eq_error h⟩

theorem value?_compare (h : compare c l r = .ok t) : t.value? = none := by
  rcases compare_cases h with ⟨_, _, -, -, rfl⟩ | ⟨-, -, rfl⟩ <;> rfl

/-! ## Calls -/

/-- A value goes into a pattern by its text, everything else as it is. -/
theorem surround_cases (h : surround m leading trailing x = .ok t) :
    (∃ v s, x = .literal v ∧ Fragment.patternText? v = some s ∧ t = .literal
      (.text ((if leading then "%" else "") ++ s ++ (if trailing then "%" else "")))) ∨
    x.value? = none ∧ t = .pattern leading trailing x := by
  cases x with
  | literal v =>
    unfold surround at h
    split at h
    · cases h
    · rename_i v' _ hv
      split at h
      · rename_i s hs
        exact .inl ⟨v, s, rfl, by rwa [Term.literal.inj hv], (Except.ok.inj h).symm⟩
      · cases h
    · rename_i hne
      exact absurd rfl (hne v)
  | _ => exact .inr ⟨rfl, (Except.ok.inj h).symm⟩

theorem surround_eq_error (h : surround m leading trailing x = .error e) :
    e.kind = .filter ∧ ∃ v, x = .literal v ∧ Fragment.patternText? v = none := by
  cases x with
  | literal v =>
    unfold surround at h
    split at h
    · rename_i hv
      rw [← Except.error.inj h, Term.literal.inj hv]
      exact ⟨rfl, .null, rfl, rfl⟩
    · rename_i v' _ hv
      split at h
      · cases h
      · rename_i hs
        rw [← Except.error.inj h]
        exact ⟨rfl, v, rfl, by rwa [Term.literal.inj hv]⟩
    · cases h
  | _ => cases h

theorem applyMethod_of_wildcards? (h : m.wildcards? = some (leading, trailing)) (x y : Term) :
    applyMethod m x y = (surround m leading trailing y).map (.like x) := by
  cases m <;> cases h <;> rfl

theorem applyMethod_cases (h : applyMethod m x y = .ok t) :
    m = .like ∧ t = .like x y ∨ m = .equals ∧ t = .equals x y ∨
    ∃ leading trailing p, m.wildcards? = some (leading, trailing) ∧
      surround m leading trailing y = .ok p ∧ t = .like x p := by
  rcases hm : m.wildcards? with _ | ⟨leading, trailing⟩
  · cases m with
    | like => exact .inl ⟨rfl, (Except.ok.inj h).symm⟩
    | equals => exact .inr (.inl ⟨rfl, (Except.ok.inj h).symm⟩)
    | _ => cases hm
  · rw [applyMethod_of_wildcards? hm] at h
    obtain ⟨p, hs, rfl⟩ := Outcome.map_eq_ok_iff.1 h
    exact .inr (.inr ⟨leading, trailing, p, rfl, hs, rfl⟩)

theorem applyMethod_eq_error (h : applyMethod m x y = .error e) :
    e.kind = .filter ∧ m.wildcards?.isSome = true ∧
      ∃ v, y = .literal v ∧ Fragment.patternText? v = none := by
  rcases hm : m.wildcards? with _ | ⟨leading, trailing⟩
  · cases m with
    | like => cases h
    | equals => cases h
    | _ => cases hm
  · rw [applyMethod_of_wildcards? hm] at h
    rcases hs : surround m leading trailing y with e' | p <;> rw [hs] at h
    · rw [← Except.error.inj h]
      exact ⟨(surround_eq_error hs).1, rfl, (surround_eq_error hs).2⟩
    · cases h

theorem apply_method (m : Method) (target t : Term) :
    apply m.name [target, t] = applyMethod m target t := by
  cases m <;> rfl

/-- A call is written as one, unless its name has a meaning and it has anything to call it on. -/
theorem apply_cases (h : apply name ts = .ok t) :
    (ts = [] ∨ Method.ofName? name = none) ∧ t = .call name ts ∨
    ∃ m x y, Method.ofName? name = some m ∧ ts = [x, y] ∧ applyMethod m x y = .ok t := by
  unfold apply at h
  split at h
  · exact .inl ⟨.inl rfl, (Except.ok.inj h).symm⟩
  · split at h
    · exact .inl ⟨.inr ‹_›, (Except.ok.inj h).symm⟩
    · split at h
      · exact .inr ⟨_, _, _, ‹_›, rfl, h⟩
      · cases h

theorem apply_eq_error (h : apply name ts = .error e) :
    e.kind = .filter ∧ ∃ m, Method.ofName? name = some m ∧ (ts.length ≠ 2 ∨
      m.wildcards?.isSome = true ∧
        ∃ x v, ts = [x, .literal v] ∧ Fragment.patternText? v = none) := by
  unfold apply at h
  split at h
  · cases h
  · rename_i target rest
    split at h
    · cases h
    · rename_i m hm
      split at h
      · obtain ⟨hkind, hw, v, rfl, hv⟩ := applyMethod_eq_error h
        exact ⟨hkind, m, hm, .inr ⟨hw, target, v, rfl, hv⟩⟩
      · rename_i hne
        rw [← Except.error.inj h]
        refine ⟨rfl, m, hm, .inl fun hlength => ?_⟩
        obtain ⟨x, hx⟩ := List.length_eq_one_iff.1 (Nat.succ.inj hlength)
        exact hne x hx

theorem value?_apply (h : apply name ts = .ok t) : t.value? = none := by
  rcases apply_cases h with ⟨-, rfl⟩ | ⟨m, x, y, -, -, h⟩
  · rfl
  · rcases applyMethod_cases h with ⟨-, rfl⟩ | ⟨-, rfl⟩ | ⟨_, _, _, -, -, rfl⟩ <;> rfl

/-! ## Captures and conversions -/

theorem capture_eq_ok (h : capture name x = .ok t) : ∃ v, x = .literal v ∧ t = .literal v := by
  cases x with
  | literal v => exact ⟨v, rfl, (Except.ok.inj h).symm⟩
  | _ => cases h

theorem capture_eq_error (h : capture name x = .error e) :
    x.value? = none ∧ e.kind = .filter := by
  cases x with
  | literal v => cases h
  | _ => exact ⟨rfl, by rw [← Except.error.inj h]; rfl⟩

theorem convert_of_value? (h : x.value? = none) : x.convert ty = .ok x := by
  cases x with
  | literal v => cases h
  | _ => rfl

theorem convert_cases (h : x.convert ty = .ok t) :
    (∃ v w, x = .literal v ∧ v.convert ty = .ok w ∧ t = .literal w) ∨
      x.value? = none ∧ t = x := by
  rcases hx : x.value? with _ | v
  · rw [convert_of_value? hx] at h
    exact .inr ⟨rfl, (Except.ok.inj h).symm⟩
  · obtain rfl := value?_eq_some.1 hx
    rw [convert] at h
    obtain ⟨w, hv, rfl⟩ := Outcome.map_eq_ok_iff.1 h
    exact .inl ⟨v, w, rfl, hv, rfl⟩

theorem convert_eq_error (h : x.convert ty = .error e) :
    ∃ v, x = .literal v ∧ v.convert ty = .error e := by
  rcases hx : x.value? with _ | v
  · rw [convert_of_value? hx] at h
    cases h
  · obtain rfl := value?_eq_some.1 hx
    rw [convert] at h
    rcases hv : v.convert ty with e' | w <;> rw [hv] at h
    · exact ⟨v, rfl, by rw [hv, Except.error.inj h]⟩
    · cases h

end Sql.Term

namespace Filter

/-- The value that the filter comes to, if it is one from the surroundings, converted or not. -/
def settled? : Filter → Option Value
  | .value v => some v
  | .captured _ f => f.settled?
  | .convert f ty => f.settled?.bind fun v => (v.convert ty).toOption
  | .field _ | .binary _ _ _ | .method _ _ _ | .function _ _ => none

theorem lower_method (m : Model) (receiver : Filter) (name : String) (fs : List Filter) :
    (Filter.method receiver name fs).lower m
      = lowerAll m (receiver :: fs) >>= Term.apply name := by
  rw [lower, lowerAll]
  rcases receiver.lower m with e | t
  · rfl
  · cases lowerAll m fs <;> rfl

/-- A term is a value just when its filter comes to it. -/
theorem value?_of_lower {m : Model} : ∀ {f : Filter} {t : Term}, f.lower m = .ok t →
    t.value? = f.settled?
  | .value v, t, h => by
    rw [← Except.ok.inj h]
    rfl
  | .field name, t, h => by
    rw [lower] at h
    obtain ⟨c, -, rfl⟩ := Outcome.map_eq_ok_iff.1 h
    rfl
  | .binary (.arithmetic a) _ _, t, h => by cases h
  | .binary (.connective c) l r, t, h => by
    rw [lower] at h
    obtain ⟨l', -, h⟩ := Outcome.bind_eq_ok h
    obtain ⟨r', -, h⟩ := Outcome.bind_eq_ok h
    exact Term.value?_compare h
  | .captured name f, t, h => by
    rw [lower] at h
    obtain ⟨t', ht, h⟩ := Outcome.bind_eq_ok h
    obtain ⟨v, rfl, rfl⟩ := Term.capture_eq_ok h
    rw [settled?, ← value?_of_lower ht]
  | .convert f ty, t, h => by
    rw [lower] at h
    obtain ⟨t', ht, h⟩ := Outcome.bind_eq_ok h
    rw [settled?, ← value?_of_lower ht]
    rcases Term.convert_cases h with ⟨v, w, rfl, hw, rfl⟩ | ⟨hnone, rfl⟩
    · rw [Term.value?, Term.value?, Option.bind_some, hw]
      rfl
    · rw [hnone]
      rfl
  | .method receiver name fs, t, h => by
    rw [lower_method] at h
    obtain ⟨ts, -, h⟩ := Outcome.bind_eq_ok h
    exact Term.value?_apply h
  | .function name fs, t, h => by
    rw [lower] at h
    obtain ⟨ts, -, h⟩ := Outcome.bind_eq_ok h
    exact Term.value?_apply h

theorem lower_eq_literal {m : Model} {f : Filter} {t : Term} {v : Value} (h : f.lower m = .ok t)
    (hv : f.settled? = some v) : t = .literal v :=
  Term.value?_eq_some.1 ((value?_of_lower h).trans hv)

theorem lower_of_settled? (m : Model) : ∀ {f : Filter} {v : Value}, f.settled? = some v →
    f.lower m = .ok (.literal v)
  | .value v, w, h => by
    rw [← Option.some.inj h]
    rfl
  | .captured name f, v, h => by
    rw [settled?] at h
    rw [lower, lower_of_settled? m h]
    rfl
  | .convert f ty, v, h => by
    rw [settled?] at h
    obtain ⟨w, hw, hv⟩ := Option.bind_eq_some_iff.1 h
    rw [lower, lower_of_settled? m hw]
    rcases hc : w.convert ty with e | u <;> rw [hc] at hv
    · cases hv
    · rw [← Option.some.inj hv]
      exact congrArg (Except.map Term.literal) hc
  | .field _, v, h => by cases h
  | .binary _ _ _, v, h => by cases h
  | .method _ _ _, v, h => by cases h
  | .function _ _, v, h => by cases h

theorem settled?_of_lower_literal {m : Model} {f : Filter} {v : Value}
    (h : f.lower m = .ok (.literal v)) : f.settled? = some v :=
  (value?_of_lower h).symm

end Filter

theorem Model.predicate_eq_ok_iff {m : Model} {inline : Bool} {f : Filter} {q : Query} :
    m.predicate inline f = .ok q ↔
      ∃ t, f.lower m = .ok t ∧ Query.ofPieces (t.emission inline) = q := by
  rw [Model.predicate_eq_lower]
  rcases f.lower m with e | t
  · simp [Except.map]
  · simp [Except.map]

theorem Model.predicate_eq_error_iff {m : Model} {inline : Bool} {f : Filter} {e : Fault} :
    m.predicate inline f = .error e ↔ f.lower m = .error e := by
  rw [Model.predicate_eq_lower]
  rcases f.lower m with e | t
  · simp [Except.map]
  · simp [Except.map]

end RecordMap
