import RecordMap.Proofs.Lowering

/-!
# Filters without captures

What a filter has from its surroundings can be put in before anything is known of a model: a
captured value stands for itself, a conversion of a value is made and every other one dropped, and
a call that has a meaning is one on its first operand.  The filter that is left compiles just when
the first did, and to the same condition (`predicate_resolve`).
-/

namespace RecordMap

open Sql

namespace Filter

/-- What a capture of the filter comes to: a value, or nothing. -/
def seized (name : String) : Filter → Outcome Filter
  | .value v => .ok (.value v)
  | _ => Outcome.fail (.filter (.capturedNonValue name))

/-- What a conversion of the filter comes to.  Only a value is converted. -/
def coerced (f : Filter) (ty : FieldType) : Outcome Filter :=
  match f with
  | .value v => (v.convert ty).map .value
  | f => .ok f

/-- A call on its first operand, if the name has a meaning in SQL. -/
def onFirst (name : String) : List Filter → Filter
  | [] => .function name []
  | f :: fs => if (Method.ofName? name).isSome then .method f name fs else .function name (f :: fs)

mutual

/-- The filter with everything put in that it has from its surroundings. -/
def resolve : Filter → Outcome Filter
  | .value v => .ok (.value v)
  | .field name => .ok (.field name)
  | .binary op l r => do
    let l ← resolve l
    let r ← resolve r
    return .binary op l r
  | .captured name f => do
    let g ← resolve f
    g.seized name
  | .convert f ty => do
    let g ← resolve f
    g.coerced ty
  | .method receiver name fs => do
    let g ← resolve receiver
    let gs ← resolveAll fs
    return .method g name gs
  | .function name fs => do
    let gs ← resolveAll fs
    return onFirst name gs

def resolveAll : List Filter → Outcome (List Filter)
  | [] => .ok []
  | f :: fs => do
    let g ← resolve f
    let gs ← resolveAll fs
    return g :: gs

end

mutual

/-- Whether there is nothing in the filter to be put in. -/
def isResolved : Filter → Bool
  | .value _ | .field _ => true
  | .binary _ l r => isResolved l && isResolved r
  | .captured _ _ | .convert _ _ => false
  | .method receiver _ fs => isResolved receiver && allResolved fs
  | .function name fs => (fs.isEmpty || (Method.ofName? name).isNone) && allResolved fs

def allResolved : List Filter → Bool
  | [] => true
  | f :: fs => isResolved f && allResolved fs

end

theorem isResolved_seized {f g : Filter} {name : String} (h : f.seized name = .ok g) :
    g.isResolved = true := by
  cases f with
  | value v =>
    rw [← Except.ok.inj h]
    rfl
  | _ => cases h

theorem isResolved_coerced {f g : Filter} {ty : FieldType} (hf : f.isResolved = true)
    (h : f.coerced ty = .ok g) : g.isResolved = true := by
  cases f with
  | value v =>
    rw [coerced] at h
    obtain ⟨w, -, rfl⟩ := Outcome.map_eq_ok_iff.1 h
    rfl
  | _ => rwa [← Except.ok.inj h]

theorem isResolved_onFirst {name : String} {fs : List Filter} (h : allResolved fs = true) :
    (onFirst name fs).isResolved = true := by
  cases fs with
  | nil => rfl
  | cons f fs =>
    rw [onFirst]
    split_ifs with hname
    · exact h
    · rw [isResolved, h, Option.not_isSome_iff_eq_none.1 hname]
      rfl

mutual

theorem isResolved_resolve : ∀ {f g : Filter}, f.resolve = .ok g → g.isResolved = true
  | .value v, g, h => by
    rw [← Except.ok.inj h]
    rfl
  | .field name, g, h => by
    rw [← Except.ok.inj h]
    rfl
  | .binary op l r, g, h => by
    rw [resolve] at h
    obtain ⟨l', hl, h⟩ := Outcome.bind_eq_ok h
    obtain ⟨r', hr, h⟩ := Outcome.bind_eq_ok h
    rw [← Except.ok.inj h, isResolved, isResolved_resolve hl, isResolved_resolve hr]
    rfl
  | .captured name f, g, h => by
    rw [resolve] at h
    obtain ⟨f', -, h⟩ := Outcome.bind_eq_ok h
    exact isResolved_seized h
  | .convert f ty, g, h => by
    rw [resolve] at h
    obtain ⟨f', hf, h⟩ := Outcome.bind_eq_ok h
    exact isResolved_coerced (isResolved_resolve hf) h
  | .method receiver name fs, g, h => by
    rw [resolve] at h
    obtain ⟨f', hf, h⟩ := Outcome.bind_eq_ok h
    obtain ⟨gs, hgs, h⟩ := Outcome.bind_eq_ok h
    rw [← Except.ok.inj h, isResolved, isResolved_resolve hf, allResolved_resolveAll hgs]
    rfl
  | .function name fs, g, h => by
    rw [resolve] at h
    obtain ⟨gs, hgs, h⟩ := Outcome.bind_eq_ok h
    rw [← Except.ok.inj h]
    exact isResolved_onFirst (allResolved_resolveAll hgs)

theorem allResolved_resolveAll : ∀ {fs gs : List Filter}, resolveAll fs = .ok gs →
    allResolved gs = true
  | [], gs, h => by
    rw [← Except.ok.inj h]
    rfl
  | f :: fs, gs, h => by
    rw [resolveAll] at h
    obtain ⟨f', hf, h⟩ := Outcome.bind_eq_ok h
    obtain ⟨gs', hgs, h⟩ := Outcome.bind_eq_ok h
    rw [← Except.ok.inj h, allResolved, isResolved_resolve hf, allResolved_resolveAll hgs]
    rfl

end

variable {m : Model} {f g : Filter} {t : Term}

theorem value?_eq_some {v : Value} : f.value? = some v ↔ f = .value v := by
  cases f <;> simp [value?]

/-- A resolved filter comes to a value only if it is one. -/
theorem settled?_of_isResolved (h : f.isResolved = true) : f.settled? = f.value? := by
  cases f with
  | captured name f => cases h
  | convert f ty => cases h
  | _ => rfl

theorem value?_of_lower_resolved (hf : f.isResolved = true) (h : f.lower m = .ok t) :
    f.value? = t.value? := by
  rw [← settled?_of_isResolved hf, value?_of_lower h]

theorem coerced_of_value? {ty : FieldType} (h : f.value? = none) : f.coerced ty = .ok f := by
  cases f with
  | value v => cases h
  | _ => rfl

/-- Capturing a resolved filter and then lowering it is lowering it and then capturing its term. -/
theorem seized_lower_iff (hf : f.isResolved = true) (name : String) :
    (∃ t', f.lower m = .ok t' ∧ Term.capture name t' = .ok t) ↔
      ∃ g, f.seized name = .ok g ∧ g.lower m = .ok t := by
  constructor
  · rintro ⟨t', ht, h⟩
    obtain ⟨v, rfl, rfl⟩ := Term.capture_eq_ok h
    obtain rfl := value?_eq_some.1 (value?_of_lower_resolved hf ht)
    exact ⟨.value v, rfl, rfl⟩
  · rintro ⟨g, hg, h⟩
    cases f with
    | value v =>
      obtain rfl := Except.ok.inj hg
      obtain rfl := Except.ok.inj h
      exact ⟨.literal v, rfl, rfl⟩
    | _ => cases hg

theorem coerced_lower_iff (hf : f.isResolved = true) (ty : FieldType) :
    (∃ t', f.lower m = .ok t' ∧ t'.convert ty = .ok t) ↔
      ∃ g, f.coerced ty = .ok g ∧ g.lower m = .ok t := by
  constructor
  · rintro ⟨t', ht, h⟩
    have hvalue := value?_of_lower_resolved hf ht
    rcases Term.convert_cases h with ⟨v, w, rfl, hw, rfl⟩ | ⟨hnone, rfl⟩
    · obtain rfl := value?_eq_some.1 hvalue
      refine ⟨.value w, ?_, rfl⟩
      rw [coerced, hw]
      rfl
    · exact ⟨f, coerced_of_value? (hvalue.trans hnone), ht⟩
  · rintro ⟨g, hg, h⟩
    rcases hv : f.value? with _ | v
    · rw [coerced_of_value? hv] at hg
      obtain rfl := Except.ok.inj hg
      exact ⟨t, h, Term.convert_of_value? ((value?_of_lower_resolved hf h).symm.trans hv)⟩
    · obtain rfl := value?_eq_some.1 hv
      rw [coerced] at hg
      rcases hw : v.convert ty with e | w <;> rw [hw] at hg
      · cases hg
      · obtain rfl := Except.ok.inj hg
        obtain rfl := Except.ok.inj h
        refine ⟨.literal v, rfl, ?_⟩
        rw [Term.convert, hw]
        rfl

theorem lower_onFirst (m : Model) (name : String) (fs : List Filter) :
    (onFirst name fs).lower m = lowerAll m fs >>= Term.apply name := by
  cases fs with
  | nil => rfl
  | cons f fs =>
    rw [onFirst]
    split_ifs
    · exact lower_method m f name fs
    · rfl

mutual

/-- A filter has the term of what it resolves to. -/
theorem lower_eq_ok_iff (m : Model) : ∀ (f : Filter) (t : Term),
    f.lower m = .ok t ↔ ∃ g, f.resolve = .ok g ∧ g.lower m = .ok t
  | .value v, t => by simp [resolve]
  | .field name, t => by simp [resolve]
  | .binary (.arithmetic a) l r, t => by
    constructor
    · intro h
      cases h
    · rintro ⟨g, hg, h⟩
      rw [resolve] at hg
      obtain ⟨l', -, hg⟩ := Outcome.bind_eq_ok hg
      obtain ⟨r', -, hg⟩ := Outcome.bind_eq_ok hg
      rw [← Except.ok.inj hg] at h
      cases h
  | .binary (.connective c) l r, t => by
    simp only [lower, resolve, Outcome.bind_eq_ok_iff, lower_eq_ok_iff m l, lower_eq_ok_iff m r]
    constructor
    · rintro ⟨t₁, ⟨l', hl, ht₁⟩, t₂, ⟨r', hr, ht₂⟩, h⟩
      refine ⟨_, ⟨l', hl, r', hr, rfl⟩, ?_⟩
      rw [lower, ht₁, ht₂]
      exact h
    · rintro ⟨g, ⟨l', hl, r', hr, hg⟩, h⟩
      obtain rfl := Except.ok.inj hg
      rw [lower] at h
      obtain ⟨t₁, ht₁, h⟩ := Outcome.bind_eq_ok h
      obtain ⟨t₂, ht₂, h⟩ := Outcome.bind_eq_ok h
      exact ⟨t₁, ⟨l', hl, ht₁⟩, t₂, ⟨r', hr, ht₂⟩, h⟩
  | .captured name f, t => by
    simp only [lower, resolve, Outcome.bind_eq_ok_iff, lower_eq_ok_iff m f]
    constructor
    · rintro ⟨t', ⟨f', hf, ht⟩, h⟩
      obtain ⟨g, hg, h⟩ := (seized_lower_iff (isResolved_resolve hf) name).1 ⟨t', ht, h⟩
      exact ⟨g, ⟨f', hf, hg⟩, h⟩
    · rintro ⟨g, ⟨f', hf, hg⟩, h⟩
      obtain ⟨t', ht, h⟩ := (seized_lower_iff (isResolved_resolve hf) name).2 ⟨g, hg, h⟩
      exact ⟨t', ⟨f', hf, ht⟩, h⟩
  | .convert f ty, t => by
    simp only [lower, resolve, Outcome.bind_eq_ok_iff, lower_eq_ok_iff m f]
    constructor
    · rintro ⟨t', ⟨f', hf, ht⟩, h⟩
      obtain ⟨g, hg, h⟩ := (coerced_lower_iff (isResolved_resolve hf) ty).1 ⟨t', ht, h⟩
      exact ⟨g, ⟨f', hf, hg⟩, h⟩
    · rintro ⟨g, ⟨f', hf, hg⟩, h⟩
      obtain ⟨t', ht, h⟩ := (coerced_lower_iff (isResolved_resolve hf) ty).2 ⟨g, hg, h⟩
      exact ⟨t', ⟨f', hf, ht⟩, h⟩
  | .method receiver name fs, t => by
    simp only [lower, resolve, Outcome.bind_eq_ok_iff, lower_eq_ok_iff m receiver,
      lowerAll_eq_ok_iff m fs]
    constructor
    · rintro ⟨t', ⟨f', hf, ht⟩, ts, ⟨gs, hgs, hts⟩, h⟩
      refine ⟨_, ⟨f', hf, gs, hgs, rfl⟩, ?_⟩
      rw [lower, ht, hts]
      exact h
    · rintro ⟨g, ⟨f', hf, gs, hgs, hg⟩, h⟩
      obtain rfl := Except.ok.inj hg
      rw [lower] at h
      obtain ⟨t', ht, h⟩ := Outcome.bind_eq_ok h
      obtain ⟨ts, hts, h⟩ := Outcome.bind_eq_ok h
      exact ⟨t', ⟨f', hf, ht⟩, ts, ⟨gs, hgs, hts⟩, h⟩
  | .function name fs, t => by
    simp only [lower, resolve, Outcome.bind_eq_ok_iff, lowerAll_eq_ok_iff m fs]
    constructor
    · rintro ⟨ts, ⟨gs, hgs, hts⟩, h⟩
      refine ⟨_, ⟨gs, hgs, rfl⟩, ?_⟩
      rw [lower_onFirst, hts]
      exact h
    · rintro ⟨g, ⟨gs, hgs, hg⟩, h⟩
      obtain rfl := Except.ok.inj hg
      rw [lower_onFirst] at h
      obtain ⟨ts, hts, h⟩ := Outcome.bind_eq_ok h
      exact ⟨ts, ⟨gs, hgs, hts⟩, h⟩

theorem lowerAll_eq_ok_iff (m : Model) : ∀ (fs : List Filter) (ts : List Term),
    lowerAll m fs = .ok ts ↔ ∃ gs, resolveAll fs = .ok gs ∧ lowerAll m gs = .ok ts
  | [], ts => by simp [resolveAll]
  | f :: fs, ts => by
    simp only [lowerAll, resolveAll, Outcome.bind_eq_ok_iff, lower_eq_ok_iff m f,
      lowerAll_eq_ok_iff m fs]
    constructor
    · rintro ⟨t, ⟨g, hg, ht⟩, ts', ⟨gs, hgs, hts⟩, h⟩
      refine ⟨_, ⟨g, hg, gs, hgs, rfl⟩, ?_⟩
      rw [lowerAll, ht, hts]
      exact h
    · rintro ⟨_, ⟨g, hg, gs, hgs, hcons⟩, h⟩
      obtain rfl := Except.ok.inj hcons
      rw [lowerAll] at h
      obtain ⟨t, ht, h⟩ := Outcome.bind_eq_ok h
      obtain ⟨ts', hts, h⟩ := Outcome.bind_eq_ok h
      exact ⟨t, ⟨g, hg, ht⟩, ts', ⟨gs, hgs, hts⟩, h⟩

end

end Filter

/-- A filter compiles to a condition just when it can be resolved and the resolved filter, which
has no captures, conversions or calls without their receiver left, compiles to that condition. -/
theorem predicate_resolve (m : Model) (inline : Bool) (f : Filter) :
    (∀ q, m.predicate inline f = .ok q ↔
      ∃ g, f.resolve = .ok g ∧ m.predicate inline g = .ok q) ∧
    ∀ g, f.resolve = .ok g → g.isResolved = true := by
  refine ⟨fun q => ?_, fun g hg => Filter.isResolved_resolve hg⟩
  simp only [Model.predicate_eq_ok_iff, Filter.lower_eq_ok_iff m f]
  constructor
  · rintro ⟨t, ⟨g, hg, ht⟩, hq⟩
    exact ⟨g, hg, t, ht, hq⟩
  · rintro ⟨g, hg, t, ht, hq⟩
    exact ⟨t, ⟨g, hg, ht⟩, hq⟩

example : (Filter.function "Like"
      [.convert (.field "title") .text, .captured "it" (.convert (.value (.bool true)) .bool)]).resolve
    = .ok (.method (.field "title") "Like" [.value (.bool true)]) := by rfl

end RecordMap
