import RecordMap.Proofs.Nodes
import RecordMap.Proofs.Placeholders

/-!
# What keeps a filter from compiling

A filter breaks the rules at a node by what stands at that node and by the values that its children
come to; nothing else matters (`Filter.Breach`).  A filter in which no node breaks a rule compiles,
and one that does not compile fails with the kind of fault that belongs to a rule it breaks
(`predicate_isOk_iff`).
-/

namespace RecordMap

open Sql

namespace Value

/-- Whether a pattern can be made of the value: it is a text, or a truth value or number with a
literal. -/
def isMatchable : Value → Bool
  | .bool _ | .int _ _ | .text _ => true
  | .single x => x.isFinite
  | .double x => x.isFinite
  | .null | .timestamp _ | .uuid _ | .bytes _ | .enumeration _ => false

theorem isSome_patternText? (v : Value) :
    (Fragment.patternText? v).isSome = v.isMatchable := by
  have hfinite : ∀ (b : Bool) (s : String), (if b then some s else none).isSome = b := by
    intro b s
    cases b <;> rfl
  cases v with
  | single x => exact hfinite _ _
  | double x => exact hfinite _ _
  | _ => rfl

theorem stored_eq_error {v : Value} {e : Fault} (h : v.stored = .error e) :
    e.kind = .unstorable := by
  cases v with
  | int t n =>
    simp only [stored] at h
    split_ifs at h
    rw [← Except.error.inj h]
    rfl
  | _ => cases h

/-- A conversion fails because the store has no form for the value, or none that reads back. -/
theorem convert_eq_error {v : Value} {ty : FieldType} {e : Fault} (h : v.convert ty = .error e) :
    e.kind = .conversion ∨ e.kind = .unstorable := by
  unfold convert at h
  split_ifs at h
  rcases Outcome.bind_eq_error h with h | ⟨raw, -, h⟩
  · exact .inr (stored_eq_error h)
  · split at h
    · cases h
    · rw [← Except.error.inj h]
      exact .inl rfl

end Value

namespace Filter

/-- A rule that is broken at a node of a filter, with the kind of fault that says so. -/
inductive Breach (m : Model) : Filter → Cause.Kind → Prop
  | field {name : String} (h : m.stores name = false) : Breach m (.field name) .filter
  | operator {op : Operator} {l r : Filter} (h : op.connective? = none) :
    Breach m (.binary op l r) .unsupportedOperator
  | null {op : Operator} {l r : Filter} (h : l.settled? = some .null ∨ r.settled? = some .null)
    (heq : op ≠ .connective .eq) (hne : op ≠ .connective .ne) :
    Breach m (.binary op l r) .nullComparison
  | capture {name : String} {f : Filter} (h : f.settled? = none) :
    Breach m (.captured name f) .filter
  | conversion {f : Filter} {ty : FieldType} {v : Value} {e : Fault} (hv : f.settled? = some v)
    (h : v.convert ty = .error e) : Breach m (.convert f ty) e.kind
  | operands {f : Filter} {k : Method} {xs : List Filter} (hf : f.call? = some (k.name, xs))
    (h : xs.length ≠ 2) : Breach m f .filter
  | pattern {f x y : Filter} {k : Method} {v : Value} (hk : k.wildcards?.isSome = true)
    (hf : f.call? = some (k.name, [x, y])) (hv : y.settled? = some v)
    (h : v.isMatchable = false) : Breach m f .filter

variable {m : Model} {f : Filter} {t : Term} {e : Fault}

/-- At the root of a filter that has a term no rule is broken. -/
theorem not_breach_of_lower (h : f.lower m = .ok t)
    (hf : ∀ k : Method, f ≠ .function k.name []) (kind : Cause.Kind) : ¬ f.Breach m kind := by
  intro hb
  cases hb with
  | field hstores =>
    obtain ⟨e, he, -⟩ := Model.storedName_of_not hstores
    rw [lower, he] at h
    cases h
  | @operator op l r hop =>
    cases op with
    | arithmetic a => cases h
    | connective c => cases hop
  | @null op l r hnull heq hne =>
    cases op with
    | arithmetic a => cases h
    | connective c =>
      rw [lower] at h
      obtain ⟨l', hl, h⟩ := Outcome.bind_eq_ok h
      obtain ⟨r', hr, h⟩ := Outcome.bind_eq_ok h
      rcases Term.compare_cases h with ⟨negated, _, rfl, -, -⟩ | ⟨hl', hr', -⟩
      · cases negated
        · exact heq rfl
        · exact hne rfl
      · rcases hnull with hnull | hnull
        · exact hl' (lower_eq_literal hl hnull)
        · exact hr' (lower_eq_literal hr hnull)
  | @capture name g hg =>
    rw [lower] at h
    obtain ⟨t', ht, h⟩ := Outcome.bind_eq_ok h
    obtain ⟨v, rfl, -⟩ := Term.capture_eq_ok h
    rw [settled?_of_lower_literal ht] at hg
    cases hg
  | @conversion g ty v e hv he =>
    rw [lower] at h
    obtain ⟨t', ht, h⟩ := Outcome.bind_eq_ok h
    obtain rfl := lower_eq_literal ht hv
    rw [Term.convert, he] at h
    cases h
  | @operands _ k xs hcall hlength =>
    rw [lower_of_call? hcall] at h
    obtain ⟨ts, hts, h⟩ := Outcome.bind_eq_ok h
    have hts' := Outcome.length_of_mapM hts
    rcases Term.apply_cases h with ⟨rfl | hname, -⟩ | ⟨_, _, _, -, rfl, -⟩
    · -- only a call without a receiver has no operands at all
      obtain rfl := List.length_eq_zero_iff.1 hts'.symm
      cases f with
      | function name fs =>
        cases hcall
        exact hf k rfl
      | _ => cases hcall
    · rw [Method.ofName?_eq_some.2 rfl] at hname
      cases hname
    · exact hlength hts'.symm
  | @pattern _ x y k v hk hcall hv hmatch =>
    rw [lower_of_call? hcall] at h
    obtain ⟨ts, hts, h⟩ := Outcome.bind_eq_ok h
    obtain ⟨x', y', rfl, -, hy⟩ := Outcome.mapM_pair hts
    obtain rfl := lower_eq_literal hy hv
    obtain ⟨⟨leading, trailing⟩, hw⟩ := Option.isSome_iff_exists.1 hk
    rw [Term.apply_method, Term.applyMethod_of_wildcards? hw] at h
    rcases hs : Term.surround k leading trailing (.literal v) with e | p <;> rw [hs] at h
    · cases h
    · rcases Term.surround_cases hs with ⟨w, s, hw, hs, -⟩ | ⟨hnone, -⟩
      · rw [← Value.isSome_patternText?, Term.literal.inj hw, hs] at hmatch
        cases hmatch
      · cases hnone

/-- A filter without a term has a child without one, or breaks a rule at its root. -/
theorem breach_of_lower_eq_error (h : f.lower m = .error e) :
    (∃ x ∈ f.children, x.lower m = .error e) ∨ f.Breach m e.kind := by
  have hcall : ∀ {name xs}, f.call? = some (name, xs) →
      (∃ x ∈ f.children, x.lower m = .error e) ∨ f.Breach m e.kind := by
    intro name xs hf
    rw [lower_of_call? hf] at h
    rw [children_of_call? hf]
    rcases Outcome.bind_eq_error h with h | ⟨ts, hts, h⟩
    · obtain ⟨_, x, _, rfl, -, hx⟩ := Outcome.mapM_eq_error_iff.1 h
      exact .inl ⟨x, by simp, hx⟩
    · obtain ⟨hkind, k, hk, h⟩ := Term.apply_eq_error h
      rw [Method.ofName?_eq_some.1 hk] at hf
      rw [hkind]
      rcases h with hlength | ⟨hw, x', v, rfl, hv⟩
      · rw [Outcome.length_of_mapM hts] at hlength
        exact .inr (.operands hf hlength)
      · obtain ⟨x, y, rfl, -, hy⟩ := Outcome.mapM_eq_pair hts
        refine .inr (.pattern hw hf (settled?_of_lower_literal hy) ?_)
        rw [← Value.isSome_patternText?, hv]
        rfl
  cases f with
  | value v => cases h
  | field name =>
    cases hs : m.stores name with
    | true =>
      obtain ⟨c, hc⟩ := Model.exists_storedName hs
      rw [lower, hc] at h
      cases h
    | false =>
      obtain ⟨e', he, hkind⟩ := Model.storedName_of_not hs
      rw [lower, he] at h
      rw [← Except.error.inj h, hkind]
      exact .inr (.field hs)
  | binary op l r =>
    cases op with
    | arithmetic a =>
      rw [← Except.error.inj h]
      exact .inr (.operator rfl)
    | connective c =>
      rw [lower] at h
      rcases Outcome.bind_eq_error h with h | ⟨l', hl, h⟩
      · exact .inl ⟨l, List.mem_cons_self, h⟩
      rcases Outcome.bind_eq_error h with h | ⟨r', hr, h⟩
      · exact .inl ⟨r, List.mem_cons_of_mem _ List.mem_cons_self, h⟩
      obtain ⟨hnull, heq, hne, hkind⟩ := Term.compare_eq_error h
      rw [hkind]
      refine .inr (.null ?_ (fun h => heq (Operator.connective.inj h))
        (fun h => hne (Operator.connective.inj h)))
      rcases hnull with rfl | rfl
      · exact .inl (settled?_of_lower_literal hl)
      · exact .inr (settled?_of_lower_literal hr)
  | captured name g =>
    rw [lower] at h
    rcases Outcome.bind_eq_error h with h | ⟨t, ht, h⟩
    · exact .inl ⟨g, List.mem_cons_self, h⟩
    · obtain ⟨hnone, hkind⟩ := Term.capture_eq_error h
      rw [hkind]
      exact .inr (.capture ((value?_of_lower ht).symm.trans hnone))
  | convert g ty =>
    rw [lower] at h
    rcases Outcome.bind_eq_error h with h | ⟨t, ht, h⟩
    · exact .inl ⟨g, List.mem_cons_self, h⟩
    · obtain ⟨v, rfl, he⟩ := Term.convert_eq_error h
      exact .inr (.conversion (settled?_of_lower_literal ht) he)
  | method receiver name fs => exact hcall rfl
  | function name fs => exact hcall rfl

theorem exists_breach_of_lower_eq_error : ∀ f : Filter, f.lower m = .error e →
    ∃ g ∈ f.nodes, g.Breach m e.kind := by
  refine of_children fun f ih h => ?_
  rcases breach_of_lower_eq_error h with ⟨x, hx, h⟩ | hb
  · obtain ⟨g, hg, hb⟩ := ih x hx h
    exact ⟨g, mem_nodes_of_child hx hg, hb⟩
  · exact ⟨f, mem_nodes_self f, hb⟩

/-- The kinds of faults that a filter can have. -/
theorem kind_of_breach {kind : Cause.Kind} (h : f.Breach m kind) :
    kind ∈ [.filter, .unsupportedOperator, .nullComparison, .conversion, .unstorable] := by
  cases h with
  | conversion hv h => rcases Value.convert_eq_error h with h | h <;> rw [h] <;> decide
  | _ => decide

end Filter

/-- A filter in which no call that has a meaning is without operands compiles just when no rule is
broken at any of its nodes.  If it does not, it says so by the kind of a rule that it breaks. -/
theorem predicate_isOk_iff (m : Model) (inline : Bool) (f : Filter)
    (hf : ∀ k : Method, .function k.name [] ∉ f.nodes) :
    ((∃ q, m.predicate inline f = .ok q) ↔ ∀ g ∈ f.nodes, ∀ kind, ¬ g.Breach m kind) ∧
    ∀ e, m.predicate inline f = .error e →
      (∃ g ∈ f.nodes, g.Breach m e.kind) ∧
      e.kind ∈ [.filter, .unsupportedOperator, .nullComparison, .conversion, .unstorable] := by
  have herror : ∀ e, m.predicate inline f = .error e → ∃ g ∈ f.nodes, g.Breach m e.kind :=
    fun e he => f.exists_breach_of_lower_eq_error (Model.predicate_eq_error_iff.1 he)
  refine ⟨⟨?_, fun hgood => ?_⟩, fun e he => ?_⟩
  · rintro ⟨q, hq⟩ g hg kind
    obtain ⟨t, ht, -⟩ := Model.predicate_eq_ok_iff.1 hq
    obtain ⟨u, hu⟩ := Filter.exists_lower_of_mem_nodes ht g hg
    exact Filter.not_breach_of_lower hu (fun k hk => hf k (hk ▸ hg)) kind
  · rcases hq : m.predicate inline f with e | q
    · obtain ⟨g, hg, hb⟩ := herror e hq
      exact absurd hb (hgood g hg e.kind)
    · exact ⟨q, rfl⟩
  · obtain ⟨g, hg, hb⟩ := herror e he
    exact ⟨⟨g, hg, hb⟩, Filter.kind_of_breach hb⟩

/-- The notes of `noteFilter`, and those whose title is as long as what is captured, which is a
column and not a value. -/
def noteLengthFilter : Filter :=
  .compare .or noteFilter
    (.compare .eq (.function "length" [.field "title"])
      (.function "abs" [.captured "limit" (.field "id")]))

theorem predicate_isOk_iff_notes :
    (∀ g ∈ noteFilter.nodes, ∀ kind, ¬ g.Breach notes kind) ∧
    ∃ g ∈ noteLengthFilter.nodes, g.Breach notes .filter := by
  have hgood := predicate_isOk_iff notes false noteFilter fun k => by
    simp [noteFilter, Filter.compare, Filter.null, Filter.nodes, Filter.allNodes]
  have hbad := predicate_isOk_iff notes false noteLengthFilter fun k => by
    simp [noteLengthFilter, noteFilter, Filter.compare, Filter.null, Filter.nodes, Filter.allNodes]
  have he : notes.predicate false noteLengthFilter
      = .error (.ofCause (.filter (.capturedNonValue "limit"))) := by decide +kernel
  exact ⟨hgood.1.1 ⟨noteQuery, by decide +kernel⟩, (hbad.2 _ he).1⟩

end RecordMap
