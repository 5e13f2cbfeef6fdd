import RecordMap.Proofs.Breaches

/-!
# How many operands a call has

A call whose name has a meaning is made on two operands, of which the receiver is the first, and is
written in its own way.  With any other number of operands it does not compile.

But a name that stands alone, without a receiver and without arguments, goes through as any name
does.  The calls that are written for names with a meaning are just those
(`predicate_operandCount`).
-/

namespace RecordMap

open Sql

namespace Sql.Term

mutual

/-- What is written as a call, each by its name and operands. -/
def calls : Term → List (String × List Term)
  | .column _ | .literal _ => []
  | .binary _ l r => calls l ++ calls r
  | .isNull _ t => calls t
  | .like t p => calls t ++ calls p
  | .equals t x => calls t ++ calls x
  | .pattern _ _ t => calls t
  | .call name ts => (name, ts) :: allCalls ts

def allCalls : List Term → List (String × List Term)
  | [] => []
  | t :: ts => calls t ++ allCalls ts

end

theorem mem_allCalls {c : String × List Term} {ts : List Term} :
    c ∈ allCalls ts ↔ ∃ t ∈ ts, c ∈ t.calls := by
  induction ts with
  | nil => simp [allCalls]
  | cons t ts ih => simp [allCalls, ih]

variable {k : Method} {x y p t : Term} {leading trailing : Bool} {c : String × List Term}

theorem mem_calls_surround (h : surround k leading trailing y = .ok p) :
    c ∈ p.calls ↔ c ∈ y.calls := by
  rcases surround_cases h with ⟨_, _, rfl, -, rfl⟩ | ⟨-, rfl⟩ <;> simp only [calls]

theorem mem_calls_applyMethod (h : applyMethod k x y = .ok t) :
    c ∈ t.calls ↔ c ∈ x.calls ∨ c ∈ y.calls := by
  rcases applyMethod_cases h with ⟨-, rfl⟩ | ⟨-, rfl⟩ | ⟨_, _, _, -, hp, rfl⟩
  · rw [calls, List.mem_append]
  · rw [calls, List.mem_append]
  · rw [calls, List.mem_append, mem_calls_surround hp]

theorem applyMethod_ne_call {name : String} {ts : List Term} :
    applyMethod k x y ≠ .ok (.call name ts) := by
  intro h
  rcases applyMethod_cases h with ⟨-, h⟩ | ⟨-, h⟩ | ⟨_, _, _, -, -, h⟩ <;> cases h

theorem apply_of_length {ts : List Term} (hne : ts ≠ []) (h : ts.length ≠ 2) :
    apply k.name ts = Outcome.fail (.filter (.argumentCount k.name (ts.length - 1))) := by
  match ts, hne, h with
  | [_], _, _ => rw [apply, Method.ofName?_eq_some.2 rfl]; rfl
  | _ :: _ :: _ :: _, _, _ => rw [apply, Method.ofName?_eq_some.2 rfl]; rfl

end Sql.Term

namespace Filter

variable {m : Model} {f : Filter} {t : Term} {c : String × List Term}

/-- The call stands for this node of the filter, and not for one below it. -/
def IsCall (m : Model) (c : String × List Term) (f : Filter) : Prop :=
  (∃ xs, f.call? = some (c.1, xs)) ∧ f.lower m = .ok (.call c.1 c.2)

theorem not_isCall (h : f.call? = none) : ¬ f.IsCall m c := by
  rintro ⟨⟨xs, hf⟩, -⟩
  rw [h] at hf
  cases hf

/-- A call in a term stands for its filter or comes from a child. -/
theorem mem_calls_cases (h : f.lower m = .ok t) :
    c ∈ t.calls ↔ f.IsCall m c ∨ ∃ x ∈ f.children, ∃ u, x.lower m = .ok u ∧ c ∈ u.calls := by
  have hpair : ∀ {x y : Filter} {x' y' : Term}, x.lower m = .ok x' → y.lower m = .ok y' →
      ((∃ z ∈ [x, y], ∃ u, z.lower m = .ok u ∧ c ∈ u.calls) ↔ c ∈ x'.calls ∨ c ∈ y'.calls) := by
    intro x y x' y' hx hy
    simp [hx, hy]
  have hsingle : ∀ {x : Filter} {x' : Term}, x.lower m = .ok x' →
      ((∃ z ∈ [x], ∃ u, z.lower m = .ok u ∧ c ∈ u.calls) ↔ c ∈ x'.calls) := by
    intro x x' hx
    simp [hx]
  cases makes_of_lower h with
  | value v => simp [Term.calls, children, not_isCall (f := .value v) rfl]
  | @field name c' hc => simp [Term.calls, children, not_isCall (f := .field name) rfl]
  | isNull hl hr hc hx =>
    rw [or_iff_right (not_isCall rfl), Term.calls, children, hpair hl hr]
    rcases hx with ⟨rfl, rfl⟩ | ⟨rfl, rfl⟩ <;> simp [Term.calls]
  | binary hl hr =>
    rw [or_iff_right (not_isCall rfl), Term.calls, children, hpair hl hr, List.mem_append]
  | captured hf =>
    rw [or_iff_right (not_isCall rfl), children, hsingle hf]
  | converted hf =>
    rw [or_iff_right (not_isCall rfl), children, hsingle hf, Term.calls, Term.calls]
  | unconverted hf =>
    rw [or_iff_right (not_isCall rfl), children, hsingle hf]
  | @call _ name xs ts hf hts hname =>
    have hcall : f.IsCall m c ↔ c = (name, ts) := by
      rw [IsCall, hf, h]
      simp [Prod.ext_iff, eq_comm]
    rw [hcall, children_of_call? hf, Term.calls, List.mem_cons, Term.mem_allCalls]
    refine or_congr Iff.rfl ⟨?_, ?_⟩
    · rintro ⟨u, hu, hc⟩
      obtain ⟨x, hx, hxu⟩ := Outcome.exists_of_mem_mapM hts u hu
      exact ⟨x, hx, u, hxu, hc⟩
    · rintro ⟨x, hx, u, hxu, hc⟩
      obtain ⟨u', hzip, hxu'⟩ := Outcome.exists_mem_zip_of_mapM hts hx
      rw [Except.ok.inj (hxu.symm.trans hxu')] at hc
      exact ⟨u', (List.of_mem_zip hzip).2, hc⟩
  | @method _ x y k x' y' _ hf hx hy ht =>
    have hcall : ¬ f.IsCall m c := by
      rintro ⟨-, hcall⟩
      rw [h] at hcall
      rw [Except.ok.inj hcall] at ht
      exact Term.applyMethod_ne_call ht
    rw [or_iff_right hcall, children_of_call? hf, hpair hx hy, Term.mem_calls_applyMethod ht]

theorem mem_calls_iff : ∀ (f : Filter) {t : Term}, f.lower m = .ok t →
    (c ∈ t.calls ↔ ∃ g ∈ f.nodes, g.IsCall m c) := by
  refine of_children fun f ih t h => ?_
  rw [mem_calls_cases h, exists_mem_nodes]
  refine or_congr Iff.rfl (exists_congr fun x => and_congr_right fun hx => ?_)
  obtain ⟨u, hu⟩ := exists_lower_of_mem_children h x hx
  simp only [hu, Except.ok.injEq, exists_eq_left', ih x hx hu]

/-- A name with a meaning is called only without a receiver and without arguments. -/
theorem isCall_method_iff {k : Method} {ts : List Term} :
    f.IsCall m (k.name, ts) ↔ f = .function k.name [] ∧ ts = [] := by
  constructor
  · rintro ⟨⟨xs, hf⟩, h⟩
    rw [lower_of_call? hf] at h
    obtain ⟨us, hus, h⟩ := Outcome.bind_eq_ok h
    rcases Term.apply_cases h with ⟨hname, hcall⟩ | ⟨_, _, _, -, -, h⟩
    · rw [Method.ofName?_eq_some.2 rfl] at hname
      obtain rfl : us = [] := hname.resolve_right nofun
      obtain rfl := List.length_eq_zero_iff.1 (Outcome.length_of_mapM hus).symm
      refine ⟨?_, (Term.call.inj hcall).2⟩
      -- a call on a receiver has an operand
      cases f with
      | function name fs =>
        cases hf
        rfl
      | _ => cases hf
    · exact absurd h Term.applyMethod_ne_call
  · rintro ⟨rfl, rfl⟩
    exact ⟨⟨[], rfl⟩, rfl⟩

variable {k : Method} {xs : List Filter}

theorem length_of_call? (hf : f.call? = some (k.name, xs)) (h : f.lower m = .ok t)
    (hne : f ≠ .function k.name []) : xs.length = 2 := by
  by_contra hlength
  refine not_breach_of_lower h (fun k' hk' => ?_) .filter (.operands hf hlength)
  rw [hk'] at hf hne
  injection hf with hf
  injection hf with hname
  exact hne (by rw [hname])

theorem ne_nil_of_call? (hf : f.call? = some (k.name, xs)) (hne : f ≠ .function k.name []) :
    xs ≠ [] := by
  rintro rfl
  cases f with
  | function name fs =>
    cases hf
    exact hne rfl
  | _ => cases hf

end Filter

/-- If a filter compiles, each call in it of a name that has a meaning is on two operands, unless
the name stands alone; and only names that stand alone are written as calls.  With any other number
of operands a call says so, and the filter that it is in does not compile. -/
theorem predicate_operandCount (m : Model) (inline : Bool) (f : Filter) :
    (∀ q, m.predicate inline f = .ok q →
      (∀ g ∈ f.nodes, ∀ (k : Method) xs, g.call? = some (k.name, xs) →
        xs.length = 2 ∨ g = .function k.name []) ∧
      ∃ t, f.lower m = .ok t ∧ q = Query.ofPieces (t.emission inline) ∧
        ∀ (k : Method) ts, (k.name, ts) ∈ t.calls ↔ .function k.name [] ∈ f.nodes ∧ ts = []) ∧
    ∀ g ∈ f.nodes, ∀ (k : Method) xs, g.call? = some (k.name, xs) → xs.length ≠ 2 →
      g ≠ .function k.name [] →
      (∃ e, m.predicate inline f = .error e ∧
        ((∀ h ∈ f.nodes, ∀ kind, h.Breach m kind → kind = .filter) → e.kind = .filter)) ∧
      ((∀ x ∈ xs, ∃ p, m.predicate inline x = .ok p) → m.predicate inline g
        = Outcome.fail (.filter (.argumentCount k.name (xs.length - 1)))) := by
  have hcount : ∀ q, m.predicate inline f = .ok q → ∀ g ∈ f.nodes, ∀ (k : Method) xs,
      g.call? = some (k.name, xs) → xs.length = 2 ∨ g = .function k.name [] := by
    intro q hq g hg k xs hcall
    obtain ⟨t, ht, -⟩ := Model.predicate_eq_ok_iff.1 hq
    obtain ⟨u, hu⟩ := Filter.exists_lower_of_mem_nodes ht g hg
    rw [or_iff_not_imp_right]
    exact Filter.length_of_call? hcall hu
  refine ⟨fun q hq => ⟨hcount q hq, ?_⟩, fun g hg k xs hcall hlength hne => ⟨?_, fun hxs => ?_⟩⟩
  · obtain ⟨t, ht, rfl⟩ := Model.predicate_eq_ok_iff.1 hq
    refine ⟨t, ht, rfl, fun k ts => ?_⟩
    simp only [Filter.mem_calls_iff f ht, Filter.isCall_method_iff]
    constructor
    · rintro ⟨g, hg, rfl, rfl⟩
      exact ⟨hg, rfl⟩
    · rintro ⟨hg, rfl⟩
      exact ⟨_, hg, rfl, rfl⟩
  · rcases hq : m.predicate inline f with e | q
    · refine ⟨e, rfl, fun hkind => ?_⟩
      obtain ⟨h, hh, hb⟩ :=
        f.exists_breach_of_lower_eq_error (Model.predicate_eq_error_iff.1 hq)
      exact hkind h hh e.kind hb
    · exact absurd ((hcount q hq g hg k xs hcall).resolve_right hne) hlength
  · obtain ⟨ts, hts⟩ : ∃ ts, xs.mapM (Filter.lower m) = .ok ts := by
      refine Outcome.exists_mapM_eq_ok fun x hx => ?_
      obtain ⟨p, hp⟩ := hxs x hx
      obtain ⟨t, ht, -⟩ := Model.predicate_eq_ok_iff.1 hp
      exact ⟨t, ht⟩
    have hsame : ts.length = xs.length := Outcome.length_of_mapM hts
    have hts' : ts ≠ [] := by
      rintro rfl
      exact Filter.ne_nil_of_call? hcall hne (List.length_eq_zero_iff.1 hsame.symm)
    refine Model.predicate_eq_error_iff.2 ?_
    rw [Filter.lower_of_call? hcall, hts, ← hsame]
    exact Term.apply_of_length hts' (hsame ▸ hlength)

/-- The title has in it one text or another, which is two arguments where there can be one. -/
def crowdedCall : Filter :=
  .method (.field "title") Method.contains.name [.value (.text "how"), .value (.text "why")]

def crowdedFilter : Filter := .compare .or noteFilter crowdedCall

theorem predicate_operandCount_notes :
    (∃ t, noteFilter.lower notes = .ok t ∧ ∀ (k : Method) ts, (k.name, ts) ∉ t.calls) ∧
    (∃ e, notes.predicate false crowdedFilter = .error e) ∧
    notes.predicate false crowdedCall
      = Outcome.fail (.filter (.argumentCount Method.contains.name 2)) := by
  have hq : notes.predicate false noteFilter = .ok noteQuery := by decide +kernel
  obtain ⟨-, t, ht, -, hcalls⟩ := (predicate_operandCount notes false noteFilter).1 noteQuery hq
  have hbare : ∀ k : Method, .function k.name [] ∉ noteFilter.nodes := fun k => by
    simp [noteFilter, Filter.compare, Filter.null, Filter.nodes, Filter.allNodes]
  have hmem : crowdedCall ∈ crowdedFilter.nodes :=
    Filter.mem_nodes_of_child (x := crowdedCall) (by simp [crowdedFilter, Filter.compare,
      Filter.children]) (Filter.mem_nodes_self _)
  obtain ⟨⟨e, he, -⟩, hcall⟩ := (predicate_operandCount notes false crowdedFilter).2 crowdedCall
    hmem .contains _ rfl (by decide) (by simp [crowdedCall])
  refine ⟨⟨t, ht, fun k ts hmem => hbare k ((hcalls k ts).1 hmem).1⟩, ⟨e, he⟩, hcall ?_⟩
  intro x hx
  simp only [List.mem_cons, List.not_mem_nil, or_false] at hx
  rcases hx with rfl | rfl | rfl
  · exact ⟨⟨"\x22what\x22\x22?\x22", []⟩, by decide +kernel⟩
  · exact ⟨⟨"?", [.text "how"]⟩, by decide +kernel⟩
  · exact ⟨⟨"?", [.text "why"]⟩, by decide +kernel⟩

def bareCall : Filter := .function Method.like.name []

/-- Not every call of a name that has a meaning is on two operands. -/
theorem not_predicate_operandCount :
    notes.predicate true bareCall = .ok ⟨"like()", []⟩ ∧
    ¬ ∀ q, notes.predicate true bareCall = .ok q → ∀ g ∈ bareCall.nodes, ∀ (k : Method) xs,
        g.call? = some (k.name, xs) → xs.length = 2 := by
  have hq : notes.predicate true bareCall = .ok ⟨"like()", []⟩ := by decide +kernel
  refine ⟨hq, fun h => ?_⟩
  have hlength := h _ hq bareCall (Filter.mem_nodes_self _) .like [] rfl
  cases hlength

end RecordMap
