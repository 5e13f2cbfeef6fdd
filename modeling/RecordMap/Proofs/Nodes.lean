import RecordMap.Proofs.Lowering

/-!
# The nodes of a filter

What holds of a filter because it holds of the filters it is made of holds of all filters
(`of_children`), and what every filter passes on to those it is made of reaches every node
(`of_mem_nodes`).  So it is enough to look at one node and its children at a time: a filter that
has a term is made of filters that have one (`exists_lower_of_mem_children`).
-/

namespace RecordMap

open Sql

namespace Filter

/-- The filters that a filter is made of. -/
def children : Filter → List Filter
  | .value _ | .field _ => []
  | .binary _ l r => [l, r]
  | .captured _ f => [f]
  | .convert f _ => [f]
  | .method receiver _ fs => receiver :: fs
  | .function _ fs => fs

/-- The name of a call and its operands, of which the receiver is the first. -/
def call? : Filter → Option (String × List Filter)
  | .method receiver name fs => some (name, receiver :: fs)
  | .function name fs => some (name, fs)
  | .value _ | .field _ | .binary _ _ _ | .captured _ _ | .convert _ _ => none

mutual

/-- The filter and all that it is made of, however deep. -/
def nodes : Filter → List Filter
  | .value v => [.value v]
  | .field name => [.field name]
  | .binary op l r => .binary op l r :: (nodes l ++ nodes r)
  | .captured name f => .captured name f :: nodes f
  | .convert f ty => .convert f ty :: nodes f
  | .method receiver name fs => .method receiver name fs :: (nodes receiver ++ allNodes fs)
  | .function name fs => .function name fs :: allNodes fs

def allNodes : List Filter → List Filter
  | [] => []
  | f :: fs => nodes f ++ allNodes fs

end

theorem allNodes_eq_flatMap (fs : List Filter) : allNodes fs = fs.flatMap nodes := by
  induction fs with
  | nil => rfl
  | cons f fs ih => rw [allNodes, ih, List.flatMap_cons]

theorem nodes_eq (f : Filter) : f.nodes = f :: f.children.flatMap nodes := by
  cases f <;> simp [nodes, children, allNodes_eq_flatMap]

theorem mem_nodes_self (f : Filter) : f ∈ f.nodes := by simp [nodes_eq f]

theorem mem_nodes_of_child {f g x : Filter} (hx : x ∈ f.children) (hg : g ∈ x.nodes) :
    g ∈ f.nodes := by
  rw [nodes_eq f]
  exact List.mem_cons_of_mem _ (List.mem_flatMap.2 ⟨x, hx, hg⟩)

theorem mem_nodes_cases {f g : Filter} (h : g ∈ f.nodes) :
    g = f ∨ ∃ x ∈ f.children, g ∈ x.nodes := by
  rw [nodes_eq f] at h
  rcases List.mem_cons.1 h with h | h
  · exact .inl h
  · exact .inr (List.mem_flatMap.1 h)

theorem exists_mem_nodes {P : Filter → Prop} {f : Filter} :
    (∃ g ∈ f.nodes, P g) ↔ P f ∨ ∃ x ∈ f.children, ∃ g ∈ x.nodes, P g := by
  constructor
  · rintro ⟨g, hg, hP⟩
    rcases mem_nodes_cases hg with rfl | ⟨x, hx, hg⟩
    · exact .inl hP
    · exact .inr ⟨x, hx, g, hg, hP⟩
  · rintro (hP | ⟨x, hx, g, hg, hP⟩)
    · exact ⟨f, mem_nodes_self f, hP⟩
    · exact ⟨g, mem_nodes_of_child hx hg, hP⟩

section Induction
variable {P : Filter → Prop}

mutual

theorem of_children (h : ∀ f : Filter, (∀ x ∈ f.children, P x) → P f) : ∀ f, P f
  | .value _ => h _ nofun
  | .field _ => h _ nofun
  | .binary _ l r =>
    h _ (List.forall_mem_cons.2 ⟨of_children h l, List.forall_mem_singleton.2 (of_children h r)⟩)
  | .captured _ f => h _ (List.forall_mem_singleton.2 (of_children h f))
  | .convert f _ => h _ (List.forall_mem_singleton.2 (of_children h f))
  | .method receiver _ fs =>
    h _ (List.forall_mem_cons.2 ⟨of_children h receiver, forall_of_children h fs⟩)
  | .function _ fs => h _ (forall_of_children h fs)

theorem forall_of_children (h : ∀ f : Filter, (∀ x ∈ f.children, P x) → P f) :
    ∀ fs : List Filter, ∀ f ∈ fs, P f
  | [] => nofun
  | f :: fs => List.forall_mem_cons.2 ⟨of_children h f, forall_of_children h fs⟩

end

theorem of_mem_nodes (h : ∀ f : Filter, P f → ∀ x ∈ f.children, P x) {f : Filter} (hf : P f) :
    ∀ g ∈ f.nodes, P g := by
  refine of_children (P := fun f => P f → ∀ g ∈ f.nodes, P g) (fun f ih hf g hg => ?_) f hf
  rcases mem_nodes_cases hg with rfl | ⟨x, hx, hg⟩
  · exact hf
  · exact ih x hx (h f hf x hx) g hg

end Induction

variable {m : Model} {f : Filter} {t : Term} {e : Fault}

theorem lowerAll_eq_mapM (m : Model) (fs : List Filter) : lowerAll m fs = fs.mapM (lower m) := by
  induction fs with
  | nil => rfl
  | cons f fs ih => rw [lowerAll, ih, List.mapM_cons]

theorem lower_of_call? {name : String} {xs : List Filter} (h : f.call? = some (name, xs)) :
    f.lower m = xs.mapM (lower m) >>= Term.apply name := by
  rw [← lowerAll_eq_mapM]
  cases f with
  | method receiver name' fs =>
    cases h
    exact lower_method m receiver name fs
  | function name' fs =>
    cases h
    rfl
  | _ => cases h

theorem lower_of_method {k : Method} {x y : Filter} {x' y' : Term}
    (h : f.call? = some (k.name, [x, y])) (hx : x.lower m = .ok x') (hy : y.lower m = .ok y') :
    f.lower m = Term.applyMethod k x' y' := by
  have hoperands : [x, y].mapM (lower m) = .ok [x', y'] := by
    simp [List.mapM_cons, hx, hy]
    rfl
  rw [lower_of_call? h, hoperands]
  exact Term.apply_method k x' y'

theorem children_of_call? {name : String} {xs : List Filter} (h : f.call? = some (name, xs)) :
    f.children = xs := by
  cases f <;> cases h <;> rfl

/-- How a term is made for a filter, from the terms of its children. -/
inductive Makes (m : Model) : Filter → Term → Prop
  | value (v : Value) : Makes m (.value v) (.literal v)
  | field {name c : String} (hc : m.storedName name = .ok c) : Makes m (.field name) (.column c)
  | isNull {c : Connective} {negated : Bool} {l r : Filter} {l' r' x : Term}
    (hl : l.lower m = .ok l') (hr : r.lower m = .ok r') (hc : c = Term.nullConnective negated)
    (hx : l' = .literal .null ∧ x = r' ∨ r' = .literal .null ∧ x = l') :
    Makes m (.binary (.connective c) l r) (.isNull negated x)
  | binary {c : Connective} {l r : Filter} {l' r' : Term}
    (hl : l.lower m = .ok l') (hr : r.lower m = .ok r')
    (hl' : l' ≠ .literal .null) (hr' : r' ≠ .literal .null) :
    Makes m (.binary (.connective c) l r) (.binary c l' r')
  | captured {name : String} {f : Filter} {v : Value} (hf : f.lower m = .ok (.literal v)) :
    Makes m (.captured name f) (.literal v)
  | converted {f : Filter} {ty : FieldType} {v w : Value} (hf : f.lower m = .ok (.literal v))
    (hw : v.convert ty = .ok w) : Makes m (.convert f ty) (.literal w)
  | unconverted {f : Filter} {ty : FieldType} {t : Term} (hf : f.lower m = .ok t)
    (ht : t.value? = none) : Makes m (.convert f ty) t
  | call {f : Filter} {name : String} {xs : List Filter} {ts : List Term}
    (hf : f.call? = some (name, xs)) (hts : xs.mapM (lower m) = .ok ts)
    (hname : xs = [] ∨ Method.ofName? name = none) : Makes m f (.call name ts)
  | method {f x y : Filter} {k : Method} {x' y' t : Term} (hf : f.call? = some (k.name, [x, y]))
    (hx : x.lower m = .ok x') (hy : y.lower m = .ok y')
    (ht : Term.applyMethod k x' y' = .ok t) : Makes m f t

theorem makes_of_lower (h : f.lower m = .ok t) : f.Makes m t := by
  have hcall : ∀ {name xs}, f.call? = some (name, xs) → f.Makes m t := by
    intro name xs hf
    rw [lower_of_call? hf] at h
    obtain ⟨ts, hts, h⟩ := Outcome.bind_eq_ok h
    rcases Term.apply_cases h with ⟨hname, rfl⟩ | ⟨k, x', y', hk, rfl, ht⟩
    · refine .call hf hts (hname.imp_left ?_)
      rintro rfl
      exact List.length_eq_zero_iff.1 (Outcome.length_of_mapM hts).symm
    · obtain ⟨x, y, rfl, hx, hy⟩ := Outcome.mapM_eq_pair hts
      obtain rfl := Method.ofName?_eq_some.1 hk
      exact .method hf hx hy ht
  cases f with
  | value v =>
    rw [← Except.ok.inj h]
    exact .value v
  | field name =>
    rw [lower] at h
    obtain ⟨c, hc, rfl⟩ := Outcome.map_eq_ok_iff.1 h
    exact .field hc
  | binary op l r =>
    cases op with
    | arithmetic a => cases h
    | connective c =>
      rw [lower] at h
      obtain ⟨l', hl, h⟩ := Outcome.bind_eq_ok h
      obtain ⟨r', hr, h⟩ := Outcome.bind_eq_ok h
      rcases Term.compare_cases h with ⟨negated, x, hc, hx, rfl⟩ | ⟨hl', hr', rfl⟩
      · exact .isNull hl hr hc hx
      · exact .binary hl hr hl' hr'
  | captured name g =>
    rw [lower] at h
    obtain ⟨u, hu, h⟩ := Outcome.bind_eq_ok h
    obtain ⟨v, rfl, rfl⟩ := Term.capture_eq_ok h
    exact .captured hu
  | convert g ty =>
    rw [lower] at h
    obtain ⟨u, hu, h⟩ := Outcome.bind_eq_ok h
    rcases Term.convert_cases h with ⟨v, w, rfl, hw, rfl⟩ | ⟨hnone, rfl⟩
    · exact .converted hu hw
    · exact .unconverted hu hnone
  | method receiver name fs => exact hcall rfl
  | function name fs => exact hcall rfl

/-- What is made of filters has a term only if they all have one. -/
theorem exists_lower_of_mem_children (h : f.lower m = .ok t) :
    ∀ x ∈ f.children, ∃ t, x.lower m = .ok t := by
  have hpair : ∀ {x y : Filter} {x' y' : Term}, x.lower m = .ok x' → y.lower m = .ok y' →
      ∀ z ∈ [x, y], ∃ t, z.lower m = .ok t := fun hx hy =>
    List.forall_mem_cons.2 ⟨⟨_, hx⟩, List.forall_mem_singleton.2 ⟨_, hy⟩⟩
  cases makes_of_lower h with
  | value v => nofun
  | field hc => nofun
  | isNull hl hr => exact hpair hl hr
  | binary hl hr => exact hpair hl hr
  | captured hf => exact List.forall_mem_singleton.2 ⟨_, hf⟩
  | converted hf => exact List.forall_mem_singleton.2 ⟨_, hf⟩
  | unconverted hf => exact List.forall_mem_singleton.2 ⟨_, hf⟩
  | call hf hts =>
    rw [children_of_call? hf]
    intro x hx
    obtain ⟨u, -, hu⟩ := Outcome.exists_mem_zip_of_mapM hts hx
    exact ⟨u, hu⟩
  | method hf hx hy =>
    rw [children_of_call? hf]
    exact hpair hx hy

theorem exists_lower_of_mem_nodes (h : f.lower m = .ok t) :
    ∀ g ∈ f.nodes, ∃ t, g.lower m = .ok t :=
  of_mem_nodes (P := fun g => ∃ t, g.lower m = .ok t)
    (fun _ ⟨_, hg⟩ => exists_lower_of_mem_children hg) ⟨t, h⟩

end Filter

end RecordMap
