import RecordMap.Proofs.ReadBack

/-!
# Rows over time

A row is made of the entries that were pushed and not taken since.  What one call does to the
entries is said once (`push_cases`, `perform_take_of_standsFor`), and what every call keeps holds
after each history (`inv_after`): no name is in the row twice, each has the value that was pushed
last, and the names stand in the order in which they were last new.
-/

namespace RecordMap.Row

open Text

/-! ## Calls -/

inductive Step
  | push (name : String) (v : Stored)
  | get (name : String)
  | take (name : String)

/-- The answer to a call and the row that it leaves. -/
def perform (r : Row) : Step → Option Stored × Row
  | .push name v => (none, r.push name v)
  | .get name => (r.get? name, r)
  | .take name =>
    match r.take? name with
    | some (v, r') => (some v, r')
    | none => (none, r)

def after (r : Row) (steps : List Step) : Row := steps.foldl (fun r s => (r.perform s).2) r

/-- The name that a call brings into the row, if it was not there. -/
def newName? (r : Row) : Step → Option String
  | .push name _ => if name ∈ r.names then none else some name
  | .get _ | .take _ => none

/-- The names in the order in which they came into the row, as often as they did. -/
def newNames (r : Row) : List Step → List String
  | [] => []
  | s :: steps => (r.newName? s).toList ++ newNames (r.perform s).2 steps

/-- The value that was pushed last under a name. -/
def lastPushed? (name : String) (steps : List Step) : Option Stored :=
  steps.reverse.findSome? fun
    | .push n v => if n = name then some v else none
    | .get _ | .take _ => none

theorem after_concat (r : Row) (steps : List Step) (s : Step) :
    r.after (steps ++ [s]) = ((r.after steps).perform s).2 := by
  rw [after, List.foldl_append]
  rfl

theorem newNames_concat : ∀ (steps : List Step) (r : Row) (s : Step),
    r.newNames (steps ++ [s]) = r.newNames steps ++ ((r.after steps).newName? s).toList
  | [], r, s => by simp [newNames, after]
  | t :: steps, r, s => by
    rw [List.cons_append, newNames, newNames, newNames_concat steps, List.append_assoc]
    rfl

theorem lastPushed?_concat (name : String) (steps : List Step) (s : Step) :
    lastPushed? name (steps ++ [s]) = (lastPushed? name [s]).or (lastPushed? name steps) := by
  rw [lastPushed?, lastPushed?, List.reverse_append, List.findSome?_append]
  rfl

/-- A row made of entries is one into which they were pushed. -/
theorem ofList_eq_after (es : List (String × Stored)) :
    ofList es = empty.after (es.map fun e => .push e.1 e.2) := by
  rw [ofList, after, List.foldl_map]
  rfl

/-! ## What one call does -/

theorem putEntry_of_mem {name : String} (v : Stored) : ∀ {es : List (String × Stored)},
    name ∈ es.map Prod.fst → ∃ before w behind, es = before ++ (name, w) :: behind ∧
      putEntry name v es = before ++ (name, v) :: behind
  | [], h => by simp at h
  | e :: es, h => by
    by_cases he : e.1 = name
    · refine ⟨[], e.2, es, ?_, ?_⟩
      · rw [← he]
        rfl
      · rw [putEntry, if_pos he]
        rfl
    · have hes : name ∈ es.map Prod.fst := by
        rw [List.map_cons, List.mem_cons] at h
        exact h.resolve_left fun hname => he hname.symm
      obtain ⟨before, w, behind, hentries, hput⟩ := putEntry_of_mem v hes
      refine ⟨e :: before, w, behind, by rw [hentries]; rfl, ?_⟩
      rw [putEntry, if_neg he, hput]
      rfl

/-- A name that is in the row keeps its place and changes its value, and another comes last. -/
theorem push_cases (r : Row) (name : String) (v : Stored) :
    (∃ before w behind, r.entries = before ++ (name, w) :: behind ∧
      (r.push name v).entries = before ++ (name, v) :: behind) ∨
    name ∉ r.names ∧ (r.push name v).entries = r.entries ++ [(name, v)] := by
  by_cases h : name ∈ r.names
  · exact .inl (putEntry_of_mem v h)
  · exact .inr ⟨h, putEntry_of_notMem h⟩

/-- The entry for which the name stands leaves the row, and no other. -/
theorem perform_take_of_standsFor {r : Row} (hr : r.names.Nodup)
    {before behind : List (String × Stored)} {e : String × Stored}
    (hentries : r.entries = before ++ e :: behind) {name : String}
    (h : StandsFor name before e behind) :
    r.perform (.take name) = (some e.2, ⟨before ++ behind⟩) := by
  have herase : r.erase e.1 = ⟨before ++ behind⟩ := by
    rw [← entries_erase hr hentries]
  rw [perform, take?_eq_map, entry?_of_standsFor hr hentries h, Option.map_some, herase]

theorem perform_take_of_none {r : Row} {name : String} (h : r.entry? name = none) :
    r.perform (.take name) = (none, r) := by
  rw [perform, take?_eq_map, h]
  rfl

/-- A name is taken for the value that it would be looked up with. -/
theorem perform_take_fst (r : Row) (name : String) :
    (r.perform (.take name)).1 = r.get? name := by
  rw [perform, take?_eq_map, get?_eq_map]
  cases r.entry? name with
  | none => rfl
  | some e => rfl

/-! ## What every call keeps -/

theorem dedup_concat (l : List String) (name : String) :
    (l ++ [name]).dedup = l.dedup.filter (· ≠ name) ++ [name] := by
  induction l with
  | nil => rfl
  | cons a l ih =>
    by_cases ha : a ∈ l
    · rw [List.cons_append, List.dedup_cons_of_mem (List.mem_append_left _ ha), ih,
        List.dedup_cons_of_mem ha]
    · by_cases hname : a = name
      · subst hname
        rw [List.cons_append, List.dedup_cons_of_mem (by simp), ih, List.dedup_cons_of_notMem ha]
        simp
      · rw [List.cons_append, List.dedup_cons_of_notMem (by simp [ha, hname]), ih,
          List.dedup_cons_of_notMem ha, List.filter_cons_of_pos (by simpa using hname)]
        rfl

/-- What holds of a row with the given calls behind it. -/
structure Inv (steps : List Step) (r : Row) : Prop where
  nodup : r.names.Nodup
  order : r.names.Sublist (empty.newNames steps).dedup
  value : ∀ e ∈ r.entries, lastPushed? e.1 steps = some e.2

variable {steps : List Step}

/-- A call that pushes nothing keeps what it leaves in the row. -/
theorem Inv.of_sublist {r : Row} {s : Step} (h : Inv steps (empty.after steps))
    (hs : ∀ name v, s ≠ .push name v) (hr : r.entries.Sublist (empty.after steps).entries) :
    Inv (steps ++ [s]) r := by
  have hnew : (empty.after steps).newName? s = none := by
    cases s with
    | push name v => exact absurd rfl (hs name v)
    | get | take => rfl
  have hlast : ∀ name, lastPushed? name [s] = none := by
    cases s with
    | push name v => exact absurd rfl (hs name v)
    | get | take => exact fun _ => rfl
  refine ⟨h.nodup.sublist (hr.map _), ?_, fun e he => ?_⟩
  · rw [newNames_concat, hnew, Option.toList_none, List.append_nil]
    exact (hr.map _).trans h.order
  · rw [lastPushed?_concat, hlast, Option.none_or]
    exact h.value e (hr.subset he)

theorem Inv.push (h : Inv steps (empty.after steps)) (name : String) (v : Stored) :
    Inv (steps ++ [.push name v]) ((empty.after steps).push name v) := by
  have hlast : ∀ other, lastPushed? other [.push name v] = if name = other then some v else none :=
    fun other => by simp [lastPushed?]
  rcases push_cases (empty.after steps) name v with ⟨before, w, behind, hold, hnew⟩ | ⟨hmem, hnew⟩
  · -- the names are the same, so only the value changes
    have hnames : ((empty.after steps).push name v).names = (empty.after steps).names := by
      rw [names, names, hold, hnew]
      simp
    have hmem : name ∈ (empty.after steps).names := by
      rw [names, hold]
      simp
    refine ⟨hnames ▸ h.nodup, ?_, fun e he => ?_⟩
    · rw [newNames_concat, hnames, newName?, if_pos hmem, Option.toList_none, List.append_nil]
      exact h.order
    · rw [lastPushed?_concat, hlast]
      rw [hnew, List.mem_append, List.mem_cons, or_left_comm, ← List.mem_append] at he
      rcases he with rfl | he
      · simp
      · have hne : e.1 ≠ name := ne_of_entries h.nodup hold e he
        have hmem : e ∈ (empty.after steps).entries := by
          rw [hold]
          exact ((List.sublist_cons_self ..).append_left before).subset he
        rw [if_neg hne.symm, Option.none_or]
        exact h.value e hmem
  · have hnames : ((empty.after steps).push name v).names
        = (empty.after steps).names ++ [name] := by
      rw [names, hnew]
      simp [names]
    refine ⟨?_, ?_, fun e he => ?_⟩
    · rw [hnames, ← List.concat_eq_append]
      exact h.nodup.concat hmem
    · rw [newNames_concat, hnames, newName?, if_neg hmem, Option.toList_some, dedup_concat]
      have hkept : (empty.after steps).names.filter (· ≠ name) = (empty.after steps).names :=
        List.filter_eq_self.2 fun a ha => decide_eq_true fun hname => hmem (hname ▸ ha)
      rw [← hkept]
      exact (h.order.filter _).append_right _
    · rw [lastPushed?_concat, hlast]
      rw [hnew, List.mem_append, List.mem_singleton] at he
      rcases he with he | rfl
      · have hne : name ≠ e.1 := fun hname => hmem (hname ▸ List.mem_map_of_mem he)
        rw [if_neg hne, Option.none_or]
        exact h.value e he
      · simp

/-- What one call keeps. -/
theorem Inv.perform (h : Inv steps (empty.after steps)) (s : Step) :
    Inv (steps ++ [s]) (empty.after (steps ++ [s])) := by
  rw [after_concat]
  cases s with
  | push name v => exact h.push name v
  | get name => exact h.of_sublist (by simp) (List.Sublist.refl _)
  | take name =>
    cases hentry : entry? (empty.after steps) name with
    | none =>
      rw [perform_take_of_none hentry]
      exact h.of_sublist (by simp) (List.Sublist.refl _)
    | some e =>
      obtain ⟨before, behind, hentries, hstands⟩ := exists_standsFor hentry
      rw [perform_take_of_standsFor h.nodup hentries hstands]
      refine h.of_sublist (by simp) ?_
      rw [hentries]
      exact (List.sublist_cons_self ..).append_left before

/-- What every history keeps. -/
theorem inv_after (steps : List Step) : Inv steps (empty.after steps) := by
  induction steps using List.reverseRecOn with
  | nil => exact ⟨List.nodup_nil, List.Sublist.refl _, fun _ he => absurd he List.not_mem_nil⟩
  | append_singleton steps s ih => exact ih.perform s

/-- After every history, however the row began, its names are different and stand in the order in
which they were last new, with the values pushed last.  A push changes the value of a name in its
place or puts the name behind the others.  Looking a name up changes nothing; taking it gives the
same answer and takes that entry alone out of the row. -/
theorem laws_of_history (es : List (String × Stored)) (steps : List Step) :
    ofList es = empty.after (es.map fun e => .push e.1 e.2) ∧
    let history := (es.map fun e => .push e.1 e.2) ++ steps
    let r := (ofList es).after steps
    r = empty.after history ∧ r.names.Nodup ∧ r.names.Sublist (empty.newNames history).dedup ∧
    (∀ e ∈ r.entries, lastPushed? e.1 history = some e.2) ∧
    (∀ name v,
      (∃ before w behind, r.entries = before ++ (name, w) :: behind ∧
        r.perform (.push name v) = (none, ⟨before ++ (name, v) :: behind⟩)) ∨
      name ∉ r.names ∧ r.perform (.push name v) = (none, ⟨r.entries ++ [(name, v)]⟩)) ∧
    ∀ name,
      r.perform (.get name) = (r.get? name, r) ∧
      (∀ v, r.get? name = some v ↔ ∃ before n behind,
        r.entries = before ++ (n, v) :: behind ∧ StandsFor name before (n, v) behind) ∧
      (r.perform (.take name)).1 = r.get? name ∧
      (r.get? name = none → (r.perform (.take name)).2 = r) ∧
      ∀ before e behind, r.entries = before ++ e :: behind → StandsFor name before e behind →
        (r.perform (.take name)).2 = ⟨before ++ behind⟩ := by
  refine ⟨ofList_eq_after es, ?_⟩
  intro history r
  have hr : r = empty.after history := by
    simp only [r, history, ofList_eq_after, after, List.foldl_append]
  obtain ⟨hnodup, horder, hvalue⟩ := inv_after history
  rw [← hr] at hnodup horder hvalue
  refine ⟨hr, hnodup, horder, hvalue, fun name v => ?_, fun name =>
    ⟨rfl, fun v => get?_eq_some_iff_append hnodup, perform_take_fst r name, fun hnone => ?_,
      fun before e behind hentries h => ?_⟩⟩
  · rcases push_cases r name v with ⟨before, w, behind, hold, hnew⟩ | ⟨hmem, hnew⟩
    · refine .inl ⟨before, w, behind, hold, ?_⟩
      rw [← hnew]
      rfl
    · refine .inr ⟨hmem, ?_⟩
      rw [← hnew]
      rfl
  · rw [get?_eq_map, Option.map_eq_none_iff] at hnone
    rw [perform_take_of_none hnone]
  · rw [perform_take_of_standsFor hnodup hentries h]

/-- Of two names that differ in case the first is taken for a third, and the other is left. -/
theorem laws_of_history_id :
    let r := ofList [("Id", .null), ("ID", .text "x")]
    r.perform (.take "id") = (some .null, ⟨[("ID", .text "x")]⟩) := by
  intro r
  obtain ⟨-, -, -, -, -, -, hlaws⟩ := laws_of_history [("Id", .null), ("ID", .text "x")] []
  obtain ⟨-, hget, htake, -, hleft⟩ := hlaws "id"
  have hentries : r.entries = [] ++ ("Id", .null) :: [("ID", .text "x")] := by decide +kernel
  have hstands : StandsFor "id" [] ("Id", .null) [("ID", .text "x")] :=
    .inr ⟨by decide +kernel, by decide +kernel, by simp⟩
  refine Prod.ext ?_ (hleft _ _ _ hentries hstands)
  exact htake.trans ((hget _).2 ⟨[], "Id", _, hentries, hstands⟩)

/-- A name that was taken comes last when it is pushed again. -/
example : (empty.after [.push "A" .null, .push "a" .null, .take "A", .push "A" .null]).names
    = ["a", "A"] := by decide +kernel

end RecordMap.Row
