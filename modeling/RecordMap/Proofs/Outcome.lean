import Mathlib.Data.List.Basic
import Mathlib.Data.List.Forall2
import RecordMap.Fault

/-!
# Outcomes

What is known of the parts of a computation that came to a value, and of a walk over a list that
stops at the first fault.
-/

namespace RecordMap.Outcome

variable {α β : Type}

theorem bind_eq_ok {x : Outcome α} {f : α → Outcome β} {b : β} (h : x >>= f = .ok b) :
    ∃ a, x = .ok a ∧ f a = .ok b := by
  rcases x with e | a
  · cases h
  · exact ⟨a, rfl, h⟩

theorem bind_eq_ok_iff {x : Outcome α} {f : α → Outcome β} {b : β} :
    x >>= f = .ok b ↔ ∃ a, x = .ok a ∧ f a = .ok b := by
  constructor
  · exact bind_eq_ok
  · rintro ⟨a, rfl, h⟩
    exact h

theorem bind_eq_error {x : Outcome α} {f : α → Outcome β} {e : Fault} (h : x >>= f = .error e) :
    x = .error e ∨ ∃ a, x = .ok a ∧ f a = .error e := by
  rcases x with e' | a
  · cases h
    exact .inl rfl
  · exact .inr ⟨a, rfl, h⟩

theorem map_eq_ok_iff {x : Outcome α} {g : α → β} {b : β} :
    x.map g = .ok b ↔ ∃ a, x = .ok a ∧ g a = b := by
  rcases x with e | a
  · constructor
    · intro h
      cases h
    · rintro ⟨_, h, -⟩
      cases h
  · constructor
    · intro h
      exact ⟨a, rfl, Except.ok.inj h⟩
    · rintro ⟨_, h, rfl⟩
      rw [← Except.ok.inj h]
      rfl

variable {f : α → Outcome β}

theorem mapM_cons_ok {a : α} {b : β} (h : f a = .ok b) (as : List α) :
    (a :: as).mapM f = (as.mapM f).map (b :: ·) := by
  rw [List.mapM_cons, h]
  cases as.mapM f <;> rfl

theorem mapM_cons_error {a : α} {e : Fault} (h : f a = .error e) (as : List α) :
    (a :: as).mapM f = .error e := by
  rw [List.mapM_cons, h]
  rfl

theorem map_of_mapM : ∀ {as : List α} {bs : List β}, as.mapM f = .ok bs →
    as.map f = bs.map .ok
  | [], bs, h => by
    rw [← Except.ok.inj h]
    rfl
  | a :: as, bs, h => by
    rcases ha : f a with e | b
    · rw [mapM_cons_error ha] at h
      cases h
    rw [mapM_cons_ok ha] at h
    rcases hs : as.mapM f with e | cs <;> rw [hs] at h
    · cases h
    rw [List.map_cons, ha, map_of_mapM hs, ← Except.ok.inj h]
    rfl

theorem mapM_eq_ok_iff {as : List α} {bs : List β} :
    as.mapM f = .ok bs ↔ as.map f = bs.map .ok := by
  refine ⟨map_of_mapM, fun h => ?_⟩
  induction as generalizing bs with
  | nil =>
    rw [List.map_eq_nil_iff.1 h.symm]
    rfl
  | cons a as ih =>
    obtain ⟨b, bs, rfl, hb, hbs⟩ := List.map_eq_cons_iff.1 h.symm
    rw [mapM_cons_ok hb.symm, ih hbs.symm]
    rfl

theorem exists_of_mem_mapM {as : List α} {bs : List β} (h : as.mapM f = .ok bs) (b : β)
    (hb : b ∈ bs) : ∃ a ∈ as, f a = .ok b := by
  have hmem : .ok b ∈ as.map f := map_of_mapM h ▸ List.mem_map_of_mem hb
  exact List.mem_map.1 hmem

theorem exists_mapM_eq_ok : ∀ {as : List α}, (∀ a ∈ as, ∃ b, f a = .ok b) →
    ∃ bs, as.mapM f = .ok bs
  | [], _ => ⟨[], rfl⟩
  | a :: as, h => by
    obtain ⟨b, hb⟩ := h a List.mem_cons_self
    obtain ⟨bs, hbs⟩ := exists_mapM_eq_ok fun c hc => h c (List.mem_cons_of_mem _ hc)
    refine ⟨b :: bs, ?_⟩
    rw [mapM_cons_ok hb, hbs]
    rfl

theorem length_of_mapM {as : List α} {bs : List β} (h : as.mapM f = .ok bs) :
    bs.length = as.length := by
  simpa using (congrArg List.length (map_of_mapM h)).symm

theorem forall₂_of_mapM {as : List α} {bs : List β} (h : as.mapM f = .ok bs) :
    List.Forall₂ (fun a b => f a = .ok b) as bs := by
  have hmap : List.Forall₂ (· = ·) (as.map f) (bs.map .ok) := by
    rw [List.forall₂_eq_eq_eq]
    exact map_of_mapM h
  rwa [List.forall₂_map_left_iff, List.forall₂_map_right_iff] at hmap

theorem mapM_pair {a a' : α} {bs : List β} (h : [a, a'].mapM f = .ok bs) :
    ∃ b b', bs = [b, b'] ∧ f a = .ok b ∧ f a' = .ok b' := by
  have hmap := map_of_mapM h
  obtain ⟨b, b', rfl⟩ := List.length_eq_two.1 (length_of_mapM h)
  simp only [List.map_cons, List.map_nil, List.cons.injEq, and_true] at hmap
  exact ⟨b, b', rfl, hmap⟩

theorem mapM_eq_pair {as : List α} {b b' : β} (h : as.mapM f = .ok [b, b']) :
    ∃ a a', as = [a, a'] ∧ f a = .ok b ∧ f a' = .ok b' := by
  obtain ⟨a, a', rfl⟩ := List.length_eq_two.1 (length_of_mapM h).symm
  obtain ⟨c, c', hc, ha⟩ := mapM_pair h
  cases hc
  exact ⟨a, a', rfl, ha⟩

theorem exists_mem_zip_of_mapM {as : List α} {bs : List β} (h : as.mapM f = .ok bs) {a : α}
    (ha : a ∈ as) : ∃ b, (a, b) ∈ as.zip bs ∧ f a = .ok b := by
  obtain ⟨i, hi, rfl⟩ := List.getElem_of_mem ha
  have hb : i < bs.length := length_of_mapM h ▸ hi
  refine ⟨bs[i], List.mem_iff_getElem.2 ⟨i, by rw [List.length_zip]; omega, by simp⟩, ?_⟩
  have := List.getElem_of_eq (map_of_mapM h) (by rwa [List.length_map])
  simpa using this

/-- A walk whose values are known has them all. -/
theorem eq_map_of_mapM {as : List α} {bs : List β} (h : as.mapM f = .ok bs) {g : α → β}
    (hg : ∀ {a b}, f a = .ok b → b = g a) : bs = as.map g := by
  have hok : as.map f = (as.map g).map .ok := by
    rw [List.map_map]
    refine List.map_congr_left fun a ha => ?_
    obtain ⟨b, -, hb⟩ := exists_mem_zip_of_mapM h ha
    rw [hb, hg hb]
    rfl
  exact (List.map_inj_right fun _ _ => Except.ok.inj).1 ((map_of_mapM h).symm.trans hok)

/-- The walk ends with the first fault. -/
theorem mapM_first_error {a : α} {e : Fault} (ha : f a = .error e) (after : List α) :
    ∀ {before : List α}, (∀ b ∈ before, ∃ c, f b = .ok c) →
      (before ++ a :: after).mapM f = .error e
  | [], _ => mapM_cons_error ha after
  | b :: before, h => by
    obtain ⟨c, hc⟩ := h b List.mem_cons_self
    rw [List.cons_append, mapM_cons_ok hc,
      mapM_first_error ha after fun d hd => h d (List.mem_cons_of_mem _ hd)]
    rfl

theorem mapM_eq_error_iff {e : Fault} : ∀ {as : List α}, as.mapM f = .error e ↔
    ∃ before a after, as = before ++ a :: after ∧ (∀ b ∈ before, ∃ c, f b = .ok c) ∧
      f a = .error e
  | [] => by
    constructor
    · intro h
      cases h
    · rintro ⟨before, a, after, h, -⟩
      simp at h
  | a :: as => by
    constructor
    · intro h
      rcases ha : f a with e' | b
      · rw [mapM_cons_error ha] at h
        cases h
        exact ⟨[], a, as, rfl, by simp, ha⟩
      · rw [mapM_cons_ok ha] at h
        rcases has : as.mapM f with e' | bs <;> rw [has] at h <;> cases h
        obtain ⟨before, c, after, rfl, hbefore, hc⟩ := mapM_eq_error_iff.1 has
        exact ⟨a :: before, c, after, rfl, List.forall_mem_cons.2 ⟨⟨b, ha⟩, hbefore⟩, hc⟩
    · rintro ⟨before, c, after, h, hbefore, hc⟩
      rw [h]
      exact mapM_first_error hc after hbefore

/-- A walk that threads a value fails at one element, up to which it has come. -/
theorem foldlM_eq_error {f : β → α → Outcome β} {e : Fault} : ∀ {as : List α} {b : β},
    as.foldlM f b = .error e → ∃ before a after b', as = before ++ a :: after ∧
      before.foldlM f b = .ok b' ∧ f b' a = .error e
  | [], b, h => nomatch h
  | a :: as, b, h => by
    rw [List.foldlM_cons] at h
    rcases bind_eq_error h with ha | ⟨c, hc, h⟩
    · exact ⟨[], a, as, b, rfl, rfl, ha⟩
    · obtain ⟨before, a', after, b', rfl, hbefore, ha'⟩ := foldlM_eq_error h
      refine ⟨a :: before, a', after, b', rfl, ?_, ha'⟩
      rw [List.foldlM_cons, hc]
      exact hbefore

end RecordMap.Outcome
