import Mathlib
import RecordMap.Row

/-!
# The entry of a name

A name is looked up in one walk over the row and taken out of it in another, but both find the same
entry (`get?_eq_map`, `take?_eq_map`): the one of exactly this name, and if there is none the
first one of this name in any case.  If no two names of the row are the same, this says where in the
row the entry is (`get?_eq_some_iff_append`) and that it alone is taken out (`entries_erase`).
-/

namespace RecordMap

open Text

namespace Row

/-- The entry that a name stands for. -/
def entry? (r : Row) (name : String) : Option (String × Stored) :=
  match r.entries.find? (·.1 = name) with
  | some e => some e
  | none => r.caseless? name

theorem entry?_eq_or (r : Row) (name : String) : r.entry? name =
    (r.entries.find? (·.1 = name)).or (r.entries.find? fun e => sameCaseless e.1 name) := by
  unfold entry? caseless?
  split <;> simp [*]

theorem get?_eq_map (r : Row) (name : String) : r.get? name = (r.entry? name).map Prod.snd := by
  unfold get? named? entry?
  cases r.entries.find? (·.1 = name) with
  | none => rfl
  | some e => rfl

/-- The first name that is another one in any case is also the first of exactly its own letters. -/
theorem find?_of_caseless? {r : Row} {name : String} {e : String × Stored}
    (h : r.caseless? name = some e) : r.entries.find? (·.1 = e.1) = some e := by
  obtain ⟨hname, before, behind, hentries, hbefore⟩ := List.find?_eq_some_iff_append.1 h
  refine List.find?_eq_some_iff_append.2 ⟨by simp, before, behind, hentries, fun x hx => ?_⟩
  have hx' := hbefore x hx
  simp only [Bool.not_eq_eq_eq_not, Bool.not_true, decide_eq_false_iff_not] at hx' ⊢
  rintro hsame
  rw [hsame, hname] at hx'
  cases hx'

theorem take?_eq_map (r : Row) (name : String) :
    r.take? name = (r.entry? name).map fun e => (e.2, r.erase e.1) := by
  unfold take? remove? named? entry?
  cases hexact : r.entries.find? (·.1 = name) with
  | none =>
    cases hcaseless : r.caseless? name with
    | none => rfl
    | some e => simp [find?_of_caseless? hcaseless]
  | some e =>
    have hname : e.1 = name := by simpa using List.find?_some hexact
    simp [hname]

/-- The names of the row in their order. -/
def names (r : Row) : List String := r.entries.map Prod.fst

/-- The name stands for the entry with these others before and behind it. -/
def StandsFor (name : String) (before : List (String × Stored)) (e : String × Stored)
    (behind : List (String × Stored)) : Prop :=
  e.1 = name ∨ (∀ x ∈ before ++ e :: behind, x.1 ≠ name) ∧ sameCaseless e.1 name = true ∧
    ∀ x ∈ before, sameCaseless x.1 name = false

section Distinct

variable {r : Row} (hr : r.names.Nodup) {before behind : List (String × Stored)}
  {e : String × Stored} (hentries : r.entries = before ++ e :: behind)

include hr hentries

theorem ne_of_entries : ∀ x ∈ before ++ behind, x.1 ≠ e.1 := by
  rw [names, hentries, List.map_append, List.map_cons] at hr
  have hnotMem := (List.nodup_middle.1 hr).notMem
  intro x hx hname
  rw [← List.map_append, ← hname] at hnotMem
  exact hnotMem (List.mem_map_of_mem hx)

theorem entries_erase : (r.erase e.1).entries = before ++ behind := by
  have hne := ne_of_entries hr hentries
  have hbefore : before.filter (fun x => decide (x.1 ≠ e.1)) = before :=
    List.filter_eq_self.2 fun x hx => decide_eq_true (hne x (List.mem_append_left _ hx))
  have hbehind : behind.filter (fun x => decide (x.1 ≠ e.1)) = behind :=
    List.filter_eq_self.2 fun x hx => decide_eq_true (hne x (List.mem_append_right _ hx))
  rw [erase, hentries, List.filter_append, List.filter_cons_of_neg (by simp), hbefore, hbehind]

theorem entry?_of_standsFor {name : String} (h : StandsFor name before e behind) :
    r.entry? name = some e := by
  rw [entry?_eq_or, hentries]
  rcases h with hname | ⟨hexact, hname, hbefore⟩
  · have hne := ne_of_entries hr hentries
    rw [Option.or_eq_some_iff]
    refine .inl (List.find?_eq_some_iff_append.2 ⟨by simpa using hname, before, behind, rfl, ?_⟩)
    intro x hx
    simpa [hname] using hne x (List.mem_append_left _ hx)
  · have hnone : (before ++ e :: behind).find? (·.1 = name) = none :=
      List.find?_eq_none.2 fun x hx => by simpa using hexact x hx
    rw [hnone, Option.none_or]
    refine List.find?_eq_some_iff_append.2 ⟨hname, before, behind, rfl, fun x hx => ?_⟩
    simp [hbefore x hx]

end Distinct

theorem exists_standsFor {r : Row} {name : String} {e : String × Stored}
    (h : r.entry? name = some e) :
    ∃ before behind, r.entries = before ++ e :: behind ∧ StandsFor name before e behind := by
  unfold entry? at h
  split at h
  · rename_i hexact
    obtain rfl := Option.some.inj h
    obtain ⟨hname, before, behind, hentries, -⟩ := List.find?_eq_some_iff_append.1 hexact
    exact ⟨before, behind, hentries, .inl (by simpa using hname)⟩
  · rename_i hexact
    obtain ⟨hname, before, behind, hentries, hbefore⟩ := List.find?_eq_some_iff_append.1 h
    refine ⟨before, behind, hentries, .inr ⟨fun x hx => ?_, hname, fun x hx => ?_⟩⟩
    · rw [← hentries] at hx
      simpa using List.find?_eq_none.1 hexact x hx
    · simpa using hbefore x hx

theorem get?_eq_some_iff_append {r : Row} (hr : r.names.Nodup) {name : String} {v : Stored} :
    r.get? name = some v ↔ ∃ before n behind,
      r.entries = before ++ (n, v) :: behind ∧ StandsFor name before (n, v) behind := by
  rw [get?_eq_map, Option.map_eq_some_iff]
  constructor
  · rintro ⟨⟨n, v⟩, hentry, rfl⟩
    obtain ⟨before, behind, hfound⟩ := exists_standsFor hentry
    exact ⟨before, n, behind, hfound⟩
  · rintro ⟨before, n, behind, hentries, h⟩
    exact ⟨(n, v), entry?_of_standsFor hr hentries h, rfl⟩

end Row

end RecordMap
