import Mathlib.Data.List.Infix
import Mathlib.Tactic.Common
import RecordMap.Text.Caseless

/-!
# Patterns

In a pattern `%` stands for any run of characters, `_` for any one character, and every other
character for itself in either case, if it is a letter of ASCII.

A pattern in two parts accepts the texts in two parts of which each is accepted by its own
(`accepts_append_iff`).  So one with wildcards around it accepts the texts in which some part is
accepted by what stands between them (`accepts_around_iff`), and if that has no wildcard in it, the
texts that have it as a part with the case left aside (`accepts_around_plain_iff`).
-/

namespace RecordMap.Sql.Pattern

open Text

/-- Whether a character of a pattern other than `%` can stand for `d`. -/
def standsFor (c d : Char) : Bool := c = '_' || c.toLower = d.toLower

/-- Whether a text is what the pattern asks for, as a whole. -/
def accepts : List Char → List Char → Bool
  | [], s => s.isEmpty
  | c :: p, s =>
    if c = '%' then s.tails.any (accepts p)
    else
      match s with
      | [] => false
      | d :: s => standsFor c d && accepts p s

section Accepts

variable {c : Char} {p q s : List Char}

theorem accepts_nil_iff : accepts [] s = true ↔ s = [] := List.isEmpty_iff

theorem accepts_run_iff :
    accepts ('%' :: p) s = true ↔ ∃ u t, s = u ++ t ∧ accepts p t = true := by
  simp only [accepts, ↓reduceIte, List.any_eq_true, List.mem_tails]
  constructor
  · rintro ⟨t, ⟨u, rfl⟩, ht⟩
    exact ⟨u, t, rfl, ht⟩
  · rintro ⟨u, t, rfl, ht⟩
    exact ⟨t, ⟨u, rfl⟩, ht⟩

theorem accepts_cons_iff (hc : c ≠ '%') :
    accepts (c :: p) s = true ↔ ∃ d t, s = d :: t ∧ standsFor c d = true ∧ accepts p t = true := by
  cases s with
  | nil => simp [accepts, hc]
  | cons d s => simp [accepts, hc]

theorem accepts_append_iff : ∀ {p s : List Char}, accepts (p ++ q) s = true ↔
    ∃ u t, s = u ++ t ∧ accepts p u = true ∧ accepts q t = true
  | [], s => by simp [accepts_nil_iff]
  | c :: p, s => by
    rw [List.cons_append]
    by_cases hc : c = '%'
    · -- the run takes some of the text, and the rest is in two parts
      subst hc
      simp only [accepts_run_iff, accepts_append_iff]
      constructor
      · rintro ⟨a, b, rfl, u, t, rfl, hu, ht⟩
        exact ⟨a ++ u, t, (List.append_assoc a u t).symm, ⟨a, u, rfl, hu⟩, ht⟩
      · rintro ⟨u, t, rfl, ⟨a, b, rfl, hb⟩, ht⟩
        exact ⟨a, b ++ t, List.append_assoc a b t, b, t, rfl, hb, ht⟩
    · simp only [accepts_cons_iff hc, accepts_append_iff]
      constructor
      · rintro ⟨d, b, rfl, hd, u, t, rfl, hu, ht⟩
        exact ⟨d :: u, t, rfl, ⟨d, u, rfl, hd, hu⟩, ht⟩
      · rintro ⟨u, t, rfl, ⟨d, b, rfl, hd, hb⟩, ht⟩
        exact ⟨d, b ++ t, rfl, hd, b, t, rfl, hb, ht⟩

/-- A pattern without wildcards accepts what differs from it in the case of letters only. -/
theorem accepts_plain_iff : ∀ {p s : List Char}, '%' ∉ p → '_' ∉ p →
    (accepts p s = true ↔ p.map Char.toLower = s.map Char.toLower)
  | [], s, _, _ => by
    rw [accepts_nil_iff, List.map_nil, List.nil_eq, List.map_eq_nil_iff]
  | c :: p, s, hrun, hone => by
    rw [List.mem_cons, not_or] at hrun hone
    have hstands : ∀ d, standsFor c d = true ↔ c.toLower = d.toLower := fun d => by
      simp [standsFor, Ne.symm hone.1]
    simp only [accepts_cons_iff (Ne.symm hrun.1), hstands, accepts_plain_iff hrun.2 hone.2]
    cases s with
    | nil => simp
    | cons d s => simp

end Accepts

/-- The text as a pattern with wildcards at its ends. -/
def around (leading trailing : Bool) (v : String) : String :=
  (if leading then "%" else "") ++ v ++ (if trailing then "%" else "")

/-- Whether `u` is a part of `s` with something before it if `leading`, and behind it if
`trailing`. -/
def PartOf (leading trailing : Bool) (u s : List Char) : Prop :=
  match leading, trailing with
  | true, true => u <:+: s
  | false, true => u <+: s
  | true, false => u <:+ s
  | false, false => u = s

section Around

variable {leading trailing : Bool} {u s : List Char} {v : String}

theorem partOf_iff : PartOf leading trailing u s ↔ ∃ a b, s = a ++ u ++ b ∧
    (leading = false → a = []) ∧ (trailing = false → b = []) := by
  cases leading <;> cases trailing <;>
    simp only [PartOf, List.IsInfix, List.IsPrefix, List.IsSuffix, forall_const, reduceCtorEq,
      false_implies, and_true, true_and, eq_comm (a := s)]
  · simp
  · simp
  · simp

theorem partOf_map_iff {f : Char → Char} : PartOf leading trailing u (s.map f) ↔
    ∃ w, PartOf leading trailing w s ∧ u = w.map f := by
  cases leading <;> cases trailing
  · simp [PartOf]
  · exact List.prefix_map_iff
  · exact List.suffix_map_iff
  · exact List.infix_map_iff

theorem accepts_wildcard_iff (wild : Bool) :
    accepts (if wild then "%" else "").toList s = true ↔ (wild = false → s = []) := by
  cases wild with
  | false => simp [accepts_nil_iff]
  | true =>
    refine iff_of_true (accepts_run_iff.2 ⟨s, [], (List.append_nil s).symm, rfl⟩) nofun

theorem accepts_around_iff : accepts (around leading trailing v).toList s = true ↔
    ∃ u, PartOf leading trailing u s ∧ accepts v.toList u = true := by
  simp only [around, String.toList_append, accepts_append_iff, accepts_wildcard_iff, partOf_iff]
  constructor
  · rintro ⟨w, b, rfl, ⟨a, u, rfl, ha, hu⟩, hb⟩
    exact ⟨u, ⟨a, b, rfl, ha, hb⟩, hu⟩
  · rintro ⟨u, ⟨a, b, rfl, ha, hb⟩, hu⟩
    exact ⟨a ++ u, b, rfl, ⟨a, u, rfl, ha, hu⟩, hb⟩

theorem accepts_around_plain_iff {s : String} (hrun : '%' ∉ v.toList) (hone : '_' ∉ v.toList) :
    accepts (around leading trailing v).toList s.toList = true ↔
      PartOf leading trailing (foldCase v) (foldCase s) := by
  rw [accepts_around_iff, foldCase, foldCase, partOf_map_iff]
  simp only [accepts_plain_iff hrun hone]

end Around

end RecordMap.Sql.Pattern
