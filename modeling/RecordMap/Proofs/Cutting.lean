import RecordMap.Connection.Text
import RecordMap.Proofs.Spelling

/-!
# Cutting and trimming

A text cut at a separator and joined again is the text (`intercalate_split`), and parts without the
separator are found again in their text (`split_intercalate`).  Blanks around a text do not matter
once the parts are trimmed, since no separator is a blank (`map_trim_split`).
-/

namespace RecordMap.Text

section Cutting

variable {s : Char} {cs before after : List Char}

theorem split_eq_splitOn (s : Char) : ∀ cs : List Char, split s cs = cs.splitOn s
  | [] => rfl
  | c :: cs => by
    rw [split, split_eq_splitOn s cs, List.splitOn_cons_eq_if_modifyHead]
    by_cases h : c = s
    · simp [h]
    · rw [if_neg h, if_neg (by simpa using h)]
      rcases hs : cs.splitOn s with _ | ⟨part, parts⟩
      · exact absurd hs (List.splitOn_ne_nil s cs)
      · rfl

theorem split_of_notMem (h : s ∉ cs) : split s cs = [cs] := by
  rw [split_eq_splitOn, List.splitOn_eq_singleton h]

theorem split_append_cons (s : Char) (before after : List Char) :
    split s (before ++ s :: after) = split s before ++ split s after := by
  rw [split_eq_splitOn, split_eq_splitOn, split_eq_splitOn, List.splitOn_append_cons_self]

theorem intercalate_split (s : Char) (cs : List Char) : [s].intercalate (split s cs) = cs := by
  rw [split_eq_splitOn, List.intercalate_splitOn]

theorem split_intercalate {parts : List (List Char)} (h : ∀ part ∈ parts, s ∉ part)
    (hne : parts ≠ []) : split s ([s].intercalate parts) = parts := by
  rw [split_eq_splitOn, List.splitOn_intercalate s h hne]

theorem notMem_of_mem_split {part cs : List Char} (h : part ∈ split s cs) : s ∉ part := by
  by_cases hmem : s ∈ cs
  · obtain ⟨before, after, hcs, hbefore⟩ := List.eq_append_cons_of_mem hmem
    rw [hcs, split_append_cons, split_of_notMem hbefore] at h
    rcases List.mem_append.1 h with h | h
    · rwa [List.mem_singleton.1 h]
    · exact notMem_of_mem_split h
  · rw [split_of_notMem hmem] at h
    rwa [List.mem_singleton.1 h]
termination_by cs.length
decreasing_by
  rw [hcs, List.length_append, List.length_cons]
  omega

theorem mem_intercalate {c : Char} : ∀ {parts : List (List Char)},
    c ∈ [s].intercalate parts → c = s ∨ ∃ part ∈ parts, c ∈ part
  | [], h => by simp at h
  | [part], h => .inr ⟨part, by simp, by simpa using h⟩
  | part :: next :: rest, h => by
    rw [List.intercalate_cons_cons] at h
    simp only [List.mem_append, List.mem_singleton] at h
    rcases h with (h | h) | h
    · exact .inr ⟨part, List.mem_cons_self, h⟩
    · exact .inl h
    · rcases mem_intercalate h with hs | ⟨p, hp, hc⟩
      · exact .inl hs
      · exact .inr ⟨p, List.mem_cons_of_mem _ hp, hc⟩

theorem cut?_append (h : s ∉ before) : cut? s (before ++ s :: after) = some (before, after) := by
  have hbefore : ∀ c ∈ before, (c != s) = true := by
    intro c hc
    rw [bne_iff_ne]
    rintro rfl
    exact h hc
  rw [cut?, List.dropWhile_append_of_pos hbefore, List.takeWhile_append_of_pos hbefore]
  simp

theorem cut?_of_notMem (h : s ∉ cs) : cut? s cs = none := by
  have hcs : cs.dropWhile (· != s) = [] := by
    rw [List.dropWhile_eq_nil_iff]
    intro c hc
    rw [bne_iff_ne]
    rintro rfl
    exact h hc
  rw [cut?, hcs]

end Cutting

section Trimming

variable {bs cs : List Char}

theorem trimRight_append (h : ∀ c ∈ bs, isBlank c = true) (cs : List Char) :
    trimRight isBlank (cs ++ bs) = trimRight isBlank cs := by
  rw [trimRight, List.reverse_append, List.dropWhile_append_of_pos (by simpa using h), trimRight]

theorem trim_blanks_append (h : ∀ c ∈ bs, isBlank c = true) (cs : List Char) :
    trim (bs ++ cs) = trim cs := by
  rw [trim, List.dropWhile_append_of_pos h, trim]

theorem trim_append_blanks (h : ∀ c ∈ bs, isBlank c = true) (cs : List Char) :
    trim (cs ++ bs) = trim cs := by
  rw [trim, trim, List.dropWhile_append]
  split_ifs with hcs
  · rw [List.isEmpty_iff.1 hcs, List.dropWhile_eq_nil_iff.2 h]
  · exact trimRight_append h _

theorem trim_of_ends (hhead : ∀ c, cs.head? = some c → isBlank c = false)
    (hlast : ∀ c, cs.getLast? = some c → isBlank c = false) : trim cs = cs := by
  have hfront : cs.dropWhile isBlank = cs := by
    rcases cs with _ | ⟨c, cs⟩
    · rfl
    · exact List.dropWhile_cons_of_neg (by simp [hhead c rfl])
  have hback : cs.rdropWhile isBlank = cs := by
    rw [List.rdropWhile_eq_self_iff]
    intro hne
    simp [hlast _ (List.getLast?_eq_some_getLast hne)]
  rw [trim, hfront]
  exact hback

theorem trim_of_no_blank (h : ∀ c ∈ cs, isBlank c = false) : trim cs = cs :=
  trim_of_ends (fun c hc => h c (List.mem_of_mem_head? hc))
    fun c hc => h c (List.mem_of_getLast? hc)

theorem isBlank_of_continuesName {c : Char} (h : Sql.continuesName c = true) :
    isBlank c = false := by
  have hall : ∀ n : Fin 128, Sql.continuesName (Char.ofNat n) = true →
      isBlank (Char.ofNat n) = false := by decide
  exact @forall_ascii (fun c => Sql.continuesName c = true → isBlank c = false) hall _
    (toNat_of_continuesName h) h

theorem trim_of_continuesName (h : ∀ c ∈ cs, Sql.continuesName c = true) : trim cs = cs :=
  trim_of_no_blank fun c hc => isBlank_of_continuesName (h c hc)

theorem trim_between {a b : List Char} (ha : ∀ c ∈ a, isBlank c = true)
    (hb : ∀ c ∈ b, isBlank c = true) (cs : List Char) : trim (a ++ cs ++ b) = trim cs := by
  rw [trim_append_blanks hb, trim_blanks_append ha]

theorem trim_dropWhile (cs : List Char) : trim (cs.dropWhile isBlank) = trim cs := by
  rw [trim, List.dropWhile_idempotent, trim]

theorem trim_trimRight (cs : List Char) : trim (trimRight isBlank cs) = trim cs := by
  have hblank : ∀ c ∈ cs.rtakeWhile isBlank, isBlank c = true := fun c => List.mem_rtakeWhile_imp
  have h := trim_append_blanks hblank (cs.rdropWhile isBlank)
  rw [List.rdropWhile_append_rtakeWhile] at h
  exact h.symm

@[simp] theorem trim_trim (cs : List Char) : trim (trim cs) = trim cs :=
  (trim_trimRight _).trans (trim_dropWhile cs)

theorem exists_blanks_trim (cs : List Char) : ∃ front back, (∀ c ∈ front, isBlank c = true) ∧
    (∀ c ∈ back, isBlank c = true) ∧ cs = front ++ (trim cs ++ back) := by
  refine ⟨cs.takeWhile isBlank, (cs.dropWhile isBlank).rtakeWhile isBlank,
    fun c => List.mem_takeWhile_imp, fun c => List.mem_rtakeWhile_imp, ?_⟩
  show cs = _ ++ ((cs.dropWhile isBlank).rdropWhile isBlank ++ _)
  rw [List.rdropWhile_append_rtakeWhile, List.takeWhile_append_dropWhile]

/-- Around a character that is no blank, a text is trimmed on the far side of either part. -/
theorem trim_around {c : Char} (hc : isBlank c = false) (before after : List Char) :
    trim (before ++ c :: after) = before.dropWhile isBlank ++ c :: trimRight isBlank after := by
  have hfront : (before ++ c :: after).dropWhile isBlank
      = before.dropWhile isBlank ++ c :: after := by
    rw [List.dropWhile_append]
    split_ifs with hbefore
    · rw [List.isEmpty_iff.1 hbefore, List.dropWhile_cons_of_neg (by simp [hc]), List.nil_append]
    · rfl
  have hback : ∀ cs : List Char, trimRight isBlank (cs ++ c :: after)
      = cs ++ c :: trimRight isBlank after := by
    intro cs
    rw [trimRight, List.reverse_append, List.reverse_cons, List.append_assoc, List.dropWhile_append]
    split_ifs with hafter
    · have : trimRight isBlank after = [] := by rw [trimRight, List.isEmpty_iff.1 hafter]; rfl
      rw [this]
      simp [hc]
    · simp [trimRight]
  rw [trim, hfront, hback]

variable {s : Char}

theorem notMem_of_blanks (hs : isBlank s = false) (h : ∀ c ∈ bs, isBlank c = true) : s ∉ bs := by
  intro hmem
  rw [h s hmem] at hs
  cases hs

theorem map_trim_split_append_left (hs : isBlank s = false) (h : ∀ c ∈ bs, isBlank c = true)
    (cs : List Char) : (split s (bs ++ cs)).map trim = (split s cs).map trim := by
  have hbs := notMem_of_blanks hs h
  by_cases hmem : s ∈ cs
  · obtain ⟨before, after, rfl, hbefore⟩ := List.eq_append_cons_of_mem hmem
    rw [← List.append_assoc, split_append_cons, split_append_cons, split_of_notMem hbefore,
      split_of_notMem (by simp [hbs, hbefore]), List.map_append, List.map_append,
      List.map_singleton, List.map_singleton, trim_blanks_append h]
  · rw [split_of_notMem hmem, split_of_notMem (by simp [hbs, hmem]), List.map_singleton,
      List.map_singleton, trim_blanks_append h]

theorem map_trim_split_append_right (hs : isBlank s = false) (h : ∀ c ∈ bs, isBlank c = true)
    (cs : List Char) : (split s (cs ++ bs)).map trim = (split s cs).map trim := by
  have hbs := notMem_of_blanks hs h
  by_cases hmem : s ∈ cs
  · obtain ⟨before, after, hcs, -⟩ := List.eq_append_cons_of_mem hmem
    rw [hcs, List.append_assoc, List.cons_append, split_append_cons, split_append_cons,
      List.map_append, List.map_append, map_trim_split_append_right hs h after]
  · rw [split_of_notMem hmem, split_of_notMem (by simp [hbs, hmem]), List.map_singleton,
      List.map_singleton, trim_append_blanks h]
termination_by cs.length
decreasing_by
  rw [hcs, List.length_append, List.length_cons]
  omega

/-- The parts of a text, trimmed, are those of the trimmed text. -/
theorem map_trim_split (hs : isBlank s = false) (cs : List Char) :
    (split s (trim cs)).map trim = (split s cs).map trim := by
  obtain ⟨front, back, hfront, hback, h⟩ := exists_blanks_trim cs
  conv_rhs => rw [h]
  rw [map_trim_split_append_left hs hfront, map_trim_split_append_right hs hback]

end Trimming

end RecordMap.Text

namespace RecordMap.Connection

open Text

variable {p : Partial} {segment : List Char}

theorem setSegment_trim (p : Partial) (segment : List Char) :
    setSegment p (trim segment) = setSegment p segment := by
  simp only [setSegment, trim_trim]

theorem setSegment_of_blank (h : trim segment = []) : setSegment p segment = .ok p := by
  rw [setSegment, h]
  rfl

/-- A segment is cut at its first equals sign, and each part is trimmed. -/
theorem setSegment_assignment {key : List Char} (h : '=' ∉ key) (p : Partial)
    (value : List Char) : setSegment p (key ++ '=' :: value)
      = p.set (String.ofList (trim key)) (String.ofList (trim value)) := by
  have hkey : '=' ∉ key.dropWhile isBlank := fun hmem =>
    h ((List.dropWhile_suffix _).subset hmem)
  have htrim := trim_around (show isBlank '=' = false from rfl) key value
  have hne : (trim (key ++ '=' :: value)).isEmpty = false := by simp [htrim]
  simp only [setSegment, hne, Bool.false_eq_true, if_false]
  rw [htrim, readAssignment, cut?_append hkey]
  simp only [trim_dropWhile, trim_trimRight]
  rfl

theorem setSegment_of_notMem (hne : trim segment ≠ []) (h : '=' ∉ segment) (p : Partial) :
    setSegment p segment
      = Outcome.fail (.connection (.noAssignment (String.ofList (trim segment)))) := by
  have htrim : '=' ∉ trim segment := by
    obtain ⟨front, back, -, -, hs⟩ := exists_blanks_trim segment
    rw [hs] at h
    simp only [List.mem_append, not_or] at h
    exact h.2.1
  simp only [setSegment, readAssignment, cut?_of_notMem htrim, List.isEmpty_iff, hne, if_false]
  rfl

theorem readList_trim (cs : List Char) : readList (trim cs) = readList cs := by
  have h : ∀ parts : List (List Char), parts.foldlM setSegment Partial.empty
      = (parts.map trim).foldlM setSegment Partial.empty := by
    intro parts
    rw [List.foldlM_map]
    simp only [setSegment_trim]
  rw [readList, readList, h, map_trim_split rfl, ← h]

theorem not_scheme_of_head {c : Char} (hblank : isBlank c = false) (hc : c ≠ 's')
    (cs : List Char) : ¬ scheme <+: trim (c :: cs) := by
  rintro ⟨rest, h⟩
  have htrim := trim_around hblank [] cs
  rw [List.nil_append] at htrim
  rw [htrim] at h
  exact hc (List.cons.inj h).1.symm

/-- A text that is not a URL is a list, blanks and all. -/
theorem readSettings_eq_readList {s : String} (h : ¬ scheme <+: trim s.toList) :
    readSettings s = readList s.toList := by
  rw [← readList_trim, readSettings]
  simp only [List.isPrefixOf_iff_prefix, h, if_false]

end RecordMap.Connection
