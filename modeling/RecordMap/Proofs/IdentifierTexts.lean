import RecordMap.Proofs.RoundTrip

/-!
# Texts of identifiers in the store

Which stored texts are read as an identifier is said without the reader: thirty-two hexadecimal
digits in their groups (`exists_read_uuid_iff`).  The identifier goes back to the store as the same
text in small letters (`storedAs_of_read_uuid`), so two texts are read as one identifier just if
they differ in case at most.  The other layouts of an identifier are refused.
-/

namespace RecordMap

open Text Uuid

/-- The spellings of an identifier that no text in the store has. -/
inductive Uuid.Respelled : List Char → Prop
  | simple {cs : List Char} (h : Grouped [32] cs) : Respelled cs
  | braced {cs : List Char} (h : Grouped [8, 4, 4, 4, 12] cs) : Respelled ('{' :: cs ++ ['}'])
  | resource {cs : List Char} (h : Grouped [8, 4, 4, 4, 12] cs) :
      Respelled ("urn:uuid:".toList ++ cs)

/-- Each of these spellings is that of a layout, and in none of them are the groups those of a
stored text. -/
theorem Uuid.Respelled.parse? {cs : List Char} (h : Respelled cs) :
    (∃ u, Uuid.parse? cs = some u) ∧ ¬ Grouped groupSizes cs := by
  obtain ⟨l, hl, hne, hread⟩ : ∃ l ∈ layouts, l ≠ hyphenated ∧ ∃ u, l.read? cs = some u := by
    cases h with
    | simple h =>
      have hmem : Uuid.simple ∈ layouts := by decide
      refine ⟨_, hmem, by decide, (Layout.exists_read?_iff hmem).2 ⟨cs, ?_, h⟩⟩
      simp [Uuid.simple]
    | braced h =>
      have hmem : Uuid.braced ∈ layouts := by decide
      exact ⟨_, hmem, by decide, (Layout.exists_read?_iff hmem).2 ⟨_, rfl, h⟩⟩
    | @resource cs h =>
      have hmem : Uuid.resource ∈ layouts := by decide
      refine ⟨_, hmem, by decide, (Layout.exists_read?_iff hmem).2 ⟨cs, ?_, h⟩⟩
      simp [Uuid.resource]
  obtain ⟨u, hu⟩ := hread
  refine ⟨⟨u, parse?_eq_some_iff.2 ⟨l, hl, hu⟩⟩, fun hgrouped => hne ?_⟩
  have hlength : cs.length + 1 = 37 := hgrouped.length_eq
  have hsize : l.size = cs.length := (Layout.length_of_read? (Layout.sizes_ne_nil l hl) hu).symm
  exact Layout.eq_of_size l hl hyphenated (by decide) (hsize.trans (Nat.succ.inj hlength))

namespace Stored

variable {s t : String} {v : Value} {u : Uuid}

theorem read_uuid_eq_ok_iff :
    (text s).read .uuid = .ok v ↔ ∃ u, ofText? s.toList = some u ∧ Value.uuid u = v := by
  rw [read_eq_ok_iff]
  exact Option.map_eq_some_iff

theorem exists_read_uuid_iff :
    (∃ v, (text s).read .uuid = .ok v) ↔ Grouped groupSizes s.toList := by
  rw [← exists_ofText?_iff]
  constructor
  · rintro ⟨v, hv⟩
    obtain ⟨u, hu, -⟩ := read_uuid_eq_ok_iff.1 hv
    exact ⟨u, hu⟩
  · rintro ⟨u, hu⟩
    exact ⟨.uuid u, read_uuid_eq_ok_iff.2 ⟨u, hu, rfl⟩⟩

theorem read_uuid_of_not (h : ¬ Grouped groupSizes s.toList) :
    (text s).read .uuid = Outcome.fail (.conversion (.text s) "Uuid") := by
  unfold read
  split
  · rename_i v hv
    exact absurd (exists_read_uuid_iff.1 ⟨v, read_eq_ok_iff.2 hv⟩) h
  · rfl

theorem storedAs_of_read_uuid (h : (text s).read .uuid = .ok v) :
    v.storedAs .uuid = .ok (.text s.toLower) := by
  obtain ⟨u, hu, rfl⟩ := read_uuid_eq_ok_iff.1 h
  have hlower : String.ofList u.text = s.toLower := by
    rw [text_of_ofText? hu, String.toLower, ← String.toList_inj, String.toList_ofList,
      String.toList_map]
  rw [Value.storedAs_of_isA (by decide) rfl, Value.stored, hlower]

theorem read_uuid_text (u : Uuid) : (text (String.ofList u.text)).read .uuid = .ok (.uuid u) := by
  refine read_uuid_eq_ok_iff.2 ⟨u, ?_, rfl⟩
  rw [String.toList_ofList, ofText?_text]

/-- Two texts are read as one identifier just if they differ in case at most. -/
theorem exists_read_uuid_both_iff :
    (∃ v, (text s).read .uuid = .ok v ∧ (text t).read .uuid = .ok v) ↔
      Grouped groupSizes s.toList ∧ Grouped groupSizes t.toList ∧ sameCaseless s t = true := by
  have hsame : sameCaseless s t = true ↔ s.toList.map Char.toLower = t.toList.map Char.toLower :=
    beq_iff_eq
  rw [hsame]
  constructor
  · rintro ⟨v, hs, ht⟩
    refine ⟨exists_read_uuid_iff.1 ⟨v, hs⟩, exists_read_uuid_iff.1 ⟨v, ht⟩, ?_⟩
    obtain ⟨u, hu, rfl⟩ := read_uuid_eq_ok_iff.1 hs
    obtain ⟨u', hu', hv⟩ := read_uuid_eq_ok_iff.1 ht
    obtain rfl := Value.uuid.inj hv
    rw [← text_of_ofText? hu, text_of_ofText? hu']
  · rintro ⟨hs, ht, hlower⟩
    obtain ⟨u, hu⟩ := exists_ofText?_iff.2 hs
    obtain ⟨u', hu'⟩ := exists_ofText?_iff.2 ht
    have huu' : u' = u := text_inj (by rw [text_of_ofText? hu, text_of_ofText? hu', hlower])
    exact ⟨.uuid u, read_uuid_eq_ok_iff.2 ⟨u, hu, rfl⟩,
      read_uuid_eq_ok_iff.2 ⟨u', hu', congrArg Value.uuid huu'⟩⟩

/-- A stored text is read as an identifier if its hexadecimal digits are in groups of 8, 4, 4, 4 and
12 with hyphens between them, and then kept again in small letters; any other is refused.  Every
identifier is read from the text it is kept as.  So texts of one identifier differ in case at most,
and the spellings in the other layouts are refused, although the reader of all layouts takes
them. -/
theorem read_uuid_iff :
    (∀ s : String,
      ((∃ v, (text s).read .uuid = .ok v) ↔ Grouped [8, 4, 4, 4, 12] s.toList) ∧
      (¬ Grouped [8, 4, 4, 4, 12] s.toList →
        (text s).read .uuid = Outcome.fail (.conversion (.text s) "Uuid")) ∧
      ∀ v, (text s).read .uuid = .ok v → v.storedAs .uuid = .ok (.text s.toLower)) ∧
    (∀ u : Uuid, ∃ s, (Value.uuid u).storedAs .uuid = .ok (.text s) ∧
      (text s).read .uuid = .ok (.uuid u)) ∧
    (∀ s t : String, (∃ v, (text s).read .uuid = .ok v ∧ (text t).read .uuid = .ok v) ↔
      Grouped [8, 4, 4, 4, 12] s.toList ∧ Grouped [8, 4, 4, 4, 12] t.toList ∧
        sameCaseless s t = true) ∧
    ∀ s : String, Respelled s.toList → (∃ u, Uuid.parse? s.toList = some u) ∧
      (text s).read .uuid = Outcome.fail (.conversion (.text s) "Uuid") := by
  refine ⟨fun s => ⟨exists_read_uuid_iff, read_uuid_of_not, fun v => storedAs_of_read_uuid⟩,
    fun u => ⟨_, ?_, read_uuid_text u⟩, fun s t => exists_read_uuid_both_iff, fun s h => ?_⟩
  · rw [Value.storedAs_of_isA (by decide) rfl, Value.stored]
  · exact ⟨h.parse?.1, read_uuid_of_not h.parse?.2⟩

/-- A text in mixed case is kept in small letters, and refused between braces. -/
theorem read_uuid_iff_mixed :
    (∃ v, (text "67E55044-10b1-426F-9247-bb680e5fe0c8").read .uuid = .ok v ∧
      v.storedAs .uuid = .ok (.text "67e55044-10b1-426f-9247-bb680e5fe0c8")) ∧
    (text "\x7b67E55044-10b1-426F-9247-bb680e5fe0c8\x7d").read .uuid = Outcome.fail
      (.conversion (.text "\x7b67E55044-10b1-426F-9247-bb680e5fe0c8\x7d") "Uuid") := by
  obtain ⟨htext, -, -, hrespelled⟩ := read_uuid_iff
  obtain ⟨hread, -, hkept⟩ := htext "67E55044-10b1-426F-9247-bb680e5fe0c8"
  have hsome : (ofText? "67E55044-10b1-426F-9247-bb680e5fe0c8".toList).isSome = true := by
    decide +kernel
  obtain ⟨u, hu⟩ := Option.isSome_iff_exists.1 hsome
  have hv := read_uuid_eq_ok_iff.2 ⟨u, hu, rfl⟩
  have hlower : "67E55044-10b1-426F-9247-bb680e5fe0c8".toLower
      = "67e55044-10b1-426f-9247-bb680e5fe0c8" := by
    rw [String.toLower, ← String.toList_inj, String.toList_map]
    decide +kernel
  refine ⟨⟨_, hv, hlower ▸ hkept _ hv⟩, (hrespelled _ ?_).2⟩
  exact .braced (hread.1 ⟨_, hv⟩)

end Stored

end RecordMap
