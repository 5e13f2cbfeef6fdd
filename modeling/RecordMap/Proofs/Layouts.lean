import RecordMap.Proofs.Spelling
import RecordMap.Uuid

/-!
# Layouts of identifiers

What is read as groups of digits are just the groups of their sizes, with hyphens between them, and
written again they are the text in small letters (`writeGroups_of_readGroups?`,
`Grouped.exists_readGroups?`).

No two layouts have texts of one size (`Layout.length_of_read?`).  So a text is read in one layout
at most (`parse?_eq_some_iff`), and the size of a stored text leaves only the hyphenated one
(`ofText?_eq_some_iff`).
-/

namespace RecordMap

namespace Text

/-- A decimal digit, or a letter up to F in either case. -/
def IsHexDigit (c : Char) : Prop :=
  '0' ≤ c ∧ c ≤ '9' ∨ 'a' ≤ c ∧ c ≤ 'f' ∨ 'A' ≤ c ∧ c ≤ 'F'

theorem IsHexDigit.toNat_lt {c : Char} (h : IsHexDigit c) : c.toNat < 128 := by
  unfold IsHexDigit at h
  simp only [Char.le_def, UInt32.le_iff_toNat_le] at h
  show c.val.toNat < 128
  rcases h with ⟨-, h⟩ | ⟨-, h⟩ | ⟨-, h⟩
  · exact Nat.lt_of_le_of_lt h (by decide)
  · exact Nat.lt_of_le_of_lt h (by decide)
  · exact Nat.lt_of_le_of_lt h (by decide)

theorem exists_hexValue?_iff {c : Char} : (∃ d, hexValue? c = some d) ↔ IsHexDigit c := by
  have hdigit : c.isDigit = true ↔ '0' ≤ c ∧ c ≤ '9' := by
    simp [Char.isDigit, Char.le_def]
  unfold hexValue? IsHexDigit
  rw [← hdigit]
  split_ifs <;> simp_all

theorem hexChar_of_hexValue? {c : Char} {d : Fin 16} (h : hexValue? c = some d) :
    hexChar d = c.toLower := by
  have hall : ∀ n : Fin 128, ∀ d, hexValue? (Char.ofNat n) = some d →
      hexChar d = (Char.ofNat n).toLower := by decide +kernel
  have hc : IsHexDigit c := exists_hexValue?_iff.1 ⟨d, h⟩
  exact forall_ascii (p := fun c => ∀ d, hexValue? c = some d → hexChar d = c.toLower) hall
    hc.toNat_lt d h

theorem hexValue?_hexChar : ∀ d : Fin 16, hexValue? (hexChar d) = some d := by decide

theorem mapM_hexValue? : ∀ ds : List (Fin 16), (ds.map hexChar).mapM hexValue? = some ds
  | [] => rfl
  | d :: ds => by
    rw [List.map_cons, List.mapM_cons, hexValue?_hexChar, mapM_hexValue? ds]
    rfl

theorem map_hexChar_of_mapM : ∀ {cs : List Char} {ds : List (Fin 16)},
    cs.mapM hexValue? = some ds →
      (∀ c ∈ cs, IsHexDigit c) ∧ ds.map hexChar = cs.map Char.toLower
  | [], ds, h => by
    simp only [List.mapM_nil, Option.pure_def, Option.some.injEq] at h
    simp [← h]
  | c :: cs, ds, h => by
    simp only [List.mapM_cons, Option.bind_eq_bind, Option.pure_def, Option.bind_eq_some_iff,
      Option.some.injEq] at h
    obtain ⟨d, hd, es, hes, rfl⟩ := h
    obtain ⟨hcs, hmap⟩ := map_hexChar_of_mapM hes
    refine ⟨List.forall_mem_cons.2 ⟨exists_hexValue?_iff.1 ⟨d, hd⟩, hcs⟩, ?_⟩
    rw [List.map_cons, List.map_cons, hexChar_of_hexValue? hd, hmap]

theorem exists_mapM_hexValue? : ∀ {cs : List Char}, (∀ c ∈ cs, IsHexDigit c) →
    ∃ ds, cs.mapM hexValue? = some ds
  | [], _ => ⟨[], rfl⟩
  | c :: cs, h => by
    rw [List.forall_mem_cons] at h
    obtain ⟨d, hd⟩ := exists_hexValue?_iff.2 h.1
    obtain ⟨ds, hds⟩ := exists_mapM_hexValue? h.2
    refine ⟨d :: ds, ?_⟩
    rw [List.mapM_cons, hd, hds]
    rfl

end Text

open Text

namespace Uuid

/-! ## Groups of digits -/

/-- The text is made of hexadecimal digits in groups of the given sizes, with hyphens between
them. -/
inductive Grouped : List Nat → List Char → Prop
  | last {n : Nat} {g : List Char} (hn : g.length = n) (hg : ∀ c ∈ g, IsHexDigit c) : Grouped [n] g
  | more {n : Nat} {sizes : List Nat} {g cs : List Char} (hn : g.length = n)
      (hg : ∀ c ∈ g, IsHexDigit c) (h : Grouped sizes cs) : Grouped (n :: sizes) (g ++ '-' :: cs)

variable {sizes : List Nat} {cs : List Char} {ds : List (Fin 16)}

/-- A hyphen stands behind each group but the last. -/
theorem Grouped.length_eq (h : Grouped sizes cs) : cs.length + 1 = sizes.sum + sizes.length := by
  induction h with
  | last hn hg => simp [hn]
  | more hn hg h ih =>
    simp only [List.length_append, List.length_cons, List.sum_cons]
    omega

theorem Grouped.toNat_lt (h : Grouped sizes cs) : ∀ c ∈ cs, c.toNat < 128 := by
  induction h with
  | last hn hg => exact fun c hc => (hg c hc).toNat_lt
  | more hn hg h ih =>
    intro c hc
    rcases List.mem_append.1 hc with hc | hc
    · exact (hg c hc).toNat_lt
    · rcases List.mem_cons.1 hc with rfl | hc
      · decide
      · exact ih c hc

theorem readGroup?_eq_some_iff {n : Nat} : readGroup? n cs = some ds ↔
    cs.length = n ∧ cs.mapM hexValue? = some ds := by
  unfold readGroup?
  split_ifs with hn <;> simp [hn]

theorem readGroup?_hexChars {n : Nat} (h : ds.length = n) :
    readGroup? n (ds.map hexChar) = some ds :=
  readGroup?_eq_some_iff.2 ⟨by rw [List.length_map, h], mapM_hexValue? ds⟩

/-- Before the last group, a hyphen comes next. -/
theorem readGroups?_cons_eq_some_iff {n k : Nat} : readGroups? (n :: k :: sizes) cs = some ds ↔
    ∃ g rest es more, cs = g ++ '-' :: rest ∧ readGroup? n g = some es ∧
      readGroups? (k :: sizes) rest = some more ∧ ds = es ++ more := by
  rw [readGroups?.eq_3 _ _ _ (by simp)]
  constructor
  · intro h
    split at h
    · rename_i rest hrest
      split at h
      · rename_i es more hes hmore
        refine ⟨cs.take n, rest, es, more, ?_, hes, hmore, (Option.some.inj h).symm⟩
        rw [← hrest, List.take_append_drop]
      · cases h
    · cases h
  · rintro ⟨g, rest, es, more, rfl, hes, hmore, rfl⟩
    have hg : g.length = n := (readGroup?_eq_some_iff.1 hes).1
    rw [List.drop_left' hg, List.take_left' hg]
    simp only [hes, hmore]

/-- What is read are groups of the sizes, and the digits are those of the text. -/
theorem writeGroups_of_readGroups? : ∀ {sizes : List Nat} {cs : List Char} {ds : List (Fin 16)},
    sizes ≠ [] → readGroups? sizes cs = some ds →
      Grouped sizes cs ∧ ds.length = sizes.sum ∧ writeGroups sizes ds = cs.map Char.toLower
  | [], _, _, hne, _ => absurd rfl hne
  | [n], cs, ds, _, h => by
    obtain ⟨hn, hds⟩ := readGroup?_eq_some_iff.1 h
    obtain ⟨hcs, hmap⟩ := map_hexChar_of_mapM hds
    have hlength : ds.length = n := by simpa [hn] using congrArg List.length hmap
    refine ⟨.last hn hcs, by simp [hlength], ?_⟩
    rw [writeGroups, List.take_of_length_le hlength.le, hmap]
  | n :: k :: sizes, cs, ds, _, h => by
    obtain ⟨g, rest, es, more, rfl, hes, hmore, rfl⟩ := readGroups?_cons_eq_some_iff.1 h
    obtain ⟨hn, hds⟩ := readGroup?_eq_some_iff.1 hes
    obtain ⟨hg, hmap⟩ := map_hexChar_of_mapM hds
    obtain ⟨hrest, hsum, hwrite⟩ := writeGroups_of_readGroups? (by simp) hmore
    have hlength : es.length = n := by simpa [hn] using congrArg List.length hmap
    refine ⟨.more hn hg hrest, by simp [hlength, hsum], ?_⟩
    rw [writeGroups, List.take_left' hlength, List.drop_left' hlength, hmap, hwrite]
    · simp
    · simp

theorem Grouped.exists_readGroups? (h : Grouped sizes cs) :
    ∃ ds, readGroups? sizes cs = some ds := by
  induction h with
  | last hn hg =>
    obtain ⟨ds, hds⟩ := exists_mapM_hexValue? hg
    exact ⟨ds, readGroup?_eq_some_iff.2 ⟨hn, hds⟩⟩
  | @more n sizes g cs hn hg h ih =>
    obtain ⟨es, hes⟩ := exists_mapM_hexValue? hg
    obtain ⟨more, hmore⟩ := ih
    obtain ⟨k, ks, rfl⟩ : ∃ k ks, sizes = k :: ks := by
      cases h with
      | last => exact ⟨_, _, rfl⟩
      | more => exact ⟨_, _, rfl⟩
    exact ⟨es ++ more, readGroups?_cons_eq_some_iff.2
      ⟨g, cs, es, more, rfl, readGroup?_eq_some_iff.2 ⟨hn, hes⟩, hmore, rfl⟩⟩

/-- Reading undoes writing: each group ends where its size says. -/
theorem readGroups?_writeGroups : ∀ {sizes : List Nat} {ds : List (Fin 16)},
    ds.length = sizes.sum → readGroups? sizes (writeGroups sizes ds) = some ds
  | [], ds, h => by
    rw [List.eq_nil_of_length_eq_zero h]
    rfl
  | [n], ds, h => by
    have hn : ds.length = n := by simpa using h
    rw [writeGroups, readGroups?, List.take_of_length_le hn.le, readGroup?_hexChars hn]
  | n :: k :: sizes, ds, h => by
    rw [List.sum_cons] at h
    have htake : (ds.take n).length = n := by rw [List.length_take]; omega
    have hdrop : (ds.drop n).length = (k :: sizes).sum := by rw [List.length_drop]; omega
    refine readGroups?_cons_eq_some_iff.2 ⟨_, _, ds.take n, ds.drop n, ?_,
      readGroup?_hexChars htake, readGroups?_writeGroups hdrop, (List.take_append_drop n ds).symm⟩
    rw [writeGroups]
    simp

theorem ofDigits?_eq_some_iff {u : Uuid} : ofDigits? ds = some u ↔ ds = u.digits := by
  unfold ofDigits?
  split_ifs with h
  · rw [Option.some.injEq]
    constructor
    · rintro rfl
      rfl
    · intro hds
      cases u
      simp_all
  · constructor
    · intro hu
      cases hu
    · rintro rfl
      exact absurd u.length_digits h

theorem read?_text (u : Uuid) : read? u.text = some u := by
  rw [read?, text, readGroups?_writeGroups u.length_digits]
  exact dif_pos u.length_digits

theorem text_inj {u v : Uuid} (h : u.text = v.text) : u = v := by
  have hread := congrArg read? h
  rw [read?_text, read?_text] at hread
  exact Option.some.inj hread

/-! ## Layouts -/

namespace Layout

variable {l : Layout} {u : Uuid}

theorem read?_eq_some_iff : l.read? cs = some u ↔ ∃ inner,
    cs = l.before ++ inner ++ l.behind ∧ readGroups? l.sizes inner = some u.digits := by
  simp only [read?, Option.bind_eq_bind, Option.bind_eq_some_iff, ofDigits?_eq_some_iff,
    List.isPrefixOf?_eq_some_iff_append_eq, List.isSuffixOf?_eq_some_iff_append_eq]
  constructor
  · rintro ⟨rest, rfl, inner, rfl, ds, hds, rfl⟩
    exact ⟨inner, (List.append_assoc ..).symm, hds⟩
  · rintro ⟨inner, rfl, hds⟩
    exact ⟨inner ++ l.behind, (List.append_assoc ..).symm, inner, rfl, u.digits, hds, rfl⟩

theorem read?_write (hl : l.sizes.sum = 32) (u : Uuid) : l.read? (l.write u) = some u :=
  read?_eq_some_iff.2 ⟨_, rfl, readGroups?_writeGroups (by rw [u.length_digits, hl])⟩

/-- The number of characters of a text in the layout. -/
def size (l : Layout) : Nat :=
  l.before.length + (l.sizes.sum + l.sizes.length - 1) + l.behind.length

theorem length_of_read? (hl : l.sizes ≠ []) (h : l.read? cs = some u) : cs.length = l.size := by
  obtain ⟨inner, rfl, hread⟩ := read?_eq_some_iff.1 h
  have hlength := (writeGroups_of_readGroups? hl hread).1.length_eq
  simp only [List.length_append, size]
  omega

theorem sizes_ne_nil : ∀ l ∈ layouts, l.sizes ≠ [] := by decide

theorem sum_sizes : ∀ l ∈ layouts, l.sizes.sum = 32 := by decide

theorem isAscii_of_mem : ∀ l ∈ layouts, (l.before ++ l.behind).all (·.toNat < 128) = true := by
  decide +kernel

/-- The layouts have different sizes. -/
theorem eq_of_size : ∀ l ∈ layouts, ∀ l' ∈ layouts, l.size = l'.size → l = l' := by decide

theorem exists_read?_iff (hl : l ∈ layouts) : (∃ u, l.read? cs = some u) ↔
    ∃ inner, cs = l.before ++ inner ++ l.behind ∧ Grouped l.sizes inner := by
  have hne := sizes_ne_nil l hl
  constructor
  · rintro ⟨u, h⟩
    obtain ⟨inner, hcs, hread⟩ := read?_eq_some_iff.1 h
    exact ⟨inner, hcs, (writeGroups_of_readGroups? hne hread).1⟩
  · rintro ⟨inner, hcs, h⟩
    obtain ⟨ds, hds⟩ := h.exists_readGroups?
    have hlength : ds.length = 32 := (writeGroups_of_readGroups? hne hds).2.1.trans (sum_sizes l hl)
    exact ⟨⟨ds, hlength⟩, read?_eq_some_iff.2 ⟨inner, hcs, hds⟩⟩

end Layout

open Layout

variable {u : Uuid}

/-- A text is read in one layout at most. -/
theorem parse?_eq_some_iff : parse? cs = some u ↔ ∃ l ∈ layouts, l.read? cs = some u := by
  refine ⟨List.exists_of_findSome?_eq_some, fun ⟨l, hl, h⟩ => ?_⟩
  obtain ⟨v, hv⟩ : ∃ v, parse? cs = some v := by
    rw [← Option.isSome_iff_exists, parse?, List.findSome?_isSome_iff]
    exact ⟨l, hl, by rw [h]; rfl⟩
  obtain ⟨l', hl', h'⟩ := List.exists_of_findSome?_eq_some hv
  have hsize : l.size = l'.size := by
    rw [← length_of_read? (sizes_ne_nil l hl) h, ← length_of_read? (sizes_ne_nil l' hl') h']
  obtain rfl := eq_of_size l hl l' hl' hsize
  rw [hv, ← h', h]

theorem length_encode_of_ascii : ∀ {cs : List Char}, (∀ c ∈ cs, c.toNat < 128) →
    (Utf8.encode cs).length = cs.length
  | [], _ => rfl
  | c :: cs, h => by
    rw [List.forall_mem_cons] at h
    have hc : c.utf8Size = 1 := Char.utf8Size_eq_one_iff.2 (Nat.le_of_lt_succ h.1)
    have ih := length_encode_of_ascii h.2
    unfold Utf8.encode at ih ⊢
    rw [List.flatMap_cons, List.length_append, String.length_utf8EncodeChar, hc, ih,
      List.length_cons, Nat.add_comm]

/-- No layout has characters beyond ASCII. -/
theorem toNat_lt_of_parse? (h : parse? cs = some u) : ∀ c ∈ cs, c.toNat < 128 := by
  obtain ⟨l, hl, h⟩ := parse?_eq_some_iff.1 h
  have hascii := isAscii_of_mem l hl
  obtain ⟨inner, rfl, hread⟩ := read?_eq_some_iff.1 h
  have hinner := (writeGroups_of_readGroups? (sizes_ne_nil l hl) hread).1.toNat_lt
  simp only [List.all_eq_true, decide_eq_true_eq] at hascii
  intro c hc
  simp only [List.mem_append, or_assoc] at hc
  rcases hc with hc | hc | hc
  · exact hascii c (List.mem_append_left _ hc)
  · exact hinner c hc
  · exact hascii c (List.mem_append_right _ hc)

/-- Of the texts in some layout, the hyphenated ones are told by their size. -/
theorem ofText?_eq_some_iff : ofText? cs = some u ↔ hyphenated.read? cs = some u := by
  have hmem : hyphenated ∈ layouts := by decide
  unfold ofText?
  constructor
  · intro h
    split_ifs at h with hbytes
    obtain ⟨l, hl, hread⟩ := parse?_eq_some_iff.1 h
    rw [length_encode_of_ascii (toNat_lt_of_parse? h),
      length_of_read? (sizes_ne_nil l hl) hread] at hbytes
    rwa [← eq_of_size l hl hyphenated hmem hbytes]
  · intro h
    have hparse : parse? cs = some u := parse?_eq_some_iff.2 ⟨hyphenated, hmem, h⟩
    have hlength : cs.length = hyphenated.size :=
      length_of_read? (sizes_ne_nil hyphenated hmem) h
    rw [if_pos, hparse]
    rw [length_encode_of_ascii (toNat_lt_of_parse? hparse), hlength]
    rfl

theorem ofText?_text (u : Uuid) : ofText? u.text = some u := by
  rw [ofText?_eq_some_iff, ← read?_write (l := hyphenated) rfl u]
  simp [write, hyphenated, text]

theorem exists_ofText?_iff : (∃ u, ofText? cs = some u) ↔ Grouped groupSizes cs := by
  simp only [ofText?_eq_some_iff]
  have hmem : hyphenated ∈ layouts := by decide
  rw [exists_read?_iff hmem]
  simp [hyphenated]

/-- A text that is read is that of its identifier in some case. -/
theorem text_of_ofText? (h : ofText? cs = some u) : u.text = cs.map Char.toLower := by
  obtain ⟨inner, hcs, hread⟩ := read?_eq_some_iff.1 (ofText?_eq_some_iff.1 h)
  obtain rfl : cs = inner := by simpa [hyphenated] using hcs
  exact (writeGroups_of_readGroups? (by decide) hread).2.2

end Uuid

end RecordMap
