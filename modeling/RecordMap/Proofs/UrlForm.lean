import RecordMap.Proofs.Cutting
import RecordMap.Proofs.Encoding

/-!
# URLs and lists of settings

A path and further settings can be given as a URL or as a list, and both are read alike
(`readSettings_urlForm`).  The path of the URL is encoded, so none of its characters ends the path
or is taken for a percent sign, and no segment of it is taken for a dot segment unless it is one.
-/

namespace RecordMap.Connection

open Sql Text

/-- The setting as it stands in a list or in a query. -/
def written (setting : String × String) : List Char :=
  setting.1.toList ++ '=' :: setting.2.toList

def listForm (path : List Char) (settings : List (String × String)) : String :=
  String.ofList ([';'].intercalate ((Key.path.name.toList ++ '=' :: path) :: settings.map written))

/-- What follows the path of a URL. -/
def queryForm : List (String × String) → List Char
  | [] => []
  | settings => '?' :: ['&'].intercalate (settings.map written)

def urlForm (digit : Fin 16 → Char) (path : List Char) (settings : List (String × String)) :
    String :=
  String.ofList (scheme ++ percentEncode digit path ++ queryForm settings)

/-- A path from the root without dot segments that can stand in a list of settings. -/
structure Rooted (path : List Char) : Prop where
  slash : path.head? = some '/'
  single : path.tail.head? ≠ some '/'
  no_dots : ∀ segment ∈ split '/' path, segment ≠ ['.'] ∧ segment ≠ ['.', '.']
  no_semicolon : ';' ∉ path
  no_blank : ∀ c, path.getLast? = some c → isBlank c = false

/-- A key and a value of letters, digits and underscores. -/
def Worded (setting : String × String) : Prop :=
  (∀ c ∈ setting.1.toList, continuesName c = true) ∧
    ∀ c ∈ setting.2.toList, continuesName c = true

/-- What a path and further settings come to, one after the other. -/
def settled (path : List Char) (settings : List (String × String)) : Outcome Settings :=
  (Partial.empty.setAll ((Key.path.name, String.ofList path) :: settings)).bind Partial.finish

variable {path : List Char} {settings : List (String × String)}

theorem Partial.setAll_cons (p : Partial) (s : String × String)
    (settings : List (String × String)) :
    p.setAll (s :: settings) = (p.set s.1 s.2).bind (·.setAll settings) := by
  rw [setAll, List.foldlM_cons]
  rfl

section Lists

theorem setSegment_written {s : String × String} (h : Worded s) (p : Partial) :
    setSegment p (written s) = p.set s.1 s.2 := by
  have hkey : '=' ∉ s.1.toList := fun hmem => absurd (h.1 '=' hmem) (by decide)
  rw [written, setSegment_assignment hkey, trim_of_continuesName h.1, trim_of_continuesName h.2,
    String.ofList_toList, String.ofList_toList]

theorem foldlM_written : ∀ {settings : List (String × String)}, (∀ s ∈ settings, Worded s) →
    ∀ p : Partial, (settings.map written).foldlM setSegment p = p.setAll settings
  | [], _, _ => rfl
  | s :: settings, h, p => by
    rw [List.map_cons, List.foldlM_cons, setSegment_written (h s List.mem_cons_self),
      Partial.setAll_cons]
    rcases p.set s.1 s.2 with e | q
    · rfl
    · exact foldlM_written (fun t ht => h t (List.mem_cons_of_mem _ ht)) q

theorem notMem_written {s : String × String} {d : Char} (hd : continuesName d = false)
    (hne : d ≠ '=') (h : Worded s) : d ∉ written s := by
  have hname : ∀ cs : List Char, (∀ c ∈ cs, continuesName c = true) → d ∉ cs := by
    intro cs hcs hmem
    rw [hcs d hmem] at hd
    cases hd
  simp [written, hname _ h.1, hname _ h.2, hne]

theorem Rooted.trim_eq (h : Rooted path) : trim path = path := by
  refine trim_of_ends (fun c hc => ?_) h.no_blank
  rw [h.slash] at hc
  cases hc
  rfl

theorem readSettings_listForm (hpath : Rooted path) (hsettings : ∀ s ∈ settings, Worded s) :
    readSettings (listForm path settings) = settled path settings := by
  have hscheme : ¬ scheme <+: trim (listForm path settings).toList := by
    rw [listForm, String.toList_ofList]
    cases settings with
    | nil => exact not_scheme_of_head rfl (by decide) _
    | cons s settings =>
      rw [List.map_cons, List.intercalate_cons_cons]
      exact not_scheme_of_head rfl (by decide) _
  have hparts : ∀ part ∈ (Key.path.name.toList ++ '=' :: path) :: settings.map written,
      ';' ∉ part := by
    refine List.forall_mem_cons.2 ⟨?_, ?_⟩
    · simp [Key.name, hpath.no_semicolon]
    · intro part hpart
      obtain ⟨s, hs, rfl⟩ := List.mem_map.1 hpart
      exact notMem_written (by decide) (by decide) (hsettings s hs)
  have hfirst : setSegment Partial.empty (Key.path.name.toList ++ '=' :: path)
      = Partial.empty.set Key.path.name (String.ofList path) := by
    rw [setSegment_assignment (by decide), hpath.trim_eq]
    rfl
  rw [readSettings_eq_readList hscheme, listForm, String.toList_ofList, readList,
    split_intercalate hparts (List.cons_ne_nil _ _), List.foldlM_cons, hfirst, settled,
    Partial.setAll_cons]
  rcases Partial.empty.set Key.path.name (String.ofList path) with e | q
  · rfl
  · show (settings.map written).foldlM setSegment q >>= Partial.finish = _
    rw [foldlM_written hsettings q]
    rfl

end Lists

section Dots

/-- A dot, or the byte of one in digits of either case. -/
theorem decoded_dot {segment rest : List Char}
    (h : segment.map Char.toLower = '.' :: rest ∨
      segment.map Char.toLower = '%' :: '2' :: 'e' :: rest) :
    ∃ tail, tail.map Char.toLower = rest ∧
      percentDecode segment = 0x2E :: percentDecode tail := by
  rcases h with h | h
  · obtain ⟨c, tail, rfl, hc, htail⟩ := List.map_eq_cons_iff.1 h
    obtain rfl := eq_of_toLower hc rfl
    exact ⟨tail, htail, percentDecode_cons_of_ne (by decide) tail⟩
  · obtain ⟨a, cs, rfl, ha, h⟩ := List.map_eq_cons_iff.1 h
    obtain ⟨b, cs, rfl, hb, h⟩ := List.map_eq_cons_iff.1 h
    obtain ⟨c, tail, rfl, hc, htail⟩ := List.map_eq_cons_iff.1 h
    obtain rfl := eq_of_toLower ha rfl
    obtain rfl := eq_of_toLower hb rfl
    refine ⟨tail, htail, ?_⟩
    have hvalue : hexValue? c = some 14 := by
      rcases toLower_eq_or c with heq | ⟨-, -, hl⟩
      · rw [← heq, hc]
        rfl
      · have hE : c = 'E' := Char.toNat_inj.1 (by
          rw [hc] at hl
          exact Nat.add_right_cancel hl.symm)
        rw [hE]
        rfl
    have htwo : hexValue? '2' = some 2 := rfl
    simp only [percentDecode, htwo, hvalue]
    rfl

theorem decoded_of_isDot {segment : List Char} (h : isDot segment = true) :
    percentDecode segment = Utf8.encode ['.'] := by
  simp only [isDot, List.any_cons, List.any_nil, Bool.or_false, Bool.or_eq_true, beq_iff_eq] at h
  obtain ⟨tail, htail, hdecode⟩ := decoded_dot (h.imp Eq.symm Eq.symm)
  rw [hdecode, List.map_eq_nil_iff.1 htail]
  rfl

theorem decoded_of_isDoubleDot {segment : List Char} (h : isDoubleDot segment = true) :
    percentDecode segment = Utf8.encode ['.', '.'] := by
  simp only [isDoubleDot, List.any_cons, List.any_nil, Bool.or_false, Bool.or_eq_true,
    beq_iff_eq] at h
  obtain ⟨rest, hrest, hsecond⟩ : ∃ rest, (segment.map Char.toLower = '.' :: rest ∨
      segment.map Char.toLower = '%' :: '2' :: 'e' :: rest) ∧
      (rest = ['.'] ∨ rest = ['%', '2', 'e']) := by
    rcases h with h | h | h | h
    · exact ⟨['.'], .inl h.symm, .inl rfl⟩
    · exact ⟨['.'], .inr h.symm, .inl rfl⟩
    · exact ⟨['%', '2', 'e'], .inl h.symm, .inr rfl⟩
    · exact ⟨['%', '2', 'e'], .inr h.symm, .inr rfl⟩
  obtain ⟨tail, rfl, hdecode⟩ := decoded_dot hrest
  obtain ⟨tail', htail', hdecode'⟩ := decoded_dot hsecond
  rw [hdecode, hdecode', List.map_eq_nil_iff.1 htail']
  rfl

theorem addSegment_of_no_dots {path segment : List Char} (h : isDot segment = false)
    (h' : isDoubleDot segment = false) (closed : Bool) :
    addSegment path segment closed = path ++ segment ++ (if closed then ['/'] else []) := by
  simp [addSegment, h, h']

theorem addSegments_of_no_dots : ∀ {segments : List (List Char)} (path : List Char),
    (∀ s ∈ segments, isDot s = false ∧ isDoubleDot s = false) →
    addSegments path segments = path ++ ['/'].intercalate segments
  | [], path, _ => by simp [addSegments]
  | [segment], path, h => by
    obtain ⟨hdot, hdots⟩ := h segment List.mem_cons_self
    simp [addSegments, addSegment_of_no_dots hdot hdots]
  | segment :: next :: rest, path, h => by
    obtain ⟨hdot, hdots⟩ := h segment List.mem_cons_self
    rw [addSegments, addSegment_of_no_dots hdot hdots,
      addSegments_of_no_dots _ fun s hs => h s (List.mem_cons_of_mem _ hs),
      List.intercalate_cons_cons]
    · simp
    · simp

theorem resolvePath_of_no_dots {cs : List Char}
    (h : ∀ s ∈ split '/' cs, isDot s = false ∧ isDoubleDot s = false) :
    resolvePath cs = '/' :: cs := by
  rw [resolvePath, addSegments_of_no_dots ['/'] h, intercalate_split]
  rfl

/-- No segment of an encoded path is a dot segment unless it encodes one. -/
theorem no_dots_percentEncode {digit : Fin 16 → Char}
    (hdigit : ∀ d, hexValue? (digit d) = some d) {cs : List Char}
    (h : ∀ segment ∈ split '/' cs, segment ≠ ['.'] ∧ segment ≠ ['.', '.']) :
    ∀ segment ∈ split '/' (percentEncode digit cs),
      isDot segment = false ∧ isDoubleDot segment = false := by
  intro segment hsegment
  rw [split_percentEncode hdigit] at hsegment
  obtain ⟨part, hpart, rfl⟩ := List.mem_map.1 hsegment
  have hdecode := percentDecode_percentEncode hdigit part
  refine ⟨?_, ?_⟩ <;> by_contra hdot
  · have hbytes := decoded_of_isDot (Bool.not_eq_false _ ▸ hdot)
    exact (h part hpart).1 (Utf8.encode_inj (hdecode.symm.trans hbytes))
  · have hbytes := decoded_of_isDoubleDot (Bool.not_eq_false _ ▸ hdot)
    exact (h part hpart).2 (Utf8.encode_inj (hdecode.symm.trans hbytes))

end Dots

section Queries

theorem decode_of_continuesName {s : String} (h : ∀ c ∈ s.toList, continuesName c = true) :
    decodeQuery.decode s.toList = s := by
  have hplus : s.toList.map (fun c => if c == '+' then ' ' else c) = s.toList := by
    conv_rhs => rw [← List.map_id s.toList]
    refine List.map_congr_left fun c hc => if_neg ?_
    rw [beq_iff_eq]
    rintro rfl
    exact absurd (h _ hc) (by decide)
  have hpercent : '%' ∉ s.toList := fun hmem => absurd (h _ hmem) (by decide)
  rw [decodeQuery.decode, hplus, percentDecode_of_notMem hpercent, Utf8.decodeLossy_encode,
    String.ofList_toList]

/-- The settings of a query are read as they were written. -/
theorem decodeQuery_written (h : ∀ s ∈ settings, Worded s) :
    decodeQuery (['&'].intercalate (settings.map written)) = settings := by
  cases settings with
  | nil => rfl
  | cons s rest =>
    have hparts : ∀ part ∈ (s :: rest).map written, '&' ∉ part := by
      intro part hpart
      obtain ⟨t, ht, rfl⟩ := List.mem_map.1 hpart
      exact notMem_written (by decide) (by decide) (h t ht)
    have hfilter : ((s :: rest).map written).filter (fun part => !part.isEmpty)
        = (s :: rest).map written := by
      refine List.filter_eq_self.2 fun part hpart => ?_
      obtain ⟨t, -, rfl⟩ := List.mem_map.1 hpart
      simp [written]
    rw [decodeQuery, split_intercalate hparts (by simp), hfilter, List.map_map]
    conv_rhs => rw [← List.map_id (s :: rest)]
    refine List.map_congr_left fun t ht => ?_
    have hkey : '=' ∉ t.1.toList := fun hmem => absurd ((h t ht).1 _ hmem) (by decide)
    simp only [Function.comp_apply, written, cut?_append hkey, Option.getD_some,
      decode_of_continuesName (h t ht).1, decode_of_continuesName (h t ht).2]
    rfl

end Queries

section Urls

variable {digit : Fin 16 → Char}

/-- The characters that a URL of a path and settings is made of. -/
def isUrlChar (c : Char) : Bool := isUnreserved c || ['%', '?', '&', '='].contains c

theorem isUrlChar_visible {c : Char} (h : isUrlChar c = true) : isBlank c = false ∧ ' ' < c := by
  have hall : ∀ n : Fin 128, isUrlChar (Char.ofNat n) = true →
      isBlank (Char.ofNat n) = false ∧ ' ' < Char.ofNat n := by decide
  have hascii : c.toNat < 128 := by
    rcases Bool.or_eq_true_iff.1 h with h | h
    · exact toNat_of_isUnreserved h
    · simp only [List.contains_iff_mem, List.mem_cons, List.not_mem_nil, or_false] at h
      rcases h with rfl | rfl | rfl | rfl <;> decide
  exact @forall_ascii (fun c => isUrlChar c = true → isBlank c = false ∧ ' ' < c) hall c hascii h

theorem isUrlChar_percentEncode (hdigit : ∀ d, hexValue? (digit d) = some d) {cs : List Char}
    {c : Char} (h : c ∈ percentEncode digit cs) : isUrlChar c = true ∧ endsPath c = false := by
  rcases mem_percentEncode hdigit h with hc | rfl
  · refine ⟨by simp [isUrlChar, hc], ?_⟩
    by_contra hends
    simp only [endsPath, Bool.not_eq_false, Bool.or_eq_true, beq_iff_eq] at hends
    rcases hends with rfl | rfl <;> exact absurd hc (by decide)
  · decide

theorem isUrlChar_of_continuesName {c : Char} (h : continuesName c = true) :
    isUrlChar c = true := by
  rcases Bool.or_eq_true_iff.1 h with h | h
  · simp [isUrlChar, isUnreserved, h]
  · rw [beq_iff_eq.1 h]
    rfl

theorem isUrlChar_written (h : ∀ s ∈ settings, Worded s) {c : Char}
    (hc : c ∈ ['&'].intercalate (settings.map written)) : isUrlChar c = true := by
  rcases mem_intercalate hc with rfl | ⟨part, hpart, hc⟩
  · rfl
  obtain ⟨s, hs, rfl⟩ := List.mem_map.1 hpart
  rcases List.mem_append.1 hc with hc | hc
  · exact isUrlChar_of_continuesName ((h s hs).1 c hc)
  rcases List.mem_cons.1 hc with rfl | hc
  · rfl
  · exact isUrlChar_of_continuesName ((h s hs).2 c hc)

theorem clean_of_visible {cs : List Char} (h : ∀ c ∈ cs, ' ' < c) : Url.clean cs = cs := by
  have htrim : trimRight (fun c => decide (c ≤ ' ')) cs = cs := by
    refine List.rdropWhile_eq_self_iff.2 fun hne => ?_
    simpa using h _ (List.getLast_mem hne)
  rw [Url.clean, htrim, List.filter_eq_self]
  intro c hc
  have hspace := h c hc
  simp only [Bool.and_eq_true, bne_iff_ne]
  refine ⟨⟨?_, ?_⟩, ?_⟩ <;> rintro rfl <;> exact absurd hspace (by decide)

theorem read_of_single_slash {cs : List Char} (hclean : Url.clean ('/' :: cs) = '/' :: cs)
    (hcs : cs.head? ≠ some '/') :
    Url.read ('/' :: cs) = .ok ⟨resolvePath (Url.pathText cs), Url.queryOf cs⟩ := by
  rw [Url.read, hclean]
  split
  · next h =>
    rw [(List.cons.inj h).2] at hcs
    exact absurd rfl hcs
  · next h => rw [(List.cons.inj h).2]
  · next h => exact absurd rfl (h cs)

/-- A path ends where the query begins. -/
theorem cut_queryForm {cs : List Char} (hcs : ∀ c ∈ cs, endsPath c = false)
    (settings : List (String × String)) : Url.pathText (cs ++ queryForm settings) = cs ∧
      Url.queryOf (cs ++ queryForm settings)
        = (['&'].intercalate (settings.map written)).takeWhile (· != '#') := by
  have hkeep : ∀ c ∈ cs, (!endsPath c) = true := by simpa using hcs
  rw [Url.pathText, Url.queryOf, List.takeWhile_append_of_pos hkeep,
    List.dropWhile_append_of_pos hkeep]
  cases settings with
  | nil => exact ⟨List.append_nil cs, rfl⟩
  | cons s rest => exact ⟨List.append_nil cs, rfl⟩

theorem isUrlChar_encoded (hdigit : ∀ d, hexValue? (digit d) = some d) (path : List Char)
    (h : ∀ s ∈ settings, Worded s) :
    ∀ c ∈ percentEncode digit path ++ queryForm settings, isUrlChar c = true := by
  intro c hc
  rcases List.mem_append.1 hc with hc | hc
  · exact (isUrlChar_percentEncode hdigit hc).1
  rcases settings with _ | ⟨s, rest⟩
  · cases hc
  rcases List.mem_cons.1 hc with rfl | hc
  · rfl
  · exact isUrlChar_written h hc

/-- The URL is taken apart where it was put together. -/
theorem read_urlForm (hdigit : ∀ d, hexValue? (digit d) = some d) (hpath : Rooted path)
    (hsettings : ∀ s ∈ settings, Worded s) :
    Url.read (percentEncode digit path ++ queryForm settings)
      = .ok ⟨percentEncode digit path, ['&'].intercalate (settings.map written)⟩ := by
  have hvisible := isUrlChar_encoded hdigit path hsettings
  obtain ⟨rest, rfl⟩ : ∃ rest, path = '/' :: rest := by
    have hslash := hpath.slash
    rcases path with _ | ⟨c, rest⟩ <;> cases hslash
    exact ⟨rest, rfl⟩
  have hencode : percentEncode digit ('/' :: rest) = '/' :: percentEncode digit rest := rfl
  rw [hencode, List.cons_append] at hvisible
  have hhead : (percentEncode digit rest ++ queryForm settings).head? ≠ some '/' := by
    rcases rest with _ | ⟨c, rest⟩
    · cases settings <;> simp [percentEncode, Utf8.encode, queryForm]
    · have hc : c ≠ '/' := fun hc => hpath.single (congrArg some hc)
      obtain ⟨d, ds, hd, hne⟩ := head?_percentEncode hdigit hc rest
      rw [hd]
      simpa using hne
  have hdots : ∀ segment ∈ split '/' rest, segment ≠ ['.'] ∧ segment ≠ ['.', '.'] :=
    fun segment hsegment => hpath.no_dots segment (List.mem_cons_of_mem _ hsegment)
  have hquery : (['&'].intercalate (settings.map written)).takeWhile (· != '#')
      = ['&'].intercalate (settings.map written) := by
    refine List.takeWhile_eq_self_iff.2 fun c hc => ?_
    rw [bne_iff_ne]
    rintro rfl
    exact absurd (isUrlChar_written hsettings hc) (by decide)
  obtain ⟨htext, hrest⟩ := cut_queryForm
    (fun c hc => (isUrlChar_percentEncode hdigit hc).2 : ∀ c ∈ percentEncode digit rest, _) settings
  rw [hencode, List.cons_append,
    read_of_single_slash (clean_of_visible fun c hc => (isUrlChar_visible (hvisible c hc)).2) hhead,
    htext, hrest, hquery, resolvePath_of_no_dots (no_dots_percentEncode hdigit hdots)]

theorem readUrl_of_read {text rest : List Char} {url : Url} {path : String}
    (hread : Url.read rest = .ok url) (hpath : url.decodedPath = .ok path) :
    readUrl text rest
      = (Partial.empty.setAll ((Key.path.name, path) :: url.pairs)).bind Partial.finish := by
  simp only [readUrl, hread, Except.mapError]
  show (url.decodedPath.mapError _ >>= fun path => _) = _
  rw [hpath]
  rfl

theorem readSettings_urlForm_eq (hdigit : ∀ d, hexValue? (digit d) = some d)
    (hpath : Rooted path) (hsettings : ∀ s ∈ settings, Worded s) :
    readSettings (urlForm digit path settings) = settled path settings := by
  have htrim : trim (urlForm digit path settings).toList
      = scheme ++ (percentEncode digit path ++ queryForm settings) := by
    rw [urlForm, String.toList_ofList, List.append_assoc]
    refine trim_of_no_blank fun c hc => ?_
    rcases List.mem_append.1 hc with hc | hc
    · have hscheme : scheme.all (fun c => !isBlank c) = true := by decide +kernel
      simpa using List.all_eq_true.1 hscheme c hc
    · exact (isUrlChar_visible (isUrlChar_encoded hdigit path hsettings c hc)).1
  have hdecoded : Url.decodedPath
      ⟨percentEncode digit path, ['&'].intercalate (settings.map written)⟩
        = .ok (String.ofList path) := by
    rw [Url.decodedPath, percentDecode_percentEncode hdigit, Utf8.decode_encode]
  rw [readSettings, htrim]
  simp only [List.isPrefixOf_iff_prefix, List.prefix_append, if_true, List.drop_left]
  rw [readUrl_of_read (read_urlForm hdigit hpath hsettings) hdecoded, Url.pairs,
    decodeQuery_written hsettings, settled]

end Urls

/-- A path and settings are read from a URL as from a list, be the settings known or not. -/
theorem readSettings_urlForm (digit : Fin 16 → Char) (hdigit : ∀ d, hexValue? (digit d) = some d)
    (path : List Char) (hpath : Rooted path) (settings : List (String × String))
    (hsettings : ∀ s ∈ settings, Worded s) :
    readSettings (urlForm digit path settings) = readSettings (listForm path settings) := by
  calc readSettings (urlForm digit path settings)
      = settled path settings := readSettings_urlForm_eq hdigit hpath hsettings
    _ = readSettings (listForm path settings) := (readSettings_listForm hpath hsettings).symm

theorem readSettings_urlForm_spaced :
    readSettings "sqlite:/tmp/my%20db%3f?foreign_keys=on&colour="
      = readSettings "path=/tmp/my db?;foreign_keys=on;colour=" := by
  have hpath : Rooted "/tmp/my db?".toList :=
    ⟨rfl, by decide, by decide, by decide, fun c hc => by cases hc; rfl⟩
  have hsettings : ∀ s ∈ [("foreign_keys", "on"), ("colour", "")], Worded s := by
    have hall : [("foreign_keys", "on"), ("colour", "")].all (fun s =>
        s.1.toList.all continuesName && s.2.toList.all continuesName) = true := by decide
    intro s hs
    simpa [Worded] using List.all_eq_true.1 hall s hs
  have hurl : urlForm hexChar "/tmp/my db?".toList [("foreign_keys", "on"), ("colour", "")]
      = "sqlite:/tmp/my%20db%3f?foreign_keys=on&colour=" := by decide +kernel
  have hlist : listForm "/tmp/my db?".toList [("foreign_keys", "on"), ("colour", "")]
      = "path=/tmp/my db?;foreign_keys=on;colour=" := by decide +kernel
  rw [← hurl, ← hlist]
  exact readSettings_urlForm hexChar hexValue?_hexChar _ hpath _ hsettings

end RecordMap.Connection
