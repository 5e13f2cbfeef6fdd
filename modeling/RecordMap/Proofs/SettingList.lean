import RecordMap.Proofs.Segments

/-!
# Lists of settings

The settings of a list count key by key: of each key the last one (`foldl_give`), whatever stands
between, and a path that is left empty takes back the paths before it (`finish_eq_ok`).  The first
flawed segment ends the reading with its flaw, whether or not there is a path (`foldlM_of_flawed`).
-/

namespace RecordMap.Connection

open Sql Text

namespace Setting

def path? : Setting → Option String
  | .path p => some p
  | _ => none

def busyTimeout? : Setting → Option Nat
  | .busyTimeout n => some n
  | _ => none

def foreignKeys? : Setting → Option Bool
  | .foreignKeys b => some b
  | _ => none

def journalMode? : Setting → Option JournalMode
  | .journalMode m => some m
  | _ => none

def createDir? : Setting → Option Bool
  | .createDir b => some b
  | _ => none

/-- The last setting of a key. -/
def last (k : Key) (given : List Setting) : Option Setting :=
  (given.filter (·.key = k)).getLast?

end Setting

section Runs

/-- The settings that segments bring are given one after the other. -/
theorem foldlM_of_brings {segments : List (List Char)} {settings : List (Option Setting)}
    (h : List.Forall₂ Brings segments settings) : ∀ p : Partial,
      segments.foldlM setSegment p = .ok (settings.reduceOption.foldl Partial.give p) := by
  induction h with
  | nil => exact fun p => rfl
  | @cons segment o segments settings hsegment _ ih =>
    intro p
    rw [List.foldlM_cons, setSegment_of_brings hsegment p]
    cases o with
    | none => exact ih p
    | some s => exact ih (p.give s)

/-- The first flawed segment ends the run. -/
theorem foldlM_of_flawed {segment : List Char} {flaw : ConnectionFlaw}
    (hflaw : Flawed segment flaw) (after : List (List Char)) :
    ∀ {before : List (List Char)}, (∀ b ∈ before, ∀ f, ¬ Flawed b f) → ∀ p : Partial,
      (before ++ segment :: after).foldlM setSegment p = Outcome.fail (.connection flaw)
  | [], _, p => by
    rw [List.nil_append, List.foldlM_cons, setSegment_of_flawed hflaw p]
    rfl
  | b :: before, h, p => by
    obtain ⟨q, hq⟩ := exists_setSegment (h b List.mem_cons_self) p
    rw [List.cons_append, List.foldlM_cons, hq]
    exact foldlM_of_flawed hflaw after (fun c hc => h c (List.mem_cons_of_mem _ hc)) q

end Runs

section Last

namespace Setting

variable {k : Key} {α : Type}

theorem last_cons (k : Key) (s : Setting) (given : List Setting) :
    last k (s :: given) = (last k given).or (if s.key = k then some s else none) := by
  rw [last, List.filter_cons, last]
  by_cases hs : s.key = k
  · simp only [hs, decide_true, if_true, List.getLast?_cons]
    cases (given.filter (·.key = k)).getLast? <;> rfl
  · simp only [hs, decide_false, Bool.false_eq_true, if_false, Option.or_none]

theorem key_of_last {s : Setting} {given : List Setting} (h : last k given = some s) :
    s.key = k := by
  have hmem := List.mem_of_getLast? h
  simpa using (List.mem_filter.1 hmem).2

/-- What one key sets and no other is as the last setting of the key left it. -/
theorem last_of_give (k : Key) (get : Partial → α) (g : Setting → α)
    (h : ∀ p s, get (Partial.give p s) = if s.key = k then g s else get p) :
    ∀ (given : List Setting) (p : Partial),
      get (given.foldl Partial.give p) = ((last k given).map g).getD (get p)
  | [], _ => rfl
  | s :: given, p => by
    rw [List.foldl_cons, last_of_give k get g h given, h, last_cons]
    rcases last k given with _ | t
    · split_ifs <;> rfl
    · rfl

end Setting

open Setting

/-- The settings of a list whose last path is `path`. -/
def Settings.lastOf (path : String) (given : List Setting) : Settings where
  location := if path = ":memory:" then .memory else .file path
  busyTimeout := (last .busyTimeout given).bind busyTimeout?
  foreignKeys := (last .foreignKeys given).bind foreignKeys?
  journalMode := (last .journalMode given).bind journalMode?
  createDir := ((last .createDir given).bind createDir?).getD false

theorem foldl_give (given : List Setting) :
    given.foldl Partial.give Partial.empty
      = ⟨((last .path given).bind path?).bind readLocation,
          (last .busyTimeout given).bind busyTimeout?, (last .foreignKeys given).bind foreignKeys?,
          (last .journalMode given).bind journalMode?,
          ((last .createDir given).bind createDir?).getD false⟩ := by
  have hlocation := last_of_give .path Partial.location (fun s => s.path?.bind readLocation)
    (fun p s => by cases s <;> rfl) given Partial.empty
  have hbusyTimeout := last_of_give .busyTimeout Partial.busyTimeout busyTimeout?
    (fun p s => by cases s <;> rfl) given Partial.empty
  have hforeignKeys := last_of_give .foreignKeys Partial.foreignKeys foreignKeys?
    (fun p s => by cases s <;> rfl) given Partial.empty
  have hjournalMode := last_of_give .journalMode Partial.journalMode journalMode?
    (fun p s => by cases s <;> rfl) given Partial.empty
  have hcreateDir := last_of_give .createDir Partial.createDir (fun s => s.createDir?.getD false)
    (fun p s => by cases s <;> rfl) given Partial.empty
  calc given.foldl Partial.give Partial.empty
      = ⟨_, _, _, _, _⟩ := congr (congr (congr (congr (congrArg Partial.mk hlocation) hbusyTimeout)
          hforeignKeys) hjournalMode) hcreateDir
    _ = _ := by
      cases last .path given <;> cases last .busyTimeout given <;>
        cases last .foreignKeys given <;> cases last .journalMode given <;>
        cases last .createDir given <;> rfl

theorem readLocation_of_ne {path : String} (h : path ≠ "") :
    readLocation path = some (if path = ":memory:" then .memory else .file path) := by
  rw [readLocation, if_neg h]
  split_ifs <;> rfl

/-- A list comes to settings if it has a path and the last one is not empty. -/
theorem finish_eq_ok {given : List Setting} {r : Settings} :
    (given.foldl Partial.give Partial.empty).finish = .ok r ↔
      ∃ path, last .path given = some (.path path) ∧ path ≠ "" ∧
        r = Settings.lastOf path given := by
  rw [foldl_give]
  rcases hpath : last .path given with _ | s
  · simp [Partial.finish, Outcome.fail]
  · obtain ⟨path, rfl⟩ : ∃ path, s = .path path := by
      have hkey := key_of_last hpath
      cases s with
      | path path => exact ⟨path, rfl⟩
      | _ => cases hkey
    simp only [Option.bind_some, path?]
    constructor
    · intro h
      have hne : path ≠ "" := by
        rintro rfl
        cases h
      rw [readLocation_of_ne hne] at h
      exact ⟨path, rfl, hne, (Except.ok.inj h).symm⟩
    · rintro ⟨path', hpath', hne, rfl⟩
      obtain rfl : path = path' := by simpa using hpath'
      rw [readLocation_of_ne hne]
      rfl

/-- Settings of different keys may change places. -/
theorem foldl_give_congr {given given' : List Setting}
    (h : ∀ k, given.filter (·.key = k) = given'.filter (·.key = k)) :
    given.foldl Partial.give Partial.empty = given'.foldl Partial.give Partial.empty := by
  have hlast : ∀ k, last k given = last k given' := fun k => congrArg List.getLast? (h k)
  simp only [foldl_give, hlast]

end Last

section Lists

theorem notMem_of_brings {segment : List Char} {o : Option Setting} (h : Brings segment o) :
    ';' ∉ segment := by
  have hblank : isBlank ';' = false := rfl
  cases h with
  | nothing h => exact notMem_of_blanks hblank h
  | setting ha hb hc hd hkey hvalue hsemicolon htrim =>
    have hname := fun hmem => (Key.chars_of_same hkey).2 ';' hmem
    simp only [List.mem_append, List.mem_cons, not_or]
    exact ⟨⟨⟨notMem_of_blanks hblank ha, fun hmem => absurd (hname hmem) (by decide)⟩,
      notMem_of_blanks hblank hb⟩, by decide, ⟨notMem_of_blanks hblank hc, hsemicolon⟩,
      notMem_of_blanks hblank hd⟩

/-- What a list of settings begins with, blanks left out, is a semicolon or a letter of a key. -/
theorem not_scheme_of_brings {segment rest : List Char} {o : Option Setting} (h : Brings segment o)
    (hrest : rest = [] ∨ ∃ after, rest = ';' :: after) :
    ¬ scheme <+: trim (segment ++ rest) := by
  cases h with
  | nothing h =>
    rw [trim_blanks_append h]
    rcases hrest with rfl | ⟨after, rfl⟩
    · rintro ⟨_, h⟩
      cases h
    · exact not_scheme_of_head rfl (by decide) after
  | setting ha hb hc hd hkey hvalue hsemicolon htrim =>
    obtain ⟨⟨c, cs, hcs, hne⟩, hname⟩ := Key.chars_of_same hkey
    rw [hcs] at hname
    simp only [hcs, List.append_assoc, List.cons_append]
    rw [trim_blanks_append ha]
    exact not_scheme_of_head (isBlank_of_continuesName (hname c List.mem_cons_self)) hne _

theorem notMem_of_forall_brings {segments : List (List Char)} {settings : List (Option Setting)}
    (h : List.Forall₂ Brings segments settings) : ∀ segment ∈ segments, ';' ∉ segment := by
  induction h with
  | nil => simp
  | cons hsegment _ ih => exact List.forall_mem_cons.2 ⟨notMem_of_brings hsegment, ih⟩

theorem readSettings_of_brings {segments : List (List Char)} {settings : List (Option Setting)}
    (h : List.Forall₂ Brings segments settings) :
    readSettings (String.ofList ([';'].intercalate segments))
      = (settings.reduceOption.foldl Partial.give Partial.empty).finish := by
  cases h with
  | nil => rfl
  | @cons segment o segments settings hsegment hsegments =>
    have hscheme : ¬ scheme <+: trim ([';'].intercalate (segment :: segments)) := by
      cases segments with
      | nil => simpa using not_scheme_of_brings hsegment (.inl rfl)
      | cons next segments =>
        rw [List.intercalate_cons_cons]
        simpa using not_scheme_of_brings hsegment (.inr ⟨[';'].intercalate (next :: segments), rfl⟩)
    have hall : List.Forall₂ Brings (segment :: segments) (o :: settings) :=
      .cons hsegment hsegments
    rw [readSettings_eq_readList (by rwa [String.toList_ofList]), String.toList_ofList, readList,
      split_intercalate (notMem_of_forall_brings hall) (List.cons_ne_nil _ _),
      foldlM_of_brings hall]
    rfl

/-- Lists of settings are read key by key: of each key the last setting counts, whatever stands
between, and there has to be a path.  A text that is not such a list fails with the flaw of its
first flawed segment. -/
theorem readSettings_list :
    (∀ segments settings, List.Forall₂ Brings segments settings →
      (∀ r, readSettings (String.ofList ([';'].intercalate segments)) = .ok r ↔
        ∃ path, Setting.last .path settings.reduceOption = some (.path path) ∧ path ≠ "" ∧
          r = Settings.lastOf path settings.reduceOption) ∧
      (∀ segments' settings', List.Forall₂ Brings segments' settings' →
        (∀ k, settings.reduceOption.filter (·.key = k)
          = settings'.reduceOption.filter (·.key = k)) →
        readSettings (String.ofList ([';'].intercalate segments))
          = readSettings (String.ofList ([';'].intercalate segments')))) ∧
    (∀ (s : String) (before after : List (List Char)) (segment : List Char)
      (flaw : ConnectionFlaw), ¬ scheme <+: trim s.toList →
      s.toList = [';'].intercalate (before ++ segment :: after) →
      (∀ part ∈ before ++ segment :: after, ';' ∉ part) → (∀ b ∈ before, ∀ f, ¬ Flawed b f) →
      Flawed segment flaw → readSettings s = Outcome.fail (.connection flaw)) := by
  refine ⟨fun segments settings h => ⟨fun r => ?_, fun segments' settings' h' hkeys => ?_⟩, ?_⟩
  · rw [readSettings_of_brings h, finish_eq_ok]
  · rw [readSettings_of_brings h, readSettings_of_brings h', foldl_give_congr hkeys]
  · intro s before after segment flaw hscheme hs hparts hbefore hflaw
    rw [readSettings_eq_readList hscheme, readList, hs, split_intercalate hparts (by simp),
      foldlM_of_flawed hflaw after hbefore]
    rfl

theorem brings_last_path : Brings "PATH=c.db\n".toList (some (.path "c.db")) :=
  @Brings.setting [] [] [] ['\n'] "PATH" "c.db" (.path "c.db") (by simp) (by simp) (by simp)
    (List.forall_mem_singleton.2 rfl) (by decide) rfl (by decide) (by decide +kernel)

/-- A list with two paths, with blanks and with nothing in one of its segments. -/
theorem brings_spaced : List.Forall₂ Brings
    [" Path = a=b.db ".toList, [], "busy_timeout=+05".toList, "PATH=c.db\n".toList]
    [some (.path "a=b.db"), none, some (.busyTimeout 5), some (.path "c.db")] := by
  have hblank : ∀ c ∈ [' '], isBlank c = true := List.forall_mem_singleton.2 rfl
  have hpath : Brings " Path = a=b.db ".toList (some (.path "a=b.db")) :=
    @Brings.setting [' '] [' '] [' '] [' '] "Path" "a=b.db" (.path "a=b.db") hblank hblank hblank
      hblank (by decide) rfl (by decide) (by decide +kernel)
  have hdigits : ∀ c ∈ ['0', '5'], c.isDigit = true := by simp
  have htimeout : Brings "busy_timeout=+05".toList (some (.busyTimeout 5)) :=
    @Brings.setting [] [] [] [] "busy_timeout" "+05" (.busyTimeout 5) (by simp) (by simp) (by simp)
      (by simp) (by decide) ⟨['0', '5'], .inr rfl, by decide, hdigits, rfl, by decide⟩ (by decide)
      (by decide +kernel)
  exact .cons hpath (.cons (.nothing (by simp)) (.cons htimeout (.cons brings_last_path .nil)))

theorem readSettings_list_spaced :
    readSettings " Path = a=b.db ;;busy_timeout=+05;PATH=c.db\n"
      = .ok ⟨.file "c.db", some 5, none, none, false⟩ ∧
    readSettings "PATH=c.db\n;colour=blue;version=2"
      = Outcome.fail (.connection (.unknownKey "colour")) := by
  obtain ⟨hlist, hflawed⟩ := readSettings_list
  refine ⟨((hlist _ _ brings_spaced).1 _).2 ⟨"c.db", rfl, by decide, rfl⟩, ?_⟩
  have hcolour : Flawed "colour=blue".toList (.unknownKey "colour") :=
    @Flawed.unknownKey "colour".toList "blue".toList (by decide)
      (by rintro (_ | _ | _ | _ | _ | _) <;> decide +kernel)
  refine hflawed _ ["PATH=c.db\n".toList] ["version=2".toList] _ _ (by decide +kernel) (by decide)
    (by decide) ?_ hcolour
  intro b hb
  rw [List.mem_singleton.1 hb]
  exact not_flawed_of_brings brings_last_path

end Lists

end RecordMap.Connection
