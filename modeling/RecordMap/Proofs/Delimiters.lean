import RecordMap.Proofs.Lexer
import RecordMap.Sql.Statement

/-!
# Where texts end

A text is taken apart from the left.  What is written for a name, a type or a column of a table ends
where it ends, as long as a break stands behind it: two such texts are the same, with all that
follows, only if they are written for the same thing (`delimited_identifier`, `delimited_column`).
The same holds of a list of such texts with commas between them (`Delimited.list`).
-/

namespace RecordMap.Sql

section Delimiters

variable {α : Type}

/-- Where the texts that `f` writes for the things of `p` end can be seen from the texts: two of
them are the same, with what follows, only if they are written for the same thing. -/
def Delimited (p : α → Prop) (ends : List Char → Prop) (f : α → String) : Prop :=
  ∀ ⦃a b : α⦄ ⦃x y : List Char⦄, p a → p b → ends x → ends y →
    (f a).toList ++ x = (f b).toList ++ y → a = b ∧ x = y

/-- The texts with commas between them. -/
def listed (f : α → String) (as : List α) : String := String.intercalate ", " (as.map f)

theorem toList_listed_cons (f : α → String) (a b : α) (as : List α) :
    (listed f (a :: b :: as)).toList
      = (f a).toList ++ ',' :: ' ' :: (listed f (b :: as)).toList := by
  simp [listed, String.toList_append]

variable {p : α → Prop} {ends : List Char → Prop} {f : α → String}

theorem Delimited.append {ends' : List Char → Prop} {s : String} (hf : Delimited p ends f)
    (hs : ∀ x, ends' x → ends (s.toList ++ x)) : Delimited p ends' fun a => f a ++ s := by
  intro a b x y ha hb hx hy h
  simp only [String.toList_append, List.append_assoc] at h
  obtain ⟨hab, hxy⟩ := hf ha hb (hs x hx) (hs y hy) h
  exact ⟨hab, List.append_cancel_left hxy⟩

@[simp] theorem listed_singleton (f : α → String) (a : α) : listed f [a] = f a := by
  simp [listed]

theorem Delimited.cons_inj (hf : Delimited p ends f) (hcomma : ∀ x, ends (',' :: x))
    {x y : List Char} (hx : ends x) (hy : ends y) (hxc : x.head? ≠ some ',')
    (hyc : y.head? ≠ some ',') : ∀ {as bs : List α} {a b : α}, (∀ c ∈ a :: as, p c) →
      (∀ c ∈ b :: bs, p c) →
      (listed f (a :: as)).toList ++ x = (listed f (b :: bs)).toList ++ y →
      a :: as = b :: bs ∧ x = y
  | [], [], a, b, ha, hb, h => by
    rw [listed_singleton, listed_singleton] at h
    obtain ⟨rfl, hxy⟩ := hf (ha a List.mem_cons_self) (hb b List.mem_cons_self) hx hy h
    exact ⟨rfl, hxy⟩
  | [], d :: ds, a, b, ha, hb, h => by
    rw [listed_singleton, toList_listed_cons, List.append_assoc] at h
    have hxy := (hf (ha a List.mem_cons_self) (hb b List.mem_cons_self) hx (hcomma _) h).2
    exact absurd (congrArg List.head? hxy) hxc
  | c :: cs, [], a, b, ha, hb, h => by
    rw [listed_singleton, toList_listed_cons, List.append_assoc] at h
    have hxy := (hf (ha a List.mem_cons_self) (hb b List.mem_cons_self) (hcomma _) hy h).2
    exact absurd (congrArg List.head? hxy.symm) hyc
  | c :: cs, d :: ds, a, b, ha, hb, h => by
    rw [toList_listed_cons, toList_listed_cons, List.append_assoc, List.append_assoc] at h
    obtain ⟨rfl, hrest⟩ := hf (ha a List.mem_cons_self) (hb b List.mem_cons_self) (hcomma _)
      (hcomma _) h
    obtain ⟨htail, hxy⟩ := hf.cons_inj hcomma hx hy hxc hyc
      (fun e he => ha e (List.mem_cons_of_mem _ he)) (fun e he => hb e (List.mem_cons_of_mem _ he))
      (@List.append_cancel_left _ [',', ' '] _ _ hrest)
    exact ⟨by rw [htail], hxy⟩

/-- A list goes on with a comma, so it ends where no comma follows. -/
theorem Delimited.list (hf : Delimited p ends f) (hcomma : ∀ x, ends (',' :: x)) :
    Delimited (fun as => as ≠ [] ∧ ∀ a ∈ as, p a) (fun x => ends x ∧ x.head? ≠ some ',')
      (listed f) := by
  rintro (_ | ⟨a, as⟩) (_ | ⟨b, bs⟩) x y ⟨hne, ha⟩ ⟨hne', hb⟩ ⟨hx, hxc⟩ ⟨hy, hyc⟩ h
  · exact absurd rfl hne
  · exact absurd rfl hne
  · exact absurd rfl hne'
  · exact hf.cons_inj hcomma hx hy hxc hyc ha hb h

/-- Texts of characters that no following text begins with. -/
theorem span_inj {q : Char → Bool} {as bs x y : List Char} (ha : ∀ c ∈ as, q c = true)
    (hb : ∀ c ∈ bs, q c = true) (hx : x.takeWhile q = []) (hy : y.takeWhile q = [])
    (h : as ++ x = bs ++ y) : as = bs ∧ x = y := by
  have hl := congrArg (List.takeWhile q) h
  rw [List.takeWhile_append_of_pos ha, List.takeWhile_append_of_pos hb, hx, hy, List.append_nil,
    List.append_nil] at hl
  subst hl
  exact ⟨rfl, List.append_cancel_left h⟩

end Delimiters

section Names

variable {x y : List Char}

/-- A quoted text ends with the quote that no quote follows. -/
theorem doubled_inj {q : Char} (hx : x.head? ≠ some q) (hy : y.head? ≠ some q) :
    ∀ as bs : List Char, doubled q as ++ q :: x = doubled q bs ++ q :: y → as = bs ∧ x = y
  | [], [], h => ⟨rfl, (List.cons.inj h).2⟩
  | [], b :: bs, h => by
    simp only [doubled, List.flatMap_nil, List.nil_append, List.flatMap_cons] at h
    split_ifs at h with hb
    · simp [(List.cons.inj h).2, hb] at hx
    · exact absurd (List.cons.inj h).1.symm hb
  | a :: as, [], h => by
    simp only [doubled, List.flatMap_nil, List.nil_append, List.flatMap_cons] at h
    split_ifs at h with ha
    · simp [← (List.cons.inj h).2, ha] at hy
    · exact absurd (List.cons.inj h).1 ha
  | a :: as, b :: bs, h => by
    have ih := doubled_inj hx hy as bs
    simp only [doubled, List.flatMap_cons, List.append_assoc] at h ih
    split_ifs at h with ha hb hb
    · obtain ⟨hasbs, hxy⟩ := ih (List.append_cancel_left (ha.trans hb.symm ▸ h))
      exact ⟨by rw [ha, hb, hasbs], hxy⟩
    · exact absurd (ha ▸ (List.cons.inj h).1.symm) hb
    · exact absurd (hb ▸ (List.cons.inj h).1) ha
    · simp only [List.cons_append, List.nil_append, List.cons.injEq] at h
      obtain ⟨hasbs, hxy⟩ := ih h.2
      exact ⟨by rw [h.1, hasbs], hxy⟩

theorem takeWhile_of_breaks {q : Char → Bool} (hq : ∀ c, isBreak c = true → q c = false)
    (h : Breaks x) : x.takeWhile q = [] := by
  cases x with
  | nil => rfl
  | cons c cs => rw [List.takeWhile_cons_of_neg (by simp [hq c h])]

theorem breaks_blank (x : List Char) : Breaks (' ' :: x) := rfl

theorem not_continuesName_of_isBreak (c : Char) (h : isBreak c = true) :
    continuesName c = false := by
  rcases isBreak_cases h with rfl | rfl | rfl <;> rfl

theorem head_ne_of_breaks (c : Char) (hc : isBreak c = false) (h : Breaks x) :
    x.head? ≠ some c := by
  cases x with
  | nil => simp
  | cons d ds =>
    rintro ⟨⟩
    simp [Breaks, hc] at h

/-- A name that is written as it is, is not the beginning of a quoted one. -/
theorem quote_ne_name {name : String} (h : isIdentifier name = true) (cs : List Char) :
    name.toList ++ x ≠ '\x22' :: cs := by
  obtain ⟨c, ds, hn, hc, -⟩ := Text.isIdentifier_iff.1 h
  rw [hn]
  rintro heq
  rw [(List.cons.inj heq).1] at hc
  exact absurd hc (by decide)

theorem identifier_of_isPlain {name : String} (h : isPlain name = true) :
    identifier name = name := by
  simp [identifier, h]

theorem toList_identifier_of_not {name : String} (h : isPlain name = false) :
    (identifier name).toList = '\x22' :: doubled '\x22' name.toList ++ ['\x22'] := by
  simp [identifier, h, enclose]

/-- A name that is written as it is, is told from every word that is not it. -/
theorem word_inj {v w : String} (hv : isIdentifier v = true) (hw : isIdentifier w = true)
    (hx : Breaks x) (hy : Breaks y) (h : v.toList ++ x = w.toList ++ y) : v = w ∧ x = y := by
  obtain ⟨hvw, hxy⟩ := span_inj (continuesName_of_isIdentifier hv)
    (continuesName_of_isIdentifier hw)
    (takeWhile_of_breaks not_continuesName_of_isBreak hx)
    (takeWhile_of_breaks not_continuesName_of_isBreak hy) h
  exact ⟨String.toList_inj.1 hvw, hxy⟩

theorem delimited_identifier : Delimited (fun _ => True) Breaks identifier := by
  intro a b x y _ _ hx hy h
  rcases ha : isPlain a with _ | _ <;> rcases hb : isPlain b with _ | _
  · rw [toList_identifier_of_not ha, toList_identifier_of_not hb] at h
    simp only [List.cons_append, List.append_assoc, List.nil_append, List.cons.injEq,
      true_and] at h
    obtain ⟨hab, hxy⟩ := doubled_inj (head_ne_of_breaks _ rfl hx) (head_ne_of_breaks _ rfl hy) _ _ h
    exact ⟨String.toList_inj.1 hab, hxy⟩
  · rw [toList_identifier_of_not ha, identifier_of_isPlain hb] at h
    exact absurd h.symm (quote_ne_name (isIdentifier_of_isPlain hb) _)
  · rw [identifier_of_isPlain ha, toList_identifier_of_not hb] at h
    exact absurd h (quote_ne_name (isIdentifier_of_isPlain ha) _)
  · rw [identifier_of_isPlain ha, identifier_of_isPlain hb] at h
    exact word_inj (isIdentifier_of_isPlain ha) (isIdentifier_of_isPlain hb) hx hy h

/-- No name is written as a keyword is. -/
theorem identifier_ne_keyword {name : String} (word : String) (hw : isIdentifier word = true)
    (hk : isPlain word = false) (hx : Breaks x) (hy : Breaks y) :
    (identifier name).toList ++ x ≠ word.toList ++ y := by
  intro h
  rcases hn : isPlain name with _ | _
  · rw [toList_identifier_of_not hn] at h
    exact quote_ne_name hw _ h.symm
  · rw [identifier_of_isPlain hn] at h
    have hname := (word_inj (isIdentifier_of_isPlain hn) hw hx hy h).1
    rw [hname, hk] at hn
    cases hn

end Names

section Columns

variable {x y : List Char}

/-- A column ends with a comma or a closing bracket. -/
def Closes : List Char → Prop
  | [] => True
  | c :: _ => (c = ',' ∨ c = ')')

theorem Closes.breaks (h : Closes x) : Breaks x := by
  cases x with
  | nil => trivial
  | cons c cs => rcases h with rfl | rfl <;> rfl

theorem Closes.head_ne_blank (h : Closes x) : x.head? ≠ some ' ' := by
  cases x with
  | nil => simp
  | cons c cs => rcases h with rfl | rfl <;> simp

theorem delimited_length :
    Delimited (fun _ => True) (fun x => x.head? = some ')') Decimal.text := by
  intro m n x y _ _ hx hy h
  have hdigits : ∀ k, ∀ c ∈ (Decimal.text k).toList, c.isDigit = true := by
    intro k c hc
    rw [Decimal.text, String.toList_ofList, Decimal.ofNat] at hc
    exact Nat.isDigit_of_mem_toDigits (by decide) (by decide) hc
  have hend : ∀ {z : List Char}, z.head? = some ')' → z.takeWhile Char.isDigit = [] := by
    intro z hz
    cases z with
    | nil => rfl
    | cons c cs =>
      rw [Option.some.inj hz]
      rfl
  obtain ⟨hmn, hxy⟩ := span_inj (hdigits m) (hdigits n) (hend hx) (hend hy) h
  refine ⟨?_, hxy⟩
  have hnat : Decimal.ofNat m = Decimal.ofNat n := by simpa [Decimal.text] using hmn
  have hread := congrArg (Nat.ofDigitChars 10 · 0) hnat
  simpa [Decimal.ofNat, Nat.ofDigitChars_toDigits] using hread

theorem delimited_type : Delimited (fun _ => True) Breaks SqlType.text := by
  intro a b x y _ _ hx hy h
  have hx' := head_ne_of_breaks '(' rfl hx
  have hy' := head_ne_of_breaks '(' rfl hy
  rcases a with _ | _ | _ | (_ | m) | _ <;> rcases b with _ | _ | _ | (_ | n) | _ <;>
    simp [SqlType.text] at h ⊢
  case varChar.none.varChar.some =>
    rw [h] at hx'
    exact hx' rfl
  case varChar.some.varChar.none =>
    rw [← h] at hy'
    exact hy' rfl
  case varChar.some.varChar.some =>
    obtain ⟨rfl, hxy⟩ := delimited_length trivial trivial rfl rfl h
    exact ⟨rfl, (List.cons.inj hxy).2⟩
  all_goals exact h

/-- The words that mark a column unless others are given for it. -/
def standardMarkers : List String := [keyWords, autoIncrementWords, notNullWords]

theorem marker_inj {v w : String} (hv : v ∈ standardMarkers) (hw : w ∈ standardMarkers)
    (h : v.toList ++ x = w.toList ++ y) : v = w ∧ x = y := by
  simp only [standardMarkers, List.mem_cons, List.not_mem_nil, or_false] at hv hw
  rcases hv with rfl | rfl | rfl <;> rcases hw with rfl | rfl | rfl <;>
    simp [keyWords, autoIncrementWords, notNullWords] at h ⊢ <;> exact h

/-- The markers of a column, each behind a blank. -/
def marked (ws : List String) : String := String.join (ws.map (" " ++ ·))

theorem toList_marked_cons (w : String) (ws : List String) :
    (marked (w :: ws)).toList = ' ' :: (w.toList ++ (marked ws).toList) := by
  simp [marked, String.toList_append]

theorem marked_inj (hx : Closes x) (hy : Closes y) : ∀ {vs ws : List String},
    (∀ v ∈ vs, v ∈ standardMarkers) → (∀ w ∈ ws, w ∈ standardMarkers) →
    (marked vs).toList ++ x = (marked ws).toList ++ y → vs = ws ∧ x = y
  | [], [], _, _, h => ⟨rfl, by simpa [marked] using h⟩
  | [], w :: ws, _, _, h => by
    rw [toList_marked_cons] at h
    exact absurd (congrArg List.head? h) (by simpa [marked] using hx.head_ne_blank)
  | v :: vs, [], _, _, h => by
    rw [toList_marked_cons] at h
    exact absurd (congrArg List.head? h.symm) (by simpa [marked] using hy.head_ne_blank)
  | v :: vs, w :: ws, hv, hw, h => by
    rw [toList_marked_cons, toList_marked_cons] at h
    simp only [List.cons_append, List.append_assoc, List.cons.injEq, true_and] at h
    obtain ⟨rfl, hrest⟩ := marker_inj (hv v List.mem_cons_self) (hw w List.mem_cons_self) h
    obtain ⟨rfl, hxy⟩ := marked_inj hx hy (fun u hu => hv u (List.mem_cons_of_mem _ hu))
      (fun u hu => hw u (List.mem_cons_of_mem _ hu)) hrest
    exact ⟨rfl, hxy⟩

theorem breaks_marked (hx : Closes x) (ws : List String) : Breaks ((marked ws).toList ++ x) := by
  cases ws with
  | nil => simpa [marked] using hx.breaks
  | cons w ws =>
    rw [toList_marked_cons]
    rfl

theorem delimited_column : Delimited (fun c => ∀ w ∈ c.markers, w ∈ standardMarkers) Closes
    Statement.columnDef := by
  rintro ⟨a, t, vs⟩ ⟨b, u, ws⟩ x y hv hw hx hy h
  have htoList : ∀ (c : ColumnDef) (z : List Char), (Statement.columnDef c).toList ++ z
      = (identifier c.name).toList ++
          (' ' :: (c.ty.text.toList ++ ((marked c.markers).toList ++ z))) := by
    intro c z
    simp [Statement.columnDef, marked, String.toList_append]
  rw [htoList, htoList] at h
  obtain ⟨hname, htype⟩ := delimited_identifier trivial trivial (breaks_blank _) (breaks_blank _) h
  obtain ⟨hty, hmarkers⟩ := delimited_type trivial trivial (breaks_marked hx vs)
    (breaks_marked hy ws) (List.cons.inj htype).2
  obtain ⟨hws, hxy⟩ := marked_inj hx hy hv hw hmarkers
  exact ⟨by simp_all, hxy⟩

end Columns

end RecordMap.Sql
