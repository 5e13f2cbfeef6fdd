import RecordMap.Proofs.Inlining
import RecordMap.Proofs.OneStatement
import RecordMap.Proofs.Tables

/-!
# Selections with and without literals

The request of a selection is put together from parts, texts and bound values.  The one with its
literals in the text and the one with all of them bound differ in nothing but that the one has a
literal where the other has the value that it stands for (`exists_alike_requests`).

What a store selects hangs on what the condition of the selection says (`ReadsLiterals`), as it does
for a table (`readsLiterals_table`).  The conditions of the two say the same, up to constants in the
one that stand for values in the other (`exists_alike_selections`), so a store selects the same rows
either way.
-/

namespace RecordMap

open Session Sql

variable {α σ : Type} {standsFor : Constant → Stored → Prop}

/-- A part of a request. -/
inductive Part
  | text (s : String)
  | bound (raw : Stored)

namespace Part

def ofPiece : Piece → Outcome Part
  | .text s => .ok (.text s)
  | .bound v => v.stored.map .bound

theorem mapM_cons_text (s : String) (ps : List Piece) :
    (Piece.text s :: ps).mapM ofPiece = (ps.mapM ofPiece).map (.text s :: ·) :=
  Outcome.mapM_cons_ok (f := ofPiece) rfl ps

theorem mapM_cons_bound {v : Value} {raw : Stored} (h : v.stored = .ok raw) (ps : List Piece) :
    (Piece.bound v :: ps).mapM ofPiece = (ps.mapM ofPiece).map (.bound raw :: ·) :=
  Outcome.mapM_cons_ok (by rw [ofPiece, h]; rfl) ps

/-- The same part, or a literal for a value that it stands for. -/
inductive Alike (standsFor : Constant → Stored → Prop) : Part → Part → Prop
  | refl (p : Part) : Alike standsFor p p
  | literal {s : String} {c : Constant} {raw : Stored} (hread : Constant.read? s = some c)
    (h : standsFor c raw) : Alike standsFor (.text s) (.bound raw)

def AllClosed (ps : List Part) : Prop := ∀ s, .text s ∈ ps → Closed s.toList

end Part

namespace Request

def ofParts : List Part → Request
  | [] => ⟨"", []⟩
  | .text s :: ps => ⟨s ++ (ofParts ps).text, (ofParts ps).params⟩
  | .bound raw :: ps => ⟨"?" ++ (ofParts ps).text, raw :: (ofParts ps).params⟩

/-- Requests that differ only in that the one has literals for values that the other binds. -/
def Alike (standsFor : Constant → Stored → Prop) (r r' : Request) : Prop :=
  ∃ ps ps', r = ofParts ps ∧ r' = ofParts ps' ∧ Part.AllClosed ps ∧ Part.AllClosed ps' ∧
    List.Forall₂ (Part.Alike standsFor) ps ps'

end Request

theorem Request.ofParts_of_mapM : ∀ {ps : List Piece} {qs : List Part},
    ps.mapM Part.ofPiece = .ok qs →
      (ofParts qs).text = (Query.ofPieces ps).text ∧
      (Query.ofPieces ps).params.mapM Value.stored = .ok (ofParts qs).params
  | [], qs, h => by
    cases h
    exact ⟨rfl, rfl⟩
  | .text s :: ps, qs, h => by
    rw [Part.mapM_cons_text] at h
    rcases hps : ps.mapM Part.ofPiece with e | qs' <;> rw [hps] at h <;> cases h
    obtain ⟨htext, hparams⟩ := ofParts_of_mapM hps
    exact ⟨congrArg (s ++ ·) htext, hparams⟩
  | .bound v :: ps, qs, h => by
    rcases hv : v.stored with e | raw
    · rw [Outcome.mapM_cons_error (by rw [Part.ofPiece, hv]; rfl)] at h
      cases h
    · rw [Part.mapM_cons_bound hv] at h
      rcases hps : ps.mapM Part.ofPiece with e | qs' <;> rw [hps] at h <;> cases h
      obtain ⟨htext, hparams⟩ := ofParts_of_mapM hps
      refine ⟨congrArg ("?" ++ ·) htext, ?_⟩
      rw [Query.ofPieces, Outcome.mapM_cons_ok hv, hparams]
      rfl

theorem Part.allClosed_of_mapM {ps : List Piece} {qs : List Part}
    (h : ps.mapM ofPiece = .ok qs) (hps : Piece.AllClosed ps) : AllClosed qs := by
  intro s hs
  obtain ⟨p, hp, hpart⟩ := Outcome.exists_of_mem_mapM h _ hs
  cases p with
  | text r =>
    cases hpart
    exact hps s hp
  | bound v =>
    rcases hv : v.stored with e | raw <;> rw [ofPiece, hv] at hpart <;> cases hpart

/-- The parts of a text with its literals and without. -/
theorem exists_alike_parts : ∀ {ps : List Piece},
    (∀ v ∈ (Query.ofPieces ps).params, v.IsSpelled standsFor) →
      ∃ qs qs', (ps.map Piece.inlined).mapM Part.ofPiece = .ok qs ∧
        ps.mapM Part.ofPiece = .ok qs' ∧ List.Forall₂ (Part.Alike standsFor) qs qs'
  | [], _ => ⟨[], [], rfl, rfl, .nil⟩
  | .text s :: ps, h => by
    have hps : ∀ v ∈ (Query.ofPieces ps).params, v.IsSpelled standsFor := h
    obtain ⟨qs, qs', hqs, hqs', halike⟩ := exists_alike_parts hps
    refine ⟨.text s :: qs, .text s :: qs', ?_, ?_, .cons (.refl _) halike⟩
    · rw [List.map_cons, Piece.inlined, Part.mapM_cons_text, hqs]
      rfl
    · rw [Part.mapM_cons_text, hqs']
      rfl
  | .bound v :: ps, h => by
    obtain ⟨hv, hps⟩ := List.forall_mem_cons.1 h
    obtain ⟨qs, qs', hqs, hqs', halike⟩ := exists_alike_parts hps
    obtain ⟨raw, hraw, hspelled⟩ := hv
    have hbound : (Piece.bound v :: ps).mapM Part.ofPiece = .ok (.bound raw :: qs') := by
      rw [Part.mapM_cons_bound hraw, hqs']
      rfl
    rw [List.map_cons, Piece.inlined]
    rcases hliteral : literal? v with _ | s
    · refine ⟨.bound raw :: qs, .bound raw :: qs', ?_, hbound, .cons (.refl _) halike⟩
      simp only []
      rw [Part.mapM_cons_bound hraw, hqs]
      rfl
    · obtain ⟨c, hread, hc⟩ := hspelled s hliteral
      refine ⟨.text s :: qs, .bound raw :: qs', ?_, hbound, .cons (.literal hread hc) halike⟩
      simp only []
      rw [Part.mapM_cons_text, hqs]
      rfl

namespace Model

variable {m : Model} {f : Filter} {t : Term}

/-- The selection of the rows on which a term holds. -/
def selectionOf (m : Model) (inline : Bool) (t : Term) : Statement :=
  m.selectWhere (Query.ofPieces (t.emission inline))

theorem sent_selectionOf_true (m : Model) (t : Term) :
    (m.selectionOf true t).sent false (t.emission true)
      = ((m.selectionOf false t).sent false (t.emission false)).map Piece.inlined := by
  simp [selectionOf, selectWhere, Statement.sent, Statement.pieces, Piece.inlined,
    Term.emission_true]

theorem params_sent_selectionOf (m : Model) (t : Term) :
    (Query.ofPieces ((m.selectionOf false t).sent false (t.emission false))).params
      = (Query.ofPieces (t.emission false)).params := by
  simp [selectionOf, selectWhere, Statement.sent, Statement.pieces, Query.ofPieces,
    Query.ofPieces_append, Query.append, Query.empty]

theorem request_of_parts {s : Statement} {ps : List Piece} {qs : List Part}
    (hs : s.serialize false = Query.ofPieces ps) (hqs : ps.mapM Part.ofPiece = .ok qs) :
    s.request = .ok (Request.ofParts qs) := by
  obtain ⟨htext, hparams⟩ := Request.ofParts_of_mapM hqs
  rw [← hs] at htext hparams
  rw [Statement.request_eq_ok hparams, ← htext]

/-- A selection can be sent either way, and the two requests are alike. -/
theorem exists_alike_requests (ht : f.lower m = .ok t) (hf : f.callsHave hasNoMark = true)
    (hparams : ∀ v ∈ (Query.ofPieces (t.emission false)).params, v.IsSpelled standsFor) :
    ∃ r r', (m.selectionOf true t).request = .ok r ∧
      (m.selectionOf false t).request = .ok r' ∧ r.Alike standsFor r' := by
  rw [← params_sent_selectionOf m t] at hparams
  obtain ⟨qs, qs', hqs, hqs', halike⟩ := exists_alike_parts hparams
  rw [← sent_selectionOf_true] at hqs
  have hclosed : ∀ inline, Piece.AllClosed
      ((m.selectionOf inline t).sent false (t.emission inline)) := fun inline =>
    Statement.allClosed_sent (Statement.allClosed_pieces rfl) (Filter.closed_of_lower ht hf inline)
  refine ⟨_, _, request_of_parts (Statement.serialize_eq rfl) hqs,
    request_of_parts (Statement.serialize_eq rfl) hqs', qs, qs', rfl, rfl, ?_, ?_, halike⟩
  · exact Part.allClosed_of_mapM hqs (hclosed true)
  · exact Part.allClosed_of_mapM hqs' (hclosed false)

end Model

/-- In this mode the filter selects with the request, whose condition says `e`. -/
def Model.Selects (m : Model) (inline : Bool) (f : Filter) (r : Request) (e : Expression) : Prop :=
  ∃ q x, m.predicate inline f = .ok q ∧ (m.selectWhere q).request = .ok r ∧
    parse q.text = some x ∧ x.express r.params = some (e, [])

/-- What is to be known of a store. -/
structure Dialect where
  /-- The functions that take a constant for a value. -/
  evaluates : String → Bool
  /-- The requests that are not too large. -/
  fits : Request → Bool
  /-- Whether a number is rounded that is compared with a real. -/
  rounds : Bool

/-- The store answers selections whose conditions say the same, up to constants that stand for
values, with the same rows.  It need not if there are calls in them with other names than
identifiers. -/
def ReadsLiterals (d : Dialect) (m : Model) (answer : (c : Call) → σ → c.Answer × σ) : Prop :=
  ∀ {inline inline' f f' r r' e e'},
    f.callsHave isIdentifier = true → f.callsHave d.evaluates = true →
    f'.callsHave isIdentifier = true → f'.callsHave d.evaluates = true →
    m.Selects inline f r e → m.Selects inline' f' r' e' → d.fits r = true → d.fits r' = true →
    e.Alike m d.rounds .anywhere e' → ∀ s,
      (answer (.query r) s).2 = (answer (.query r') s).2 ∧
      ∀ rows : List Row, (answer (.query r) s).1 = .ok rows ↔ (answer (.query r') s).1 = .ok rows

section Selects

variable {m : Model} {f : Filter} {t : Term} {inline : Bool} {r : Request} {e : Expression}

theorem Model.selects_of_says (ht : f.lower m = .ok t) (hf : f.callsHave isIdentifier = true)
    (he : t.Says inline e) : ∃ r, m.Selects inline f r e := by
  obtain ⟨ps, hps, hexpress⟩ := he
  have hq : m.predicate inline f = .ok (Query.ofPieces (t.emission inline)) := by
    rw [predicate_eq_lower, ht]
    rfl
  have hstored : ((m.selectWhere (Query.ofPieces (t.emission inline))).serialize
      false).params.mapM Value.stored = .ok ps := by
    rw [Table.serialize_selectWhere]
    exact hps
  have hcalls := Filter.callsHave_lower Method.isIdentifier_name m f ht hf
  have hparse := parse_of_reads (Term.reads_emission inline t hcalls)
  refine ⟨_, _, _, hq, Statement.request_eq_ok hstored, hparse, ?_⟩
  rw [← List.append_nil ps]
  exact hexpress []

/-- A filter can be sent either way, and the two conditions say the same up to literals. -/
theorem Model.exists_alike_selections {rounds : Bool} (ht : f.lower m = .ok t)
    (hf : f.callsHave isIdentifier = true) (hspelled : t.IsSpelled m rounds .anywhere) :
    ∃ r r' e e', m.Selects true f r e ∧ m.Selects false f r' e' ∧
      e.Alike m rounds .anywhere e' := by
  obtain ⟨e, e', he, he', halike, -⟩ := Term.exists_alike hspelled
  obtain ⟨r, hr⟩ := selects_of_says ht hf he
  obtain ⟨r', hr'⟩ := selects_of_says ht hf he'
  exact ⟨r, r', e, e', hr, hr', halike⟩

/-- A table answers with the rows on which the expression comes to be true. -/
theorem Table.answer_of_selects (rounds : Bool) (rows : List Row) (h : m.Selects inline f r e)
    (s : Unit) : (Table.answer rounds m rows (.query r) s).1
      = .ok (rows.filter fun row => e.eval (Table.meaning rounds row) = .ofBool true) := by
  obtain ⟨q, x, -, hr, hx, he⟩ := h
  obtain ⟨htext, -⟩ := Statement.of_request hr
  have hcondition : Table.condition? m r.text = some q.text := by
    rw [htext, Table.condition?_selection]
  simp only [Table.answer, Table.select_of_express hcondition hx he]
  rfl

theorem readsLiterals_table (d : Dialect) {rows : List Row}
    (hrows : ∀ row ∈ rows, Table.HoldsReals m row) :
    ReadsLiterals d m (Table.answer d.rounds m rows) := by
  intro inline inline' f f' r r' e e' _ _ _ _ h h' _ _ halike s
  refine ⟨rfl, fun found => ?_⟩
  have hfilter : (rows.filter fun row => e.eval (Table.meaning d.rounds row) = .ofBool true)
      = rows.filter fun row => e'.eval (Table.meaning d.rounds row) = .ofBool true := by
    refine List.filter_congr fun row hrow => ?_
    rw [(Expression.eval_of_alike (hrows row hrow) halike).eq]
  simp only [Table.answer_of_selects d.rounds rows h, Table.answer_of_selects d.rounds rows h',
    hfilter]
  rfl

end Selects

theorem single_query_alike {β : Type} {answer : (c : Call) → σ → c.Answer × σ} {r r' : Request}
    (h : ∀ s, (answer (.query r) s).2 = (answer (.query r') s).2 ∧
      ∀ rows : List Row, (answer (.query r) s).1 = .ok rows ↔ (answer (.query r') s).1 = .ok rows)
    (k : List Row → Outcome β) (s : σ) :
    (single (.query r) fun x => Except.bind x k).final answer s
      = (single (.query r') fun x => Except.bind x k).final answer s ∧
    ∀ b, (single (.query r) fun x => Except.bind x k).result answer s = .ok b ↔
      (single (.query r') fun x => Except.bind x k).result answer s = .ok b := by
  simp only [single, final_ask, result_ask]
  rcases answer .connect s with ⟨e | u, s'⟩
  · exact ⟨rfl, fun b => Iff.rfl⟩
  · obtain ⟨hstate, hrows⟩ := h s'
    simp only [final_ask, result_ask, final_done, result_done, hstate, true_and]
    intro b
    have hcongr := exists_congr fun rows => and_congr_left' (c := k rows = .ok b) (hrows rows)
    exact Outcome.bind_eq_ok_iff.trans (hcongr.trans Outcome.bind_eq_ok_iff.symm)

namespace Engine

/-- The engine with another setting for literals. -/
def inlining (e : Engine) (inline : Bool) : Engine :=
  { e with config := { e.config with inlineLiterals := inline } }

theorem selectWhere_of_selects {e : Engine} {t : RecordType α} {m : Model} {f : Filter}
    (hm : (e.describe t.toNamedDeclaration).1 = .ok m) {inline : Bool} {r : Request}
    {x : Expression} (h : m.Selects inline f r x) :
    ((e.inlining inline).selectWhere t f).1
      = single (.query r) fun a => Except.bind a fun rows => rows.mapM (t.ofRow m) := by
  obtain ⟨q, -, hq, hr, -, -⟩ := h
  have hm' : ((e.inlining inline).describe t.toNamedDeclaration).1 = .ok m :=
    (describe_configured e _ _).trans hm
  refine (onModel_of_describe hm' _).trans (selectRows_of_request ?_)
  have hselection : m.selection (e.inlining inline).config f = .ok (m.selectWhere q) := by
    rw [Model.selection, show (e.inlining inline).config.inlineLiterals = inline from rfl, hq]
    rfl
  rw [hselection]
  exact hr

theorem selectWhere_of_describe_error {e : Engine} {t : RecordType α} {fault : Fault} (f : Filter)
    (h : (e.describe t.toNamedDeclaration).1 = .error fault) (inline : Bool) :
    ((e.inlining inline).selectWhere t f).1 = .done (.error fault) := by
  have h' : ((e.inlining inline).describe t.toNamedDeclaration).1 = .error fault :=
    (describe_configured e _ _).trans h
  exact onModel_of_fault h' _

theorem selectWhere_of_lower_error {e : Engine} {t : RecordType α} {m : Model} {f : Filter}
    {fault : Fault} (hm : (e.describe t.toNamedDeclaration).1 = .ok m)
    (hx : f.lower m = .error fault) (inline : Bool) :
    ((e.inlining inline).selectWhere t f).1 = .done (.error fault) := by
  have hm' : ((e.inlining inline).describe t.toNamedDeclaration).1 = .ok m :=
    (describe_configured e _ _).trans hm
  refine (onModel_of_describe hm' _).trans (selectRows_of_fault ?_)
  rw [Model.selection, Model.predicate_eq_lower, hx]
  rfl

end Engine

/-- Whether literals stand in the text or are bound does not matter, as long as no bound value is a
single or an unsigned 64-bit number, which the store does not hold.  Each other literal denotes what
would be stored of its value, and is of its kind unless it is of a whole double or has a nul in it;
and in a comparison a double may be whole.  So a selection can be sent either way, the two requests
are alike, their conditions say the same up to constants that stand for values, and a store whose
answers hang on what conditions say, as those of a table do, selects the same values. -/
theorem selectWhere_either_way :
    (∀ v : Value, v.isSpelledAsStored = true → v.IsSpelled Constant.Denotes ∧
      (v.isSpelledInKind = true → v.IsSpelled Constant.Is ∧
        ∀ rounds place, v.IsSpelled (Constant.StandsFor rounds place))) ∧
    (∀ negative x place, place ≠ Place.anywhere →
      (x.toRat < 2 ^ 53 → ∀ rounds,
        (Value.double (.finite negative x)).IsSpelled (Constant.StandsFor rounds place)) ∧
      (Value.double (.finite negative x)).IsSpelled (Constant.StandsFor true .real)) ∧
    (∀ n : Number .uint64, (literal? (.int .uint64 n)).isSome = true ∧
      (Value.int .uint64 n).stored = Outcome.fail (.unstorable IntType.uint64.label)) ∧
    (∀ standsFor (m : Model) (f : Filter) (q : Query), f.callsHave hasNoMark = true →
      m.predicate false f = .ok q → (∀ v ∈ q.params, v.IsSpelled standsFor) →
      ∃ q' r r', m.predicate true f = .ok q' ∧ (m.selectWhere q').request = .ok r ∧
        (m.selectWhere q).request = .ok r' ∧ r.Alike standsFor r') ∧
    (∀ rounds (m : Model) (f : Filter) (x : Term), f.callsHave isIdentifier = true →
      f.lower m = .ok x → x.IsSpelled m rounds .anywhere →
      ∃ r r' e e', m.Selects true f r e ∧ m.Selects false f r' e' ∧
        e.Alike m rounds .anywhere e') ∧
    (∀ (d : Dialect) m rows, (∀ row ∈ rows, Table.HoldsReals m row) →
      ReadsLiterals d m (Table.answer d.rounds m rows)) ∧
    ∀ {α σ : Type} (d : Dialect) (e : Engine) (t : RecordType α) (f : Filter),
      f.callsHave isIdentifier = true → f.callsHave d.evaluates = true →
      ∀ answer : (c : Call) → σ → c.Answer × σ,
      (∀ m, (e.describe t.toNamedDeclaration).1 = .ok m → ReadsLiterals d m answer ∧
        (∀ x, f.lower m = .ok x → x.IsSpelled m d.rounds .anywhere) ∧
        ∀ inline r a, m.Selects inline f r a → d.fits r = true) → ∀ s,
        ((e.inlining true).selectWhere t f).1.final answer s
          = ((e.inlining false).selectWhere t f).1.final answer s ∧
        ∀ as, ((e.inlining true).selectWhere t f).1.result answer s = .ok as ↔
          ((e.inlining false).selectWhere t f).1.result answer s = .ok as := by
  refine ⟨fun v hv => ⟨Value.isSpelled hv, fun hkind => ?_⟩,
    fun negative x place hplace => ⟨fun hx rounds => Value.isSpelled_compared hplace rounds hx,
      Value.isSpelled_compared_real⟩,
    fun n => ⟨rfl, rfl⟩, fun standsFor m f q hf hq hparams => ?_,
    fun rounds m f x hf hx hspelled => Model.exists_alike_selections hx hf hspelled,
    fun d m rows hrows => readsLiterals_table d hrows,
    fun d e t f hf hevaluates answer hanswer s => ?_⟩
  · have his := Value.isSpelled_is hv hkind
    exact ⟨his, fun rounds place => his.mono fun c raw h => .same h⟩
  · rw [Model.predicate_eq_lower] at hq
    rcases hx : f.lower m with fault | x <;> rw [hx] at hq <;> cases hq
    obtain ⟨r, r', hr, hr', halike⟩ := Model.exists_alike_requests hx hf hparams
    refine ⟨_, r, r', ?_, hr, hr', halike⟩
    rw [Model.predicate_eq_lower, hx]
    rfl
  · rcases hm : (e.describe t.toNamedDeclaration).1 with fault | m
    · rw [Engine.selectWhere_of_describe_error f hm, Engine.selectWhere_of_describe_error f hm]
      exact ⟨rfl, fun as => Iff.rfl⟩
    rcases hx : f.lower m with fault | x
    · rw [Engine.selectWhere_of_lower_error hm hx, Engine.selectWhere_of_lower_error hm hx]
      exact ⟨rfl, fun as => Iff.rfl⟩
    obtain ⟨hreads, hspelled, hfits⟩ := hanswer m hm
    obtain ⟨r, r', a, a', hr, hr', halike⟩ :=
      Model.exists_alike_selections hx hf (hspelled x hx)
    rw [Engine.selectWhere_of_selects hm hr, Engine.selectWhere_of_selects hm hr']
    exact single_query_alike (hreads hf hevaluates hf hevaluates hr hr' (hfits _ _ _ hr)
      (hfits _ _ _ hr') halike) _ s

/-- A store with one function, to which a request has no more values than these. -/
def noteDialect : Dialect where
  evaluates name := name = "typeof"
  fits r := r.params.length ≤ 32766
  rounds := true

def oneDouble : Magnitude .double := ⟨2 ^ 52, -52, by decide⟩

/-- The notes with this number and title, if the number is an integer. -/
def firstNote : Filter :=
  .compare .and (.compare .eq (.field "id") (.value (.double (.finite false oneDouble))))
    (.compare .and (.compare .eq (.field "title") (.value (.text "why?")))
      (.compare .eq (.function "typeof" [.field "id"]) (.value (.text "integer"))))

def noteRow (id : Number .int64) : Row :=
  .ofList [("id", .integer id), ("what\x22?", .text "why?")]

/-- What a filter selects from a table of notes with these numbers. -/
def selectedNotes (inline : Bool) (f : Filter) (ids : List (Number .int64)) :
    Outcome (List Record) :=
  (((Engine.mk .standard []).inlining inline).selectWhere Engine.noteType f).1.result
    (Table.answer noteDialect.rounds notes (ids.map noteRow)) ()

theorem describe_noteType :
    ((Engine.mk .standard []).describe Engine.noteType.toNamedDeclaration).1 = .ok notes := by
  decide +kernel

/-- A note that is found in a table by bound values is found by literals as well. -/
theorem selectWhere_either_way_notes :
    selectedNotes false firstNote [Number.one _, Number.zero _] = .ok [Engine.noteRecord] ∧
    selectedNotes true firstNote [Number.one _, Number.zero _] = .ok [Engine.noteRecord] := by
  obtain ⟨hkinds, hdoubles, -, -, -, hreads, hselect⟩ := selectWhere_either_way
  have htext : ∀ (s : String) place, (Value.text s).isSpelledInKind = true →
      (Value.text s).IsSpelled (Constant.StandsFor true place) := fun s place hs =>
    ((hkinds (.text s) rfl).2 hs).2 true place
  have hone : oneDouble.toRat < 2 ^ 53 := by
    norm_num [oneDouble, Magnitude.toRat]
  have hlower : firstNote.lower notes = .ok (.binary .and
      (.binary .eq (.column "id") (.literal (.double (.finite false oneDouble))))
      (.binary .and (.binary .eq (.column "what\x22?") (.literal (.text "why?")))
        (.binary .eq (.call "typeof" [.column "id"]) (.literal (.text "integer"))))) := by
    rfl
  have hspelled : ∀ x, firstNote.lower notes = .ok x → x.IsSpelled notes true .anywhere := by
    intro x hx
    cases hx.symm.trans hlower
    simp only [Term.IsSpelled, Term.AllSpelled, true_and, and_true]
    exact ⟨(hdoubles false oneDouble _ (by decide)).1 hone true, htext _ _ (by decide +kernel),
      htext _ _ (by decide +kernel)⟩
  have hfits : ∀ inline r a, notes.Selects inline firstNote r a → noteDialect.fits r = true := by
    rintro inline r a ⟨q, -, hq, hr, -, -⟩
    rw [Model.predicate_eq_lower, hlower] at hq
    obtain ⟨-, hparams⟩ := Statement.of_request hr
    have hlength := Outcome.length_of_mapM hparams
    rw [Table.serialize_selectWhere, ← Except.ok.inj hq] at hlength
    rw [noteDialect, decide_eq_true_eq, hlength]
    cases inline <;> decide +kernel
  have hreals : ∀ c ∈ notes.stored, c.sqlType ≠ some .float := by decide +kernel
  have h := hselect noteDialect (Engine.mk .standard []) Engine.noteType firstNote
    (by decide +kernel) (by decide +kernel)
    (Table.answer noteDialect.rounds notes ([Number.one _, Number.zero _].map noteRow))
    (fun m hm => ?_) ()
  · have hbound : selectedNotes false firstNote [Number.one _, Number.zero _]
        = .ok [Engine.noteRecord] := by
      decide +kernel
    exact ⟨hbound, (h.2 [Engine.noteRecord]).2 hbound⟩
  · cases hm.symm.trans describe_noteType
    exact ⟨hreads noteDialect notes _ fun row _ c hc hfloat => absurd hfloat (hreals c hc),
      hspelled, hfits⟩

/-- Two calls whose names have quotes in them, which stand around what is between the names. -/
def quotedCalls : Filter :=
  .compare .eq (.function "char_length('" [.value (.int .int64 (Number.one _))])
    (.function "') + abs" [.value (.int .int64 (Number.one _))])

/-- Two calls the first of which has the name that comments begin with. -/
def commentedCalls : Filter :=
  .compare .eq (.function "--" [.value (.int .int64 (Number.one _))])
    (.function "\nabs" [.value (.int .int64 (Number.one _))])

/-- A text without its comments, which go on to the end of the line. -/
def uncommented (inComment : Bool) : List Char → List Char
  | [] => []
  | '\n' :: cs => '\n' :: uncommented false cs
  | '-' :: '-' :: cs => uncommented true cs
  | c :: cs => if inComment then uncommented true cs else c :: uncommented false cs

/-- Notes if the class of a two is that of reals. -/
def realTwo : Filter :=
  .compare .eq (.function "typeof" [.value (.double (.finite false ⟨2 ^ 52, -51, by decide⟩))])
    (.value (.text "real"))

/-- The note whose number is `2 ^ 60`, of which the digits of the double are not all. -/
def largeNumber : Filter :=
  .compare .eq (.field "id") (.value (.double (.finite false ⟨2 ^ 52, 8, by decide⟩)))

/-- An unsigned 64-bit number has a literal and is not stored, and the literal of a single need not
denote what is stored of it.  The digits of a whole double are those of an integer to a function,
and those of a large one are of another integer.  Next to a name with a quote in it a literal can be
where the store finds no placeholder, and so it is behind a name that begins a comment; nothing is
bound to a placeholder in a name. -/
theorem not_selectWhere_either_way :
    (literal? (.int .uint64 ⟨5, by decide⟩) = some "5" ∧
      ∀ raw, (Value.int .uint64 ⟨5, by decide⟩).stored ≠ .ok raw) ∧
    (literal? (.single tenth) = some "0.1" ∧
      ∀ c raw, Constant.read? "0.1" = some c → (Value.single tenth).stored = .ok raw →
        ¬c.Denotes raw) ∧
    (selectedNotes true realTwo [Number.one _] = .ok [] ∧
      selectedNotes false realTwo [Number.one _] = .ok [Engine.noteRecord]) ∧
    (selectedNotes true largeNumber [⟨2 ^ 60, by decide⟩] = .ok [] ∧
      ∃ a, selectedNotes false largeNumber [⟨2 ^ 60, by decide⟩] = .ok [a]) ∧
    (∃ q, notes.predicate false quotedCalls = .ok q ∧
      notes.predicate true quotedCalls = .ok ⟨"(char_length('(1) = ') + abs(1))", []⟩ ∧
      (placeholders q.text).length = 1 ∧ q.params.length = 2) ∧
    (∃ q, notes.predicate false commentedCalls = .ok q ∧
      notes.predicate true commentedCalls = .ok ⟨"(--(1) = \nabs(1))", []⟩ ∧
      (placeholders (String.ofList (uncommented false q.text.toList))).length = 1 ∧
      q.params.length = 2) ∧
    ∀ inline, notes.predicate inline (.function "?" []) = .ok ⟨"?()", []⟩ ∧
      placeholders "?()" = [0] := by
  refine ⟨⟨by decide +kernel, fun raw h => ?_⟩,
    ⟨by decide +kernel, fun c raw hc hraw hdenotes => ?_⟩,
    ⟨by decide +kernel, by decide +kernel⟩, ⟨by decide +kernel, ?_⟩, ?_, ?_, ?_⟩
  · cases h
  · rw [show Constant.read? "0.1" = some (.number false 1 (-1)) by decide +kernel] at hc
    rw [stored_tenth] at hraw
    cases hc
    cases hraw
    rcases hdenotes with _ | _ | h
    refine not_isRounding_tenth ?_
    rwa [Nat.cast_one] at h
  · exact ⟨[.int .int64 ⟨2 ^ 60, by decide⟩, .text "why?"], by decide +kernel⟩
  · exact ⟨⟨"(char_length('(?) = ') + abs(?))", [.int .int64 (Number.one _),
      .int .int64 (Number.one _)]⟩, by decide +kernel, by decide +kernel, by decide +kernel, rfl⟩
  · exact ⟨⟨"(--(?) = \nabs(?))", [.int .int64 (Number.one _), .int .int64 (Number.one _)]⟩,
      by decide +kernel, by decide +kernel, by decide +kernel, rfl⟩
  · decide +kernel

end RecordMap
