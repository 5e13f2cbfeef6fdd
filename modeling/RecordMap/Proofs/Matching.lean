import RecordMap.Proofs.Constants
import RecordMap.Proofs.Nodes
import RecordMap.Proofs.Patterns
import RecordMap.Proofs.Reading

/-!
# Looking for a text

Evaluating what a text in SQL says takes the values of its placeholders in the order in which they
stand.  What the store makes of columns, numbers, functions and most signs is left open; two texts
it joins, and matches the one against the other as a pattern.

A call that looks for a text is a match against a pattern.  Whether the pattern is known beforehand
or the store puts it together, it comes to the text that is looked for, with wildcards around it
(`comesTo_render_text`, `ComesTo.pattern`).
-/

namespace RecordMap

open Sql

def Stored.ofBool (b : Bool) : Stored := .integer (if b then Number.one _ else Number.zero _)

namespace Sql

/-- What the store makes of a row, apart from texts. -/
structure Meaning where
  column : String → Stored
  number : String → Stored
  sign : Sign → Stored → Stored → Stored
  call : String → List Stored → Stored

namespace Meaning

/-- Texts are joined and matched, and of all else the store has a meaning of its own. -/
def operate (M : Meaning) : Sign → Stored → Stored → Stored
  | .join, .text a, .text b => .text (a ++ b)
  | .like, .text s, .text p => .ofBool (Pattern.accepts p.toList s.toList)
  | s, a, b => M.sign s a b

end Meaning

namespace Reading

mutual

/-- The value of what has been read, and the parameters that are left. -/
def eval (M : Meaning) : Reading → List Stored → Option (Stored × List Stored)
  | .column name, ps => some (M.column name, ps)
  | .text s, ps => some (.text s, ps)
  | .number s, ps => some (M.number s, ps)
  | .hole, [] => none
  | .hole, p :: ps => some (p, ps)
  | .group r, ps => eval M r ps
  | .binary s l r, ps => do
    let (a, ps) ← eval M l ps
    let (b, ps) ← eval M r ps
    return (M.operate s a b, ps)
  | .call name rs, ps => do
    let (as, ps) ← evalAll M rs ps
    return (M.call name as, ps)

def evalAll (M : Meaning) : List Reading → List Stored → Option (List Stored × List Stored)
  | [], ps => some ([], ps)
  | r :: rs, ps => do
    let (a, ps) ← eval M r ps
    let (as, ps) ← evalAll M rs ps
    return (a :: as, ps)

end

theorem eval_binary_eq_some {M : Meaning} {s : Sign} {l r : Reading} {ps qs rest : List Stored}
    {a b : Stored} (hl : l.eval M ps = some (a, qs)) (hr : r.eval M qs = some (b, rest)) :
    (binary s l r).eval M ps = some (M.operate s a b, rest) := by
  rw [eval, hl]
  simp [hr]

mutual

/-- Parameters behind those that are needed are left. -/
theorem eval_append {M : Meaning} (qs : List Stored) : ∀ {r : Reading} {ps rest : List Stored}
    {v : Stored}, r.eval M ps = some (v, rest) → r.eval M (ps ++ qs) = some (v, rest ++ qs)
  | .column name, ps, rest, v, h => by
    cases h
    rfl
  | .text s, ps, rest, v, h => by
    cases h
    rfl
  | .number s, ps, rest, v, h => by
    cases h
    rfl
  | .hole, [], rest, v, h => by cases h
  | .hole, p :: ps, rest, v, h => by
    cases h
    rfl
  | .group r, ps, rest, v, h => eval_append qs (r := r) h
  | .binary s l r, ps, rest, v, h => by
    rw [eval] at h
    obtain ⟨⟨a, ps'⟩, hl, h⟩ := Option.bind_eq_some_iff.1 h
    obtain ⟨⟨b, ps''⟩, hr, h⟩ := Option.bind_eq_some_iff.1 h
    cases h
    exact eval_binary_eq_some (eval_append qs hl) (eval_append qs hr)
  | .call name rs, ps, rest, v, h => by
    rw [eval] at h
    obtain ⟨⟨as, ps'⟩, hrs, h⟩ := Option.bind_eq_some_iff.1 h
    cases h
    rw [eval, evalAll_append qs hrs]
    rfl

theorem evalAll_append {M : Meaning} (qs : List Stored) : ∀ {rs : List Reading}
    {ps rest : List Stored} {vs : List Stored}, evalAll M rs ps = some (vs, rest) →
      evalAll M rs (ps ++ qs) = some (vs, rest ++ qs)
  | [], ps, rest, vs, h => by
    cases h
    rfl
  | r :: rs, ps, rest, vs, h => by
    rw [evalAll] at h
    obtain ⟨⟨a, ps'⟩, hr, h⟩ := Option.bind_eq_some_iff.1 h
    obtain ⟨⟨as, ps''⟩, hrs, h⟩ := Option.bind_eq_some_iff.1 h
    cases h
    rw [evalAll, eval_append qs hr]
    simp [evalAll_append qs hrs]

end

theorem eval_surrounded {M : Meaning} (leading trailing : Bool) {r : Reading}
    {ps rest : List Stored} {v : String} (h : r.eval M ps = some (.text v, rest)) :
    (Term.surrounded leading trailing r).eval M ps
      = some (.text (Pattern.around leading trailing v), rest) := by
  have hfront : (binary .join (.text "%") r).eval M ps = some (.text ("%" ++ v), rest) :=
    eval_binary_eq_some (l := .text "%") rfl h
  cases leading <;> cases trailing
  · simpa [Term.surrounded, Pattern.around, eval] using h
  · have := eval_binary_eq_some (s := .join) h (r := .text "%") rfl
    simpa [Term.surrounded, Pattern.around, Meaning.operate] using this
  · simpa [Term.surrounded, Pattern.around] using hfront
  · have := eval_binary_eq_some (s := .join) hfront (r := .text "%") rfl
    simpa [Term.surrounded, Pattern.around, Meaning.operate] using this

end Reading

namespace Query

/-- The query is an operand, wherever it stands, and the store evaluates it to `v`. -/
def ComesTo (M : Meaning) (q : Query) (v : Stored) : Prop :=
  ∃ r ps, Reads q.text.toList r ∧ q.params.mapM Value.stored = .ok ps ∧
    r.eval M ps = some (v, [])

namespace ComesTo

variable {M : Meaning} {q l r : Query} {v w : Stored}

theorem unique (hv : q.ComesTo M v) (hw : q.ComesTo M w) : v = w := by
  obtain ⟨r, ps, hr, hps, hv⟩ := hv
  obtain ⟨r', ps', hr', hps', hw⟩ := hw
  obtain rfl := Option.some.inj ((parse_of_reads hr).symm.trans (parse_of_reads hr'))
  obtain rfl := Except.ok.inj (hps.symm.trans hps')
  exact (Prod.mk.inj (Option.some.inj (hv.symm.trans hw))).1

/-- Two operands in brackets each take their own parameters. -/
theorem binary {spelling : String} {s : Sign} (hs : ReadsSign spelling.toList s)
    (hl : l.ComesTo M v) (hr : r.ComesTo M w) :
    (Query.binary spelling l r).ComesTo M (M.operate s v w) := by
  obtain ⟨a, ps, ha, hps, hv⟩ := hl
  obtain ⟨b, qs, hb, hqs, hw⟩ := hr
  refine ⟨.binary s a b, ps ++ qs, ?_, ?_, ?_⟩
  · have h := reads_bracket (readsInside_sign (readsInside_of_reads ha) hs hb)
    simpa [Query.binary, Parsing.combine] using h
  · rw [Outcome.mapM_eq_ok_iff] at hps hqs ⊢
    rw [Query.binary, List.map_append, List.map_append, hps, hqs]
  · have hl := Reading.eval_append qs hv
    exact Reading.eval_binary_eq_some hl hw

theorem pattern {v : String} (leading trailing : Bool) (h : q.ComesTo M (.text v)) :
    (q.pattern leading trailing).ComesTo M (.text (Pattern.around leading trailing v)) := by
  obtain ⟨r, ps, hr, hps, hv⟩ := h
  refine ⟨_, ps, ?_, hps, Reading.eval_surrounded leading trailing hv⟩
  have htext : (q.pattern leading trailing).text.toList
      = chars (Term.withWildcards leading trailing [.text q.text]) := by
    rw [chars, ← Query.pattern_ofPieces]
    simp [Query.pattern, Query.ofPieces, Query.empty]
  rw [htext]
  exact reads_withWildcards leading trailing (by simpa using hr)

end ComesTo

/-- A text comes to itself, with its quotes doubled in the query or bound. -/
theorem comesTo_render_text (M : Meaning) (inline : Bool) (s : String) :
    ((Fragment.value (.text s)).render inline).ComesTo M (.text s) := by
  cases inline with
  | false => exact ⟨.hole, [.text s], by simpa [Fragment.render, bound] using reads_hole, rfl, rfl⟩
  | true => exact ⟨.text s, [], reads_text s, rfl, rfl⟩

end Query

end Sql

theorem Sql.Fragment.surround_value {w : Value} {v : String} (h : patternText? w = some v)
    (k : Method) (leading trailing : Bool) : surround k leading trailing (.value w)
      = .ok (.value (.text (Pattern.around leading trailing v))) := by
  have hw : w ≠ .null := by
    rintro rfl
    cases h
  cases w with
  | null => exact absurd rfl hw
  | _ =>
    simp only [surround, h]
    rfl

/-- A call that looks for a text is a match of its receiver against the pattern of its argument. -/
theorem Model.predicate_of_wildcards? {m : Model} {inline : Bool} {f x y : Filter} {k : Method}
    {leading trailing : Bool} {target argument : Fragment} (hf : f.call? = some (k.name, [x, y]))
    (hk : k.wildcards? = some (leading, trailing)) (hx : x.compile m inline = .ok target)
    (hy : y.compile m inline = .ok argument) :
    m.predicate inline f = (Fragment.surround k leading trailing argument).map fun p =>
      .binary "LIKE" (target.render inline) (p.render inline) := by
  rw [Filter.compile_eq_lower] at hx hy
  obtain ⟨x', hx', rfl⟩ := Outcome.map_eq_ok_iff.1 hx
  obtain ⟨y', hy', rfl⟩ := Outcome.map_eq_ok_iff.1 hy
  rw [Model.predicate, Filter.compile_eq_lower, Filter.lower_of_method hf hx' hy',
    ← Term.applyMethod_fragment]
  cases k <;> cases hk <;>
    simp only [Fragment.applyMethod] <;>
    rcases Fragment.surround _ _ _ (y'.fragment inline) with e | p <;> rfl

/-- The pattern of a call that looks for a text is the text with wildcards around it: written or
bound if the text is known, and else put together by the store, whatever it finds for the argument.
So the condition holds of the texts in which some part, at the end where no wildcard is, is accepted
by the text as a pattern; and that is the text itself, in either case, if it has no wildcards. -/
theorem pattern_of_call {m : Model} {inline : Bool} {f x y : Filter} {k : Method}
    {leading trailing : Bool} {target : Fragment} (hf : f.call? = some (k.name, [x, y]))
    (hk : k.wildcards? = some (leading, trailing)) (hx : x.compile m inline = .ok target) :
    (∀ w v, y.settled? = some w → Fragment.patternText? w = some v →
      ∃ q, m.predicate inline f = .ok (.binary "LIKE" (target.render inline) q) ∧
        (inline = true → q.params = [] ∧
          Constant.read? q.text = some (.text (Pattern.around leading trailing v))) ∧
        (inline = false → q = .bound (.text (Pattern.around leading trailing v))) ∧
        ∀ M, q.ComesTo M (.text (Pattern.around leading trailing v))) ∧
    (∀ q, y.compile m inline = .ok (.sql q) →
      m.predicate inline f
        = .ok (.binary "LIKE" (target.render inline) (q.pattern leading trailing)) ∧
      ∀ M v, q.ComesTo M (.text v) →
        (q.pattern leading trailing).ComesTo M (.text (Pattern.around leading trailing v))) ∧
    (∀ q M s v, (target.render inline).ComesTo M (.text s) →
      q.ComesTo M (.text (Pattern.around leading trailing v)) →
      ∀ raw, (Query.binary "LIKE" (target.render inline) q).ComesTo M raw ↔
        raw = .ofBool (Pattern.accepts (Pattern.around leading trailing v).toList s.toList)) ∧
    ∀ v s : String,
      (Pattern.accepts (Pattern.around leading trailing v).toList s.toList = true ↔
        ∃ u, Pattern.PartOf leading trailing u s.toList ∧ Pattern.accepts v.toList u = true) ∧
      ('%' ∉ v.toList → '_' ∉ v.toList →
        (Pattern.accepts (Pattern.around leading trailing v).toList s.toList = true ↔
          Pattern.PartOf leading trailing (Text.foldCase v) (Text.foldCase s))) := by
  refine ⟨fun w v hw hv => ?_, fun q hy => ⟨?_, fun M v hq => hq.pattern leading trailing⟩,
    fun q M s v hs hq raw => ?_, fun v s => ⟨Pattern.accepts_around_iff,
      Pattern.accepts_around_plain_iff⟩⟩
  · have hy : y.compile m inline = .ok (.value w) := by
      rw [Filter.compile_eq_lower, Filter.lower_of_settled? m hw]
      rfl
    refine ⟨_, ?_, ?_, ?_, fun M => Query.comesTo_render_text M inline _⟩
    · rw [Model.predicate_of_wildcards? hf hk hx hy, Fragment.surround_value hv]
      rfl
    · rintro rfl
      exact ⟨rfl, Constant.read?_text _⟩
    · rintro rfl
      rfl
  · rw [Model.predicate_of_wildcards? hf hk hx hy]
    rfl
  · have hcomes := Query.ComesTo.binary readsSign_like hs hq
    exact ⟨fun h => h.unique hcomes, fun h => h ▸ hcomes⟩

/-- Notes with a captured text in their title. -/
def quoteFilter : Filter :=
  .method (.field "title") "Contains" [.captured "s" (.value (.text "it's"))]

/-- Notes whose title starts with itself. -/
def selfFilter : Filter := .function "StartsWith" [.field "title", .field "title"]

def noteTarget : Query := ⟨identifier "what\x22?", []⟩

def whyMeaning : Meaning where
  column _ := .text "Why 100%?"
  number _ := .null
  sign _ _ _ := .null
  call _ _ := .null

/-- The captured text stands in the pattern once its quotes are undone, and a title that is not
known yet gets its wildcard from the store.  A title is accepted by itself as a pattern. -/
theorem pattern_of_call_notes :
    (∃ q, notes.predicate true quoteFilter = .ok (.binary "LIKE" noteTarget q) ∧
      Constant.read? q.text = some (.text "%it's%")) ∧
    notes.predicate false selfFilter
      = .ok (.binary "LIKE" noteTarget (noteTarget.pattern false true)) ∧
    (noteTarget.pattern false true).ComesTo whyMeaning (.text "Why 100%?%") ∧
    (Query.binary "LIKE" noteTarget (noteTarget.pattern false true)).ComesTo whyMeaning
      (.ofBool true) := by
  have htarget : ∀ inline,
      (Filter.field "title").compile notes inline = .ok (.sql noteTarget) := fun _ => rfl
  have htitle : noteTarget.ComesTo whyMeaning (.text "Why 100%?") :=
    ⟨.column "what\x22?", [], reads_identifier _, rfl, rfl⟩
  obtain ⟨hvalue, -, -, -⟩ := pattern_of_call (f := quoteFilter) (k := .contains) rfl rfl
    (htarget true)
  obtain ⟨-, hsql, hcondition, -⟩ := pattern_of_call (f := selfFilter) (k := .startsWith) rfl rfl
    (htarget false)
  obtain ⟨q, hq, hinline, -⟩ := hvalue (.text "it's") "it's" rfl rfl
  obtain ⟨hpredicate, hpattern⟩ := hsql noteTarget (htarget false)
  have hcomes := hpattern whyMeaning "Why 100%?" htitle
  refine ⟨⟨q, hq, (hinline rfl).2⟩, hpredicate, hcomes, ?_⟩
  exact (hcondition _ _ "Why 100%?" "Why 100%?" htitle hcomes _).2 (by decide +kernel)

end RecordMap
