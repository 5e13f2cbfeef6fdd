import RecordMap.Proofs.OneStatement

/-!
# Batches outside of a transaction

A batch outside of a transaction sends the insertions that its values would send one by one, each on
a connection of its own, and comes to the same (`insertEach_singles`).  It stops where they would
stop, so the values behind the first failure do not matter to it.

A batch in a transaction looks at all of its values first.  If none of them is rejected and nothing
fails, it sends the same insertions.
-/

namespace RecordMap

open Session Sql

variable {α σ : Type}

namespace Exchange

def isInsertion : Exchange → Bool
  | ⟨.insert _, _⟩ => true
  | _ => false

/-- The insertions among what passes between a session and the store. -/
def insertions (xs : List Exchange) : List Exchange := xs.filter isInsertion

end Exchange

/-- The answers of a store that lets everyone connect.  What it answers an insertion may depend on
the insertions before. -/
def replying (replies : List Request → Request → Outcome (Number .int64)) :
    (c : Call) → List Request → c.Answer × List Request
  | .connect, sent => (.ok (), sent)
  | .execute _, sent => (.ok 0, sent)
  | .insert r, sent => (replies sent r, sent ++ [r])
  | .query _, sent => (.ok [], sent)
  | .close, sent => ((), sent)

/-- Insertions on one connection each, up to the first that is no request or fails. -/
def Session.singles : List (Outcome Request) → Session (Outcome (List (Number .int64)))
  | [] => .done (.ok [])
  | .error e :: _ => .done (.error e)
  | .ok r :: rest =>
    (connected (insert r)).andThen fun id =>
      (singles rest).andThen fun ids => .done (.ok (id :: ids))

section Runs

variable (answer : (c : Call) → σ → c.Answer × σ)
  (replies : List Request → Request → Outcome (Number .int64))

/-- The trace, the result and the final state of a run. -/
def Session.history (x : Session α) (s : σ) : List Exchange × α × σ :=
  (x.trace answer s, x.result answer s, x.final answer s)

theorem Session.history_eq_iff {x : Session α} {s s' : σ} {xs : List Exchange} {a : α} :
    x.history answer s = (xs, a, s') ↔
      x.trace answer s = xs ∧ x.result answer s = a ∧ x.final answer s = s' := by
  rw [history, Prod.mk.injEq, Prod.mk.injEq]

theorem history_andThen_done {β : Type} (g : α → β) (x : Session (Outcome α)) (s : σ) :
    (x.andThen fun a => .done (.ok (g a))).history answer s
      = (x.trace answer s, (x.result answer s).map g, x.final answer s) := by
  rw [history, trace_andThen_done, result_andThen_done, final_andThen_done]

theorem insertEach_ok {r : Request} {s s' : σ} {id : Number .int64}
    (h : answer (.insert r) s = (.ok id, s')) (rest : List (Outcome Request)) :
    (insertEach (.ok r :: rest)).history answer s
      = (⟨.insert r, .ok id⟩ :: (insertEach rest).trace answer s',
        ((insertEach rest).result answer s').map (id :: ·), (insertEach rest).final answer s') := by
  have hrest := history_andThen_done answer (id :: ·) (insertEach rest) s'
  rw [history_eq_iff] at hrest ⊢
  simp only [insertEach, Session.insert, andThen, Session.bind, trace_ask, result_ask, final_ask, h]
  exact ⟨congrArg _ hrest.1, hrest.2⟩

theorem insertEach_error {r : Request} {s s' : σ} {e : Fault}
    (h : answer (.insert r) s = (.error e, s')) (rest : List (Outcome Request)) :
    (insertEach (.ok r :: rest)).history answer s = ([⟨.insert r, .error e⟩], .error e, s') := by
  simp only [history, insertEach, Session.insert, andThen, Session.bind, trace_ask, result_ask,
    final_ask, h, trace_done, result_done, final_done]

theorem singles_ok {r : Request} {sent : List Request} {id : Number .int64}
    (h : replies sent r = .ok id) (rest : List (Outcome Request)) :
    (singles (.ok r :: rest)).history (replying replies) sent
      = (⟨.connect, .ok ()⟩ :: ⟨.insert r, .ok id⟩ :: ⟨.close, ()⟩ ::
          (singles rest).trace (replying replies) (sent ++ [r]),
        ((singles rest).result (replying replies) (sent ++ [r])).map (id :: ·),
        (singles rest).final (replying replies) (sent ++ [r])) := by
  have hrest := history_andThen_done (replying replies) (id :: ·) (singles rest) (sent ++ [r])
  rw [history_eq_iff] at hrest ⊢
  simp only [singles, connected, Session.insert, andThen, Session.bind, trace_ask, result_ask,
    final_ask, replying, h]
  exact ⟨congrArg (_ :: _ :: _ :: ·) hrest.1, hrest.2⟩

/-- A batch sends what its insertions would send one by one, and comes to the same. -/
theorem insertEach_singles : ∀ (xs : List (Outcome Request)) (sent : List Request),
    (insertEach xs).history (replying replies) sent
      = (Exchange.insertions ((singles xs).trace (replying replies) sent),
        (singles xs).result (replying replies) sent, (singles xs).final (replying replies) sent)
  | [], _ => rfl
  | .error e :: _, _ => rfl
  | .ok r :: rest, sent => by
    rcases h : replies sent r with e | id
    · have heach := insertEach_error (replying replies) (s := sent) (by rw [replying, h]) rest
      rw [heach]
      simp only [singles, connected, Session.insert, andThen, Session.bind, trace_ask, result_ask,
        final_ask, replying, h]
      rfl
    · have heach := insertEach_ok (replying replies) (s := sent) (by rw [replying, h]) rest
      have hsingles := singles_ok replies h rest
      have ih := insertEach_singles rest (sent ++ [r])
      rw [history_eq_iff] at heach hsingles ih ⊢
      rw [heach.1, heach.2.1, heach.2.2, hsingles.1, hsingles.2.1, hsingles.2.2, ih.1, ih.2.1,
        ih.2.2]
      exact ⟨rfl, rfl, rfl⟩

theorem history_connected (x : Session (Outcome α)) (sent : List Request) :
    (connected x).history (replying replies) sent
      = (⟨.connect, .ok ()⟩ :: (x.trace (replying replies) sent ++ [⟨.close, ()⟩]),
        x.result (replying replies) sent, x.final (replying replies) sent) := by
  simp only [history, connected, trace_ask, result_ask, final_ask, replying, trace_bind,
    result_bind, final_bind, trace_done, result_done, final_done]

theorem history_transaction {x : Session (Outcome α)} {sent : List Request} {a : α}
    (h : x.result (replying replies) sent = .ok a) :
    (transaction x).history (replying replies) sent
      = (⟨.execute begin, .ok 0⟩ :: (x.trace (replying replies) sent ++ [⟨.execute commit, .ok 0⟩]),
        .ok a, x.final (replying replies) sent) := by
  simp only [history, transaction, execute, andThen, Session.bind, trace_ask, result_ask, final_ask,
    replying, trace_bind, result_bind, final_bind, h, trace_done, result_done, final_done]

/-- A batch ends with its first failure, whatever is behind it. -/
theorem insertEach_append {fault : Fault} (ys : List (Outcome Request)) :
    ∀ {xs : List (Outcome Request)} {s : σ}, (insertEach xs).result answer s = .error fault →
      (insertEach (xs ++ ys)).history answer s = (insertEach xs).history answer s
  | [], s, h => by cases h
  | .error e :: _, s, h => rfl
  | .ok r :: rest, s, h => by
    rcases hr : answer (.insert r) s with ⟨e | id, s'⟩
    · rw [List.cons_append, insertEach_error answer hr, insertEach_error answer hr]
    · have heach := insertEach_ok answer hr rest
      rw [history_eq_iff] at heach
      rw [heach.2.1] at h
      rcases hrest : (insertEach rest).result answer s' with e | ids <;> rw [hrest] at h <;> cases h
      have ih := insertEach_append ys hrest
      rw [history_eq_iff] at ih
      rw [List.cons_append, insertEach_ok answer hr, insertEach_ok answer hr, ih.1, ih.2.1, ih.2.2]
      rfl

theorem call_of_mem_connected {body : Session (Outcome α)} {s : σ} {x : Exchange}
    (h : x ∈ (connected body).trace answer s) :
    x.call = .connect ∨ x.call = .close ∨ ∃ s', x ∈ body.trace answer s' := by
  simp only [connected, trace_ask] at h
  rcases hc : answer .connect s with ⟨e | u, s'⟩ <;>
    simp only [hc, trace_bind, trace_done, trace_ask, List.mem_cons, List.mem_append,
      List.not_mem_nil, or_false] at h
  · exact .inl (by rw [h])
  · rcases h with h | h | h
    · exact .inl (by rw [h])
    · exact .inr (.inr ⟨s', h⟩)
    · exact .inr (.inl (by rw [h]))

/-- A batch begins no transaction of its own. -/
theorem exists_insert_of_mem_insertEach {x : Exchange} :
    ∀ {xs : List (Outcome Request)} {s : σ}, x ∈ (insertEach xs).trace answer s →
      ∃ r, x.call = .insert r
  | [], s, h => by
    rw [insertEach, trace_done] at h
    cases h
  | .error e :: _, s, h => by
    rw [insertEach, trace_done] at h
    cases h
  | .ok r :: rest, s, h => by
    rcases hr : answer (.insert r) s with ⟨e | id, s'⟩
    · have heach := insertEach_error answer hr rest
      rw [history_eq_iff] at heach
      rw [heach.1, List.mem_singleton] at h
      exact ⟨r, by rw [h]⟩
    · have heach := insertEach_ok answer hr rest
      rw [history_eq_iff] at heach
      rw [heach.1, List.mem_cons] at h
      rcases h with rfl | h
      · exact ⟨r, rfl⟩
      · exact exists_insert_of_mem_insertEach h

end Runs

namespace Engine

variable {e : Engine} {m : Model} {d : Declaration} {t : RecordType α}

def batching (e : Engine) (atomic : Bool) : Engine :=
  { e with config := { e.config with atomicBatches := atomic } }

/-- Inserts values one by one, up to the first that fails. -/
def insertSingly (t : RecordType α) : List α → Engine → Session (Outcome (List (Number .int64)))
  | [], _ => .done (.ok [])
  | a :: as, e =>
    (e.insert t a).1.andThen fun id =>
      (insertSingly t as (e.insert t a).2).andThen fun ids => .done (.ok (id :: ids))

/-- What the insertions of a batch send. -/
def requests (t : RecordType α) (m : Model) (as : List α) : List (Outcome Request) :=
  as.map fun a => (m.insert (t.record a)).bind Statement.request

theorem requests_cons {config : Config} {a : α} {x : Outcome Request}
    (h : Action.request config t m (.insert a) = x) (as : List α) :
    requests t m (a :: as) = x :: requests t m as := by
  rw [← h]
  rfl

theorem describe_describe (e : Engine) (d : NamedDeclaration) :
    (e.describe d).2.describe d = e.describe d := by
  rcases hmodel : e.model? d.typeName with _ | m
  · rcases hd : d.build with fault | m
    · rw [describe_of_fault hmodel hd]
      exact describe_of_fault hmodel hd
    · rw [describe_of_build hmodel hd]
      exact describe_of_model? (by rw [model?_remember, if_pos rfl])
  · rw [describe_of_model? hmodel]
    exact describe_of_model? hmodel

theorem insertSingly_eq (hd : d.build = .ok m) : ∀ (as : List α) {e : Engine},
    (e.describe t.toNamedDeclaration).1 = .ok m →
      insertSingly t as e = singles (requests t m as)
  | [], _, _ => rfl
  | a :: as, e, hm => by
    have hnext : ((e.insert t a).2.describe t.toNamedDeclaration).1 = .ok m := by
      have hsnd : (e.insert t a).2 = (e.describe t.toNamedDeclaration).2 :=
        perform_snd e t (show (Operation.act (.insert a)).asks = true from rfl)
      rw [hsnd, describe_describe, hm]
    rcases hr : Action.request e.config t m (.insert a) with fault | r
    · have hinsert : (e.insert t a).1 = .done (.error fault) := act_of_fault hd hm hr
      rw [insertSingly, hinsert, requests_cons hr]
      rfl
    · have hinsert : (e.insert t a).1 = connected (Session.insert r) :=
        (act_of_request hm hr).trans (connected_ask (.insert r) fun x => x).symm
      rw [insertSingly, hinsert, insertSingly_eq hd as hnext, requests_cons hr]
      rfl

theorem insertMany_of_not_atomic (hm : (e.describe t.toNamedDeclaration).1 = .ok m) {as : List α}
    (has : as ≠ []) :
    ((e.batching false).insertMany t as).1 = connected (insertEach (requests t m as)) := by
  have hempty : as.isEmpty = false := by simpa using has
  have hm' : ((e.batching false).describe t.toNamedDeclaration).1 = .ok m :=
    (describe_configured e _ _).trans hm
  simp only [insertMany, hempty, Bool.false_eq_true, if_false]
  rw [onModel_of_describe hm', requests, List.map_map]
  rfl

theorem requests_of_accepted {as : List α} {ss : List Statement}
    (h : (as.mapM fun a => m.insert (t.record a)) = .ok ss) :
    requests t m as = ss.map Statement.request := by
  have hmap := congrArg (List.map (·.bind Statement.request)) (Outcome.map_of_mapM h)
  rw [List.map_map, List.map_map] at hmap
  exact hmap

theorem insertMany_of_atomic (hm : (e.describe t.toNamedDeclaration).1 = .ok m) {as : List α}
    (has : as ≠ []) {ss : List Statement} (h : (as.mapM fun a => m.insert (t.record a)) = .ok ss) :
    ((e.batching true).insertMany t as).1
      = connected (transaction (insertEach (requests t m as))) := by
  rw [insertMany_eq (e := e.batching true) rfl ((describe_configured e _ _).trans hm) has, h,
    requests_of_accepted h]

section History

variable (replies : List Request → Request → Outcome (Number .int64)) (sent : List Request)

theorem history_insertEach_requests (hm : (e.describe t.toNamedDeclaration).1 = .ok m)
    (hd : d.build = .ok m) (as : List α) :
    (insertEach (requests t m as)).history (replying replies) sent
      = (Exchange.insertions ((insertSingly t as e).trace (replying replies) sent),
        (insertSingly t as e).result (replying replies) sent,
        (insertSingly t as e).final (replying replies) sent) := by
  rw [insertSingly_eq hd as hm]
  exact insertEach_singles replies (requests t m as) sent

/-- If no value is rejected and no call fails, then each is inserted. -/
theorem exists_ids_of_succeeded (hm : (e.describe t.toNamedDeclaration).1 = .ok m)
    (hd : d.build = .ok m) {as : List α} {ss : List Statement}
    (hss : (as.mapM fun a => m.insert (t.record a)) = .ok ss)
    (hsucceeded : ((insertSingly t as e).trace (replying replies) sent).all Exchange.succeeded
      = true) :
    ∃ ids, (insertSingly t as e).result (replying replies) sent = .ok ids := by
  obtain ⟨rs, hrs⟩ := exists_requests hd hss
  have hok := (insertions_insertEach (replying replies) rs sent).isOk_iff
  have hhistory := history_insertEach_requests replies sent hm hd as
  rw [history_eq_iff] at hhistory
  rw [← Outcome.map_of_mapM hrs, ← requests_of_accepted hss, hhistory.1, hhistory.2.1] at hok
  have hall : (Exchange.insertions ((insertSingly t as e).trace (replying replies) sent)).all
      Exchange.succeeded = true :=
    List.all_eq_true.2 fun x hx => List.all_eq_true.1 hsucceeded x (List.mem_of_mem_filter hx)
  rw [hall] at hok
  rcases hids : (insertSingly t as e).result (replying replies) sent with fault | ids
  · rw [hids] at hok
    cases hok
  · exact ⟨ids, rfl⟩

theorem history_insertMany_of_atomic (hm : (e.describe t.toNamedDeclaration).1 = .ok m)
    (hd : d.build = .ok m) {as : List α} (has : as ≠ []) {ss : List Statement}
    (hss : (as.mapM fun a => m.insert (t.record a)) = .ok ss) {ids : List (Number .int64)}
    (hids : (insertSingly t as e).result (replying replies) sent = .ok ids) :
    ((e.batching true).insertMany t as).1.history (replying replies) sent
      = (⟨.connect, .ok ()⟩ :: ⟨.execute begin, .ok 0⟩ ::
          (Exchange.insertions ((insertSingly t as e).trace (replying replies) sent)
            ++ [⟨.execute commit, .ok 0⟩, ⟨.close, ()⟩]),
        .ok ids, (insertSingly t as e).final (replying replies) sent) := by
  have heach := history_insertEach_requests replies sent hm hd as
  rw [history_eq_iff] at heach
  have htransaction := history_transaction replies (heach.2.1.trans hids)
  rw [history_eq_iff, heach.1, heach.2.2] at htransaction
  rw [insertMany_of_atomic hm has hss, history_connected, htransaction.1, htransaction.2.1,
    htransaction.2.2, List.cons_append, List.append_assoc]
  rfl

end History

/-- A batch outside of a transaction, as against the same values inserted one by one.  The batch has
the same result and sends the same insertions, on one connection and with nothing else.  Nothing
behind its first failure matters to it.  In a transaction it sends the same insertions again, unless
a value is rejected or a call fails. -/
theorem insertMany_one_by_one (hm : (e.describe t.toNamedDeclaration).1 = .ok m)
    (hd : d.build = .ok m) {as : List α} (has : as ≠ [])
    (replies : List Request → Request → Outcome (Number .int64)) (sent : List Request) :
    ((e.batching false).insertMany t as).1.result (replying replies) sent
      = (insertSingly t as e).result (replying replies) sent ∧
    ((e.batching false).insertMany t as).1.trace (replying replies) sent
      = ⟨.connect, .ok ()⟩ ::
        (Exchange.insertions ((insertSingly t as e).trace (replying replies) sent)
          ++ [⟨.close, ()⟩]) ∧
    (∀ fault after,
      ((e.batching false).insertMany t as).1.result (replying replies) sent = .error fault →
      ((e.batching false).insertMany t (as ++ after)).1.history (replying replies) sent
        = ((e.batching false).insertMany t as).1.history (replying replies) sent) ∧
    (∀ {σ : Type} (answer : (c : Call) → σ → c.Answer × σ) (s : σ) (r : Request) (x : Exchange),
      x ∈ ((e.batching false).insertMany t as).1.trace answer s → x.call ≠ .execute r) ∧
    ((∀ a ∈ as, ∃ s, m.insert (t.record a) = .ok s) →
      ((insertSingly t as e).trace (replying replies) sent).all Exchange.succeeded = true →
      ∃ ids, (insertSingly t as e).result (replying replies) sent = .ok ids ∧
        ((e.batching true).insertMany t as).1.result (replying replies) sent = .ok ids ∧
        ((e.batching true).insertMany t as).1.trace (replying replies) sent
          = ⟨.connect, .ok ()⟩ :: ⟨.execute begin, .ok 0⟩ ::
            (Exchange.insertions ((insertSingly t as e).trace (replying replies) sent)
              ++ [⟨.execute commit, .ok 0⟩, ⟨.close, ()⟩])) := by
  have hbatch : ∀ bs : List α, bs ≠ [] → ((e.batching false).insertMany t bs).1
      = connected (insertEach (requests t m bs)) := fun bs hbs => insertMany_of_not_atomic hm hbs
  have heach := history_insertEach_requests replies sent hm hd as
  rw [history_eq_iff] at heach
  have hconnected := history_connected replies (insertEach (requests t m as)) sent
  rw [← hbatch as has, history_eq_iff, heach.1, heach.2.1] at hconnected
  refine ⟨hconnected.2.1, hconnected.1, fun fault after hfault => ?_, fun answer s r x hx => ?_,
    fun haccepted hsucceeded => ?_⟩
  · rw [hconnected.2.1, ← heach.2.1] at hfault
    have happend := insertEach_append (replying replies) (requests t m after) hfault
    rw [history_eq_iff] at happend
    have hrequests : requests t m (as ++ after) = requests t m as ++ requests t m after :=
      List.map_append
    rw [hbatch (as ++ after) (by simp [has]), hbatch as has, history_connected, history_connected,
      hrequests, happend.1, happend.2.1, happend.2.2]
    rfl
  · rw [hbatch as has] at hx
    rcases call_of_mem_connected answer hx with h | h | ⟨s', h⟩
    · rw [h]
      nofun
    · rw [h]
      nofun
    · obtain ⟨r', hr'⟩ := exists_insert_of_mem_insertEach answer h
      rw [hr']
      nofun
  · obtain ⟨ss, hss⟩ := Outcome.exists_mapM_eq_ok haccepted
    obtain ⟨ids, hids⟩ := exists_ids_of_succeeded replies sent hm hd hss hsucceeded
    have hatomic := history_insertMany_of_atomic replies sent hm hd has hss hids
    rw [history_eq_iff] at hatomic
    exact ⟨ids, hids, hatomic.2.1, hatomic.1⟩

/-- Refuses what has been inserted before. -/
def onlyOnce (sent : List Request) (r : Request) : Outcome (Number .int64) :=
  if r ∈ sent then Outcome.fail (.backend (some r.text) ⟨"constraint failed", []⟩)
  else .ok (Number.clamp .int64 sent.length)

/-- The second of two equal notes is refused in either way.  One alone is also inserted in a
transaction. -/
theorem insertMany_one_by_one_notes :
    Outcome.isOk ((insertSingly noteType [noteRecord, noteRecord]
      ⟨.standard, []⟩).result (replying onlyOnce) []) = false ∧
    ((batching ⟨.standard, []⟩ false).insertMany noteType [noteRecord, noteRecord]).1.result
        (replying onlyOnce) []
      = (insertSingly noteType [noteRecord, noteRecord] ⟨.standard, []⟩).result
        (replying onlyOnce) [] ∧
    ∃ ids, ((batching ⟨.standard, []⟩ true).insertMany noteType [noteRecord]).1.result
        (replying onlyOnce) [] = .ok ids := by
  have hm : ((Engine.mk .standard []).describe noteType.toNamedDeclaration).1 = .ok notes := by
    decide +kernel
  have hd : noteDeclaration.build = .ok notes := by decide +kernel
  refine ⟨by decide +kernel, ?_, ?_⟩
  · exact (insertMany_one_by_one hm hd (List.cons_ne_nil _ _) onlyOnce []).1
  · obtain ⟨-, -, -, -, h⟩ :=
      insertMany_one_by_one hm hd (List.cons_ne_nil noteRecord []) onlyOnce []
    have haccepted : ∀ a ∈ [noteRecord], ∃ s, notes.insert (noteType.record a) = .ok s := by
      intro a ha
      refine ⟨noteInsert, ?_⟩
      rw [List.mem_singleton.1 ha]
      decide +kernel
    obtain ⟨ids, -, hids, -⟩ := h haccepted (by decide +kernel)
    exact ⟨ids, hids⟩

end Engine

end RecordMap
