import RecordMap.Proofs.Accepted
import RecordMap.Proofs.Trace

/-!
# Atomic batches

A batch of insertions in one transaction takes one of five courses, one for each way in which the
store can fail and one where it does not (`Course`).  The batch comes to the numbers of its rows if
and only if every call succeeded (`Course.isOk_iff`), and a transaction that is begun is either
committed or rolled back, whatever the store answers.

A transactional store shows nothing of a transaction before it is committed.  So a batch is in the
store as a whole or not at all (`published_batch`).
-/

namespace RecordMap

open Session Sql

/-- The insertions of a batch in their order, up to the first that the store refuses. -/
inductive Insertions : List Request → List Exchange → Outcome (List (Number .int64)) → Prop
  | nil : Insertions [] [] (.ok [])
  | refused (r : Request) (rest : List Request) (e : Fault) :
    Insertions (r :: rest) [⟨.insert r, .error e⟩] (.error e)
  | inserted {rest : List Request} {xs : List Exchange} {x : Outcome (List (Number .int64))}
    (r : Request) (id : Number .int64) (h : Insertions rest xs x) :
    Insertions (r :: rest) (⟨.insert r, .ok id⟩ :: xs) (x.map (id :: ·))

/-- What passes between a batch and the store, and what the batch comes to. -/
inductive Course (rs : List Request) : List Exchange → Outcome (List (Number .int64)) → Prop
  | unconnected (e : Fault) : Course rs [⟨.connect, .error e⟩] (.error e)
  | unbegun (e : Fault) :
    Course rs [⟨.connect, .ok ()⟩, ⟨.execute begin, .error e⟩, ⟨.close, ()⟩] (.error e)
  | committed {xs : List Exchange} {ids : List (Number .int64)} (n k : Nat)
    (h : Insertions rs xs (.ok ids)) :
    Course rs (⟨.connect, .ok ()⟩ :: ⟨.execute begin, .ok n⟩ ::
      (xs ++ [⟨.execute commit, .ok k⟩, ⟨.close, ()⟩])) (.ok ids)
  | uncommitted {xs : List Exchange} {ids : List (Number .int64)} (n : Nat) (e : Fault)
    (h : Insertions rs xs (.ok ids)) :
    Course rs (⟨.connect, .ok ()⟩ :: ⟨.execute begin, .ok n⟩ ::
      (xs ++ [⟨.execute commit, .error e⟩, ⟨.close, ()⟩])) (.error e)
  | rolledBack {xs : List Exchange} {e : Fault} (n : Nat) (a : Outcome Nat)
    (h : Insertions rs xs (.error e)) :
    Course rs (⟨.connect, .ok ()⟩ :: ⟨.execute begin, .ok n⟩ ::
      (xs ++ [⟨.execute rollback, a⟩, ⟨.close, ()⟩])) (.error e)

theorem Insertions.isOk_iff {rs : List Request} {xs : List Exchange}
    {x : Outcome (List (Number .int64))} (h : Insertions rs xs x) :
    Outcome.isOk x = xs.all Exchange.succeeded := by
  induction h with
  | nil => rfl
  | refused r rest e => rfl
  | inserted r id h ih =>
    rename_i y
    rw [List.all_cons, ← ih]
    cases y <;> rfl

/-- A batch succeeds if and only if every call does. -/
theorem Course.isOk_iff {rs : List Request} {xs : List Exchange}
    {x : Outcome (List (Number .int64))} (h : Course rs xs x) :
    Outcome.isOk x = xs.all Exchange.succeeded := by
  cases h with
  | unconnected e => rfl
  | unbegun e => rfl
  | committed _ _ h | uncommitted _ _ h | rolledBack _ _ h =>
    have hxs := h.isOk_iff
    simp only [List.all_cons, List.all_append, ← hxs]
    rfl

/-- A batch whose requests are known. -/
def Session.batch (rs : List Request) : Session (Outcome (List (Number .int64))) :=
  connected (transaction (insertEach (rs.map .ok)))

section Runs

variable {σ α β : Type} (answer : (c : Call) → σ → c.Answer × σ)

theorem trace_andThen_done (g : α → β) (x : Session (Outcome α)) (s : σ) :
    (x.andThen fun a => .done (.ok (g a))).trace answer s = x.trace answer s := by
  rw [andThen, trace_bind]
  rcases x.result answer s with e | a <;> simp

theorem result_andThen_done (g : α → β) (x : Session (Outcome α)) (s : σ) :
    (x.andThen fun a => .done (.ok (g a))).result answer s = (x.result answer s).map g := by
  rw [andThen, result_bind]
  rcases x.result answer s with e | a <;> rfl

theorem final_andThen_done (g : α → β) (x : Session (Outcome α)) (s : σ) :
    (x.andThen fun a => .done (.ok (g a))).final answer s = x.final answer s := by
  rw [andThen, final_bind]
  rcases x.result answer s with e | a <;> rfl

theorem insertions_insertEach : ∀ (rs : List Request) (s : σ),
    Insertions rs ((insertEach (rs.map .ok)).trace answer s)
      ((insertEach (rs.map .ok)).result answer s)
  | [], s => .nil
  | r :: rest, s => by
    simp only [List.map_cons, insertEach, Session.insert, andThen, Session.bind, trace_ask,
      result_ask]
    rcases answer (.insert r) s with ⟨a, s'⟩
    rcases a with e | id
    · exact .refused r rest e
    · have ih := insertions_insertEach rest s'
      have h := Insertions.inserted r id ih
      rw [← trace_andThen_done answer (id :: ·), ← result_andThen_done answer] at h
      exact h

theorem course_batch (rs : List Request) (s : σ) :
    Course rs ((batch rs).trace answer s) ((batch rs).result answer s) := by
  simp only [batch, connected, trace_ask, result_ask]
  rcases answer .connect s with ⟨a, s1⟩
  rcases a with e | u
  · exact .unconnected e
  simp only [transaction, execute, andThen, Session.bind, trace_ask, result_ask]
  rcases answer (.execute begin) s1 with ⟨a, s2⟩
  rcases a with e | n
  · exact .unbegun e
  have hins := insertions_insertEach answer rs s2
  simp only [trace_bind, result_bind]
  rcases hx : (insertEach (rs.map .ok)).result answer s2 with e | ids <;> rw [hx] at hins
  · simp only [trace_ask, result_ask, trace_done, result_done, List.append_assoc]
    exact .rolledBack n _ hins
  · simp only [trace_ask, result_ask, trace_done, result_done]
    rcases answer (.execute commit) ((insertEach (rs.map .ok)).final answer s2) with ⟨a, s4⟩
    rcases a with e | k
    · simp only [trace_done, result_done, List.append_assoc]
      exact .uncommitted n e hins
    · simp only [trace_done, result_done, List.append_assoc]
      exact .committed n k hins

end Runs

/-- Some insertion is sent as this request. -/
def Request.IsInsertion (r : Request) : Prop :=
  ∃ table columns values, (Statement.insert table columns values).request = .ok r

/-- A store that keeps the insertions of a transaction to itself until the transaction is committed,
and drops them when it is rolled back or its connection is closed.  Nothing is known of what the
store makes of a transaction in which an insertion was refused, but that it shows nothing of it, nor
of requests that are no insertions. -/
structure TransactionalStore (σ τ : Type) where
  answer : (c : Call) → σ → c.Answer × σ
  /-- What every connection sees. -/
  published : σ → τ
  /-- What an insertion makes of it, once it is there for everyone. -/
  put : τ → Request → τ
  /-- The insertions of the transaction that has been begun, if there is one. -/
  pending : σ → Option (List Request)
  published_connect : ∀ s, published (answer .connect s).2 = published s
  published_begin : ∀ s, published (answer (.execute begin) s).2 = published s
  pending_begin : ∀ s n, (answer (.execute begin) s).1 = .ok n →
    pending (answer (.execute begin) s).2 = some []
  published_insert : ∀ s r rs, r.IsInsertion → pending s = some rs →
    published (answer (.insert r) s).2 = published s
  pending_insert : ∀ s r rs id, r.IsInsertion → pending s = some rs →
    (answer (.insert r) s).1 = .ok id → pending (answer (.insert r) s).2 = some (rs ++ [r])
  published_commit : ∀ s rs n, pending s = some rs → (answer (.execute commit) s).1 = .ok n →
    published (answer (.execute commit) s).2 = rs.foldl put (published s)
  published_failed_commit : ∀ s e, (answer (.execute commit) s).1 = .error e →
    published (answer (.execute commit) s).2 = published s
  published_rollback : ∀ s, published (answer (.execute rollback) s).2 = published s
  published_close : ∀ s, published (answer .close s).2 = published s

namespace TransactionalStore

variable {σ τ : Type} (store : TransactionalStore σ τ)

/-- What every connection sees behind a batch that came to `x`: all of its insertions or none. -/
def resulting {α : Type} (rs : List Request) (x : Outcome α) (seen : τ) : τ :=
  match x with
  | .ok _ => rs.foldl store.put seen
  | .error _ => seen

theorem resulting_of_failed {α : Type} {rs : List Request} {x : Outcome α} {seen : τ}
    (h : Outcome.isOk x = false) : store.resulting rs x seen = seen := by
  cases x with
  | ok a => cases h
  | error e => rfl

/-- The insertions of a batch stay pending. -/
theorem pending_insertEach : ∀ {rs : List Request}, (∀ r ∈ rs, r.IsInsertion) →
    ∀ (ps : List Request) (s : σ), store.pending s = some ps →
    store.published ((insertEach (rs.map .ok)).final store.answer s) = store.published s ∧
    ∀ ids, (insertEach (rs.map .ok)).result store.answer s = .ok ids →
      store.pending ((insertEach (rs.map .ok)).final store.answer s) = some (ps ++ rs)
  | [], _, ps, s, h => by
    refine ⟨rfl, fun _ _ => ?_⟩
    rw [List.append_nil]
    exact h
  | r :: rest, hrs, ps, s, h => by
    obtain ⟨hr, hrest⟩ := List.forall_mem_cons.1 hrs
    have hinsert := store.published_insert s r ps hr h
    have hinserted := fun id => store.pending_insert s r ps id hr
    simp only [List.map_cons, insertEach, Session.insert, andThen, Session.bind, final_ask,
      result_ask]
    rcases ha : store.answer (.insert r) s with ⟨a, s'⟩
    rw [ha] at hinsert hinserted
    rcases a with e | id
    · exact ⟨hinsert, fun ids hids => by cases hids⟩
    · obtain ⟨hp, hps⟩ := pending_insertEach hrest (ps ++ [r]) s' (hinserted id h rfl)
      have hfinal := final_andThen_done store.answer (id :: ·) (insertEach (rest.map .ok)) s'
      have hresult := result_andThen_done store.answer (id :: ·) (insertEach (rest.map .ok)) s'
      simp only [andThen] at hfinal hresult
      rw [hfinal, hresult]
      refine ⟨hp.trans hinsert, fun ids hids => ?_⟩
      rcases hx : (insertEach (rest.map .ok)).result store.answer s' with e | js <;>
        rw [hx] at hids
      · cases hids
      · rw [hps js hx, List.append_assoc, List.singleton_append]

theorem published_transaction {rs : List Request} (hrs : ∀ r ∈ rs, r.IsInsertion) (s : σ) :
    store.published ((transaction (insertEach (rs.map .ok))).final store.answer s)
      = store.resulting rs ((transaction (insertEach (rs.map .ok))).result store.answer s)
        (store.published s) := by
  have hbegin := store.published_begin s
  have hbegun := store.pending_begin s
  simp only [transaction, execute, andThen, Session.bind, final_ask, result_ask]
  rcases hb : store.answer (.execute begin) s with ⟨a, s1⟩
  rw [hb] at hbegin hbegun
  rcases a with e | n
  · exact hbegin
  obtain ⟨hp, hps⟩ := store.pending_insertEach hrs [] s1 (hbegun n rfl)
  simp only [final_bind, result_bind]
  rcases hx : (insertEach (rs.map .ok)).result store.answer s1 with e | ids
  · exact (store.published_rollback _).trans (hp.trans hbegin)
  · have hpending := hps ids hx
    simp only [final_ask, result_ask]
    generalize (insertEach (rs.map .ok)).final store.answer s1 = s2 at hp hpending ⊢
    have hcommit := store.published_commit s2 rs
    have hfailed := store.published_failed_commit s2
    rcases hc : store.answer (.execute commit) s2 with ⟨a, s3⟩
    rw [hc] at hcommit hfailed
    rcases a with e | k
    · exact (hfailed e rfl).trans (hp.trans hbegin)
    · have h := hcommit k hpending rfl
      rw [hp, hbegin] at h
      exact h

/-- A batch that succeeds is in the store as a whole, and one that fails not at all. -/
theorem published_batch {rs : List Request} (hrs : ∀ r ∈ rs, r.IsInsertion) (s : σ) :
    store.published ((batch rs).final store.answer s)
      = store.resulting rs ((batch rs).result store.answer s) (store.published s) := by
  have hconnected := store.published_connect s
  simp only [batch, Session.connected, final_ask, result_ask]
  rcases hc : store.answer .connect s with ⟨a, s1⟩
  rw [hc] at hconnected
  rcases a with e | u
  · exact hconnected
  · have h := store.published_transaction hrs s1
    rw [hconnected] at h
    simp only [final_bind, result_bind, final_ask, result_ask, final_done, result_done]
    rw [store.published_close, h]

end TransactionalStore

namespace Engine

variable {α : Type}

theorem insertMany_eq {e : Engine} {t : RecordType α} {m : Model} {as : List α}
    (he : e.config.atomicBatches = true) (hm : (e.describe t.toNamedDeclaration).1 = .ok m)
    (has : as ≠ []) :
    (e.insertMany t as).1 = match as.mapM fun a => m.insert (t.record a) with
      | .ok ss => connected (transaction (insertEach (ss.map Statement.request)))
      | .error fault => .done (.error fault) := by
  unfold insertMany onModel
  rcases hd : e.describe t.toNamedDeclaration with ⟨x, e'⟩
  rw [hd] at hm
  simp only at hm
  subst hm
  simp only [List.isEmpty_iff, has, if_neg, not_false_eq_true, he, if_pos, insertAtomically,
    List.mapM_map]
  rfl

theorem exists_requests {d : Declaration} {t : RecordType α} {m : Model} (hd : d.build = .ok m)
    {as : List α} {ss : List Statement}
    (hss : (as.mapM fun a => m.insert (t.record a)) = .ok ss) :
    ∃ rs, ss.mapM Statement.request = .ok rs := by
  refine Outcome.exists_mapM_eq_ok fun s hs => ?_
  obtain ⟨a, -, ha⟩ := Outcome.exists_of_mem_mapM hss s hs
  exact request_of_insert hd ha

theorem isInsertion_of_insert {m : Model} {record : Record} {s : Statement} {r : Request}
    (hs : m.insert record = .ok s) (hr : s.request = .ok r) : r.IsInsertion := by
  obtain ⟨-, -, rfl⟩ := Model.eq_of_insert hs
  exact ⟨_, _, _, hr⟩

/-- A batch in one transaction.  Nothing is sent if it is empty or has a record that its model
rejects.  Otherwise its requests are the texts of the insertions with the stored forms of their
values, it takes one of the courses of a batch, and is in the store as a whole or not at all. -/
theorem insertMany_atomic {e : Engine} {t : RecordType α} {m : Model} {d : Declaration}
    (he : e.config.atomicBatches = true) (hm : (e.describe t.toNamedDeclaration).1 = .ok m)
    (hd : d.build = .ok m) (as : List α) :
    (as = [] → (e.insertMany t as).1 = .done (Outcome.fail (.model t.typeName .emptyBatch))) ∧
    (∀ before a after fault, as = before ++ a :: after →
      (∀ b ∈ before, ∃ s, m.insert (t.record b) = .ok s) → m.insert (t.record a) = .error fault →
      (e.insertMany t as).1 = .done (.error fault)) ∧
    (as ≠ [] → (∀ a ∈ as, ∃ s, m.insert (t.record a) = .ok s) →
      ∃ ss rs, (as.mapM fun a => m.insert (t.record a)) = .ok ss ∧
        ss.mapM Statement.request = .ok rs ∧
        List.Forall₂ (fun s r => r.text = (s.serialize false).text ∧
          (s.serialize false).params.mapM Value.stored = .ok r.params) ss rs ∧
        (∀ {σ : Type} (answer : (c : Call) → σ → c.Answer × σ) (s : σ),
          Course rs ((e.insertMany t as).1.trace answer s)
            ((e.insertMany t as).1.result answer s) ∧
          Outcome.isOk ((e.insertMany t as).1.result answer s)
            = ((e.insertMany t as).1.trace answer s).all Exchange.succeeded) ∧
        ∀ {σ τ : Type} (store : TransactionalStore σ τ) (s : σ),
          store.published ((e.insertMany t as).1.final store.answer s)
            = store.resulting rs ((e.insertMany t as).1.result store.answer s)
              (store.published s)) := by
  refine ⟨?_, ?_, ?_⟩
  · rintro rfl
    rfl
  · intro before a after fault has hbefore ha
    have hne : as ≠ [] := by
      rw [has]
      simp
    have hfirst := Outcome.mapM_first_error (f := fun a => m.insert (t.record a)) ha after hbefore
    rw [insertMany_eq he hm hne, has, hfirst]
  · intro hne haccepted
    obtain ⟨ss, hss⟩ := Outcome.exists_mapM_eq_ok haccepted
    obtain ⟨rs, hrs⟩ := exists_requests hd hss
    have hinsertions : ∀ r ∈ rs, r.IsInsertion := by
      intro r hr
      obtain ⟨s, hs, hr⟩ := Outcome.exists_of_mem_mapM hrs r hr
      obtain ⟨a, -, ha⟩ := Outcome.exists_of_mem_mapM hss s hs
      exact isInsertion_of_insert ha hr
    have hbatch : (e.insertMany t as).1 = batch rs := by
      rw [insertMany_eq he hm hne, hss, batch, ← Outcome.map_of_mapM hrs]
    refine ⟨ss, rs, hss, hrs, (Outcome.forall₂_of_mapM hrs).imp fun _ _ => Statement.of_request,
      fun answer s => ?_, fun store s => ?_⟩
    · have hcourse := course_batch answer rs s
      rw [hbatch]
      exact ⟨hcourse, hcourse.isOk_iff⟩
    · rw [hbatch]
      exact store.published_batch hinsertions s

/-- The answers of a store that takes no request twice. -/
def ledgerAnswer : (c : Call) → List Request × Option (List Request) →
    c.Answer × List Request × Option (List Request)
  | .connect, s => (.ok (), s.1, none)
  | .execute r, s =>
    if r = commit then (.ok 0, s.1 ++ s.2.getD [], none)
    else (.ok 0, s.1, if r = begin then some [] else none)
  | .insert r, s =>
    if r ∈ s.1 ++ s.2.getD [] then
      (Outcome.fail (.backend (some r.text) ⟨"constraint failed", []⟩), s)
    else (.ok (Number.clamp .int64 (s.1 ++ s.2.getD []).length), s.1, s.2.map (· ++ [r]))
  | .query _, s => (.ok [], s)
  | .close, s => ((), s.1, none)

def ledger : TransactionalStore (List Request × Option (List Request)) (List Request) where
  answer := ledgerAnswer
  published s := s.1
  put rs r := rs ++ [r]
  pending s := s.2
  published_connect _ := rfl
  published_begin _ := rfl
  pending_begin _ _ _ := rfl
  published_insert s r rs _ _ := by
    simp only [ledgerAnswer]
    split_ifs <;> rfl
  pending_insert s r rs id _ hs hid := by
    simp only [ledgerAnswer] at hid ⊢
    split_ifs at hid ⊢
    · cases hid
    · rw [hs]
      rfl
  published_commit s rs n hs _ := by
    simp [ledgerAnswer, hs, ← List.flatMap_def]
  published_failed_commit s e he := by
    cases he
  published_rollback _ := rfl
  published_close _ := rfl

/-- Notes, as the values of their fields. -/
def noteType : RecordType Record where
  typeName := "Note"
  declaration := noteDeclaration
  blank := [.null, .null]
  record := id
  load c v r := .ok (r.set c.index v)

def noteRecord : Record := [.int .int64 (Number.one _), .text "why?"]

def noteInsert : Statement :=
  .insert "notes" ["id", "what\x22?"] noteRecord

def noteSession : Session (Outcome (List (Number .int64))) :=
  ((Engine.mk .standard []).insertMany noteType [noteRecord, noteRecord]).1

/-- The second of two equal notes is refused, and takes the first one with it. -/
theorem insertMany_atomic_notes :
    Outcome.isOk (noteSession.result ledgerAnswer ([], none)) = false ∧
    ledger.published (noteSession.final ledgerAnswer ([], none)) = [] ∧
    ∃ rs, Course rs (noteSession.trace ledgerAnswer ([], none))
      (noteSession.result ledgerAnswer ([], none)) := by
  have haccepted : ∀ a ∈ [noteRecord, noteRecord],
      ∃ s, notes.insert (noteType.record a) = .ok s := by
    intro a ha
    have hnote : a = noteRecord := by simpa using ha
    exact ⟨noteInsert, by rw [hnote]; decide +kernel⟩
  have h := insertMany_atomic (e := Engine.mk .standard []) (t := noteType) (m := notes)
    (d := noteDeclaration) rfl (by decide +kernel) (by decide +kernel) [noteRecord, noteRecord]
  obtain ⟨ss, rs, -, -, -, hcourse, hstore⟩ := h.2.2 (by simp) haccepted
  have hfailed : Outcome.isOk (noteSession.result ledgerAnswer ([], none)) = false := by
    decide +kernel
  refine ⟨hfailed, ?_, rs, (hcourse ledgerAnswer ([], none)).1⟩
  exact (hstore ledger ([], none)).trans (ledger.resulting_of_failed hfailed)

end Engine

end RecordMap
