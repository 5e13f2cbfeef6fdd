import RecordMap.Proofs.FirstBuilt

/-!
# Operations that send one statement

An action either makes a statement that can be sent or fails without a call (`act_of_request`,
`act_of_fault`).  An insertion opens its connection before the values are brought into stored form.
That cannot fail any more, as the model was built from a declaration and the values were checked
against it.
-/

namespace RecordMap

open Session Sql

variable {α β σ : Type}

namespace Action

def statement (config : Config) (t : RecordType α) (m : Model) : Action α → Outcome Statement
  | .createTable => m.createTable
  | .dropTable ifExists => .ok (m.dropTable ifExists)
  | .insert a => m.insert (t.record a)
  | .update a => m.update (t.record a)
  | .delete a => m.delete (t.record a)
  | .selectAll => .ok m.selectAll
  | .selectWhere f | .firstWhere f => m.selection config f

/-- What an action sends, or the fault for which it sends nothing. -/
def request (config : Config) (t : RecordType α) (m : Model) (a : Action α) : Outcome Request :=
  (a.statement config t m).bind Statement.request

/-- The call that sends the statement of an action. -/
def call (r : Request) : Action α → Call
  | .insert _ => .insert r
  | .selectAll | .selectWhere _ | .firstWhere _ => .query r
  | .createTable | .dropTable _ | .update _ | .delete _ => .execute r

/-- What an action makes of the answer. -/
def finish (t : RecordType α) (m : Model) (r : Request) :
    (a : Action α) → (a.call r).Answer → Outcome a.Result
  | .createTable, x | .dropTable _, x => Except.map (fun _ => ()) x
  | .insert _, x => x
  | .update _, x | .delete _, x => Except.map (fun n => decide (0 < n)) x
  | .selectAll, x | .selectWhere _, x => Except.bind x fun rows => rows.mapM (t.ofRow m)
  | .firstWhere _, x =>
    (Except.bind x fun rows => rows.mapM (t.ofRow m)).map List.head?

end Action

/-- The fault with which the store answered a call. -/
def Exchange.fault? : Exchange → Option Fault
  | ⟨.connect, .error e⟩ | ⟨.execute _, .error e⟩ | ⟨.insert _, .error e⟩
  | ⟨.query _, .error e⟩ => some e
  | _ => none

/-- The rows that the store answered a call with. -/
def Exchange.rows : Exchange → List Row
  | ⟨.query _, .ok rows⟩ => rows
  | _ => []

/-- What passes between the store and an action that has something to send, and what the action
comes to. -/
inductive Action.Course (t : RecordType α) (m : Model) (r : Request) (a : Action α) :
    List Exchange → Outcome a.Result → Prop
  | unconnected (e : Fault) : Course t m r a [⟨.connect, .error e⟩] (.error e)
  | sent (reply : (a.call r).Answer) :
    Course t m r a [⟨.connect, .ok ()⟩, ⟨a.call r, reply⟩, ⟨.close, ()⟩] (a.finish t m r reply)

/-- An action that was sent fails if the call did, or for the first row that is no value. -/
theorem Action.finish_eq_error_iff (t : RecordType α) (m : Model) (r : Request) (a : Action α)
    (reply : (a.call r).Answer) (fault : Fault) :
    a.finish t m r reply = .error fault ↔
      Exchange.fault? ⟨a.call r, reply⟩ = some fault ∨
      ∃ before row after, Exchange.rows ⟨a.call r, reply⟩ = before ++ row :: after ∧
        (∀ b ∈ before, ∃ x, t.ofRow m b = .ok x) ∧ t.ofRow m row = .error fault := by
  rw [← Outcome.mapM_eq_error_iff]
  have hnone : ¬[].mapM (t.ofRow m) = .error fault := nofun
  have hsome : ∀ {β : Type} (e : Fault), (.error e : Outcome β) = .error fault ↔
      some e = some fault := by
    simp
  cases a with
  | selectAll | selectWhere f =>
    rcases reply with e | rows
    · exact (hsome e).trans (or_iff_left hnone).symm
    · exact (or_iff_right nofun).symm
  | firstWhere f =>
    rcases reply with e | rows
    · exact (hsome e).trans (or_iff_left hnone).symm
    · rw [show Exchange.rows ⟨call r (.firstWhere f), .ok rows⟩ = rows from rfl]
      rcases hrows : rows.mapM (t.ofRow m) with e | as <;>
        simp [finish, Exchange.fault?, call, Except.bind, Except.map, hrows]
  | createTable | dropTable b | insert a | update a | delete a =>
    rcases reply with e | x
    · exact (hsome e).trans (or_iff_left hnone).symm
    · exact iff_of_false nofun (not_or.2 ⟨nofun, hnone⟩)

namespace Session

/-- One call on a connection of its own. -/
def single (c : Call) (finish : c.Answer → Outcome β) : Session (Outcome β) :=
  .ask .connect fun
    | .error e => .done (.error e)
    | .ok () => .ask c fun x => .ask .close fun () => .done (finish x)

theorem connected_ask (c : Call) (finish : c.Answer → Outcome β) :
    connected (.ask c fun x => .done (finish x)) = single c finish := by
  unfold connected single
  congr 1

theorem single_andThen {γ : Type} (c : Call) (finish : c.Answer → Outcome β) (f : β → Outcome γ) :
    ((single c finish).andThen fun b => .done (f b)) = single c fun x => (finish x).bind f := by
  simp only [single, andThen, Session.bind]
  congr 1
  funext x
  rcases x with e | u
  · rfl
  · simp only [Session.bind]
    congr 2
    funext x
    rcases finish x with e | b <;> rfl

end Session

namespace Engine

variable {e : Engine} {m : Model} {d : Declaration} {r : Request} {t : RecordType α}

theorem onModel_of_fault {d : NamedDeclaration} {fault : Fault}
    (h : (e.describe d).1 = .error fault) (operation : Model → Session (Outcome β)) :
    (e.onModel d operation).1 = .done (.error fault) := by
  unfold onModel
  rcases hd : e.describe d with ⟨x, e'⟩
  rw [hd] at h
  cases h
  rfl

theorem onModel_of_describe {d : NamedDeclaration} (hm : (e.describe d).1 = .ok m)
    (operation : Model → Session (Outcome β)) : (e.onModel d operation).1 = operation m := by
  unfold onModel
  rcases h : e.describe d with ⟨x, e'⟩
  rw [h] at hm
  cases hm
  rfl

section Statement

variable {s : Outcome Statement} {fault : Fault}

theorem sendStatement_of_request (h : s.bind Statement.request = .ok r) (f : Nat → β) :
    ((sendStatement s).andThen fun n => .done (.ok (f n)))
      = single (.execute r) (Except.map f) := by
  rw [sendStatement, h, send]
  exact (congrArg (andThen · _) (connected_ask (.execute r) fun x => x)).trans
    (single_andThen (.execute r) (fun x => x) _)

theorem sendStatement_of_fault (h : s.bind Statement.request = .error fault)
    (f : Nat → Session (Outcome β)) : (sendStatement s).andThen f = .done (.error fault) := by
  rw [sendStatement, h]
  rfl

theorem selectRows_of_request (h : s.bind Statement.request = .ok r) :
    selectRows t m s
      = single (.query r) fun x => Except.bind x fun rows => rows.mapM (t.ofRow m) := by
  rw [selectRows, h, send]
  exact (congrArg (andThen · _) (connected_ask (.query r) fun x => x)).trans
    (single_andThen (.query r) (fun x => x) _)

theorem selectRows_of_fault (h : s.bind Statement.request = .error fault) :
    selectRows t m s = .done (.error fault) := by
  rw [selectRows, h]
  rfl

end Statement

theorem firstWhere_eq (e : Engine) (t : RecordType α) (f : Filter) :
    (e.firstWhere t f).1 = (e.selectWhere t f).1.andThen fun as => .done (.ok as.head?) := rfl

theorem exists_statement {config : Config} {a : Action α} (h : a.request config t m = .ok r) :
    ∃ s, a.statement config t m = .ok s ∧ s.request = .ok r :=
  Outcome.bind_eq_ok h

/-- An action that has something to send makes one call. -/
theorem act_of_request {a : Action α} (hm : (e.describe t.toNamedDeclaration).1 = .ok m)
    (h : a.request e.config t m = .ok r) : (e.act t a).1 = single (a.call r) (a.finish t m r) := by
  cases a with
  | createTable | dropTable ifExists | update a | delete a =>
    exact (onModel_of_describe hm _).trans (sendStatement_of_request h _)
  | insert a =>
    obtain ⟨s, hs, hr⟩ := exists_statement h
    refine (onModel_of_describe hm _).trans ?_
    rw [show m.insert (t.record a) = .ok s from hs]
    simp only [hr, insertOne]
    exact connected_ask (.insert r) fun x => x
  | selectAll | selectWhere f =>
    exact (onModel_of_describe hm _).trans (selectRows_of_request h)
  | firstWhere f =>
    have hselect : (e.selectWhere t f).1 = single (.query r) _ :=
      (onModel_of_describe hm _).trans (selectRows_of_request h)
    refine (firstWhere_eq e t f).trans ?_
    rw [hselect]
    exact single_andThen _ _ _

/-- An action that has nothing to send calls nothing. -/
theorem act_of_fault {d : Declaration} (hd : d.build = .ok m) {a : Action α} {fault : Fault}
    (hm : (e.describe t.toNamedDeclaration).1 = .ok m)
    (h : a.request e.config t m = .error fault) : (e.act t a).1 = .done (.error fault) := by
  cases a with
  | createTable | dropTable ifExists | update a | delete a =>
    exact (onModel_of_describe hm _).trans (sendStatement_of_fault h _)
  | insert a =>
    refine (onModel_of_describe hm _).trans ?_
    rcases hs : m.insert (t.record a) with f | s
    · rw [Action.request, Action.statement, hs] at h
      cases h
      rfl
    · obtain ⟨r, hr⟩ := request_of_insert hd hs
      rw [Action.request, Action.statement, hs] at h
      exact absurd (hr.symm.trans h) nofun
  | selectAll | selectWhere f =>
    exact (onModel_of_describe hm _).trans (selectRows_of_fault h)
  | firstWhere f =>
    have hselect : (e.selectWhere t f).1 = .done (.error fault) :=
      (onModel_of_describe hm _).trans (selectRows_of_fault h)
    refine (firstWhere_eq e t f).trans ?_
    rw [hselect]
    rfl

end Engine

theorem Action.course_single (t : RecordType α) (m : Model) (r : Request) (a : Action α)
    (answer : (c : Call) → σ → c.Answer × σ) (st : σ) :
    a.Course t m r ((single (a.call r) (a.finish t m r)).trace answer st)
      ((single (a.call r) (a.finish t m r)).result answer st) := by
  simp only [single, trace_ask, result_ask]
  rcases answer .connect st with ⟨x, st'⟩
  rcases x with e | u
  · exact .unconnected e
  · exact .sent (answer (a.call r) st').1

theorem Sql.Statement.request_eq_error {s : Statement} {fault : Fault}
    (h : (s.serialize false).params.mapM Value.stored = .error fault) :
    s.request = .error fault := by
  simp only [request, h]
  rfl

namespace World

variable {config : Config} {names : List String} {declared : String → Declaration} {w₀ w : World}

/-- Every model that an operation has was built from a declaration. -/
theorem exists_build_of_describe (h : build config names declared = .ok w₀) (events : List Event)
    {d : NamedDeclaration} {m : Model}
    (hm : ((w₀.after events).engine.describe d).1 = .ok m) :
    ∃ d' : Declaration, d'.build = .ok m := by
  have hbuilt : ∃ d' : NamedDeclaration, d'.build = .ok m := by
    rcases hmodel : (w₀.after events).engine.model? d.typeName with _ | m'
    · rcases hd : d.build with fault | m'
      · rw [Engine.describe_of_fault hmodel hd] at hm
        cases hm
      · rw [Engine.describe_of_build hmodel hd] at hm
        exact ⟨d, hd.trans hm⟩
    · rw [Engine.describe_of_model? hmodel] at hm
      cases hm
      rw [(engine_after h events).2] at hmodel
      obtain ⟨d', -, -, hd'⟩ := exists_of_firstBuilt hmodel
      exact ⟨d', hd'⟩
  obtain ⟨d', hd'⟩ := hbuilt
  refine ⟨d'.declaration, ?_⟩
  rw [NamedDeclaration.build, Outcome.during] at hd'
  rcases hm' : d'.declaration.build with fault | m' <;> rw [hm'] at hd' <;> cases hd'
  rfl

/-- An action at any time.  It makes no call if its type cannot be described, or its statement not
be made, or a parameter has no stored form; which of them, and with what fault, the store has no say
in.  Otherwise it sends the one statement on a connection of its own, and fails only if a call does
or a row is no value of the type. -/
theorem perform_act (h : build config names declared = .ok w₀) (events : List Event)
    (hw : w = w₀.after events) (t : RecordType α) :
    (∀ a : Action α,
      (∀ fault, (w.engine.describe (w.named t.typeName)).1 = .error fault →
        (w.perform t (.act a)).1 = .done (.error fault)) ∧
      ∀ m, (w.engine.describe (w.named t.typeName)).1 = .ok m →
        (∀ fault, a.statement config t m = .error fault →
          (w.perform t (.act a)).1 = .done (.error fault)) ∧
        ∀ s, a.statement config t m = .ok s →
          (∀ fault, (s.serialize false).params.mapM Value.stored = .error fault →
            (w.perform t (.act a)).1 = .done (.error fault)) ∧
          ∀ params, (s.serialize false).params.mapM Value.stored = .ok params →
            ∀ {σ : Type} (answer : (c : Call) → σ → c.Answer × σ) (st : σ),
              a.Course t m ⟨(s.serialize false).text, params⟩
                ((w.perform t (.act a)).1.trace answer st)
                ((w.perform t (.act a)).1.result answer st)) ∧
    (∀ (a : Action α) m r reply fault, a.finish t m r reply = .error fault ↔
      Exchange.fault? ⟨a.call r, reply⟩ = some fault ∨
      ∃ before row after, Exchange.rows ⟨a.call r, reply⟩ = before ++ row :: after ∧
        (∀ b ∈ before, ∃ x, t.ofRow m b = .ok x) ∧ t.ofRow m row = .error fault) ∧
    ∀ f, ∃ x, (w.perform t (.selectStatement f)).1 = .done x := by
  have hconfig : w.engine.config = config := hw ▸ (engine_after h events).1
  refine ⟨fun a => ⟨fun fault hfault => ?_, fun m hm => ?_⟩,
    fun a m r reply fault => a.finish_eq_error_iff t m r reply fault, fun f => ⟨_, rfl⟩⟩
  · rcases hd : w.engine.describe (w.named t.typeName) with ⟨x, e⟩
    rw [hd] at hfault
    cases hfault
    rw [perform, Engine.perform_of_fault (t := w.current t) rfl hd]
  · obtain ⟨d, hd⟩ := exists_build_of_describe h events (hw ▸ hm)
    have hfails : ∀ fault, a.request config t m = .error fault →
        (w.perform t (.act a)).1 = .done (.error fault) := by
      intro fault hfault
      refine Engine.act_of_fault (t := w.current t) hd hm ?_
      rw [hconfig]
      exact hfault
    refine ⟨fun fault hfault => hfails fault ?_, fun s hs => ⟨fun fault hfault => hfails fault ?_,
      fun params hparams σ answer st => ?_⟩⟩
    · rw [Action.request, hfault]
      rfl
    · rw [Action.request, hs]
      exact Statement.request_eq_error hfault
    · obtain ⟨r, hr⟩ : ∃ r : Request, r = ⟨(s.serialize false).text, params⟩ := ⟨_, rfl⟩
      have hrequest : a.request w.engine.config (w.current t) m = .ok r := by
        rw [hconfig, Action.request, show a.statement config (w.current t) m = .ok s from hs, hr]
        exact Statement.request_eq_ok hparams
      have hsingle : (w.perform t (.act a)).1 = single (a.call r) (a.finish t m r) :=
        Engine.act_of_request (t := w.current t) hm hrequest
      rw [hsingle, ← hr]
      exact a.course_single t m r answer st

def noteRequest : Request where
  text := "INSERT INTO notes (id, \x22what\x22\x22?\x22) VALUES (?, ?);"
  params := [.integer (Number.one _), .text "why?"]

/-- A note is sent on a connection of its own, and a note without values is not. -/
theorem perform_act_notes :
    (Action.insert Engine.noteRecord).Course Engine.noteType notes noteRequest
      (((keylessWorld.after noteEvents).perform Engine.noteType
        (.act (.insert Engine.noteRecord))).1.trace Engine.ledgerAnswer ([], none))
      (((keylessWorld.after noteEvents).perform Engine.noteType
        (.act (.insert Engine.noteRecord))).1.result Engine.ledgerAnswer ([], none)) ∧
    ∃ fault, ((keylessWorld.after noteEvents).perform Engine.noteType (.act (.insert []))).1
      = .done (.error fault) := by
  have hm : ((keylessWorld.after noteEvents).engine.describe
      ((keylessWorld.after noteEvents).named Engine.noteType.typeName)).1 = .ok notes := by
    decide +kernel
  have hbuild : build .standard [] (fun _ => keylessDeclaration) = .ok keylessWorld := rfl
  have h := perform_act hbuild noteEvents rfl Engine.noteType
  refine ⟨?_, ?_⟩
  · have hnote := (h.1 (.insert Engine.noteRecord)).2 notes hm
    exact (hnote.2 Engine.noteInsert (by decide +kernel)).2 noteRequest.params (by decide +kernel)
      _ _
  · have hempty := (h.1 (.insert [])).2 notes hm
    have hrejected : Outcome.isOk (notes.insert []) = false := by decide +kernel
    rcases hs : notes.insert [] with fault | s
    · exact ⟨fault, hempty.1 fault hs⟩
    · rw [hs] at hrejected
      cases hrejected

end World

end RecordMap
