import RecordMap.Proofs.Batch
import RecordMap.World

/-!
# The models that an engine remembers

An operation asks for the model of its type as the type is declared at that time.  The model is that
of the first declaration asked for that could be built, through whatever handle (`model?_after`).
So it stays what it is when the type is declared anew, and a type that could not be built is tried
again.
-/

namespace RecordMap

variable {α : Type}

/-- Whether the operation needs the model of its type. -/
def Operation.asks : Operation α → Bool
  | .insertMany as => !as.isEmpty
  | _ => true

/-- The model of the first declaration of a type that can be built. -/
def firstBuilt (typeName : String) (ds : List NamedDeclaration) : Option Model :=
  ds.findSome? fun d => if d.typeName = typeName then d.build.toOption else none

theorem firstBuilt_append (typeName : String) (ds ds' : List NamedDeclaration) :
    firstBuilt typeName (ds ++ ds') = (firstBuilt typeName ds).or (firstBuilt typeName ds') :=
  List.findSome?_append

theorem exists_of_firstBuilt {typeName : String} {ds : List NamedDeclaration} {m : Model}
    (h : firstBuilt typeName ds = some m) :
    ∃ d ∈ ds, d.typeName = typeName ∧ d.build = .ok m := by
  obtain ⟨d, hd, h⟩ := List.exists_of_findSome?_eq_some h
  split_ifs at h with hname
  rcases hbuild : d.build with e | m' <;> rw [hbuild] at h
  · cases h
  · cases h
    exact ⟨d, hd, hname, hbuild⟩

namespace Engine

variable {e e' : Engine} {d : NamedDeclaration} {m : Model}

/-- An engine that has met one type. -/
def knowing (config : Config) (typeName : String) (m : Model) : Engine :=
  ⟨config, [(typeName, m)]⟩

theorem model?_remember (e : Engine) (typeName name : String) (m : Model) :
    (e.remember typeName m).model? name = if typeName = name then some m else e.model? name := by
  simp only [remember, model?, List.find?_cons]
  split_ifs with h <;> simp [h]

theorem describe_of_model? (h : e.model? d.typeName = some m) : e.describe d = (.ok m, e) := by
  simp only [describe, h]

theorem describe_of_build (h : e.model? d.typeName = none) (hm : d.build = .ok m) :
    e.describe d = (.ok m, e.remember d.typeName m) := by
  simp only [describe, h, hm]

theorem describe_of_fault {fault : Fault} (h : e.model? d.typeName = none)
    (hd : d.build = .error fault) : e.describe d = (.error fault, e) := by
  simp only [describe, h, hd]

theorem config_describe (e : Engine) (d : NamedDeclaration) :
    (e.describe d).2.config = e.config := by
  unfold describe
  split
  · rfl
  · split <;> rfl

theorem model?_describe (e : Engine) (d : NamedDeclaration) (name : String) :
    (e.describe d).2.model? name = (e.model? name).or (firstBuilt name [d]) := by
  simp only [firstBuilt, List.findSome?_singleton]
  rcases hmodel : e.model? d.typeName with _ | m
  · rcases hd : d.build with fault | m
    · rw [describe_of_fault hmodel hd]
      split_ifs <;> simp [Except.toOption]
    · rw [describe_of_build hmodel hd, model?_remember]
      split_ifs with hname
      · rw [← hname, hmodel]
        rfl
      · rw [Option.or_none]
  · rw [describe_of_model? hmodel]
    split_ifs with hname
    · rw [← hname, hmodel, Option.some_or]
    · rw [Option.or_none]

theorem firstBuilt_singleton (d : NamedDeclaration) :
    firstBuilt d.typeName [d] = d.build.toOption := by
  rw [firstBuilt, List.findSome?_singleton, if_pos rfl]

theorem describe_of_first (h : (e.model? d.typeName).or (firstBuilt d.typeName [d]) = some m) :
    (e.describe d).1 = .ok m := by
  rw [firstBuilt_singleton] at h
  rcases hmodel : e.model? d.typeName with _ | m' <;> rw [hmodel] at h
  · rcases hd : d.build with fault | m' <;> rw [hd] at h <;> cases h
    rw [describe_of_build hmodel hd]
  · cases h
    rw [describe_of_model? hmodel]

theorem describe_of_none (h : (e.model? d.typeName).or (firstBuilt d.typeName [d]) = none) :
    ∃ fault, d.build = .error fault ∧ e.describe d = (.error fault, e) := by
  rw [firstBuilt_singleton] at h
  rcases hmodel : e.model? d.typeName with _ | m <;> rw [hmodel] at h
  · rcases hd : d.build with fault | m <;> rw [hd] at h <;> cases h
    exact ⟨fault, rfl, describe_of_fault hmodel hd⟩
  · cases h

/-- The settings do not matter to the model of a type. -/
theorem describe_configured (e : Engine) (config : Config) (d : NamedDeclaration) :
    (({ e with config := config } : Engine).describe d).1 = (e.describe d).1 := by
  unfold describe
  rw [show ({ e with config := config } : Engine).model? d.typeName = e.model? d.typeName from rfl]
  split
  · rfl
  · split <;> rfl

theorem describe_knowing (config : Config) (d : NamedDeclaration) (m : Model) :
    (knowing config d.typeName m).describe d = (.ok m, knowing config d.typeName m) :=
  describe_of_model? (by simp [knowing, model?])

/-- An operation takes its type's model from the engine, so what the type declares does not matter
to it. -/
theorem perform_of_model {t : RecordType α} {op : Operation α} (hop : op.asks = true)
    (h : e.describe t.toNamedDeclaration = (.ok m, e')) (d : Declaration) :
    e.perform t op
      = (((knowing e.config t.typeName m).perform { t with declaration := d } op).1, e') := by
  have hmodel := describe_knowing e.config ⟨t.typeName, d⟩ m
  have hconfig : e'.config = e.config := by rw [← config_describe e t.toNamedDeclaration, h]
  have hknown : (knowing e.config t.typeName m).config = e.config := rfl
  generalize knowing e.config t.typeName m = k at hmodel hknown ⊢
  cases op with
  | describe => simp only [perform, h, hmodel]
  | selectStatement f =>
    simp only [perform, selectStatement, h, hmodel, hconfig, hknown]
  | insertMany as =>
    simp only [Operation.asks, Bool.not_eq_true'] at hop
    simp only [perform, insertMany, hop, onModel, h, hmodel, hknown, Bool.false_eq_true, if_false]
    rfl
  | act a =>
    cases a <;> simp only [perform, act, createTable, dropTable, insert, update, delete, selectAll,
      firstWhere, selectWhere, onModel, h, hmodel, hknown] <;> rfl

theorem perform_of_fault {t : RecordType α} {op : Operation α} {fault : Fault}
    (hop : op.asks = true) (h : e.describe t.toNamedDeclaration = (.error fault, e')) :
    e.perform t op = (.done (.error fault), e') := by
  cases op with
  | describe =>
    simp only [perform, h]
    rfl
  | selectStatement f =>
    simp only [perform, selectStatement, h]
    rfl
  | insertMany as =>
    simp only [Operation.asks, Bool.not_eq_true'] at hop
    simp only [perform, insertMany, hop, onModel, h, Bool.false_eq_true, if_false]
    rfl
  | act a =>
    cases a <;> simp only [perform, act, createTable, dropTable, insert, update, delete, selectAll,
      firstWhere, selectWhere, onModel, h] <;> rfl

theorem perform_of_not_asks {t : RecordType α} {op : Operation α} (hop : op.asks = false) :
    (e.perform t op).2 = e := by
  cases op with
  | insertMany as =>
    simp only [Operation.asks, Bool.not_eq_false'] at hop
    simp only [perform, insertMany, hop, if_true]
  | describe | selectStatement _ | act _ => cases hop

/-- All that an operation does to the engine is to ask for a model. -/
theorem perform_snd (e : Engine) (t : RecordType α) {op : Operation α} (hop : op.asks = true) :
    (e.perform t op).2 = (e.describe t.toNamedDeclaration).2 := by
  rcases h : e.describe t.toNamedDeclaration with ⟨fault | m, e'⟩
  · rw [perform_of_fault hop h]
  · rw [perform_of_model hop h t.declaration]

/-- The types as they are declared when an engine is built. -/
def declarations (names : List String) (declared : String → Declaration) :
    List NamedDeclaration :=
  names.map fun name => ⟨name, declared name⟩

theorem foldlM_register_ok {d : NamedDeclaration} {m : Model} (h : d.build = .ok m)
    (ds : List NamedDeclaration) (e : Engine) :
    (d :: ds).foldlM register e = ds.foldlM register (e.remember d.typeName m) := by
  rw [List.foldlM_cons, register, h]
  rfl

theorem foldlM_register_error {d : NamedDeclaration} {fault : Fault} (h : d.build = .error fault)
    (ds : List NamedDeclaration) (e : Engine) :
    (d :: ds).foldlM register e = .error fault := by
  rw [List.foldlM_cons, register, h]
  rfl

/-- An engine cannot be built for the reason that a type cannot. -/
theorem foldlM_register_eq_error_iff {fault : Fault} : ∀ {ds : List NamedDeclaration} {e : Engine},
    ds.foldlM register e = .error fault ↔ ds.mapM NamedDeclaration.build = .error fault
  | [], _ => by
    constructor <;>
    · intro h
      cases h
  | d :: ds, e => by
    rcases hd : d.build with f | m
    · rw [foldlM_register_error hd, Outcome.mapM_cons_error hd]
      simp only [Except.error.injEq]
    · rw [foldlM_register_ok hd, Outcome.mapM_cons_ok hd, foldlM_register_eq_error_iff]
      rcases ds.mapM NamedDeclaration.build with f | ms <;>
        simp only [Except.map, Except.error.injEq, reduceCtorEq]

/-- A type that is registered twice has the same model twice. -/
theorem model?_foldlM_register {declared : String → Declaration} (name : String) :
    ∀ {names : List String} {e₀ e : Engine},
      (declarations names declared).foldlM register e₀ = .ok e →
      e.config = e₀.config ∧
        e.model? name = (firstBuilt name (declarations names declared)).or (e₀.model? name)
  | [], _, _, h => by
    cases h
    exact ⟨rfl, rfl⟩
  | n :: names, e₀, e, h => by
    rw [declarations, List.map_cons] at h ⊢
    rcases hd : NamedDeclaration.build ⟨n, declared n⟩ with fault | m
    · rw [foldlM_register_error hd] at h
      cases h
    rw [foldlM_register_ok hd] at h
    obtain ⟨hconfig, hmodel⟩ := model?_foldlM_register name h
    refine ⟨hconfig, ?_⟩
    rw [hmodel, model?_remember, ← List.singleton_append, firstBuilt_append]
    rcases hrest : firstBuilt name (declarations names declared) with _ | m'
    all_goals
      rw [declarations] at hrest
      simp only [firstBuilt, List.findSome?_singleton, hd]
      rw [← firstBuilt, hrest]
      split_ifs with hname
    · rfl
    · rfl
    · obtain ⟨d, hmem, hdname, hbuild⟩ := exists_of_firstBuilt hrest
      obtain ⟨n', -, rfl⟩ := List.mem_map.1 hmem
      cases hname.trans hdname.symm
      rw [hd] at hbuild
      cases hbuild
      rfl
    · rfl

theorem model?_build {config : Config} {names : List String} {declared : String → Declaration}
    {e : Engine} (h : build config (declarations names declared) = .ok e) (name : String) :
    e.config = config ∧ e.model? name = firstBuilt name (declarations names declared) := by
  obtain ⟨hconfig, hmodel⟩ := model?_foldlM_register name h
  refine ⟨hconfig, hmodel.trans ?_⟩
  rw [show model? ⟨config, []⟩ name = none from rfl, Option.or_none]

end Engine

namespace World

/-- The declaration that an event asks the engine for the model of, if it asks for one. -/
def asked (w : World) : Event → List NamedDeclaration
  | .perform handle t op =>
    if w.hasHandle handle && op.asks then [w.named t.typeName] else []
  | _ => []

/-- The declarations that the engine is asked for the models of, in their order. -/
def asks (w : World) : List Event → List NamedDeclaration
  | [] => []
  | event :: events => w.asked event ++ (w.step event).asks events

theorem model?_step (w : World) (event : Event) (name : String) :
    (w.step event).engine.model? name
      = (w.engine.model? name).or (firstBuilt name (w.asked event)) := by
  have hnone : (w.engine.model? name).or (firstBuilt name []) = w.engine.model? name :=
    Option.or_none
  cases event with
  | clone handle =>
    simp only [step, asked, hnone]
    split_ifs <;> rfl
  | declare typeName d => exact hnone.symm
  | perform handle t op =>
    rw [step, asked]
    rcases hop : op.asks with _ | _
    · rw [Bool.and_false, if_neg Bool.false_ne_true, hnone]
      split_ifs
      · rw [perform, Engine.perform_of_not_asks hop]
      · rfl
    · rw [Bool.and_true]
      split_ifs
      · rw [perform, Engine.perform_snd _ _ hop, Engine.model?_describe]
        rfl
      · exact hnone.symm

theorem config_step (w : World) (event : Event) :
    (w.step event).engine.config = w.engine.config := by
  cases event with
  | clone handle =>
    rw [step]
    split_ifs <;> rfl
  | declare typeName d => rfl
  | perform handle t op =>
    rw [step]
    split_ifs
    · rcases hop : op.asks with _ | _
      · rw [perform, Engine.perform_of_not_asks hop]
      · rw [perform, Engine.perform_snd _ _ hop, Engine.config_describe]
    · rfl

theorem config_after : ∀ (w : World) (events : List Event),
    (w.after events).engine.config = w.engine.config
  | _, [] => rfl
  | w, event :: events => (config_after (w.step event) events).trans (config_step w event)

/-- What an engine remembers it does not forget, and it comes to remember the first model of a type
that can be built. -/
theorem model?_after : ∀ (w : World) (events : List Event) (name : String),
    (w.after events).engine.model? name
      = (w.engine.model? name).or (firstBuilt name (w.asks events))
  | _, [], _ => Option.or_none.symm
  | w, event :: events, name => by
    rw [asks, firstBuilt_append, ← Option.or_assoc, ← model?_step]
    exact model?_after (w.step event) events name

theorem build_eq_error_iff {config : Config} {names : List String}
    {declared : String → Declaration} {fault : Fault} :
    build config names declared = .error fault ↔
      (Engine.declarations names declared).mapM NamedDeclaration.build = .error fault := by
  rw [← Engine.foldlM_register_eq_error_iff (e := ⟨config, []⟩), build, Engine.build,
    Engine.declarations]
  rcases List.foldlM Engine.register _ _ with f | e <;>
    simp only [Except.map, Except.error.injEq, reduceCtorEq]

/-- What the engine remembers at any time. -/
theorem engine_after {config : Config} {names : List String} {declared : String → Declaration}
    {w : World} (h : build config names declared = .ok w) (events : List Event) :
    (w.after events).engine.config = config ∧
      ∀ name, (w.after events).engine.model? name
        = firstBuilt name (Engine.declarations names declared ++ w.asks events) := by
  rw [build] at h
  rcases hengine : Engine.build config (names.map fun n => ⟨n, declared n⟩) with fault | e <;>
    rw [hengine] at h <;> cases h
  refine ⟨(config_after _ events).trans (Engine.model?_build hengine "").1, fun name => ?_⟩
  rw [model?_after, firstBuilt_append, ← (Engine.model?_build hengine name).2]

/-- Which model an operation has, at any time and through any handle: that of the first declaration
of its type that could be built, among those with which the engine was built and those in force when
a model of the type was asked for.  The engine keeps it then, whatever happens.  An operation whose
type cannot be built as it is declared now fails, and leaves nothing behind. -/
theorem perform_first_built (config : Config) (names : List String)
    (declared : String → Declaration) :
    (∀ fault, build config names declared = .error fault ↔
      ∃ before name after, names = before ++ name :: after ∧
        (∀ n ∈ before, ∃ m, NamedDeclaration.build ⟨n, declared n⟩ = .ok m) ∧
        NamedDeclaration.build ⟨name, declared name⟩ = .error fault) ∧
    ∀ w₀, build config names declared = .ok w₀ →
      ∀ (events : List Event) (w : World), w = w₀.after events →
      ∀ {α : Type} (handle : Nat) (t : RecordType α), w.hasHandle handle = true →
        (w.perform t (.insertMany [])).1
            = .done (Outcome.fail (.model t.typeName .emptyBatch)) ∧
        w.step (.perform handle t (.insertMany [])) = w ∧
        ∀ op : Operation α, op.asks = true →
          match firstBuilt t.typeName
              (Engine.declarations names declared ++ w₀.asks events ++ [w.named t.typeName]) with
          | some m =>
            (w.perform t op).1 = ((Engine.knowing config t.typeName m).perform t op).1 ∧
            ∀ later, ((w.step (.perform handle t op)).after later).engine.model? t.typeName = some m
          | none =>
            ∃ fault, (w.named t.typeName).build = .error fault ∧
              (w.perform t op).1 = .done (.error fault) ∧ w.step (.perform handle t op) = w := by
  refine ⟨fun fault => ?_, ?_⟩
  · rw [build_eq_error_iff, Engine.declarations, List.mapM_map, Outcome.mapM_eq_error_iff]
    rfl
  · rintro w₀ hbuild events w hw α handle t hhandle
    obtain ⟨hconfig, hmodel⟩ := engine_after hbuild events
    rw [← hw] at hconfig hmodel
    refine ⟨rfl, ?_, fun op hop => ?_⟩
    · rw [step, if_pos hhandle]
      rfl
    have hstep : w.step (.perform handle t op) = (w.perform t op).2 := by
      rw [step, if_pos hhandle]
    have hasked : w.asked (.perform handle t op) = [w.named t.typeName] := by
      rw [asked, hhandle, hop]
      rfl
    rw [firstBuilt_append, ← hmodel]
    split
    · rename_i m hm
      refine ⟨?_, fun later => ?_⟩
      · rcases hd : w.engine.describe (w.named t.typeName) with ⟨x, e⟩
        have hx := Engine.describe_of_first (d := w.named t.typeName) hm
        rw [hd] at hx
        cases hx
        rw [perform, Engine.perform_of_model hop hd t.declaration, hconfig]
        rfl
      · rw [model?_after, model?_step, hasked, hm, Option.some_or]
    · rename_i hnone
      obtain ⟨fault, hfault, hd⟩ := Engine.describe_of_none (d := w.named t.typeName) hnone
      have hperform := Engine.perform_of_fault (t := w.current t) hop hd
      refine ⟨fault, hfault, ?_, ?_⟩
      · rw [perform, hperform]
      · rw [hstep, perform, hperform]

/-- The notes without their key. -/
def keylessDeclaration : Declaration :=
  { noteDeclaration with fields := noteDeclaration.fields.map fun f => { f with key := none } }

/-- An engine that has met no type, in a program that declares its types without a key. -/
def keylessWorld : World := ⟨⟨.standard, []⟩, 0, fun _ => keylessDeclaration⟩

def noteEvents : List Event :=
  [.perform 0 Engine.noteType .describe, .declare "Note" noteDeclaration, .clone 0,
    .perform 1 Engine.noteType (.act .createTable), .declare "Note" keylessDeclaration]

/-- Notes cannot be described without a key, but have been asked for while they had one. -/
theorem perform_first_built_notes :
    build .standard [] (fun _ => keylessDeclaration) = .ok keylessWorld ∧
    (keylessWorld.after noteEvents).declared "Note" = keylessDeclaration ∧
    ((keylessWorld.after noteEvents).perform Engine.noteType (.act .selectAll)).1
      = ((Engine.knowing .standard "Note" notes).perform Engine.noteType (.act .selectAll)).1 := by
  have hbuild : build .standard [] (fun _ => keylessDeclaration) = .ok keylessWorld := rfl
  have hnotes : firstBuilt Engine.noteType.typeName
      (Engine.declarations [] (fun _ => keylessDeclaration) ++ keylessWorld.asks noteEvents
        ++ [(keylessWorld.after noteEvents).named Engine.noteType.typeName]) = some notes := by
    decide +kernel
  have h := perform_first_built .standard [] fun _ => keylessDeclaration
  obtain ⟨-, -, h⟩ := h.2 keylessWorld hbuild noteEvents _ rfl 1 Engine.noteType rfl
  have hfirst := h (.act .selectAll) rfl
  rw [hnotes] at hfirst
  exact ⟨hbuild, rfl, hfirst.1⟩

end World

end RecordMap
