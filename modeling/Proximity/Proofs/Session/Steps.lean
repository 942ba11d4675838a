import Mathlib.Data.List.Basic
import Mathlib.Data.Option.Basic
import Proximity.Session

/-!
# What a step of a session does

A session holds configurations in *slots*: under names, and in engines under names.  A step stores
into at most one slot.  What it stores is the standard configuration or what some slot holds, and
the step may write one of the two fields on the way.  The other slots are left alone, and a step
that finds nothing to start from leaves all of them alone.

* `Slot`, `Session.get?` : what a session holds.
* `answerUnder`, `Engine.answer_eq_answerUnder` : what an engine answers depends on its norm and its
  number of rows only.
* `Storing`, `Step.storing?` : what each step stores, and from where.
* `Session.stored_step` : **what a step that stores does**, whether it changes a configuration where
  it is or stores another one in its place.
* `Session.get?_step` : what the slots hold after a step, from what they held before.
-/

namespace Proximity

/-! ### Slots -/

/-- Where a session holds a configuration. -/
inductive Slot where
  /-- Under a name. -/
  | config (name : String)
  /-- In the engine under a name. -/
  | engine (name : String)
  deriving DecidableEq, Repr

/-- The configuration in a slot. -/
def Session.get? (session : Session) : Slot → Option Config
  | .config name => session.configs.get? name
  | .engine name => (session.engines.get? name).map Engine.config

@[simp] theorem Session.get?_config (session : Session) (name : String) :
    session.get? (.config name) = session.configs.get? name := rfl

theorem Session.get?_engine_eq_some {session : Session} {name : String} {config : Config} :
    session.get? (.engine name) = some config ↔ session.engines.get? name = some ⟨config⟩ := by
  constructor
  · intro h
    obtain ⟨engine, hengine, rfl⟩ := Option.map_eq_some_iff.1 h
    exact hengine
  · intro h
    exact Option.map_eq_some_iff.2 ⟨⟨config⟩, h, rfl⟩

/-! ### Answers -/

/-- What is answered to a call under a norm and with a number of rows for the fast search. -/
def answerUnder (norm : Norm) (maxRows : UInt64) : Call → Logged (Except InputError Answer)
  | .distance a b =>
    .silent ((checkOperands "norm operands" a b).map fun _ => .distance (norm.distance a b))
  | .jointDistance x₁ y₁ x₂ y₂ =>
    .silent ((checkOperands "joint norm x operands" x₁ x₂).bind fun _ =>
      (checkOperands "joint norm y operands" y₁ y₂).map fun _ =>
        .distance (Scalar.larger (norm.distance x₁ x₂) (norm.distance y₁ y₂)))
  | .minDistances rows => (minDistances norm maxRows rows).map (Except.map .distances)
  | .minDistancesBy algorithm rows =>
    (minDistancesBy norm algorithm rows).map (Except.map .distances)
  | .pairMatrix a b reference => .silent ((pairMatrix norm a b reference).map .matrix)
  | .tripleMatrix a b c reference => .silent ((tripleMatrix norm a b c reference).map .matrix)
  | .variableMatrix rows reference => .silent ((variableMatrix rows reference).map .matrix)

/-- **An engine answers under the norm and with the number of rows of its configuration.** -/
theorem Engine.answer_eq_answerUnder (engine : Engine) (call : Call) :
    engine.answer call =
      answerUnder engine.config.norm.norm engine.config.maxRowsForFast call := by
  cases call with
  | distance a b =>
    rw [answer, Engine.distance, answerUnder, NormMode.distance_eq_norm]
    cases checkOperands "norm operands" a b <;> rfl
  | jointDistance x₁ y₁ x₂ y₂ =>
    rw [answer, Engine.jointDistance, answerUnder]
    dsimp only
    rw [NormMode.distance_eq_norm, NormMode.distance_eq_norm]
    cases checkOperands "joint norm x operands" x₁ x₂ with
    | error e => rfl
    | ok _ => cases checkOperands "joint norm y operands" y₁ y₂ <;> rfl
  | _ => rfl

/-! ### Steps that store -/

/-- What a step stores. -/
structure Storing where
  /-- The slot that is stored into. -/
  target : Slot
  /-- The slot whose configuration is taken, unless it is the standard one. -/
  source? : Option Slot
  /-- The norm that is written, if one is. -/
  norm? : Option NormMode
  /-- The number of rows for the fast search that is written, if one is. -/
  maxRows? : Option UInt64
  deriving DecidableEq, Repr

/-- What a step stores, if it is one that stores. -/
def Step.storing? : Step → Option Storing
  | .standardConfig config => some ⟨.config config, none, none, none⟩
  | .newConfig config norm => some ⟨.config config, none, some norm.toMode, none⟩
  | .withNorm config norm | .setNorm config norm =>
    some ⟨.config config, some (.config config), some norm.toMode, none⟩
  | .setMaxRows config maxRows => some ⟨.config config, some (.config config), none, some maxRows⟩
  | .copyConfig source config => some ⟨.config config, some (.config source), none, none⟩
  | .newEngine engine config => some ⟨.engine engine, some (.config config), none, none⟩
  | .standardEngine engine => some ⟨.engine engine, none, none, none⟩
  | .copyEngine source engine => some ⟨.engine engine, some (.engine source), none, none⟩
  | .readConfig engine config => some ⟨.config config, some (.engine engine), none, none⟩
  | .compareConfigs .. | .algorithmFor .. | .call .. => none

/-- The slot that a step stores into, if it is one that stores. -/
def Step.target? (step : Step) : Option Slot := step.storing?.map Storing.target

namespace Storing

/-- The fields that are written replace those of the configuration that is taken. -/
def write (storing : Storing) (config : Config) : Config :=
  ⟨storing.norm?.getD config.norm, storing.maxRows?.getD config.maxRowsForFast⟩

/-- The configuration that is stored, if there is one to start from. -/
def made? (storing : Storing) (session : Session) : Option Config :=
  match storing.source? with
  | none => some (storing.write .standard)
  | some source => (session.get? source).map storing.write

end Storing

namespace Session

variable {session : Session} {name : String} {slot : Slot} {config old : Config}
  {outcome : Session × Reply}

/-! ### Storing -/

/-- The outcome of storing a configuration in one slot and leaving the others alone. -/
structure Stored (session : Session) (slot : Slot) (config : Config) (outcome : Session × Reply) :
    Prop where
  /-- The configuration is answered. -/
  reply : outcome.2 = .stored config
  /-- It is in the slot, and the other slots hold what they held before. -/
  get?_eq : ∀ other, outcome.1.get? other = if other = slot then some config else session.get? other

theorem stored_storeConfig (session : Session) (name : String) (config : Config) :
    Stored session (.config name) config (session.storeConfig name config) where
  reply := rfl
  get?_eq
    | .config other => by
      by_cases h : other = name
      · subst h
        simp [storeConfig]
      · simp [storeConfig, h, Registry.get?_put_of_ne h]
    | .engine other => by simp [storeConfig, get?]

theorem stored_storeEngine (session : Session) (name : String) (engine : Engine) :
    Stored session (.engine name) engine.config (session.storeEngine name engine) where
  reply := rfl
  get?_eq
    | .config other => by simp [storeEngine]
    | .engine other => by
      by_cases h : other = name
      · subst h
        simp [storeEngine, get?]
      · simp [storeEngine, get?, h, Registry.get?_put_of_ne h]

theorem withConfig_of_get? (h : session.get? (.config name) = some old)
    (next : Config → Session × Reply) : session.withConfig name next = next old := by
  rw [get?_config] at h
  rw [withConfig, h]

theorem withEngine_of_get? (h : session.get? (.engine name) = some old)
    (next : Engine → Session × Reply) : session.withEngine name next = next ⟨old⟩ := by
  rw [get?_engine_eq_some] at h
  rw [withEngine, h]

theorem Stored.withConfig {next : Config → Session × Reply}
    (h : session.get? (.config name) = some old) (hnext : Stored session slot config (next old)) :
    Stored session slot config (session.withConfig name next) := by
  rwa [withConfig_of_get? h]

theorem Stored.withEngine {next : Engine → Session × Reply}
    (h : session.get? (.engine name) = some old) (hnext : Stored session slot config (next ⟨old⟩)) :
    Stored session slot config (session.withEngine name next) := by
  rwa [withEngine_of_get? h]

/-- Changing a configuration where it is stored is storing the changed one in its place. -/
theorem stored_changeConfig (h : session.get? (.config name) = some old)
    (change : Config → Config) :
    Stored session (.config name) (change old) (session.changeConfig name change) := by
  refine .withConfig h ⟨rfl, fun other => ?_⟩
  cases other with
  | config other =>
    by_cases ho : other = name
    · subst ho
      rw [get?_config] at h
      simp [h]
    · simp [ho, Registry.get?_modify_of_ne ho]
  | engine other => simp [get?]

/-! ### Steps that only answer -/

theorem step_call (h : session.get? (.engine name) = some config) (call : Call) :
    session.step (.call name call) =
      (answerUnder config.norm.norm config.maxRowsForFast call).map fun outcome =>
        (session, .answered config.norm outcome) := by
  rw [get?_engine_eq_some] at h
  change session.callEngine name call = _
  rw [callEngine, h]
  dsimp only
  rw [Engine.answer_eq_answerUnder]

theorem step_compareConfigs {name' : String} {config' : Config}
    (h : session.get? (.config name) = some config)
    (h' : session.get? (.config name') = some config') :
    session.step (.compareConfigs name name') =
      .silent (session, .equal (decide (config = config'))) := by
  rw [step, withConfig_of_get? h, withConfig_of_get? h']
  rfl

/-! ### One step -/

variable {step : Step} {storing : Storing}

/-- **What a step that stores does.** -/
theorem stored_step (hs : step.storing? = some storing) (hm : storing.made? session = some config) :
    Stored session storing.target config (session.step step).result := by
  cases step with
  | standardConfig | newConfig =>
    cases hs
    cases hm
    exact stored_storeConfig ..
  | standardEngine =>
    cases hs
    cases hm
    exact stored_storeEngine ..
  | withNorm | setMaxRows | copyConfig =>
    cases hs
    obtain ⟨old, hold, rfl⟩ := Option.map_eq_some_iff.1 hm
    exact .withConfig hold (stored_storeConfig ..)
  | setNorm =>
    cases hs
    obtain ⟨old, hold, rfl⟩ := Option.map_eq_some_iff.1 hm
    exact stored_changeConfig hold _
  | newEngine =>
    cases hs
    obtain ⟨old, hold, rfl⟩ := Option.map_eq_some_iff.1 hm
    exact .withConfig hold (stored_storeEngine ..)
  | copyEngine =>
    cases hs
    obtain ⟨old, hold, rfl⟩ := Option.map_eq_some_iff.1 hm
    exact .withEngine hold (stored_storeEngine ..)
  | readConfig =>
    cases hs
    obtain ⟨old, hold, rfl⟩ := Option.map_eq_some_iff.1 hm
    exact .withEngine hold (stored_storeConfig ..)
  | compareConfigs | algorithmFor | call => cases hs

theorem withConfig_of_get?_eq_none (h : session.get? (.config name) = none)
    (next : Config → Session × Reply) : session.withConfig name next = (session, .unknown name) := by
  rw [get?_config] at h
  rw [withConfig, h]

theorem withEngine_of_get?_eq_none (h : session.get? (.engine name) = none)
    (next : Engine → Session × Reply) : session.withEngine name next = (session, .unknown name) := by
  have hengine : session.engines.get? name = none := Option.map_eq_none_iff.1 h
  rw [withEngine, hengine]

/-- A step that finds nothing to start from stores nothing. -/
theorem step_of_made?_eq_none (hs : step.storing? = some storing)
    (hm : storing.made? session = none) : (session.step step).result.1 = session := by
  cases step with
  | standardConfig | newConfig | standardEngine =>
    cases hs
    cases hm
  | withNorm | setNorm | setMaxRows | copyConfig | newEngine =>
    cases hs
    exact congrArg Prod.fst (withConfig_of_get?_eq_none (Option.map_eq_none_iff.1 hm) _)
  | copyEngine | readConfig =>
    cases hs
    exact congrArg Prod.fst (withEngine_of_get?_eq_none (Option.map_eq_none_iff.1 hm) _)
  | compareConfigs | algorithmFor | call => cases hs

/-- The other steps only answer. -/
theorem step_of_storing?_eq_none (hs : step.storing? = none) :
    (session.step step).result.1 = session := by
  cases step with
  | compareConfigs a b =>
    change (session.withConfig a fun _ => session.withConfig b fun _ => _).1 = session
    unfold withConfig
    cases session.configs.get? a with
    | none => rfl
    | some _ => cases session.configs.get? b <;> rfl
  | algorithmFor name =>
    change (session.withConfig name _).1 = session
    unfold withConfig
    cases session.configs.get? name <;> rfl
  | call name =>
    change (session.callEngine name _).result.1 = session
    unfold callEngine
    cases session.engines.get? name <;> rfl
  | _ => cases hs

/-- **What the slots hold after a step.** -/
theorem get?_step (session : Session) (step : Step) (slot : Slot) :
    (session.step step).result.1.get? slot =
      match step.storing? with
      | none => session.get? slot
      | some storing =>
        if slot = storing.target then (storing.made? session).or (session.get? slot)
        else session.get? slot := by
  cases hs : step.storing? with
  | none => rw [step_of_storing?_eq_none hs]
  | some storing =>
    dsimp only
    cases hm : storing.made? session with
    | none => rw [step_of_made?_eq_none hs hm, Option.none_or, ite_self]
    | some config => exact (stored_step hs hm).get?_eq slot

theorem get?_step_of_ne (h : step.target? ≠ some slot) :
    (session.step step).result.1.get? slot = session.get? slot := by
  rw [get?_step]
  cases hs : step.storing? with
  | none => rfl
  | some storing =>
    refine if_neg fun heq => h ?_
    rw [Step.target?, hs, heq]
    rfl

end Session

end Proximity
