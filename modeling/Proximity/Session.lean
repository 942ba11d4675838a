import Proximity.Engine

/-!
# Sessions

A session keeps configurations and engines under names.  Its steps store, copy, change and compare
configurations, make engines from them, and call engines.  Configurations and engines are values:
an engine keeps the configuration that it was made with, whatever is stored later under the name
that the configuration came from.

## Main definitions

* `Registry` : values under names.
* `Session` : the configurations and engines.
* `Step`, `Reply`, `Session.step`, `Session.run` : the steps, what they answer, and their effect.
-/

namespace Proximity

/-! ### Names -/

/-- Values under names. -/
structure Registry (α : Type) where
  /-- The entries, each name once. -/
  entries : List (String × α) := []

namespace Registry

variable {α : Type}

/-- The value under a name. -/
def get? (registry : Registry α) (name : String) : Option α := registry.entries.lookup name

/-- Stores a value under a name, in place of the one that was there. -/
def put (registry : Registry α) (name : String) (value : α) : Registry α :=
  ⟨(name, value) :: registry.entries.filter fun entry => entry.1 != name⟩

/-- Changes the value under a name where it is stored, if there is one. -/
def modify (registry : Registry α) (name : String) (change : α → α) : Registry α :=
  ⟨registry.entries.map fun entry =>
    if entry.1 == name then (entry.1, change entry.2) else entry⟩

@[simp] theorem get?_put_self (registry : Registry α) (name : String) (value : α) :
    (registry.put name value).get? name = some value := by
  simp [get?, put]

theorem get?_put_of_ne {registry : Registry α} {name other : String} {value : α}
    (h : other ≠ name) : (registry.put name value).get? other = registry.get? other := by
  have hn : (other == name) = false := beq_false_of_ne h
  simp only [get?, put, List.lookup_cons, hn]
  induction registry.entries with
  | nil => rfl
  | cons entry entries ih =>
    obtain ⟨key, stored⟩ := entry
    by_cases hk : key = name
    · subst hk
      simpa [List.lookup_cons, hn] using ih
    · have hf : (key != name) = true := by simpa using hk
      simp only [List.filter_cons, hf, ↓reduceIte, List.lookup_cons, ih]

@[simp] theorem get?_modify_self (registry : Registry α) (name : String) (change : α → α) :
    (registry.modify name change).get? name = (registry.get? name).map change := by
  simp only [get?, modify]
  induction registry.entries with
  | nil => rfl
  | cons entry entries ih =>
    obtain ⟨key, stored⟩ := entry
    by_cases hk : key = name
    · subst hk
      simp only [List.map_cons, BEq.rfl, ↓reduceIte, List.lookup_cons, Option.map_some]
    · have hn : (name == key) = false := beq_false_of_ne (Ne.symm hk)
      have hf : (key == name) = false := beq_false_of_ne hk
      simp only [List.map_cons, hf, Bool.false_eq_true, ↓reduceIte, List.lookup_cons, hn, ih]

theorem get?_modify_of_ne {registry : Registry α} {name other : String} {change : α → α}
    (h : other ≠ name) : (registry.modify name change).get? other = registry.get? other := by
  have hn : (other == name) = false := beq_false_of_ne h
  simp only [get?, modify]
  induction registry.entries with
  | nil => rfl
  | cons entry entries ih =>
    obtain ⟨key, stored⟩ := entry
    by_cases hk : key = name
    · subst hk
      simp only [List.map_cons, BEq.rfl, ↓reduceIte, List.lookup_cons, hn, ih]
    · have hf : (key == name) = false := beq_false_of_ne hk
      simp only [List.map_cons, hf, Bool.false_eq_true, ↓reduceIte, List.lookup_cons, ih]

end Registry

/-! ### Steps -/

/-- The named configurations and engines. -/
structure Session where
  /-- The configurations. -/
  configs : Registry Config := {}
  /-- The engines. -/
  engines : Registry Engine := {}

/-- One step of a session. -/
inductive Step where
  /-- Stores the standard configuration. -/
  | standardConfig (config : String)
  /-- Stores the standard configuration with another norm. -/
  | newConfig (config : String) (norm : NormChoice)
  /-- Takes a configuration and stores it again with another norm. -/
  | withNorm (config : String) (norm : NormChoice)
  /-- Changes the norm of a configuration where it is stored. -/
  | setNorm (config : String) (norm : NormChoice)
  /-- Takes a configuration and stores it again with another number of rows up to which the fast
  search is used. -/
  | setMaxRows (config : String) (maxRows : UInt64)
  /-- Stores a copy of a configuration under another name. -/
  | copyConfig (source config : String)
  /-- Compares two configurations. -/
  | compareConfigs (config other : String)
  /-- Asks which search a configuration chooses. -/
  | algorithmFor (config : String) (rows : Nat)
  /-- Makes an engine from a configuration. -/
  | newEngine (engine config : String)
  /-- Makes an engine from the standard configuration. -/
  | standardEngine (engine : String)
  /-- Stores a copy of an engine under another name. -/
  | copyEngine (source engine : String)
  /-- Stores the configuration of an engine. -/
  | readConfig (engine config : String)
  /-- Calls an engine. -/
  | call (engine : String) (call : Call)

/-- What a step answers. -/
inductive Reply where
  /-- The configuration that was stored, or that of the engine that was stored. -/
  | stored (config : Config)
  /-- Whether two configurations are equal. -/
  | equal (answer : Bool)
  /-- The search that is chosen. -/
  | algorithm (algorithm : Algorithm)
  /-- The answer of an engine, with the mode of the engine. -/
  | answered (mode : NormMode) (outcome : Except InputError Answer)
  /-- Nothing is stored under a name. -/
  | unknown (name : String)

namespace Session

variable (session : Session)

/-- Stores a configuration. -/
def storeConfig (name : String) (config : Config) : Session × Reply :=
  ({ session with configs := session.configs.put name config }, .stored config)

/-- Stores an engine. -/
def storeEngine (name : String) (engine : Engine) : Session × Reply :=
  ({ session with engines := session.engines.put name engine }, .stored engine.config)

/-- Goes on with the configuration under a name, if there is one. -/
def withConfig (name : String) (next : Config → Session × Reply) : Session × Reply :=
  match session.configs.get? name with
  | some config => next config
  | none => (session, .unknown name)

/-- Goes on with the engine under a name, if there is one. -/
def withEngine (name : String) (next : Engine → Session × Reply) : Session × Reply :=
  match session.engines.get? name with
  | some engine => next engine
  | none => (session, .unknown name)

/-- Changes a configuration where it is stored. -/
def changeConfig (name : String) (change : Config → Config) : Session × Reply :=
  session.withConfig name fun old =>
    ({ session with configs := session.configs.modify name change }, .stored (change old))

/-- Calls an engine, if there is one under the name.  The session stays as it is. -/
def callEngine (name : String) (call : Call) : Logged (Session × Reply) :=
  match session.engines.get? name with
  | some engine =>
    (engine.answer call).map fun outcome => (session, .answered engine.config.norm outcome)
  | none => .silent (session, .unknown name)

/-- One step. -/
def step : Step → Logged (Session × Reply)
  | .standardConfig config => .silent (session.storeConfig config .standard)
  | .newConfig config norm =>
    .silent (session.storeConfig config (Config.standard.withNorm norm.toMode))
  | .withNorm config norm =>
    .silent (session.withConfig config fun old =>
      session.storeConfig config (old.withNorm norm.toMode))
  | .setNorm config norm =>
    .silent (session.changeConfig config fun old => old.withNorm norm.toMode)
  | .setMaxRows config maxRows =>
    .silent (session.withConfig config fun old =>
      session.storeConfig config (old.withMaxRows maxRows))
  | .copyConfig source config => .silent (session.withConfig source (session.storeConfig config))
  | .compareConfigs config other =>
    .silent (session.withConfig config fun a => session.withConfig other fun b =>
      (session, .equal (a == b)))
  | .algorithmFor config rows =>
    .silent (session.withConfig config fun c => (session, .algorithm (c.algorithmFor rows)))
  | .newEngine engine config =>
    .silent (session.withConfig config fun c => session.storeEngine engine ⟨c⟩)
  | .standardEngine engine => .silent (session.storeEngine engine ⟨.standard⟩)
  | .copyEngine source engine => .silent (session.withEngine source (session.storeEngine engine))
  | .readConfig engine config =>
    .silent (session.withEngine engine fun e => session.storeConfig config e.config)
  | .call engine call => session.callEngine engine call

/-- Some steps in order, with their replies. -/
def run (session : Session) : List Step → Logged (Session × List Reply)
  | [] => .silent (session, [])
  | first :: rest =>
    (session.step first).andThen fun done =>
      (run done.1 rest).map fun later => (later.1, done.2 :: later.2)

end Session

end Proximity
