import Mathlib.Data.List.Induction
import Proximity.Proofs.Session.Steps

/-!
# Histories of sessions

Configurations and engines are values.  So what a slot holds depends on nothing but the steps that
it has come through: the last step that stored into the slot, the last one before it that stored
into the slot from which that step copied, and so on, back to a step that took the standard
configuration.  Whatever happens meanwhile to the slots on the way makes no difference.

* `Session.chain` : the steps behind what a slot holds.
* `Session.get?_after` : a slot holds the norm and the number of rows that were written last along
  its chain, by induction on the steps, the last one first.
* `Session.slots_independent` : **what is true of every session**.
-/

namespace Proximity

/-! ### Chains of copies -/

namespace Storing

/-- The steps behind what a slot holds, the latest one first, down to a step that took the standard
configuration.  All steps are given with the latest one first. -/
def chain : List Storing → Slot → Option (List Storing)
  | [], _ => none
  | storing :: earlier, slot =>
    if slot = storing.target then
      let made := match storing.source? with
        | none => some [storing]
        | some source => (chain earlier source).map (storing :: ·)
      -- a step that has found nothing to start from has stored nothing
      made.or (chain earlier slot)
    else chain earlier slot

/-- The steps of a list have led to what a slot holds, each from the slot that the next one in the
list stored into, down to one that took the standard configuration. -/
inductive LeadsTo : Slot → List Storing → Prop where
  /-- The standard configuration is taken. -/
  | taken {storing : Storing} (h : storing.source? = none) : LeadsTo storing.target [storing]
  /-- What another slot holds is copied. -/
  | copied {storing : Storing} {source : Slot} {chain : List Storing}
    (h : storing.source? = some source) (hchain : LeadsTo source chain) :
    LeadsTo storing.target (storing :: chain)

/-- The norm that was written last. -/
def lastNorm (chain : List Storing) : NormMode :=
  (chain.findSome? norm?).getD Config.standard.norm

/-- The number of rows for the fast search that was written last. -/
def lastMaxRows (chain : List Storing) : UInt64 :=
  (chain.findSome? maxRows?).getD Config.standard.maxRowsForFast

/-- The configuration at the end of a chain. -/
def last (chain : List Storing) : Config := ⟨lastNorm chain, lastMaxRows chain⟩

/-- The steps of a chain have happened in its order, and lead to the slot. -/
theorem leadsTo_of_chain {earlier steps : List Storing} {slot : Slot}
    (h : chain earlier slot = some steps) : steps.Sublist earlier ∧ LeadsTo slot steps := by
  induction earlier generalizing slot steps with
  | nil => cases h
  | cons storing earlier ih =>
    have hkept (h : chain earlier slot = some steps) :
        steps.Sublist (storing :: earlier) ∧ LeadsTo slot steps :=
      (ih h).imp_left (List.Sublist.cons storing)
    rw [chain] at h
    by_cases hslot : slot = storing.target
    · subst hslot
      rw [if_pos rfl] at h
      cases hsource : storing.source? with
      | none =>
        rw [hsource] at h
        cases h
        exact ⟨.cons_cons storing (List.nil_sublist earlier), .taken hsource⟩
      | some source =>
        rw [hsource] at h
        rcases Option.or_eq_some_iff.1 h with hmade | ⟨-, hstays⟩
        · obtain ⟨before, hbefore, rfl⟩ := Option.map_eq_some_iff.1 hmade
          obtain ⟨hsublist, hleads⟩ := ih hbefore
          exact ⟨.cons_cons storing hsublist, .copied hsource hleads⟩
        · exact hkept hstays
    · rw [if_neg hslot] at h
      exact hkept h

theorem write_last (storing : Storing) (chain : List Storing) :
    storing.write (last chain) = last (storing :: chain) := by
  obtain ⟨target, source?, norm?, maxRows?⟩ := storing
  cases norm? <;> cases maxRows? <;> rfl

theorem write_standard (storing : Storing) : storing.write .standard = last [storing] :=
  write_last storing []

end Storing

namespace Session

/-! ### Runs -/

/-- The session after some steps. -/
def after (steps : List Step) : Session := (run {} steps).result.1

/-- The replies to some steps. -/
def replies (steps : List Step) : List Reply := (run {} steps).result.2

theorem run_append (session : Session) (before later : List Step) :
    session.run (before ++ later) = (session.run before).andThen fun done =>
      (done.1.run later).map fun rest => (rest.1, done.2 ++ rest.2) := by
  induction before generalizing session with
  | nil => rfl
  | cons step before ih =>
    simp only [List.cons_append, run, ih, Logged.andThen, Logged.map, List.append_assoc]

theorem after_append (before later : List Step) :
    after (before ++ later) = ((after before).run later).result.1 := by
  rw [after, run_append]
  rfl

theorem after_concat (steps : List Step) (step : Step) :
    after (steps ++ [step]) = ((after steps).step step).result.1 := by
  rw [after_append]
  rfl

theorem length_replies_run (session : Session) (steps : List Step) :
    (session.run steps).result.2.length = steps.length := by
  induction steps generalizing session with
  | nil => rfl
  | cons step steps ih => exact congrArg Nat.succ (ih _)

/-- The reply to a step is the one that the session gives at that point. -/
theorem getElem?_replies (before : List Step) (step : Step) (later : List Step) :
    (replies (before ++ step :: later))[before.length]? =
      some ((after before).step step).result.2 := by
  have hlen : (run {} before).result.2.length = before.length := length_replies_run ..
  rw [replies, run_append]
  change ((run {} before).result.2 ++ _)[before.length]? = _
  rw [List.getElem?_append_right (Nat.le_of_eq hlen), hlen, Nat.sub_self]
  rfl

/-! ### What a slot holds -/

/-- The steps behind what a slot holds, the latest one first. -/
def chain (steps : List Step) (slot : Slot) : Option (List Storing) :=
  Storing.chain (steps.filterMap Step.storing?).reverse slot

theorem chain_concat_of_storing {step : Step} {storing : Storing} (h : step.storing? = some storing)
    (steps : List Step) (slot : Slot) :
    chain (steps ++ [step]) slot =
      Storing.chain (storing :: (steps.filterMap Step.storing?).reverse) slot := by
  have hone : [step].filterMap Step.storing? = [storing] := by
    rw [List.filterMap_cons, h]
    rfl
  rw [chain, List.filterMap_append, hone, List.reverse_concat]

theorem chain_concat_of_storing?_eq_none {step : Step} (h : step.storing? = none)
    (steps : List Step) (slot : Slot) : chain (steps ++ [step]) slot = chain steps slot := by
  have hone : [step].filterMap Step.storing? = [] := by
    rw [List.filterMap_cons, h]
    rfl
  rw [chain, List.filterMap_append, hone, List.append_nil, chain]

/-- **A slot holds what was written last along its chain.** -/
theorem get?_after (steps : List Step) (slot : Slot) :
    (after steps).get? slot = (chain steps slot).map Storing.last := by
  induction steps using List.reverseRecOn generalizing slot with
  | nil => cases slot <;> rfl
  | append_singleton steps step ih =>
    rw [after_concat, get?_step]
    cases hs : step.storing? with
    | none =>
      dsimp only
      rw [chain_concat_of_storing?_eq_none hs, ih]
    | some storing =>
      dsimp only
      rw [chain_concat_of_storing hs, Storing.chain]
      by_cases hslot : slot = storing.target
      · rw [if_pos hslot, if_pos hslot, Option.map_or, ih]
        -- what is made is the end of the chain of what it is made from
        congr 1
        rw [Storing.made?]
        cases storing.source? with
        | none => exact congrArg some storing.write_standard
        | some source =>
          dsimp only
          rw [ih, Option.map_map, Option.map_map]
          exact congrArg (Option.map · _) (funext storing.write_last)
      · rw [if_neg hslot, if_neg hslot]
        exact ih slot

/-- Steps that store elsewhere do not matter. -/
theorem get?_after_append {later : List Step} {slot : Slot}
    (h : ∀ step ∈ later, step.target? ≠ some slot) (steps : List Step) :
    (after (steps ++ later)).get? slot = (after steps).get? slot := by
  induction later using List.reverseRecOn with
  | nil => rw [List.append_nil]
  | append_singleton later step ih =>
    obtain ⟨hlater, hstep⟩ := List.forall_mem_append.1 h
    rw [← List.append_assoc, after_concat, get?_step_of_ne (hstep step List.mem_cons_self)]
    exact ih hlater

/-- What a step stores stays in its slot until something else is stored there. -/
theorem get?_after_made {step : Step} {storing : Storing} {slot : Slot} {config : Config}
    {steps later : List Step} (hs : step.storing? = some storing) (hslot : storing.target = slot)
    (hm : storing.made? (after steps) = some config)
    (hlater : ∀ step ∈ later, step.target? ≠ some slot) :
    (after (steps ++ step :: later)).get? slot = some config := by
  rw [List.append_cons, get?_after_append hlater, after_concat, (stored_step hs hm).get?_eq,
    if_pos hslot.symm]

/-- Changing a configuration where it is stored is answered as replacing it. -/
theorem reply_setNorm {session : Session} (config : String) (norm : NormChoice) :
    (session.step (.setNorm config norm)).result.2 =
      (session.step (.withNorm config norm)).result.2 := by
  change (session.changeConfig config _).2 = (session.withConfig config _).2
  rw [changeConfig, withConfig, withConfig]
  cases session.configs.get? config <;> rfl

/-! ### All sessions -/

/-- **What is true of every session**, after any steps.
* A slot holds the norm that was written last along its chain of copies, where a token writes the
  norm that it names, and the number of rows that was written last along this chain, whatever was
  written between to the other field.  The steps of the chain have happened, and each has copied
  what the one before it stored.
* A step changes no slot but the one that it stores into, and it makes no difference whether a
  configuration is changed where it is stored or replaced.
* An engine keeps the configuration that it is made with until another engine is stored under its
  name, whether it is made from a configuration, as a copy, or with the standard configuration.
* A call is answered as under the norm and the number of rows of the engine's chain, the session
  stays as it is, and two configurations are equal if and only if the same was written last.
* The replies of a run are those that its sessions give at each step. -/
theorem slots_independent (steps : List Step) :
    (∀ slot, (after steps).get? slot = (chain steps slot).map Storing.last ∧
      ∀ storings, chain steps slot = some storings →
        storings.Sublist (steps.filterMap Step.storing?).reverse ∧
          Storing.LeadsTo slot storings) ∧
    (∀ step slot, step.target? ≠ some slot →
      (after (steps ++ [step])).get? slot = (after steps).get? slot) ∧
    (∀ config norm,
      (∀ slot, (after (steps ++ [.setNorm config norm])).get? slot =
        (after (steps ++ [.withNorm config norm])).get? slot) ∧
      ((after steps).step (.setNorm config norm)).result.2 =
        ((after steps).step (.withNorm config norm)).result.2) ∧
    (∀ engine later, (∀ step ∈ later, step.target? ≠ some (.engine engine)) →
      (∀ name config, (after steps).configs.get? name = some config →
        (after (steps ++ .newEngine engine name :: later)).engines.get? engine = some ⟨config⟩) ∧
      (∀ name other, (after steps).engines.get? name = some other →
        (after (steps ++ .copyEngine name engine :: later)).engines.get? engine = some other) ∧
      (after (steps ++ .standardEngine engine :: later)).engines.get? engine = some ⟨.standard⟩) ∧
    (∀ engine call storings, chain steps (.engine engine) = some storings →
      (after steps).step (.call engine call) =
        (answerUnder (Storing.lastNorm storings).norm (Storing.lastMaxRows storings) call).map
          fun outcome => (after steps, .answered (Storing.lastNorm storings) outcome)) ∧
    (∀ name name' storings storings', chain steps (.config name) = some storings →
      chain steps (.config name') = some storings' →
      (after steps).step (.compareConfigs name name') = .silent (after steps, .equal (decide
        (Storing.lastNorm storings = Storing.lastNorm storings' ∧
          Storing.lastMaxRows storings = Storing.lastMaxRows storings')))) ∧
    ∀ step later, (replies (steps ++ step :: later))[steps.length]? =
      some ((after steps).step step).result.2 := by
  have hlast {slot storings} (h : chain steps slot = some storings) :
      (after steps).get? slot = some (Storing.last storings) := by
    rw [get?_after, h]
    rfl
  refine ⟨fun slot => ⟨get?_after steps slot, fun storings => Storing.leadsTo_of_chain⟩, ?_, ?_, ?_,
    fun engine call storings h => step_call (hlast h) call, ?_, getElem?_replies steps⟩
  · intro step slot hslot
    rw [after_concat, get?_step_of_ne hslot]
  · refine fun config norm => ⟨fun slot => ?_, reply_setNorm config norm⟩
    rw [after_concat, after_concat, get?_step, get?_step]
    rfl
  · intro engine later hlater
    refine ⟨fun name config h => ?_, fun name other h => ?_, ?_⟩
    · refine get?_engine_eq_some.1 (get?_after_made rfl rfl ?_ hlater)
      exact Option.map_eq_some_iff.2 ⟨config, h, rfl⟩
    · refine get?_engine_eq_some.1 (get?_after_made rfl rfl ?_ hlater)
      exact Option.map_eq_some_iff.2 ⟨other.config, get?_engine_eq_some.2 h, rfl⟩
    · exact get?_engine_eq_some.1 (get?_after_made rfl rfl rfl hlater)
  · intro name name' storings storings' h h'
    rw [step_compareConfigs (hlast h) (hlast h')]
    simp only [Storing.last, Config.mk.injEq]

/-- An engine is made from a configuration and read back into another one, and both configurations
are changed. -/
def aliasing : List Step :=
  [.newConfig "a" "max_norm", .newEngine "e" "a", .setNorm "a" "taxicab", .setMaxRows "a" 1,
    .readConfig "e" "b", .withNorm "b" NormMode.euclideanNormalised]

/-- The configurations, the engine and a later copy of it, which outlives it. -/
theorem slots_independent_aliasing :
    chain aliasing (.config "a") = some [⟨.config "a", some (.config "a"), none, some 1⟩,
      ⟨.config "a", some (.config "a"), some .euclidean, none⟩,
      ⟨.config "a", none, some .maxNorm, none⟩] ∧
    (after aliasing).get? (.config "a") = some ⟨.euclidean, 1⟩ ∧
    (after aliasing).get? (.config "b") = some ⟨.euclideanNormalised, 2000⟩ ∧
    (after (aliasing ++ [.setNorm "b" "max_norm"])).get? (.config "a") = some ⟨.euclidean, 1⟩ ∧
    (after (aliasing ++ .copyEngine "e" "f" ::
      [.setNorm "a" "max_norm", .standardEngine "e"])).engines.get? "f" = some ⟨.maxNorm, 2000⟩ ∧
    (after aliasing).step (.call "e" (.distance [0, 0] [3, 4])) =
      .silent (after aliasing, .answered .maxNorm (.ok (.distance 4))) ∧
    (after aliasing).step (.compareConfigs "a" "b") = .silent (after aliasing, .equal false) := by
  obtain ⟨hslots, hframe, -, hengines, hcalls, hcompare, -⟩ := slots_independent aliasing
  have ha : chain aliasing (.config "a") = some [⟨.config "a", some (.config "a"), none, some 1⟩,
      ⟨.config "a", some (.config "a"), some .euclidean, none⟩,
      ⟨.config "a", none, some .maxNorm, none⟩] := by decide +kernel
  have hb : chain aliasing (.config "b") = some [
      ⟨.config "b", some (.config "b"), some .euclideanNormalised, none⟩,
      ⟨.config "b", some (.engine "e"), none, none⟩,
      ⟨.engine "e", some (.config "a"), none, none⟩,
      ⟨.config "a", none, some .maxNorm, none⟩] := by decide +kernel
  have he : chain aliasing (.engine "e") = some [⟨.engine "e", some (.config "a"), none, none⟩,
      ⟨.config "a", none, some .maxNorm, none⟩] := by decide +kernel
  have hgeta : (after aliasing).get? (.config "a") = some ⟨.euclidean, 1⟩ := by
    rw [(hslots (.config "a")).1, ha]
    rfl
  have hgetb : (after aliasing).get? (.config "b") = some ⟨.euclideanNormalised, 2000⟩ := by
    rw [(hslots (.config "b")).1, hb]
    rfl
  have hgete : (after aliasing).engines.get? "e" = some ⟨.maxNorm, 2000⟩ := by
    rw [← get?_engine_eq_some, (hslots (.engine "e")).1, he]
    rfl
  refine ⟨ha, hgeta, hgetb, ?_, ?_, ?_, ?_⟩
  · rw [hframe (.setNorm "b" "max_norm") (.config "a") (by decide)]
    exact hgeta
  · exact (hengines "f" [.setNorm "a" "max_norm", .standardEngine "e"] (by decide)).2.1 "e" _ hgete
  · have hcheck : checkOperands "norm operands" [0, 0] [3, 4] = .ok () := by decide
    have hdistance : Norm.maximum.distance [0, 0] [3, 4] = 4 := by decide +kernel
    rw [hcalls "e" _ _ he, answerUnder, hcheck]
    change Logged.silent (_, Reply.answered _ (.ok (.distance (Norm.maximum.distance _ _)))) = _
    rw [hdistance]
    rfl
  · exact hcompare "a" "b" _ _ ha hb

end Session

end Proximity
