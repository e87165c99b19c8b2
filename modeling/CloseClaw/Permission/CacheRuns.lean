/- The agent-rule cache over whole runs. -/

import Mathlib.Data.Countable.Basic
import Mathlib.Logic.Equiv.List
import Mathlib.Tactic.DeriveCountable
import CloseClaw.Permission.AgentRules

namespace CloseClaw.Permission

open AList PermissionEngine AgentRuleStore
open Lib.RustPath (PathBuf)

namespace CacheRuns

structure Sys where
  engine : PermissionEngine
  disk : Disk

inductive Ev where
  | evaluate (request : PermissionRequest) (extraDeny : Option (List Subject))
  | invalidate (agentId : String)
  | invalidateAll
  | reload (rules : RuleSet)
  | change (disk : Disk)

def step (hash : VersionHash) (s : Sys) : Ev → Sys
  | .evaluate request extraDeny => { s with engine := (s.engine.evaluate s.disk request extraDeny).2 }
  | .invalidate agentId => { s with engine := s.engine.invalidateAgentRules agentId }
  | .invalidateAll => { s with engine := { s.engine with agentRules := s.engine.agentRules.map (·.invalidateAll) } }
  | .reload rules => { s with engine := s.engine.reloadRules hash rules }
  | .change disk => { s with disk := disk }

/-- A change leaves each cached agent's file as it is, or gives it (or its absence)
    another mtime than the entry records, or leaves the rules the entry was merged
    from. -/
def Noticed (s : Sys) : Ev → Prop
  | .change disk => ∀ store, s.engine.agentRules = some store → ∀ agentId entry, store.cache.lookup agentId = some entry →
      let path := store.agentPermissionsPath agentId
      disk path = s.disk path ∨ (disk path).map (·.mtime) ≠ some entry.mtime ∨
        entry.merged.rules.rules = s.engine.rules.rules ++ rulesOfFile (disk path)
  | _ => True

inductive Reach (hash : VersionHash) (context : EvalContext) (rules : RuleSet) (disk : Disk) : Sys → Prop
  | init : Reach hash context rules disk ⟨.new hash context rules true, disk⟩
  | step {s : Sys} {e : Ev} : Reach hash context rules disk s → Noticed s e → Reach hash context rules disk (step hash s e)

/-! ## What the cache holds -/

def EntryOk (rules : RuleSet) (file : Option PermissionsFile) (entry : AgentRuleEntry) : Prop :=
  ∃ own, entry.merged.rules = mergedWith rules own ∧ entry.agentRuleCount = own.length ∧
    (file.map (·.mtime) = some entry.mtime → own = rulesOfFile file)

def StoreOk (rules : RuleSet) (disk : Disk) (store : AgentRuleStore) : Prop :=
  ∀ agentId entry, store.cache.lookup agentId = some entry → EntryOk rules (disk (store.agentPermissionsPath agentId)) entry

def Inv (s : Sys) : Prop := ∀ store, s.engine.agentRules = some store → StoreOk s.engine.rules s.disk store

theorem loadAgentEntry_ok (rules : RuleSet) (file : Option PermissionsFile) (version : String) :
    EntryOk rules file (loadAgentEntry file rules version) :=
  ⟨rulesOfFile file, rfl, rfl, fun _ => rfl⟩

variable {store : AgentRuleStore}

theorem storeOk_empty (rules : RuleSet) (disk : Disk) (h : store.cache = ∅) : StoreOk rules disk store := by
  intro agentId entry he
  rw [h, lookup_empty] at he
  cases he

section

variable {rules : RuleSet} {disk : Disk} {store : AgentRuleStore}

theorem storeOk_syncVersion (h : StoreOk rules disk store) (version : String) :
    StoreOk rules disk (store.syncVersion version) := by
  unfold AgentRuleStore.syncVersion
  split
  · exact storeOk_empty rules disk rfl
  · exact h

theorem storeOk_insert (h : StoreOk rules disk store) {agentId : String} {entry : AgentRuleEntry}
    (he : EntryOk rules (disk (store.agentPermissionsPath agentId)) entry) :
    StoreOk rules disk { store with cache := store.cache.insert agentId entry } := by
  intro a e ha
  by_cases heq : a = agentId
  · subst heq
    simp only [lookup_insert, Option.some.injEq] at ha
    exact ha ▸ he
  · simp only [lookup_insert_ne heq] at ha
    exact h a e ha

@[simp] theorem syncVersion_dataRoot (version : String) : (store.syncVersion version).dataRoot = store.dataRoot := by
  unfold AgentRuleStore.syncVersion; split <;> rfl

theorem getOrLoad_spec (h : StoreOk rules disk store) (agentId version : String) :
    ∃ store' entry, store.getOrLoad disk agentId rules version = ((entry.merged, entry.agentRuleCount), store') ∧
      StoreOk rules disk store' ∧ store'.cache.lookup agentId = some entry ∧
      entry.merged.rules = mergedWith rules (rulesOfFile (disk (store.agentPermissionsPath agentId))) ∧
      entry.agentRuleCount = (rulesOfFile (disk (store.agentPermissionsPath agentId))).length := by
  have hpath : (store.syncVersion version).agentPermissionsPath agentId = store.agentPermissionsPath agentId := by
    simp [agentPermissionsPath]
  have hsync := storeOk_syncVersion h version
  unfold getOrLoad
  simp only [hpath]
  by_cases hr : (store.syncVersion version).needsReload (disk (store.agentPermissionsPath agentId)) agentId version = true
  · let loaded := loadAgentEntry (disk (store.agentPermissionsPath agentId)) rules version
    refine ⟨{ store.syncVersion version with cache := (store.syncVersion version).cache.insert agentId loaded }, loaded,
      ?_, storeOk_insert hsync (hpath.symm ▸ loadAgentEntry_ok rules _ version), lookup_insert _, rfl, rfl⟩
    simp only [hr, if_true, lookup_insert, Option.getD_some, loaded]
  · unfold needsReload at hr
    cases hl : (store.syncVersion version).cache.lookup agentId with
    | none => simp [hl] at hr
    | some entry =>
      rw [hl] at hr
      simp only [Bool.or_eq_true, decide_eq_true_eq, not_or, not_not] at hr
      obtain ⟨own, hm, hc, hfile⟩ := hsync agentId entry hl
      rw [hpath] at hfile
      obtain rfl := hfile hr.1
      refine ⟨store.syncVersion version, entry, ?_, hsync, hl, hm, hc⟩
      have hno : (store.syncVersion version).needsReload (disk (store.agentPermissionsPath agentId)) agentId version = false := by
        simp [needsReload, hl, hr.1, hr.2]
      simp only [hno, Bool.false_eq_true, if_false, hl, Option.getD_some]

end

/-! ## The invariant over runs -/

variable {rules : RuleSet} {disk : Disk} {agentId : String}

theorem storeOk_put (h : StoreOk rules disk store) {entry : AgentRuleEntry}
    (he : store.cache.lookup agentId = some entry) :
    StoreOk rules disk (store.put agentId entry.merged entry.agentRuleCount) := by
  unfold put
  rw [he]
  exact storeOk_insert h (h agentId entry he)

theorem storeOk_afterEvaluate (h : StoreOk rules disk store) (agentId : String) :
    StoreOk rules disk (store.afterEvaluate disk agentId rules) := by
  obtain ⟨store', entry, hget, hok, hl, -, -⟩ := getOrLoad_spec h agentId rules.ruleVersion
  unfold afterEvaluate
  rw [hget]
  simp only
  split
  · exact hok
  · exact storeOk_put hok hl

variable (dataRoot : PathBuf) {s : Sys}

theorem inv_change (h : Inv s) (hn : Noticed s (.change disk)) : Inv { s with disk := disk } := by
  intro store hs agentId entry he
  obtain ⟨own, hm, hc, hfile⟩ := h store hs agentId entry he
  refine ⟨own, hm, hc, fun hmtime => ?_⟩
  rcases hn store hs agentId entry he with h1 | h1 | h1
  · simp only at hmtime h1 ⊢
    rw [h1] at hmtime ⊢
    exact hfile hmtime
  · exact absurd hmtime h1
  · rw [hm] at h1
    exact List.append_cancel_left h1

theorem inv_step (hash : VersionHash) {e : Ev} (h : Inv s) (hn : Noticed s e) : Inv (step hash s e) := by
  cases e with
  | evaluate request =>
    intro store' hs
    simp only [step, evaluate_snd, Option.map_eq_some_iff] at hs
    obtain ⟨store, hs, rfl⟩ := hs
    simp only [step, evaluate_snd]
    exact storeOk_afterEvaluate (h store hs) request.caller.agent
  | invalidate agentId =>
    intro store' hs a entry he
    simp only [step, invalidateAgentRules, Option.map_eq_some_iff] at hs
    obtain ⟨store, hs, rfl⟩ := hs
    by_cases ha : a = agentId
    · subst ha
      simp [invalidate] at he
    · simp only [invalidate, lookup_erase_ne ha] at he
      exact h store hs a entry he
  | invalidateAll =>
    intro store' hs
    simp only [step, Option.map_eq_some_iff] at hs
    obtain ⟨store, -, rfl⟩ := hs
    exact storeOk_empty _ _ rfl
  | reload =>
    intro store' hs
    simp only [step, reloadRules, Option.map_eq_some_iff] at hs
    obtain ⟨store, -, rfl⟩ := hs
    exact storeOk_empty _ _ rfl
  | change => exact inv_change h hn

instance countableUInt16 : Countable UInt16 :=
  (show Function.Injective UInt16.toNat from fun _ _ h => UInt16.toNat_inj.mp h).countable

instance countableChar : Countable Char :=
  (show Function.Injective Char.toNat from fun _ _ h => Char.toNat_inj.mp h).countable

instance countableString : Countable String :=
  (show Function.Injective String.toList from fun _ _ h => String.toList_inj.mp h).countable

deriving instance Countable for Effect
deriving instance Countable for MatchType
deriving instance Countable for MessageDirection
deriving instance Countable for CommandArgs
deriving instance Countable for Action
deriving instance Countable for Subject
deriving instance Countable for TemplateRef
deriving instance Countable for Rule
deriving instance Countable for Defaults

end CacheRuns

end CloseClaw.Permission
