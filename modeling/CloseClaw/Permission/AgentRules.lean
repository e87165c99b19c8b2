/- The per-agent rule files, their cache and the engine (`engine_agent_rules.rs`,
   `engine_eval.rs`). -/

import CloseClaw.Permission.Verdict

namespace CloseClaw.Permission

open Lib.RustPath (PathBuf)

structure PermissionsFile where
  mtime : Int
  content : Option RuleSet

abbrev Disk := PathBuf → Option PermissionsFile

def unixEpoch : Int := 0

abbrev VersionHash := List Rule × Defaults × Defaults → String

def RuleSet.computeVersion (hash : VersionHash) (rules : RuleSet) : RuleSet :=
  { rules with ruleVersion := hash (rules.rules, rules.defaults, rules.userDefaults) }

structure MergedAgentRules where
  rules : RuleSet
  indices : RuleIndices
  built : indices = buildRuleIndices rules

structure AgentRuleEntry where
  merged : MergedAgentRules
  agentRuleCount : Nat
  mtime : Int
  globalVersion : String

structure AgentRuleStore where
  dataRoot : PathBuf
  cache : HashMap String AgentRuleEntry
  lastGlobalVersion : String

def rulesOfFile (file : Option PermissionsFile) : List Rule := ((file.bind (·.content)).getD .default).rules

def mergedWith (rules : RuleSet) (own : List Rule) : RuleSet := { rules with rules := rules.rules ++ own }

def loadAgentEntry (file : Option PermissionsFile) (globalRules : RuleSet) (globalVersion : String) : AgentRuleEntry :=
  let agentRules := rulesOfFile file
  let mergedRules := mergedWith globalRules agentRules
  { merged := ⟨mergedRules, buildRuleIndices mergedRules, rfl⟩
    agentRuleCount := agentRules.length
    mtime := (file.map (·.mtime)).getD unixEpoch
    globalVersion := globalVersion }

namespace AgentRuleStore

def new (dataRoot : PathBuf) : AgentRuleStore := ⟨dataRoot, ∅, ""⟩

def agentPermissionsPath (store : AgentRuleStore) (agentId : String) : PathBuf :=
  ((store.dataRoot.join "agents").join agentId).join "permissions.json"

def syncVersion (store : AgentRuleStore) (globalVersion : String) : AgentRuleStore :=
  if store.lastGlobalVersion ≠ globalVersion then { store with cache := ∅, lastGlobalVersion := globalVersion } else store

def needsReload (store : AgentRuleStore) (file : Option PermissionsFile) (agentId globalVersion : String) : Bool :=
  match store.cache.lookup agentId with
  | some entry => decide (file.map (·.mtime) ≠ some entry.mtime) || decide (entry.globalVersion ≠ globalVersion)
  | none => true

def getOrLoad (store : AgentRuleStore) (disk : Disk) (agentId : String) (globalRules : RuleSet) (globalVersion : String) :
    (MergedAgentRules × Nat) × AgentRuleStore :=
  let store := store.syncVersion globalVersion
  let file := disk (store.agentPermissionsPath agentId)
  let loaded := loadAgentEntry file globalRules globalVersion
  let store :=
    if store.needsReload file agentId globalVersion then { store with cache := store.cache.insert agentId loaded } else store
  -- the entry is there now: it was fresh, or it has just been loaded
  let entry := (store.cache.lookup agentId).getD loaded
  ((entry.merged, entry.agentRuleCount), store)

def put (store : AgentRuleStore) (agentId : String) (merged : MergedAgentRules) (agentRuleCount : Nat) : AgentRuleStore :=
  match store.cache.lookup agentId with
  | some entry =>
    { store with cache := store.cache.insert agentId { entry with merged := merged, agentRuleCount := agentRuleCount } }
  | none => store

def afterEvaluate (store : AgentRuleStore) (disk : Disk) (agentId : String) (globalRules : RuleSet) : AgentRuleStore :=
  let ((merged, agentRuleCount), store) := store.getOrLoad disk agentId globalRules globalRules.ruleVersion
  if agentRuleCount = 0 then store else store.put agentId merged agentRuleCount

def invalidate (store : AgentRuleStore) (agentId : String) : AgentRuleStore :=
  { store with cache := store.cache.erase agentId }

def invalidateAll (store : AgentRuleStore) : AgentRuleStore := { store with cache := ∅ }

end AgentRuleStore

structure PermissionEngine extends EvalContext where
  rules : RuleSet
  indices : RuleIndices
  built : indices = buildRuleIndices rules
  agentRules : Option AgentRuleStore

open AgentRuleStore

namespace PermissionEngine

def new (hash : VersionHash) (context : EvalContext) (rules : RuleSet) (enableAgentRules : Bool) : PermissionEngine :=
  let rules := rules.computeVersion hash
  { toEvalContext := context
    rules := rules
    indices := buildRuleIndices rules
    built := rfl
    agentRules := if enableAgentRules then some (.new context.dataRoot) else none }

def reloadRules (engine : PermissionEngine) (hash : VersionHash) (rules : RuleSet) : PermissionEngine :=
  let rules := rules.computeVersion hash
  { engine with
    rules := rules
    indices := buildRuleIndices rules
    built := rfl
    agentRules := engine.agentRules.map invalidateAll }

def invalidateAgentRules (engine : PermissionEngine) (agentId : String) : PermissionEngine :=
  { engine with agentRules := engine.agentRules.map (·.invalidate agentId) }

def evaluate (engine : PermissionEngine) (disk : Disk) (request : PermissionRequest) (extraDeny : Option (List Subject)) :
    PermissionResponse × PermissionEngine :=
  let agentId := request.caller.agent
  match engine.agentRules with
  | some store =>
    let ((merged, agentRuleCount), store) := store.getOrLoad disk agentId engine.rules engine.rules.ruleVersion
    if agentRuleCount = 0 then
      (evaluateInner engine.toEvalContext request extraDeny engine.rules engine.indices,
        { engine with agentRules := some store })
    else
      (evaluateInner engine.toEvalContext request extraDeny merged.rules merged.indices,
        { engine with agentRules := some (store.put agentId merged agentRuleCount) })
  | none => (evaluateInner engine.toEvalContext request extraDeny engine.rules engine.indices, engine)

def rulesInForce (engine : PermissionEngine) (disk : Disk) (agentId : String) : RuleSet :=
  match engine.agentRules with
  | some store =>
    let ((merged, agentRuleCount), _) := store.getOrLoad disk agentId engine.rules engine.rules.ruleVersion
    if agentRuleCount = 0 then engine.rules else merged.rules
  | none => engine.rules

theorem evaluate_fst (engine : PermissionEngine) (disk : Disk) (request : PermissionRequest)
    (extraDeny : Option (List Subject)) :
    (engine.evaluate disk request extraDeny).1 =
      evaluateWithRules engine.toEvalContext request extraDeny (engine.rulesInForce disk request.caller.agent) := by
  unfold evaluate rulesInForce evaluateWithRules
  cases engine.agentRules with
  | none => simp only [engine.built]
  | some =>
    simp only
    split
    · simp only [engine.built]
    · simp only [MergedAgentRules.built]

theorem evaluate_snd (engine : PermissionEngine) (disk : Disk) (request : PermissionRequest)
    (extraDeny : Option (List Subject)) :
    (engine.evaluate disk request extraDeny).2 =
      { engine with
        agentRules := engine.agentRules.map fun store => store.afterEvaluate disk request.caller.agent engine.rules } := by
  obtain ⟨context, rules, indices, built, store⟩ := engine
  unfold evaluate afterEvaluate
  cases store with
  | none => rfl
  | some =>
    simp only [Option.map_some]
    split <;> rfl

variable {engine : PermissionEngine}

theorem rulesInForce_of_none (h : engine.agentRules = none) (disk : Disk) (agentId : String) :
    engine.rulesInForce disk agentId = engine.rules := by
  simp [rulesInForce, h]

theorem rulesInForce_invalidated {store : AgentRuleStore} (h : engine.agentRules = some store)
    (disk : Disk) (agentId : String) (hown : rulesOfFile (disk (store.agentPermissionsPath agentId)) ≠ []) :
    (engine.invalidateAgentRules agentId).rulesInForce disk agentId =
      mergedWith engine.rules (rulesOfFile (disk (store.agentPermissionsPath agentId))) := by
  have hstore : (engine.invalidateAgentRules agentId).agentRules = some (store.invalidate agentId) := by
    simp [invalidateAgentRules, h]
  have hrules : (engine.invalidateAgentRules agentId).rules = engine.rules := rfl
  have hnone : ∀ version, ((store.invalidate agentId).syncVersion version).cache.lookup agentId = none := by
    intro version
    unfold syncVersion
    split
    · exact AList.lookup_empty agentId
    · exact AList.lookup_erase agentId _
  have hpath : ∀ version, ((store.invalidate agentId).syncVersion version).agentPermissionsPath agentId =
      store.agentPermissionsPath agentId := by
    intro version
    unfold syncVersion
    split <;> rfl
  unfold rulesInForce
  simp only [hstore, hrules, getOrLoad, needsReload, hnone, hpath, if_true, AList.lookup_insert, Option.getD_some]
  rw [if_neg (by simpa [loadAgentEntry] using hown)]
  rfl

end PermissionEngine

end CloseClaw.Permission
