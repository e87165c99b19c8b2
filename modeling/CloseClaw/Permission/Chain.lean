/- Evaluation along a spawn chain (`agent_permissions.rs`, `engine_helpers.rs`,
   `engine_chain.rs`). -/

import CloseClaw.Lib.AncestorWalk
import CloseClaw.Permission.AgentRules

namespace CloseClaw.Permission

open Lib
open Lib.AncestorWalk (Ancestors walk foldWhile walk_eq foldWhile_of_some foldWhile_of_none)

def dimensions : List String :=
  ["exec", "file_read", "file_write", "network", "spawn", "tool_call", "config_write", "message"]

structure PermissionLimits where
  commands : List String
  paths : List String
  timeoutMs : Option UInt64

def PermissionLimits.default : PermissionLimits := ⟨[], [], none⟩

structure ActionPermission where
  allowed : Bool
  limits : PermissionLimits

structure AgentPermissions where
  agentId : String
  permissions : HashMap String ActionPermission
  inheritedFrom : Option String

def intersectVec (a b : Option (List String)) : List String :=
  match a, b with
  | some a, some b => a.filter b.contains
  | some a, none => a
  | none, some b => b
  | none, none => []

def intersectOptionMin (a b : Option UInt64) : Option UInt64 :=
  match a, b with
  | some a, some b => some (min a b)
  | some a, none => some a
  | none, some b => some b
  | none, none => none

namespace AgentPermissions

def isAllowed (p : AgentPermissions) (action : String) : Bool := ((p.permissions.lookup action).map (·.allowed)).getD false

def intersectDim (p parent : AgentPermissions) (dim : String) : ActionPermission :=
  let selfPerm := p.permissions.lookup dim
  let parentPerm := parent.permissions.lookup dim
  let selfAllowed := (selfPerm.map (·.allowed)).getD false
  let parentAllowed := (parentPerm.map (·.allowed)).getD false
  if selfAllowed && parentAllowed then
    let selfLimits := selfPerm.map (·.limits)
    let parentLimits := parentPerm.map (·.limits)
    { allowed := true
      limits :=
        { commands := intersectVec (selfLimits.map (·.commands)) (parentLimits.map (·.commands))
          paths := intersectVec (selfLimits.map (·.paths)) (parentLimits.map (·.paths))
          timeoutMs := intersectOptionMin (selfLimits.bind (·.timeoutMs)) (parentLimits.bind (·.timeoutMs)) } }
  else { allowed := false, limits := .default }

def intersect (p parent : AgentPermissions) : AgentPermissions :=
  { agentId := p.agentId
    permissions := KeyIndex.fill (p.intersectDim parent) dimensions ∅
    inheritedFrom := some parent.agentId }

def denies (p : AgentPermissions) (dim : String) : Bool := (p.permissions.lookup dim).any (!·.allowed)

end AgentPermissions

abbrev AgentPermissionProvider := String → Option AgentPermissions

structure SessionLookup where
  getParentOf : String → Option String
  getChatId : String → Option String

def getAgentDenySubjects (rules : RuleSet) (parentAgentId childAgentId : String) : List Subject :=
  rules.rules.filterMap fun rule =>
    if rule.effect = .deny then
      match rule.subject with
      | .agentOnly agent matchType => if agent = parentAgentId then some (.agentOnly childAgentId matchType) else none
      | _ => none
    else none

/-- The source's `seen` set holds `(agent, match_type)` of every `AgentOnly` subject kept
    so far, which is all of such a subject. -/
def addUnseen (all : List Subject) (subject : Subject) : List Subject :=
  match subject with
  | .agentOnly .. => if subject ∈ all then all else all ++ [subject]
  | _ => all ++ [subject]

def denyVisit (lookup : SessionLookup) (rules : RuleSet) (childAgentId : String) (all : List Subject) (session : String) :
    Option (List Subject) :=
  (lookup.getChatId session).map fun parentAgentId =>
    (getAgentDenySubjects rules parentAgentId childAgentId).foldl addUnseen all

def collectChainDenySubjects (fuel : Nat) (lookup : SessionLookup) (rules : RuleSet)
    (parentSessionId childAgentId : String) : Option (List Subject) :=
  walk lookup.getParentOf (denyVisit lookup rules childAgentId) fuel parentSessionId []

def effectiveVisit (lookup : SessionLookup) (provider : AgentPermissionProvider) (result : AgentPermissions)
    (ancestor : String) : Option AgentPermissions :=
  (lookup.getChatId ancestor).map fun ancestorAgentId =>
    match provider ancestorAgentId with
    | some ancestorPerms => result.intersect ancestorPerms
    | none => result

def collectChainEffectivePermissions (fuel : Nat) (lookup : SessionLookup) (provider : AgentPermissionProvider)
    (parentSessionId parentAgentId : String) : Option (Option AgentPermissions) :=
  match provider parentAgentId with
  | none => some none
  | some result =>
    match lookup.getParentOf parentSessionId with
    | none => some (some result)
    | some ancestor => (walk lookup.getParentOf (effectiveVisit lookup provider) fuel ancestor result).map some

def collectChainEffective (fuel : Nat) (lookup : SessionLookup) (sessionId : String) (provider : AgentPermissionProvider) :
    Option (Option AgentPermissions) :=
  match lookup.getParentOf sessionId with
  | none => some none
  | some parentSessionId =>
    match lookup.getChatId parentSessionId with
    | none => some none
    | some parentAgentId => collectChainEffectivePermissions fuel lookup provider parentSessionId parentAgentId

def chainDeniedDim (chainEffective : Option AgentPermissions) (body : PermissionRequestBody) : Option String :=
  match chainEffective, body.dimensionName with
  | some chainPerms, some dim => if chainPerms.denies dim then some dim else none
  | _, _ => none

def PermissionEngine.evaluateWithChain (engine : PermissionEngine) (disk : Disk) (fuel : Nat) (request : PermissionRequest)
    (lookup : SessionLookup) (sessionId : String) (provider : AgentPermissionProvider) :
    Option (PermissionResponse × PermissionEngine) := do
  let chainEffective ← collectChainEffective fuel lookup sessionId provider
  let denySubjects ← collectChainDenySubjects fuel lookup engine.rules sessionId request.agentId
  let extraDeny := if denySubjects.isEmpty then none else some denySubjects
  let (response, engine) := engine.evaluate disk request extraDeny
  match chainDeniedDim chainEffective request.body with
  | some dim =>
    return (deniedBy ("action denied by parent agent chain: dimension '" ++ dim ++ "' denied by ancestor")
      "<chain_intersection>" request.body, engine)
  | none => return (response, engine)

def reachedAgents (lookup : SessionLookup) : List String → List String
  | [] => []
  | session :: rest =>
    match lookup.getChatId session with
    | some agent => agent :: reachedAgents lookup rest
    | none => []

open AgentPermissions

section

variable {lookup : SessionLookup} {provider : AgentPermissionProvider} {rules : RuleSet} {child : String}

variable {sessions : List String} {s : Subject}

theorem mem_foldl_addUnseen {subjects : List Subject} :
    ∀ {all : List Subject}, s ∈ subjects.foldl addUnseen all ↔ s ∈ all ∨ s ∈ subjects := by
  induction subjects with
  | nil => simp
  | cons x subjects ih =>
    intro all
    have hx : s ∈ addUnseen all x ↔ s ∈ all ∨ s = x := by
      unfold addUnseen
      split
      · split
        · rename_i hmem
          exact ⟨.inl, fun h => h.elim id fun e => e ▸ hmem⟩
        · simp
      · simp
    rw [List.foldl_cons, ih, hx, List.mem_cons, or_assoc]

theorem mem_denyFold :
    ∀ {all : List Subject}, s ∈ foldWhile (denyVisit lookup rules child) all sessions ↔
      s ∈ all ∨ ∃ agent ∈ reachedAgents lookup sessions, s ∈ getAgentDenySubjects rules agent child := by
  induction sessions with
  | nil => simp [foldWhile, reachedAgents]
  | cons x sessions ih =>
    intro all
    cases hc : lookup.getChatId x with
    | none => rw [foldWhile_of_none (by simp [denyVisit, hc])]; simp [reachedAgents, hc]
    | some agent =>
      have hv : denyVisit lookup rules child all x = some ((getAgentDenySubjects rules agent child).foldl addUnseen all) := by
        simp [denyVisit, hc]
      rw [foldWhile_of_some hv, ih, mem_foldl_addUnseen]
      simp [reachedAgents, hc, or_assoc]

theorem effectiveFold_eq :
    ∀ {result : AgentPermissions}, foldWhile (effectiveVisit lookup provider) result sessions =
      ((reachedAgents lookup sessions).filterMap provider).foldl intersect result := by
  induction sessions with
  | nil => intro result; rfl
  | cons x sessions ih =>
    intro result
    cases hc : lookup.getChatId x with
    | none => rw [foldWhile_of_none (by simp [effectiveVisit, hc])]; simp [reachedAgents, hc]
    | some agent =>
      have hv : effectiveVisit lookup provider result x = some ((provider agent).toList.foldl intersect result) := by
        cases hp : provider agent <;> simp [effectiveVisit, hc, hp]
      rw [foldWhile_of_some hv, ih]
      cases hp : provider agent <;> simp [reachedAgents, hc, hp]

end

section

variable {p q : AgentPermissions} {dim : String}

theorem intersectDim_allowed : (p.intersectDim q dim).allowed = (p.isAllowed dim && q.isAllowed dim) := by
  unfold intersectDim isAllowed
  simp only
  split
  · rename_i h; rw [h]
  · rename_i h; rw [Bool.eq_false_iff.mpr h]

theorem lookup_intersect (hd : dim ∈ dimensions) :
    (p.intersect q).permissions.lookup dim = some (p.intersectDim q dim) := by
  rw [intersect, KeyIndex.lookup_fill, if_pos hd]

theorem denies_intersect (hd : dim ∈ dimensions) :
    (p.intersect q).denies dim = !(p.isAllowed dim && q.isAllowed dim) := by
  rw [denies, lookup_intersect hd, Option.any_some, intersectDim_allowed]

theorem isAllowed_intersect (hd : dim ∈ dimensions) :
    (p.intersect q).isAllowed dim = (p.isAllowed dim && q.isAllowed dim) := by
  rw [isAllowed, lookup_intersect hd, Option.map_some, Option.getD_some, intersectDim_allowed]

theorem denies_foldl_intersect (hd : dim ∈ dimensions) (perms : List AgentPermissions) :
    ∀ p : AgentPermissions, (perms.foldl intersect p).denies dim =
      if perms = [] then p.denies dim else !(p :: perms).all (·.isAllowed dim) := by
  induction perms with
  | nil => intro p; rfl
  | cons q perms ih =>
    intro p
    rw [List.foldl_cons, ih, if_neg (List.cons_ne_nil q perms)]
    split
    · rename_i h; simp [h, denies_intersect hd]
    · simp [isAllowed_intersect hd, Bool.and_assoc]

end

theorem dimensionName_mem {body : PermissionRequestBody} {dim : String} (h : body.dimensionName = some dim) :
    dim ∈ dimensions := by
  cases body with
  | fileOp =>
    simp only [PermissionRequestBody.dimensionName] at h
    split at h
    · cases h; decide
    · split at h
      · cases h; decide
      · cases h
  | slashCommand => cases h
  | _ => cases h; decide

end CloseClaw.Permission
