/- What a user may do, dimension by dimension (`engine_spawn.rs`). -/

import CloseClaw.Permission.ApprovalFlow
import CloseClaw.Permission.Chain

namespace CloseClaw.Permission

open Lib

inductive SpawnPermissionError where
  | fullyDenied (childAgentId parentAgentId : String)
  | fullyDeniedWithUser (childAgentId parentAgentId userId : String)
  deriving DecidableEq

def AgentPermissions.isFullyDenied (p : AgentPermissions) : Bool := !dimensions.any p.isAllowed

def validateAndInjectSpawn (childAgentId : String) (childPerms parentPerms : AgentPermissions)
    (userPerms : Option AgentPermissions) (userId : Option String) (extraDenySubjects : Option (List Subject)) :
    Except SpawnPermissionError Unit :=
  let caller : Caller := ⟨userId.getD "", childAgentId⟩
  if (extraDenySubjects.getD []).any (·.matchesCaller caller) then .error (.fullyDenied childAgentId parentPerms.agentId)
  else
    let effective := childPerms.intersect parentPerms
    let finalEffective := match userPerms with
      | some user => effective.intersect user
      | none => effective
    if finalEffective.isFullyDenied then
      match userId with
      | some uid => .error (.fullyDeniedWithUser childAgentId parentPerms.agentId uid)
      | none => .error (.fullyDenied childAgentId parentPerms.agentId)
    else .ok ()

def representative (agentId : String) : String → PermissionRequestBody
  | "exec" => .commandExec agentId "" []
  | "file_read" => .fileOp agentId "" "read"
  | "file_write" => .fileOp agentId "" "write"
  | "network" => .netOp agentId "" 0
  | "spawn" => .interAgentMsg agentId ""
  | "tool_call" => .toolCall agentId "" ""
  | "config_write" => .configWrite agentId ""
  | _ => .messageSend agentId .both ""

namespace PermissionEngine

def userPhaseOf (engine : PermissionEngine) (caller : Caller) (body : PermissionRequestBody) : Option PermissionResponse :=
  matchRules engine.templates (collectUserAgentCandidates caller caller.agent engine.rules engine.indices) engine.rules
    caller body

def evaluateUserPermissions (engine : PermissionEngine) (userId agentId : String) : AgentPermissions where
  agentId := agentId
  permissions := KeyIndex.fill (fun dim =>
    { allowed := (engine.userPhaseOf ⟨userId, agentId⟩ (representative agentId dim)).any PermissionResponse.isAllowed
      limits := .default }) dimensions ∅
  inheritedFrom := none

end PermissionEngine

def isFileDim (dim operation : String) : Prop :=
  dim = "file_read" ∧ operation = "read" ∨ dim = "file_write" ∧ operation = "write"

namespace Action

def Concerns (dim : String) (action : Action) : Prop :=
  ∃ body : PermissionRequestBody, body.dimensionName = some dim ∧ actionMatchesRequest action body = true

def noneOrEmpty (patterns : List String) : Bool := patterns.isEmpty || patterns.any (globMatch · "")

def CoversEmpty (dim : String) : Action → Prop
  | .file operation paths => isFileDim dim operation ∧ ∃ p ∈ paths, globMatch p "" = true
  | .command _ (.blocked _) => False
  | .command pattern _ => dim = "exec" ∧ globMatch pattern "" = true
  | .network hosts ports => dim = "network" ∧ noneOrEmpty hosts = true ∧ (ports = [] ∨ 0 ∈ ports)
  | .toolCall skill methods => dim = "tool_call" ∧ skill = "" ∧ (methods = [] ∨ "" ∈ methods)
  | .interAgent agents => dim = "spawn" ∧ noneOrEmpty agents = true
  | .configWrite files => dim = "config_write" ∧ noneOrEmpty files = true
  | .message direction targets => dim = "message" ∧ direction = .both ∧ noneOrEmpty targets = true
  | .all => True

theorem dim_cases {dim : String} (h : dim ∈ dimensions) : dim = "exec" ∨ dim = "file_read" ∨ dim = "file_write" ∨
    dim = "network" ∨ dim = "spawn" ∨ dim = "tool_call" ∨ dim = "config_write" ∨ dim = "message" := by
  simpa [dimensions] using h

theorem dimensionName_representative {dim : String} (agentId : String) (h : dim ∈ dimensions) :
    (representative agentId dim).dimensionName = some dim := by
  rcases dim_cases h with rfl | rfl | rfl | rfl | rfl | rfl | rfl | rfl <;> rfl

theorem coversEmpty_iff {dim : String} (agentId : String) (h : dim ∈ dimensions) (action : Action) :
    action.CoversEmpty dim ↔ actionMatchesRequest action (representative agentId dim) = true := by
  rcases dim_cases h with rfl | rfl | rfl | rfl | rfl | rfl | rfl | rfl <;> cases action with
  | command pattern args => cases args <;> simp [CoversEmpty, representative, actionMatchesRequest]
  | message direction => cases direction <;> simp [CoversEmpty, representative, actionMatchesRequest, noneOrEmpty]
  | _ => simp [CoversEmpty, representative, actionMatchesRequest, isFileDim, noneOrEmpty]

end Action

section

variable (engine : PermissionEngine) (caller : Caller)

def UserActs (denies : Bool) (kind : Action → Prop) : Prop :=
  ∃ r ∈ engine.rules.rules, userVisible engine.rules caller r = true ∧ r.subject.matchesCaller caller = true ∧
    r.denies = denies ∧ ∃ a ∈ r.effectiveActions engine.templates, kind a

def Holds (dim : String) : Prop :=
  ∃ body : PermissionRequestBody, body.dimensionName = some dim ∧ ∃ m, engine.userPhaseOf caller body = some (.allowed m)

def Undenied (dim : String) : Prop :=
  ∀ body : PermissionRequestBody, body.dimensionName = some dim → ∀ r ∈ engine.rules.rules,
    userVisible engine.rules caller r = true → r.applies engine.templates caller body = true → r.denies = false

end

variable {engine : PermissionEngine} {caller : Caller} {dim : String} {body : PermissionRequestBody}

theorem applies_iff {r : Rule} : r.applies engine.templates caller body = true ↔ r.subject.matchesCaller caller = true ∧
      ∃ a ∈ r.effectiveActions engine.templates, actionMatchesRequest a body = true := by
  simp [Rule.applies]

theorem userPhaseOf_allowed_iff : (∃ m, engine.userPhaseOf caller body = some (.allowed m)) ↔
    (∃ r ∈ engine.rules.rules, userVisible engine.rules caller r = true ∧
      r.applies engine.templates caller body = true) ∧
    ∀ r ∈ engine.rules.rules, userVisible engine.rules caller r = true →
      r.applies engine.templates caller body = true → r.denies = false := by
  have hverdict : (∃ m, engine.userPhaseOf caller body = some (.allowed m)) ↔
      (engine.userPhaseOf caller body).map PermissionResponse.isAllowed = some true := by
    cases engine.userPhaseOf caller body with
    | none => simp
    | some response => cases response <;> simp
  rw [hverdict, PermissionEngine.userPhaseOf, isAllowed_matchRules, phase, DenyOverrides.combine_eq_allow, engine.built]
  simp only [mem_userCandidates, and_imp, and_assoc]

theorem undenied_iff : Undenied engine caller dim ↔ ¬ UserActs engine caller true (Action.Concerns dim) := by
  constructor
  · rintro h ⟨r, hr, hvis, hsub, hdeny, a, ha, body, hbody, hm⟩
    have := h body hbody r hr hvis (applies_iff.mpr ⟨hsub, a, ha, hm⟩)
    rw [hdeny] at this
    cases this
  · intro h body hbody r hr hvis happ
    cases hdeny : r.denies with
    | false => rfl
    | true =>
      obtain ⟨hsub, a, ha, hm⟩ := applies_iff.mp happ
      exact absurd ⟨r, hr, hvis, hsub, hdeny, a, ha, body, hbody, hm⟩ h

theorem holds_iff (hu : Undenied engine caller dim) : Holds engine caller dim ↔
    UserActs engine caller false (Action.Concerns dim) := by
  constructor
  · rintro ⟨body, hbody, hallowed⟩
    obtain ⟨⟨r, hr, hvis, happ⟩, hnone⟩ := userPhaseOf_allowed_iff.mp hallowed
    obtain ⟨hsub, a, ha, hm⟩ := applies_iff.mp happ
    exact ⟨r, hr, hvis, hsub, hnone r hr hvis happ, a, ha, body, hbody, hm⟩
  · rintro ⟨r, hr, hvis, hsub, -, a, ha, body, hbody, hm⟩
    exact ⟨body, hbody, userPhaseOf_allowed_iff.mpr ⟨⟨r, hr, hvis, applies_iff.mpr ⟨hsub, a, ha, hm⟩⟩, hu body hbody⟩⟩

variable {userId agentId : String}

theorem isAllowed_evaluateUserPermissions (hd : dim ∈ dimensions) :
    (engine.evaluateUserPermissions userId agentId).isAllowed dim = true ↔
      ∃ m, engine.userPhaseOf ⟨userId, agentId⟩ (representative agentId dim) = some (.allowed m) := by
  rw [AgentPermissions.isAllowed, PermissionEngine.evaluateUserPermissions, KeyIndex.lookup_fill, if_pos hd,
    Option.map_some, Option.getD_some]
  cases engine.userPhaseOf ⟨userId, agentId⟩ (representative agentId dim) with
  | none => simp
  | some response => cases response <;> simp

theorem reported_iff (hd : dim ∈ dimensions) (hu : Undenied engine ⟨userId, agentId⟩ dim) :
    (engine.evaluateUserPermissions userId agentId).isAllowed dim = true ↔
      UserActs engine ⟨userId, agentId⟩ false (Action.CoversEmpty dim) := by
  have hbody := Action.dimensionName_representative agentId hd
  rw [isAllowed_evaluateUserPermissions hd, userPhaseOf_allowed_iff, and_iff_left (hu _ hbody)]
  constructor
  · rintro ⟨r, hr, hvis, happ⟩
    obtain ⟨hsub, a, ha, hm⟩ := applies_iff.mp happ
    exact ⟨r, hr, hvis, hsub, hu _ hbody r hr hvis happ, a, ha, (Action.coversEmpty_iff agentId hd a).mpr hm⟩
  · rintro ⟨r, hr, hvis, hsub, -, a, ha, hcovers⟩
    exact ⟨r, hr, hvis, applies_iff.mpr ⟨hsub, a, ha, (Action.coversEmpty_iff agentId hd a).mp hcovers⟩⟩

theorem validateAndInjectSpawn_ok {childAgentId : String} {child parent user : AgentPermissions} {userId : Option String}
    {extra : Option (List Subject)}
    (hextra : ∀ s ∈ extra.getD [], s.matchesCaller ⟨userId.getD "", childAgentId⟩ = false) (hd : dim ∈ dimensions)
    (hchild : child.isAllowed dim = true) (hparent : parent.isAllowed dim = true) (huser : user.isAllowed dim = true) :
    validateAndInjectSpawn childAgentId child parent (some user) userId extra = .ok () := by
  have hno : (extra.getD []).any (·.matchesCaller ⟨userId.getD "", childAgentId⟩) = false := by
    rw [List.any_eq_false]
    intro s hs
    simp [hextra s hs]
  have hall : ((child.intersect parent).intersect user).isAllowed dim = true := by
    simp [isAllowed_intersect hd, hchild, hparent, huser]
  have hnot : ((child.intersect parent).intersect user).isFullyDenied = false := by
    rw [AgentPermissions.isFullyDenied, Bool.not_eq_false', List.any_eq_true]
    exact ⟨dim, hd, hall⟩
  simp [validateAndInjectSpawn, hno, hnot]

/-- Every dimension the user holds something of is reported exactly if something allowed in it
applies to the empty request. -/
theorem user_permissions_are_reported_iff (engine : PermissionEngine) (userId agentId : String) :
    ((∀ dim ∈ dimensions, Holds engine ⟨userId, agentId⟩ dim → Undenied engine ⟨userId, agentId⟩ dim →
        (engine.evaluateUserPermissions userId agentId).isAllowed dim = true) ∧
      ∀ (child parent : AgentPermissions) (extra : Option (List Subject)),
        (∀ s ∈ extra.getD [], s.matchesCaller ⟨userId, agentId⟩ = false) →
        (∃ dim ∈ dimensions, Holds engine ⟨userId, agentId⟩ dim ∧ Undenied engine ⟨userId, agentId⟩ dim ∧
          child.isAllowed dim = true ∧ parent.isAllowed dim = true) →
        validateAndInjectSpawn agentId child parent (some (engine.evaluateUserPermissions userId agentId)) (some userId)
          extra = .ok ()) ↔
    ∀ dim ∈ dimensions, UserActs engine ⟨userId, agentId⟩ true (Action.Concerns dim) ∨
      ¬ UserActs engine ⟨userId, agentId⟩ false (Action.Concerns dim) ∨
      UserActs engine ⟨userId, agentId⟩ false (Action.CoversEmpty dim) := by
  have hdim : ∀ dim ∈ dimensions, (Holds engine ⟨userId, agentId⟩ dim → Undenied engine ⟨userId, agentId⟩ dim →
      (engine.evaluateUserPermissions userId agentId).isAllowed dim = true) ↔
      (UserActs engine ⟨userId, agentId⟩ true (Action.Concerns dim) ∨
        ¬ UserActs engine ⟨userId, agentId⟩ false (Action.Concerns dim) ∨
        UserActs engine ⟨userId, agentId⟩ false (Action.CoversEmpty dim)) := by
    intro dim hd
    by_cases hu : Undenied engine ⟨userId, agentId⟩ dim
    · rw [holds_iff hu, reported_iff hd hu]
      have hden := undenied_iff.mp hu
      tauto
    · refine iff_of_true (fun _ hu' => absurd hu' hu) (.inl ?_)
      by_contra hno
      exact hu (undenied_iff.mpr hno)
  constructor
  · rintro ⟨hreported, -⟩ dim hd
    exact (hdim dim hd).mp (hreported dim hd)
  · intro hcond
    have hreported := fun dim hd => (hdim dim hd).mpr (hcond dim hd)
    refine ⟨hreported, ?_⟩
    rintro child parent extra hextra ⟨dim, hd, hholds, hu, hchild, hparent⟩
    exact validateAndInjectSpawn_ok hextra hd hchild hparent (hreported dim hd hholds hu)

def registeredUser : PermissionEngine :=
  .new (fun _ => "") (.new "/data") (((registerUser [] "u" "feishu" [.basicMessaging]).map (·.1)).getD .default) false

def openAgent : AgentPermissions := ⟨"p", KeyIndex.fill (fun _ => ⟨true, .default⟩) dimensions ∅, none⟩

theorem a_registered_user_cannot_spawn :
    registeredUser.userPhaseOf ⟨"u", "a"⟩ (.toolCall "a" "chat" "send") = some (.allowed none) ∧
      Undenied registeredUser ⟨"u", "a"⟩ "tool_call" ∧
      (registeredUser.evaluateUserPermissions "u" "a").isAllowed "tool_call" = false ∧
      validateAndInjectSpawn "a" openAgent openAgent (some (registeredUser.evaluateUserPermissions "u" "a")) (some "u") none =
        .error (.fullyDeniedWithUser "a" "p" "u") := by
  refine ⟨by decide +kernel, ?_, by decide +kernel, by decide +kernel⟩
  intro body _ r hr _ _
  have hrules : registeredUser.rules.rules = InitialPermissionSet.basicMessaging.toRules "u" := rfl
  rw [hrules] at hr
  simp only [InitialPermissionSet.toRules, List.mem_cons, List.not_mem_nil, or_false] at hr
  rcases hr with rfl | rfl <;> rfl

end CloseClaw.Permission
