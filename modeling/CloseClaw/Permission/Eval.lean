/- One request against one rule set (`engine_eval.rs`). -/

import Mathlib.Data.List.Sort
import CloseClaw.Lib.KeyIndex
import CloseClaw.Permission.Types
import CloseClaw.Permission.ModeFilter

namespace CloseClaw.Permission

open Lib
open Lib.KeyIndex (push indexed)

structure RuleIndices where
  agent : HashMap String (List Nat)
  userAgent : HashMap String (List Nat)

def userAgentKey (userId agent : String) : String := userId ++ ":" ++ agent

def RuleIndices.add (ix : RuleIndices) (entry : Rule × Nat) : RuleIndices :=
  match entry.1.subject with
  | .agentOnly agent _ => { ix with agent := push ix.agent agent entry.2 }
  | .userAndAgent userId agent _ _ =>
    { agent := push ix.agent agent entry.2, userAgent := push ix.userAgent (userAgentKey userId agent) entry.2 }
  | .userOnly userId _ => { ix with userAgent := push ix.userAgent (userAgentKey userId "*") entry.2 }

def buildRuleIndices (rules : RuleSet) : RuleIndices := rules.rules.zipIdx.foldl RuleIndices.add ⟨∅, ∅⟩

def priorityAt (rules : RuleSet) (idx : Nat) : Int := ((rules.rules[idx]?).map Rule.priority).getD 0

def sortByPriority (rules : RuleSet) (candidates : List Nat) : List Nat :=
  candidates.insertionSort fun a b => priorityAt rules b ≤ priorityAt rules a

def positions (rules : RuleSet) (test : Rule → Bool) : List Nat :=
  (rules.rules.zipIdx.filter fun entry => test entry.1).map Prod.snd

def orIfEmpty (candidates fallback : List Nat) : List Nat := if candidates.isEmpty then fallback else candidates

def collectAgentCandidates (caller : Caller) (agentId : String) (rules : RuleSet) (ix : RuleIndices) : List Nat :=
  let candidates := (indexed ix.agent agentId).filter fun idx => (rules.rules[idx]?).any (·.subject.isAgentOnly)
  sortByPriority rules (orIfEmpty candidates
    (positions rules fun rule => rule.subject.isAgentOnly && rule.subject.matchesCaller caller))

def collectUserAgentCandidates (caller : Caller) (agentId : String) (rules : RuleSet) (ix : RuleIndices) : List Nat :=
  let candidates := indexed ix.userAgent (userAgentKey caller.userId agentId) ++
    indexed ix.userAgent (userAgentKey caller.userId "*")
  sortByPriority rules (orIfEmpty candidates
    (positions rules fun rule =>
      (rule.subject.isUserAndAgent || rule.subject.isUserOnly) && rule.subject.matchesCaller caller))

def resolveTemplateActions (tmpl : Template) (overrides : List (String × Option (List Action))) : List Action :=
  match overrides.lookup "actions" with
  | some (some actions) => actions
  | _ => tmpl.actions

/-- One rule per template action, nothing for an unknown template, the rule itself without one. -/
def expandRule (templates : HashMap String Template) (rule : Rule) : List Rule :=
  match rule.template with
  | some ref =>
    match templates.lookup ref.name with
    | some tmpl =>
      (resolveTemplateActions tmpl ref.overrides).map fun action =>
        { name := rule.name, subject := rule.subject, effect := rule.effect, actions := [action], template := none,
          priority := rule.priority }
    | none => []
  | none => [rule]

def expandTemplatesSync (templates : HashMap String Template) (rules : RuleSet) (candidates : List Nat) : List Rule :=
  (candidates.filterMap (rules.rules[·]?)).flatMap (expandRule templates)

def ruleActionsMatch (templates : HashMap String Template) (rule : Rule) (request : PermissionRequestBody) : Bool :=
  let actions := match rule.template with
    | some ref =>
      match templates.lookup ref.name with
      | some tmpl => resolveTemplateActions tmpl ref.overrides
      | none => rule.actions
    | none => rule.actions
  actions.any (actionMatchesRequest · request)

def matchRulesLoop (templates : HashMap String Template) (caller : Caller) (request : PermissionRequestBody) :
    Option String → List Rule → Option PermissionResponse
  | matching, [] => if matching.isSome then some (.allowed none) else none
  | matching, rule :: rest =>
    if !rule.subject.matchesCaller caller then matchRulesLoop templates caller request matching rest
    else if !ruleActionsMatch templates rule request then matchRulesLoop templates caller request matching rest
    else if rule.effect = .deny then
      some (deniedBy ("action denied by rule '" ++ rule.name ++ "'") rule.name request)
    else matchRulesLoop templates caller request (some rule.name) rest

def matchRules (templates : HashMap String Template) (candidates : List Nat) (rules : RuleSet) (caller : Caller)
    (request : PermissionRequestBody) : Option PermissionResponse :=
  matchRulesLoop templates caller request none (expandTemplatesSync templates rules candidates)

def Defaults.effectFor (defaults : Defaults) : PermissionRequestBody → Effect
  | .fileOp _ _ op => if op = "write" then defaults.fileWrite else defaults.fileRead
  | .commandExec .. => defaults.exec
  | .netOp .. => defaults.network
  | .interAgentMsg .. => defaults.interAgent
  | .configWrite .. => defaults.config
  | .slashCommand .. => defaults.exec
  | .toolCall .. => defaults.toolCall
  | .messageSend .. => defaults.message

def defaultResponse (request : PermissionRequestBody) (defaults : Defaults) (reason : String) : PermissionResponse :=
  if request.isConfigWrite then
    deniedBy "config write is always high-risk, only single approval is allowed" "<config_write_default_guard>" request
  else
    match defaults.effectFor request with
    | .allow => .allowed none
    | .deny => deniedBy reason "default" request

def PermissionRequestBody.fileAccess : PermissionRequestBody → Option (String × String)
  | .fileOp agent path op => if op = "read" ∨ op = "write" then some (agent, path) else none
  | _ => none

def PermissionRequest.isOwner (request : PermissionRequest) : Bool := request.ownerId == some request.caller.userId

def guardConfigWrite (body : PermissionRequestBody) : Option PermissionResponse → Option PermissionResponse
  | some (.allowed m) =>
    if body.isConfigWrite then
      some (deniedBy "config write cannot be whitelisted, only single approval" "<config_write_guard>" body)
    else some (.allowed m)
  | other => other

def mergePhases (body : PermissionRequestBody) (caller : Caller) (rules : RuleSet)
    (agentResult userResult : Option PermissionResponse) : PermissionResponse :=
  let fallback :=
    defaultResponse body (if caller.userId != "" then rules.userDefaults else rules.defaults) "no matching rule"
  match agentResult, userResult with
  | some (.denied ..), _ => deniedBy "action denied by agent rule" "<agent_phase>" body
  | _, some (.denied ..) => deniedBy "action denied by user rule" "<user_phase>" body
  | some (.allowed _), some (.allowed _) => .allowed none
  | some (.allowed _), none => if caller.userId == "" then .allowed none else fallback
  | none, _ => fallback

def decideByRules (E : EvalContext) (request : PermissionRequest) (extraDeny : Option (List Subject)) (rules : RuleSet)
    (agentCandidates userCandidates : List Nat) : PermissionResponse :=
  let body := request.body
  let caller := request.caller
  let agentResult := guardConfigWrite body (matchRules E.templates agentCandidates rules caller body)
  if request.isOwner then agentResult.getD (defaultResponse body rules.defaults "no matching rule")
  else
    let userResult := guardConfigWrite body (matchRules E.templates userCandidates rules caller body)
    let response := mergePhases body caller rules agentResult userResult
    if (extraDeny.getD []).any (·.matchesCaller caller) then
      deniedBy "action denied by parent agent restriction" "<extra_deny>" body
    else response

def fileGuards (E : EvalContext) (request : PermissionRequest) : Option PermissionResponse :=
  match request.body.fileAccess with
  | some (agent, path) =>
    if isConfigDirPath E.dataRoot path then
      some (deniedBy "config directory access denied by hardcoded rule" "<config_dir_guard>" request.body)
    else if isWorkspacePath E.dataRoot agent request.caller.userId path then some (.allowed none)
    else none
  | none => none

def decideEarly (E : EvalContext) (request : PermissionRequest) : Option PermissionResponse :=
  let agentId := request.caller.agent
  (checkPlanModeFilter E request agentId).or
    ((if request.isOwner then none else checkAutoModeFilter E request agentId).or (fileGuards E request))

def evaluateInner (E : EvalContext) (request : PermissionRequest) (extraDeny : Option (List Subject)) (rules : RuleSet)
    (ix : RuleIndices) : PermissionResponse :=
  match decideEarly E request with
  | some response => response
  | none =>
    let caller := request.caller
    decideByRules E request extraDeny rules (collectAgentCandidates caller caller.agent rules ix)
      (collectUserAgentCandidates caller caller.agent rules ix)

def evaluateWithRules (E : EvalContext) (request : PermissionRequest) (extraDeny : Option (List Subject))
    (rules : RuleSet) : PermissionResponse :=
  evaluateInner E request extraDeny rules (buildRuleIndices rules)

end CloseClaw.Permission
