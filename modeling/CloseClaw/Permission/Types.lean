/- The permission engine's data (`engine/engine_types.rs`, `templates.rs`). A template override is
   kept as `serde_json` reads it. -/

import Mathlib.Data.List.AList

namespace CloseClaw.Permission

abbrev HashMap (κ ν : Type) := AList fun _ : κ => ν

inductive Effect where
  | deny
  | allow
  deriving DecidableEq

inductive MatchType where
  | exact
  | glob
  deriving DecidableEq

inductive MessageDirection where
  | send
  | receive
  | both
  deriving DecidableEq

inductive RiskLevel where
  | low
  | medium
  | high
  | critical
  deriving DecidableEq

def RiskLevel.isHighOrCritical : RiskLevel → Bool
  | .high | .critical => true
  | .low | .medium => false

inductive SessionMode where
  | normal
  | plan
  | auto
  deriving DecidableEq

inductive CommandArgs where
  | any
  | allowed (allowed : List String)
  | blocked (blocked : List String)
  deriving DecidableEq

inductive Action where
  | file (operation : String) (paths : List String)
  | command (command : String) (args : CommandArgs)
  | network (hosts : List String) (ports : List UInt16)
  | toolCall (skill : String) (methods : List String)
  | interAgent (agents : List String)
  | configWrite (files : List String)
  | message (direction : MessageDirection) (targets : List String)
  | all
  deriving DecidableEq

inductive Subject where
  | agentOnly (agent : String) (matchType : MatchType)
  | userAndAgent (userId agent : String) (userMatch agentMatch : MatchType)
  | userOnly (userId : String) (matchType : MatchType)
  deriving DecidableEq

def Subject.isAgentOnly : Subject → Bool
  | .agentOnly .. => true
  | _ => false

def Subject.isUserAndAgent : Subject → Bool
  | .userAndAgent .. => true
  | _ => false

def Subject.isUserOnly : Subject → Bool
  | .userOnly .. => true
  | _ => false

structure TemplateRef where
  name : String
  overrides : List (String × Option (List Action))
  deriving DecidableEq

structure Rule where
  name : String
  subject : Subject
  effect : Effect
  actions : List Action
  template : Option TemplateRef
  priority : Int
  deriving DecidableEq

structure Defaults where
  fileRead : Effect
  fileWrite : Effect
  exec : Effect
  network : Effect
  interAgent : Effect
  config : Effect
  toolCall : Effect
  message : Effect

def Defaults.userDefaults : Defaults := ⟨.deny, .deny, .deny, .deny, .deny, .deny, .deny, .deny⟩

def Defaults.default : Defaults := { Defaults.userDefaults with message := .allow }

structure RuleSet where
  rules : List Rule
  defaults : Defaults
  userDefaults : Defaults
  ruleVersion : String

def RuleSet.default : RuleSet := ⟨[], .default, .default, ""⟩

structure Template where
  actions : List Action

structure Caller where
  userId : String
  agent : String

inductive PermissionRequestBody where
  | fileOp (agent path op : String)
  | commandExec (agent cmd : String) (args : List String)
  | netOp (agent host : String) (port : UInt16)
  | toolCall (agent skill method : String)
  | interAgentMsg (src dst : String)
  | configWrite (agent configFile : String)
  | slashCommand (agent command : String)
  | messageSend (agent : String) (direction : MessageDirection) (target : String)
  deriving DecidableEq

def PermissionRequestBody.dimensionName : PermissionRequestBody → Option String
  | .fileOp _ _ op => if op = "read" then some "file_read" else if op = "write" then some "file_write" else none
  | .commandExec .. => some "exec"
  | .netOp .. => some "network"
  | .interAgentMsg .. => some "spawn"
  | .toolCall .. => some "tool_call"
  | .configWrite .. => some "config_write"
  | .messageSend .. => some "message"
  | .slashCommand .. => none

def PermissionRequestBody.agentId : PermissionRequestBody → String
  | .fileOp agent .. => agent
  | .commandExec agent .. => agent
  | .netOp agent .. => agent
  | .toolCall agent .. => agent
  | .interAgentMsg src _ => src
  | .configWrite agent _ => agent
  | .slashCommand agent _ => agent
  | .messageSend agent .. => agent

def PermissionRequestBody.isConfigWrite : PermissionRequestBody → Bool
  | .configWrite .. => true
  | _ => false

inductive PermissionRequest where
  | withCaller (caller : Caller) (request : PermissionRequestBody) (ownerId : Option String)
  | bare (body : PermissionRequestBody)

namespace PermissionRequest

def body : PermissionRequest → PermissionRequestBody
  | .withCaller _ request _ => request
  | .bare body => body

def caller : PermissionRequest → Caller
  | .withCaller caller _ _ => caller
  | .bare body => ⟨"", body.agentId⟩

def ownerId : PermissionRequest → Option String
  | .withCaller _ _ ownerId => ownerId
  | .bare _ => none

def agentId (r : PermissionRequest) : String := r.body.agentId

end PermissionRequest

inductive PermissionResponse where
  | allowed (contextModifier : Option String)
  | denied (reason rule : String) (riskLevel : RiskLevel) (approvalRequestId : Option String)
  deriving DecidableEq

def PermissionResponse.isAllowed : PermissionResponse → Bool
  | .allowed _ => true
  | .denied .. => false

@[simp] theorem isAllowed_allowed (m : Option String) : (PermissionResponse.allowed m).isAllowed = true := rfl

@[simp] theorem isAllowed_denied (a b : String) (r : RiskLevel) (i : Option String) :
    (PermissionResponse.denied a b r i).isAllowed = false := rfl

def globMatchVec : List Char → List Char → Bool
  | [], [] => true
  | '*' :: '*' :: s :: pat, text =>
    if s = '/' ∨ s = '\\' then
      if pat ≠ [] then
        match text with
        | [] => globMatchVec pat []
        | c :: text => globMatchVec pat (c :: text) || globMatchVec ('*' :: '*' :: s :: pat) text
      else
        -- the pattern ends in `**/`: at the end of the text, or before a separator
        match text with
        | [] => true
        | c :: _ => c == '/'
    else
      match text with
      | [] => true
      | c :: text => globMatchVec (s :: pat) (c :: text) || globMatchVec ('*' :: '*' :: s :: pat) text
  | ['*', '*'], [] => true
  | ['*', '*'], c :: text => globMatchVec [] (c :: text) || globMatchVec ['*', '*'] text
  | '*' :: pat, [] => globMatchVec pat []
  | '*' :: pat, c :: text => c != '/' && (globMatchVec pat (c :: text) || globMatchVec ('*' :: pat) text)
  | p :: pat, c :: text => (p == '?' || p == c) && globMatchVec pat text
  | _, _ => false
termination_by pat text => pat.length + text.length

def globMatch (pattern text : String) : Bool :=
  pattern == "**" || pattern == "*" || globMatchVec pattern.toList text.toList

def actionMatchesRequest (action : Action) (request : PermissionRequestBody) : Bool :=
  match action, request with
  | .all, _ => true
  | .file operation paths, .fileOp _ path op => operation == op && paths.any (globMatch · path)
  | .command command args, .commandExec _ cmd reqArgs =>
    globMatch command cmd && match args with
      | .any => true
      | .allowed allowed => reqArgs.all fun arg => allowed.any (globMatch · arg)
      | .blocked blocked => reqArgs.any fun arg => blocked.any (globMatch · arg)
  | .network hosts ports, .netOp _ host port =>
    (hosts.isEmpty || hosts.any (globMatch · host)) && (ports.isEmpty || ports.contains port)
  | .toolCall skill methods, .toolCall _ s method => skill == s && (methods.isEmpty || methods.contains method)
  | .interAgent agents, .interAgentMsg _ dst => agents.isEmpty || agents.any (globMatch · dst)
  | .configWrite files, .configWrite _ configFile => files.isEmpty || files.any (globMatch · configFile)
  | .message ruleDir targets, .messageSend _ reqDir target =>
    (ruleDir == .both || ruleDir == reqDir) && (targets.isEmpty || targets.any (globMatch · target))
  | _, _ => false

def MatchType.test (m : MatchType) (pattern text : String) : Bool :=
  match m with
  | .exact => pattern == text
  | .glob => globMatch pattern text

def Subject.matchesCaller (s : Subject) (caller : Caller) : Bool :=
  match s with
  | .agentOnly agent m => m.test agent caller.agent
  | .userAndAgent userId agent um am => um.test userId caller.userId && am.test agent caller.agent
  | .userOnly userId m => m.test userId caller.userId

theorem globMatchVec_cons {p c : Char} {pat text : List Char} (h : p ≠ '*') :
    globMatchVec (p :: pat) (c :: text) = ((p == '?' || p == c) && globMatchVec pat text) := by
  rw [globMatchVec] <;> intros <;> simp_all

theorem globMatchVec_self : ∀ {l : List Char}, '*' ∉ l → globMatchVec l l = true := by
  intro l
  induction l with
  | nil => intro _; simp [globMatchVec]
  | cons c l ih =>
    intro h
    have hc : c ≠ '*' := fun e => h (e ▸ List.mem_cons_self)
    rw [globMatchVec_cons hc, ih fun hm => h (List.mem_cons_of_mem _ hm)]
    simp

theorem globMatch_self {s : String} (h : '*' ∉ s.toList) : globMatch s s = true := by
  simp [globMatch, globMatchVec_self h]

end CloseClaw.Permission
