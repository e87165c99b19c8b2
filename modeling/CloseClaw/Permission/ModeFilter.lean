/- Risk levels and session-mode filters (`engine_risk.rs`, `engine_mode_filter.rs`). -/

import CloseClaw.Permission.Types
import CloseClaw.Permission.Workspace

namespace CloseClaw.Permission

open Lib
open Lib.RustPath (PathBuf)

def pathHasGit (path : String) : Bool :=
  Text.contains path "/.git/" || Text.endsWith path "/.git" || path == ".git"

def isDestructiveRm (cmd : String) (args : List String) : Bool :=
  cmd == "rm" && args.any fun arg => ["-r", "-R", "-rf", "-fr", "--recursive"].contains arg

def fileRiskPattern (test : String → Bool) (level : RiskLevel) : PermissionRequestBody → Option RiskLevel
  | .fileOp _ path op => if (op == "read" || op == "write") && test path then some level else none
  | _ => none

def highRiskPatterns : List (PermissionRequestBody → Option RiskLevel) :=
  [ fileRiskPattern pathHasGit .high,
    fileRiskPattern (fun path => Text.endsWith path "permissions.json" || Text.contains path "/permissions.json") .critical,
    fileRiskPattern (fun path => Text.contains path "/templates/" && Text.contains path "permission") .critical,
    fun
      | .configWrite .. => some .critical
      | _ => none,
    fun
      | .commandExec _ cmd args => if isDestructiveRm cmd args then some .high else none
      | _ => none ]

def assessRiskLevel (request : PermissionRequestBody) : RiskLevel :=
  (highRiskPatterns.findSome? (· request)).getD .low

structure EvalContext where
  templates : HashMap String Template
  dataRoot : PathBuf
  sessionModeQuery : Option (String → Option SessionMode)
  approvalCallback : Option (Caller → PermissionRequestBody → RiskLevel → String → Option String)

namespace EvalContext

def new (dataRoot : String) : EvalContext := ⟨∅, .ofStr dataRoot, none, none⟩

variable (E : EvalContext)

def sessionMode (agentId : String) : Option SessionMode := E.sessionModeQuery.bind (· agentId)

def submitAutoModeApproval (caller : Caller) (body : PermissionRequestBody) (risk : RiskLevel) (agentId : String) :
    Option String :=
  E.approvalCallback.bind fun callback => callback caller body risk agentId

end EvalContext

def isPlansPath (path : String) : Bool := Text.startsWith path "plans/" || Text.contains path "/plans/"

def deniedBy (reason rule : String) (body : PermissionRequestBody) : PermissionResponse :=
  .denied reason rule (assessRiskLevel body) none

@[simp] theorem isAllowed_deniedBy (reason rule : String) (body : PermissionRequestBody) :
    (deniedBy reason rule body).isAllowed = false := rfl

def askUserContext : String :=
  "[plan_mode_context] AskUserQuestion is for requirement clarification only. Do NOT use it as an approval substitute."

def checkPlanModeFilter (E : EvalContext) (request : PermissionRequest) (agentId : String) : Option PermissionResponse :=
  if E.sessionMode agentId = some .plan then
    match request.body with
    | .fileOp agent path op =>
      if op = "write" then
        if isPlansPath path then none
        else some (deniedBy "write operation denied in Plan mode" "<plan_mode_filter>" (.fileOp agent path op))
      else none
    | .commandExec agent cmd args =>
      some (deniedBy "command execution denied in Plan mode" "<plan_mode_filter>" (.commandExec agent cmd args))
    | .configWrite agent file =>
      some (deniedBy "config write denied in Plan mode" "<plan_mode_filter>" (.configWrite agent file))
    | .toolCall _ skill _ => if skill = "ask_user_question" then some (.allowed (some askUserContext)) else none
    | _ => none
  else none

def checkAutoModeFilter (E : EvalContext) (request : PermissionRequest) (agentId : String) : Option PermissionResponse :=
  if E.sessionMode agentId = some .auto then
    let body := request.body
    let risk := assessRiskLevel body
    if risk.isHighOrCritical then
      some (.denied "Auto Mode: dangerous operation requires user approval" "<auto_mode_filter>" risk
        (E.submitAutoModeApproval request.caller body risk agentId))
    else
      match body with
      | .messageSend _ .send _ =>
        some (.denied "Auto Mode: proactive message sending is not allowed" "<auto_mode_filter>" .low none)
      | _ => none
  else none

def isPlanQuestion (E : EvalContext) (request : PermissionRequest) : Bool :=
  E.sessionMode request.caller.agent = some .plan && match request.body with
    | .toolCall _ skill _ => skill == "ask_user_question"
    | _ => false

def planDenies (E : EvalContext) (request : PermissionRequest) : Bool :=
  E.sessionMode request.caller.agent = some .plan && match request.body with
    | .fileOp _ path op => op == "write" && !isPlansPath path
    | .commandExec .. => true
    | .configWrite .. => true
    | _ => false

def autoDenies (E : EvalContext) (request : PermissionRequest) : Bool :=
  E.sessionMode request.caller.agent = some .auto && ((assessRiskLevel request.body).isHighOrCritical ||
    match request.body with
    | .messageSend _ .send _ => true
    | _ => false)

theorem isAllowed_checkPlanModeFilter (E : EvalContext) (request : PermissionRequest) :
    (checkPlanModeFilter E request request.caller.agent).map PermissionResponse.isAllowed =
      if isPlanQuestion E request then some true else if planDenies E request then some false else none := by
  unfold checkPlanModeFilter isPlanQuestion planDenies
  by_cases hm : E.sessionMode request.caller.agent = some .plan
  · simp only [hm, if_true]
    cases hb : request.body with
    | fileOp agent path op =>
      by_cases ho : op = "write" <;> by_cases hp : isPlansPath path = true <;> simp [ho, hp]
    | toolCall agent skill =>
      by_cases hs : skill = "ask_user_question" <;> simp [hs]
    | _ => simp
  · simp [hm]

theorem isAllowed_checkAutoModeFilter (E : EvalContext) (request : PermissionRequest) :
    (checkAutoModeFilter E request request.caller.agent).map PermissionResponse.isAllowed =
      if autoDenies E request then some false else none := by
  unfold checkAutoModeFilter autoDenies
  by_cases hm : E.sessionMode request.caller.agent = some .auto
  · by_cases hr : (assessRiskLevel request.body).isHighOrCritical = true
    · simp [hm, hr]
    · simp only [hm, hr]
      cases hb : request.body with
      | messageSend agent dir => cases dir <;> simp
      | _ => simp
  · simp [hm]

def RiskLevel.rank : RiskLevel → Nat
  | .low => 0
  | .medium => 1
  | .high => 2
  | .critical => 3

def RiskLevel.max (a b : RiskLevel) : RiskLevel := if a.rank < b.rank then b else a

def matchingLevels (request : PermissionRequestBody) : List RiskLevel := highRiskPatterns.filterMap (· request)

def highestLevel (request : PermissionRequestBody) : RiskLevel := (matchingLevels request).foldr RiskLevel.max .low

def isRecursiveCluster (arg : String) : Bool :=
  match arg.toList with
  | '-' :: letters => letters.all Char.isAlpha && (letters.contains 'r' || letters.contains 'R')
  | _ => false

def isRecursiveRm : PermissionRequestBody → Bool
  | .commandExec _ cmd args => cmd == "rm" && args.any fun arg => arg == "--recursive" || isRecursiveCluster arg
  | _ => false

def isPermissionsPath (path : String) : Bool :=
  Text.endsWith path "permissions.json" || Text.contains path "/permissions.json"

def isTemplatePath (path : String) : Bool := Text.contains path "/templates/" && Text.contains path "permission"

/-- No Critical pattern is hidden behind the `.git` one, and a recursive `rm` has one of the
    spellings that `is_destructive_rm` lists. -/
def RiskInSight : PermissionRequestBody → Prop
  | .fileOp _ path op =>
    op = "read" ∨ op = "write" → pathHasGit path = true → isPermissionsPath path = false ∧ isTemplatePath path = false
  | .commandExec agent cmd args => isRecursiveRm (.commandExec agent cmd args) = true → isDestructiveRm cmd args = true
  | _ => True

theorem assessRiskLevel_eq (request : PermissionRequestBody) :
    assessRiskLevel request = (matchingLevels request).headD .low := by
  rw [assessRiskLevel, matchingLevels, List.headD_eq_head?_getD, List.head?_filterMap]

theorem matchingLevels_file (agent path op : String) :
    matchingLevels (.fileOp agent path op) =
      if op == "read" || op == "write" then
        (if pathHasGit path then [.high] else []) ++
          ((if isPermissionsPath path then [.critical] else []) ++ if isTemplatePath path then [.critical] else [])
      else [] := by
  have hpattern : ∀ test level, fileRiskPattern test level (.fileOp agent path op) =
        if (op == "read" || op == "write") && test path then some level else none := fun _ _ => rfl
  simp only [matchingLevels, highRiskPatterns, List.filterMap_cons, List.filterMap_nil, hpattern]
  rw [← isPermissionsPath, ← isTemplatePath]
  cases (op == "read" || op == "write") <;> cases pathHasGit path <;> cases isPermissionsPath path <;>
    cases isTemplatePath path <;> rfl

theorem matchingLevels_command (agent cmd : String) (args : List String) :
    matchingLevels (.commandExec agent cmd args) = if isDestructiveRm cmd args then [.high] else [] := by
  simp only [matchingLevels, highRiskPatterns, List.filterMap_cons, List.filterMap_nil, fileRiskPattern]
  cases isDestructiveRm cmd args <;> rfl

/-- The level is the highest that matches, and at least High for a recursive `rm`, exactly when
the risk is in sight. -/
theorem risk_assessed_iff (request : PermissionRequestBody) : (assessRiskLevel request = highestLevel request ∧
      (isRecursiveRm request = true → RiskLevel.high.rank ≤ (assessRiskLevel request).rank)) ↔ RiskInSight request := by
  rw [assessRiskLevel_eq, highestLevel]
  cases request with
  | fileOp agent path op =>
    have haccess : (op = "read" ∨ op = "write") ↔ (op == "read" || op == "write") = true := by simp
    rw [matchingLevels_file, RiskInSight, haccess]
    cases (op == "read" || op == "write") <;> cases pathHasGit path <;> cases isPermissionsPath path <;>
      cases isTemplatePath path <;> simp [isRecursiveRm, RiskLevel.max, RiskLevel.rank]
  | commandExec agent cmd args =>
    rw [matchingLevels_command, RiskInSight]
    cases isDestructiveRm cmd args <;> cases isRecursiveRm (.commandExec agent cmd args) <;>
      simp [RiskLevel.max, RiskLevel.rank]
  | _ =>
    -- at most one pattern looks at the request
    refine iff_of_true ⟨rfl, ?_⟩ trivial
    intro h
    cases h

theorem a_hidden_critical_file_and_an_unlisted_cluster :
    assessRiskLevel (.fileOp "coder" "repo/.git/permissions.json" "write") = .high ∧
      highestLevel (.fileOp "coder" "repo/.git/permissions.json" "write") = .critical ∧
      isRecursiveRm (.commandExec "coder" "rm" ["-rfv", "/data"]) = true ∧
      assessRiskLevel (.commandExec "coder" "rm" ["-rfv", "/data"]) = .low := by
  decide +kernel

end CloseClaw.Permission
