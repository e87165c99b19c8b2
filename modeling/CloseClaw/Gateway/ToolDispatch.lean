/- The permission checks of a tool call (`session_handler_tool_dispatch.rs`). -/

import CloseClaw.Lib.Json
import CloseClaw.Permission.Guards

namespace CloseClaw.Gateway

open Permission List
open Lib (Json)
open Lib.Text (splitWhitespace)

structure ToolDetail where
  group : String
  isReadOnly : Bool

structure ToolContext where
  agentId : String
  sessionId : Option String
  callId : Option String

structure ToolResult where
  data : Json

inductive ToolCallError where
  | notFound (name : String)
  | permissionDenied (name : String)
  | invalidArgs (message : String)
  | executionFailed (message : String)
  | notImplemented

def ToolCallError.toText : ToolCallError → String
  | .notFound name => "skill not found: " ++ name
  | .permissionDenied name => "permission denied for skill: " ++ name
  | .invalidArgs message => "invalid arguments: " ++ message
  | .executionFailed message => "execution failed: " ++ message
  | .notImplemented => "call not implemented for this tool"

structure PendingToolCall where
  id : String
  toolName : String
  args : Json

structure ToolRegistry where
  getToolDetail : String → Option ToolDetail
  callTool : String → Json → ToolContext → Except ToolCallError ToolResult

structure ToolPermDeps where
  engine : PermissionEngine
  getSenderId : String → Option String

structure TraitObjectExecutor where
  registry : ToolRegistry
  baseCtx : ToolContext
  permDeps : Option ToolPermDeps

def errorResult (message : String) : ToolResult := ⟨.obj [("error", .str message)]⟩

def resolveCallerUserId (getSenderId : String → Option String) (ctx : ToolContext) : String :=
  match ctx.sessionId with
  | some sid => if sid ≠ "" then (getSenderId sid).getD "" else ""
  | none => ""

def callRequest (deps : ToolPermDeps) (ctx : ToolContext) (body : PermissionRequestBody) : PermissionRequest :=
  let userId := resolveCallerUserId deps.getSenderId ctx
  .withCaller ⟨userId, ctx.agentId⟩ body (if userId = "" then none else some userId)

@[simp] theorem callRequest_body (deps : ToolPermDeps) (ctx : ToolContext) (body : PermissionRequestBody) :
    (callRequest deps ctx body).body = body := rfl

/-! ## Execution -/

inductive Outcome where
  | panicked
  | refused (result : ToolResult)
  | called (toolName : String) (args : Json) (ctx : ToolContext) (result : ToolResult)

def Outcome.isCall : Outcome → Bool
  | .called .. => true
  | _ => false

def Outcome.isPanic : Outcome → Bool
  | .panicked => true
  | _ => false

structure Run where
  asked : List (PermissionRequest × PermissionResponse)
  outcome : Outcome

inductive DomainCheck where
  | pass
  | panic
  | ask (body : PermissionRequestBody) (refusal : String → String)

def commandText (args : Json) : Option String := (args.get "command").bind Json.asStr

def bashCheck (agentId fullCmd : String) : DomainCheck :=
  match splitWhitespace fullCmd with
  -- `parts[1..]` of no parts
  | [] => .panic
  | baseCmd :: cmdArgs =>
    .ask (.commandExec agentId baseCmd cmdArgs) fun reason =>
      "command '" ++ baseCmd ++ "' is not permitted by policy: " ++ reason

def fileOpCheck (agentId path : String) (isReadOnly : Bool) : DomainCheck :=
  let op := if isReadOnly then "read" else "write"
  .ask (.fileOp agentId path op) fun reason =>
    "file operation '" ++ op ++ "' on '" ++ path ++ "' is not permitted by policy: " ++ reason

namespace TraitObjectExecutor

variable (x : TraitObjectExecutor)

def toolGroup (toolName : String) : String := ((x.registry.getToolDetail toolName).map (·.group)).getD ""

def domainCheck (call : PendingToolCall) (agentId toolGroup : String) : DomainCheck :=
  if toolGroup = "bash" then
    match commandText call.args with
    | some fullCmd => bashCheck agentId fullCmd
    | none => .pass
  else if toolGroup = "file_ops" then
    match (call.args.get "path").bind Json.asStr with
    | some path => fileOpCheck agentId path (((x.registry.getToolDetail call.toolName).map (·.isReadOnly)).getD false)
    | none => .pass
  else .pass

def callTool (call : PendingToolCall) (ctx : ToolContext) : Outcome :=
  .called call.toolName call.args ctx <|
    match x.registry.callTool call.toolName call.args ctx with
    | .ok result => result
    | .error (.notFound name) => errorResult ("tool not found: " ++ name)
    | .error e => errorResult e.toText

def executeChecked (deps : ToolPermDeps) (disk : Disk) (call : PendingToolCall) (ctx : ToolContext) : DomainCheck → Run
  | .pass => ⟨[], x.callTool call ctx⟩
  | .panic => ⟨[], .panicked⟩
  | .ask body refusal =>
    let answer := (deps.engine.evaluate disk (callRequest deps ctx body) none).1
    ⟨[(callRequest deps ctx body, answer)],
      match answer with
      | .denied reason .. => .refused (errorResult (refusal reason))
      | .allowed _ => x.callTool call ctx⟩

def execute (disk : Disk) (call : PendingToolCall) : Run :=
  let ctx := { x.baseCtx with callId := some call.id }
  match x.permDeps with
  | none => ⟨[], x.callTool call ctx⟩
  | some deps =>
    let toolGroup := x.toolGroup call.toolName
    let request := callRequest deps ctx (.toolCall ctx.agentId toolGroup call.toolName)
    let (answer, engine) := deps.engine.evaluate disk request none
    match answer with
    | .denied reason .. =>
      ⟨[(request, answer)], .refused (errorResult ("tool '" ++ call.toolName ++ "' in group '" ++ toolGroup ++
        "' is not permitted by policy: " ++ reason))⟩
    | .allowed _ =>
      let run := x.executeChecked { deps with engine := engine } disk call ctx (x.domainCheck call ctx.agentId toolGroup)
      ⟨(request, answer) :: run.asked, run.outcome⟩

end TraitObjectExecutor

/-! ## What a bash call is asked about -/

structure SimpleCommand where
  word : String
  args : List String
  deriving DecidableEq

abbrev Shell := String → List SimpleCommand

def Run.Authorised (run : Run) (agentId : String) (c : SimpleCommand) : Prop :=
  ∃ q ∈ run.asked, q.1.body = .commandExec agentId c.word c.args ∧ q.2.isAllowed = true

instance (run : Run) (agentId : String) (c : SimpleCommand) : Decidable (run.Authorised agentId c) :=
  inferInstanceAs (Decidable (∃ q ∈ run.asked, q.1.body = .commandExec agentId c.word c.args ∧ q.2.isAllowed = true))

theorem isAllowed_iff {response : PermissionResponse} : response.isAllowed = true ↔ ∃ m, response = .allowed m := by
  cases response <;> simp

open TraitObjectExecutor

section

variable {x : TraitObjectExecutor} {deps : ToolPermDeps} (disk : Disk) {call : PendingToolCall} {text word : String}
  {args : List String}

def TraitObjectExecutor.callCtx (x : TraitObjectExecutor) (call : PendingToolCall) : ToolContext :=
  { x.baseCtx with callId := some call.id }

def TraitObjectExecutor.toolRequest (x : TraitObjectExecutor) (deps : ToolPermDeps) (call : PendingToolCall) :
    PermissionRequest :=
  callRequest deps (x.callCtx call) (.toolCall x.baseCtx.agentId (x.toolGroup call.toolName) call.toolName)

def TraitObjectExecutor.depsAfter (x : TraitObjectExecutor) (deps : ToolPermDeps) (disk : Disk) (call : PendingToolCall) :
    ToolPermDeps :=
  { deps with engine := (deps.engine.evaluate disk (x.toolRequest deps call) none).2 }

theorem execute_cases (hd : x.permDeps = some deps) :
    ((deps.engine.evaluate disk (x.toolRequest deps call) none).1.isAllowed = false ∧
        ∃ answer result, x.execute disk call = ⟨[(x.toolRequest deps call, answer)], .refused result⟩) ∨
      ((deps.engine.evaluate disk (x.toolRequest deps call) none).1.isAllowed = true ∧ ∃ answer,
        x.execute disk call =
          let run := x.executeChecked (x.depsAfter deps disk call) disk call (x.callCtx call)
            (x.domainCheck call x.baseCtx.agentId (x.toolGroup call.toolName))
          ⟨(x.toolRequest deps call, answer) :: run.asked, run.outcome⟩) := by
  unfold execute
  simp only [hd]
  cases ha : (deps.engine.evaluate disk (x.toolRequest deps call) none).1 with
  | denied =>
    refine .inl ⟨rfl, ?_⟩
    unfold toolRequest callCtx at ha
    simp only [ha]
    exact ⟨_, _, rfl⟩
  | allowed =>
    refine .inr ⟨rfl, ?_⟩
    unfold toolRequest callCtx at ha
    simp only [ha]
    exact ⟨_, rfl⟩

theorem executeChecked_ask {ctx : ToolContext} {body : PermissionRequestBody} {refusal : String → String}
    (h : (x.executeChecked deps disk call ctx (.ask body refusal)).outcome.isCall = true) :
    ∃ m, x.executeChecked deps disk call ctx (.ask body refusal) =
      ⟨[(callRequest deps ctx body, .allowed m)], x.callTool call ctx⟩ := by
  unfold executeChecked at h ⊢
  cases ha : (deps.engine.evaluate disk (callRequest deps ctx body) none).1 with
  | denied =>
    simp only [ha] at h
    cases h
  | allowed m =>
    simp only [ha]
    exact ⟨m, rfl⟩

theorem execute_bash_cases (hd : x.permDeps = some deps) (hg : x.toolGroup call.toolName = "bash")
    (hc : commandText call.args = some text) :
    ((deps.engine.evaluate disk (x.toolRequest deps call) none).1.isAllowed = false ∧
        ∃ answer result, x.execute disk call = ⟨[(x.toolRequest deps call, answer)], .refused result⟩) ∨
      ((deps.engine.evaluate disk (x.toolRequest deps call) none).1.isAllowed = true ∧ ∃ answer,
        x.execute disk call =
          let run := x.executeChecked (x.depsAfter deps disk call) disk call (x.callCtx call)
            (bashCheck x.baseCtx.agentId text)
          ⟨(x.toolRequest deps call, answer) :: run.asked, run.outcome⟩) := by
  have hdomain : x.domainCheck call x.baseCtx.agentId (x.toolGroup call.toolName) = bashCheck x.baseCtx.agentId text := by
    simp [domainCheck, hg, hc]
  rw [← hdomain]
  exact execute_cases disk hd

theorem execute_bash (hd : x.permDeps = some deps) (hg : x.toolGroup call.toolName = "bash")
    (hc : commandText call.args = some text) (hw : splitWhitespace text = word :: args) :
    (x.execute disk call).outcome.isPanic = false ∧
      ((x.execute disk call).outcome.isCall = true → (x.execute disk call).Authorised x.baseCtx.agentId ⟨word, args⟩) := by
  rcases execute_bash_cases disk hd hg hc with ⟨-, answer, result, he⟩ | ⟨-, answer, he⟩
  · rw [he]
    exact ⟨rfl, fun h => absurd h Bool.false_ne_true⟩
  · rw [he]
    simp only [bashCheck, hw, executeChecked]
    split
    · exact ⟨rfl, fun h => absurd h Bool.false_ne_true⟩
    · rename_i m hm
      exact ⟨rfl, fun _ => ⟨_, mem_cons_of_mem _ mem_cons_self, rfl, isAllowed_iff.mpr ⟨m, hm⟩⟩⟩

theorem authorised_bash (hd : x.permDeps = some deps) (hg : x.toolGroup call.toolName = "bash")
    (hc : commandText call.args = some text) (hw : splitWhitespace text = word :: args) {c : SimpleCommand}
    (h : (x.execute disk call).Authorised x.baseCtx.agentId c) : c = ⟨word, args⟩ := by
  obtain ⟨q, hq, hbody, -⟩ := h
  have htool : q.1 ≠ x.toolRequest deps call := by
    intro e
    rw [e] at hbody
    cases hbody
  rcases execute_bash_cases disk hd hg hc with ⟨-, answer, result, he⟩ | ⟨-, answer, he⟩
  · rw [he, mem_singleton] at hq
    exact absurd (congrArg Prod.fst hq) htool
  · rw [he] at hq
    simp only [bashCheck, hw, executeChecked, mem_cons, not_mem_nil, or_false] at hq
    rcases hq with rfl | rfl
    · exact absurd rfl htool
    · cases c
      cases hbody
      rfl

theorem execute_bash_panics (hd : x.permDeps = some deps) (hg : x.toolGroup call.toolName = "bash")
    (hc : commandText call.args = some text) (hw : splitWhitespace text = [])
    (ha : (deps.engine.evaluate disk (x.toolRequest deps call) none).1.isAllowed = true) :
    (x.execute disk call).outcome.isPanic = true := by
  rcases execute_bash_cases disk hd hg hc with ⟨hn, -⟩ | ⟨-, answer, he⟩
  · rw [ha] at hn; cases hn
  · rw [he]
    simp only [bashCheck, hw, executeChecked]
    rfl

theorem execute_bash_calls (hd : x.permDeps = some deps) (hg : x.toolGroup call.toolName = "bash")
    (hc : commandText call.args = some text) (hw : splitWhitespace text = word :: args)
    (ha : (deps.engine.evaluate disk (x.toolRequest deps call) none).1.isAllowed = true)
    (ha' : ((x.depsAfter deps disk call).engine.evaluate disk
      (callRequest (x.depsAfter deps disk call) (x.callCtx call) (.commandExec x.baseCtx.agentId word args))
      none).1.isAllowed = true) :
    (x.execute disk call).outcome.isCall = true := by
  rcases execute_bash_cases disk hd hg hc with ⟨hn, -⟩ | ⟨-, answer, he⟩
  · rw [ha] at hn; cases hn
  · obtain ⟨m, hm⟩ := isAllowed_iff.mp ha'
    rw [he]
    simp only [bashCheck, hw, executeChecked, hm]
    rfl

end

/-! ## Commands the shell runs -/

def openExecutor : TraitObjectExecutor where
  registry := ⟨fun _ => some ⟨"bash", false⟩, fun _ _ _ => .ok ⟨.null⟩⟩
  baseCtx := ⟨"a", none, none⟩
  permDeps := some ⟨.allowing (.new "/"), fun _ => none⟩

def bashCall (text : String) : PendingToolCall := ⟨"1", "Bash", .obj [("command", .str text)]⟩

theorem allowing_allows_call (disk : Disk) {request : PermissionRequest} (hf : request.body.fileAccess = none)
    (hc : request.body.isConfigWrite = false) :
    ((PermissionEngine.allowing (.new "/")).evaluate disk request none).1.isAllowed = true := by
  refine allowing_evaluate _ _ disk rfl hc ?_
  have hm : ∀ agent, (EvalContext.new "/").sessionMode agent = none := fun _ => rfl
  simp [earlyVerdict, isPlanQuestion, planDenies, autoDenies, hm, fileVerdict, hf]

/-- Every command the shell runs was allowed before, exactly for the texts that the shell reads as
their words. -/
theorem shell_commands_authorised_iff (sh : Shell) (text : String) :
    (∀ (x : TraitObjectExecutor) (deps : ToolPermDeps) (disk : Disk) (call : PendingToolCall), x.permDeps = some deps →
        x.toolGroup call.toolName = "bash" → commandText call.args = some text →
        (x.execute disk call).outcome.isPanic = false ∧
        ((x.execute disk call).outcome.isCall = true →
          ∀ c ∈ sh text, (x.execute disk call).Authorised x.baseCtx.agentId c)) ↔
      splitWhitespace text ≠ [] ∧ ∀ c ∈ sh text, c.word :: c.args = splitWhitespace text := by
  constructor
  · intro h
    obtain ⟨hpanic, hall⟩ := h openExecutor _ (fun _ => none) (bashCall text) rfl rfl rfl
    cases hw : splitWhitespace text with
    | nil =>
      rw [execute_bash_panics _ rfl rfl rfl hw (allowing_allows_call _ rfl rfl)] at hpanic
      cases hpanic
    | cons =>
      refine ⟨cons_ne_nil _ _, fun c hc => ?_⟩
      have hcall : (openExecutor.execute (fun _ => none) (bashCall text)).outcome.isCall = true :=
        execute_bash_calls _ rfl rfl rfl hw (allowing_allows_call _ rfl rfl) (allowing_allows_call _ rfl rfl)
      rw [authorised_bash _ rfl rfl rfl hw (hall hcall c hc)]
  · intro ⟨hne, hsh⟩ x deps disk call hd hg hc
    obtain ⟨word, args, hw⟩ := exists_cons_of_ne_nil hne
    obtain ⟨hpanic, hcall⟩ := execute_bash disk hd hg hc hw
    refine ⟨hpanic, fun hcalled c hm => ?_⟩
    obtain ⟨rfl, rfl⟩ := cons_eq_cons.mp ((hsh c hm).trans hw)
    exact hcall hcalled

def lsExecutor : TraitObjectExecutor :=
  { openExecutor with
    permDeps := some
      { engine := .new (fun _ => "") (.new "/data")
          { RuleSet.default with
            rules := [ ⟨"tool", .agentOnly "a" .exact, .allow, [.toolCall "bash" []], none, 0⟩,
              ⟨"ls", .agentOnly "a" .exact, .allow, [.command "ls" .any], none, 0⟩ ] } false
        getSenderId := fun _ => none } }

def plainShell : Shell := fun text =>
  ((splitWhitespace text).splitOn ";").filterMap fun
    | [] => none
    | word :: args => some ⟨word, args⟩

theorem a_second_command_runs_unasked :
    (lsExecutor.execute (fun _ => none) (bashCall "ls ; reboot")).outcome.isCall = true ∧
    ⟨"reboot", []⟩ ∈ plainShell "ls ; reboot" ∧
    ¬ (lsExecutor.execute (fun _ => none) (bashCall "ls ; reboot")).Authorised "a" ⟨"reboot", []⟩ ∧
    (lsExecutor.execute (fun _ => none) (bashCall "reboot")).outcome.isCall = false ∧
    (lsExecutor.execute (fun _ => none) (bashCall " ")).outcome.isPanic = true := by
  decide +kernel

end CloseClaw.Gateway
