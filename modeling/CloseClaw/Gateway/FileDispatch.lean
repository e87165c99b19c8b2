/- The file checks of the dispatcher against the paths the file tools touch. -/

import CloseClaw.Tools.FileOps

namespace CloseClaw.Gateway

open Lib Permission Tools TraitObjectExecutor

def fileToolNamed (name : String) : Option FileTool :=
  [FileTool.read, .write, .edit, .grep, .ls].find? (·.name == name)

theorem fileToolNamed_name (tool : FileTool) : fileToolNamed tool.name = some tool := by
  cases tool <;> decide

def ToolRegistry.withFileTools (base : ToolRegistry) (env : CallEnv) : ToolRegistry where
  getToolDetail name :=
    match fileToolNamed name with
    | some tool => some tool.detail
    | none => base.getToolDetail name
  callTool name args ctx :=
    match fileToolNamed name with
    | some tool => (tool.call env args).result
    | none => base.callTool name args ctx

def Run.touched (run : Run) (env : CallEnv) : List String :=
  match run.outcome with
  | .called name args _ _ => ((fileToolNamed name).map fun tool => (tool.call env args).touched).getD []
  | _ => []

def fileOp (isReadOnly : Bool) : String := if isReadOnly then "read" else "write"

def allowedPath (agentId op : String) (q : PermissionRequest × PermissionResponse) : Option String :=
  match q.1.body with
  | .fileOp agent path o => if agent = agentId ∧ o = op ∧ q.2.isAllowed = true then some path else none
  | _ => none

theorem allowedPath_fileOp (deps : ToolPermDeps) (ctx : ToolContext) (agentId path op : String) (m : Option String) :
    allowedPath agentId op (callRequest deps ctx (.fileOp agentId path op), .allowed m) = some path := by
  simp [allowedPath]

def Run.AuthorisedFile (run : Run) (agentId op : String) (place : List String) : Prop :=
  ∃ path ∈ run.asked.filterMap (allowedPath agentId op), names path <+: place

instance Run.decidableAuthorisedFile (run : Run) (agentId op : String) (place : List String) :
    Decidable (run.AuthorisedFile agentId op place) :=
  inferInstanceAs (Decidable (∃ path ∈ run.asked.filterMap (allowedPath agentId op), names path <+: place))

def pathArg (args : Json) : Option String := (args.get "path").bind Json.asStr

/-- The call touches nothing, or a path is given and checked, and what the engine reads it
    as is at or above the place the tool goes to. -/
def Covered (x : TraitObjectExecutor) (env : CallEnv) (tool : FileTool) (args : Json) : Prop :=
  (tool.call env args).touched = [] ∨
    x.permDeps.isSome = true ∧ ∃ path ∈ pathArg args, names path <+: env.locate (tool.target env path)

theorem argument_of_pathArg {tool : FileTool} {args : Json} {given path : String} (hg : pathArg args = some given)
    (hp : tool.argument args = some path) : path = given := by
  have hdir : dirArg args = given := by
    unfold dirArg
    rw [show (args.get "path").bind Json.asStr = some given from hg]
    rfl
  have hreq : (requiredStr args "path").toOption = some path → path = given := by
    intro h
    unfold requiredStr at h
    rw [show (args.get "path").bind Json.asStr = some given from hg] at h
    by_cases he : given = ""
    · simp [he, Except.toOption] at h
    · simpa [he, Except.toOption, eq_comm] using h
  cases tool with
  | grep | ls => exact (Option.some.inj hp).symm.trans hdir
  | read | write | edit => exact hreq hp

section

variable {env : CallEnv} {base : ToolRegistry} {x : TraitObjectExecutor} {disk : Disk} {tool : FileTool}
  {call : PendingToolCall}

theorem domainCheck_fileTool (hr : x.registry = base.withFileTools env) (hn : call.toolName = tool.name)
    (agentId : String) :
    x.domainCheck call agentId (x.toolGroup call.toolName) =
      match pathArg call.args with
      | some path => fileOpCheck agentId path tool.isReadOnly
      | none => .pass := by
  have hdetail : x.registry.getToolDetail call.toolName = some tool.detail := by
    rw [hr, hn]
    simp [ToolRegistry.withFileTools, fileToolNamed_name]
  have hgroup : x.toolGroup call.toolName = "file_ops" := by
    simp [toolGroup, hdetail, FileTool.detail]
  rw [hgroup]
  unfold domainCheck
  rw [hdetail]
  rfl

theorem touched_of_not_call {run : Run} (h : run.outcome.isCall = false) : run.touched env = [] := by
  unfold Run.touched
  cases ho : run.outcome with
  | panicked | refused => rfl
  | called => rw [ho] at h; cases h

theorem touched_callTool (hn : call.toolName = tool.name) (ctx : ToolContext) (asked) :
    (Run.mk asked (x.callTool call ctx)).touched env = (tool.call env call.args).touched := by
  simp [Run.touched, callTool, hn, fileToolNamed_name]

theorem file_call_asks (hr : x.registry = base.withFileTools env) (hn : call.toolName = tool.name)
    (hcall : (x.execute disk call).outcome.isCall = true) :
    (x.execute disk call).touched env = (tool.call env call.args).touched ∧
      (x.execute disk call).asked.filterMap (allowedPath x.baseCtx.agentId (fileOp tool.isReadOnly)) =
        if x.permDeps.isSome then (pathArg call.args).toList else [] := by
  cases hd : x.permDeps with
  | none =>
    have he : x.execute disk call = ⟨[], x.callTool call (x.callCtx call)⟩ := by
      simp [execute, hd, callCtx]
    rw [he]
    exact ⟨touched_callTool hn _ _, rfl⟩
  | some deps =>
    rcases execute_cases disk hd with ⟨-, answer, result, he⟩ | ⟨-, answer, he⟩
    · rw [he] at hcall
      cases hcall
    · rw [domainCheck_fileTool hr hn] at he
      -- the question about the tool is no file question
      have htool : allowedPath x.baseCtx.agentId (fileOp tool.isReadOnly) (x.toolRequest deps call, answer) = none :=
        rfl
      cases hp : pathArg call.args with
      | none =>
        rw [hp] at he
        rw [he]
        refine ⟨touched_callTool hn _ _, ?_⟩
        simp [executeChecked, htool]
      | some =>
        rw [hp] at he
        rw [he] at hcall ⊢
        obtain ⟨m, hm⟩ := executeChecked_ask disk hcall
        simp only [fileOpCheck] at hm ⊢
        rw [hm]
        refine ⟨touched_callTool hn _ _, ?_⟩
        rw [List.filterMap_cons_none htool]
        exact List.filterMap_cons_some (allowedPath_fileOp _ _ _ _ _ _)

theorem target_absolute {path : String} (h : Text.startsWith path "/" = true) : tool.target env path = path := by
  have hnorm : normalizeAgainstWorkdir env path = path := by simp [normalizeAgainstWorkdir, h]
  have hroute : (editRoute env path).path = path := by
    unfold editRoute normalizedPlanPath
    split
    · exact hnorm
    · rfl
  cases tool with
  | read => exact hnorm
  | write | edit => exact hroute
  | grep | ls => rfl

theorem covered_of_absolute {args : Json} {path : String} (hd : x.permDeps.isSome = true)
    (hp : pathArg args = some path) (h : Text.startsWith path "/" = true) : Covered x env tool args := by
  refine .inr ⟨hd, path, hp, ?_⟩
  rw [target_absolute h, locate_absolute env h]

end

/-- All that a call opens, lists or writes was allowed before, exactly when it is refused or
covered. -/
theorem file_accesses_authorised_iff (env : CallEnv) (base : ToolRegistry) (x : TraitObjectExecutor) (disk : Disk)
    (tool : FileTool) (call : PendingToolCall) (hr : x.registry = base.withFileTools env)
      (hn : call.toolName = tool.name) :
    (∀ p ∈ (x.execute disk call).touched env,
        (x.execute disk call).AuthorisedFile x.baseCtx.agentId (fileOp tool.isReadOnly) (env.locate p)) ↔
      ((x.execute disk call).outcome.isCall = true → Covered x env tool call.args) := by
  cases hcall : (x.execute disk call).outcome.isCall with
  | false =>
    rw [touched_of_not_call hcall]
    simp
  | true =>
    obtain ⟨htouched, hasked⟩ := file_call_asks hr hn hcall
    have hauth : ∀ place, (x.execute disk call).AuthorisedFile x.baseCtx.agentId (fileOp tool.isReadOnly) place ↔
        x.permDeps.isSome = true ∧ ∃ path ∈ pathArg call.args, names path <+: place := by
      intro place
      unfold Run.AuthorisedFile
      rw [hasked]
      cases x.permDeps <;> simp
    rw [htouched]
    simp only [hauth, true_implies]
    by_cases hne : (tool.call env call.args).touched = []
    · simp [hne, Covered]
    · obtain ⟨path, harg, hmem, hbelow⟩ := touched_spec hne
      constructor
      · intro h
        obtain ⟨hsome, given, hgiven, hpre⟩ := h _ hmem
        rw [argument_of_pathArg hgiven harg] at hpre
        exact .inr ⟨hsome, given, hgiven, hpre⟩
      · rintro (h | ⟨hsome, given, hgiven, hpre⟩) p hp
        · exact absurd h hne
        · refine ⟨hsome, given, hgiven, hpre.trans ?_⟩
          rw [← argument_of_pathArg hgiven harg]
          exact hbelow p hp

def workspaceEnv : CallEnv where
  workdir := some "/data/workspaces/a/u"
  cwd := "/srv"
  checkDedupCache _ _ := false
  readAndTruncate _ _ := .ok ""
  pathExists _ := true
  mtime _ := none
  getFileMtime _ := none
  readToString _ := .ok ""
  createParents _ := .ok ()
  write _ _ := .ok ()
  planFileAccess := none
  readDir _ := .ok []
  regex _ := .ok fun _ => false
  escape := id
  matchAndApply content _ _ := .ok (content, 0)

def readerExecutor : TraitObjectExecutor where
  registry := ToolRegistry.withFileTools ⟨fun _ => none, fun name _ _ => .error (.notFound name)⟩ workspaceEnv
  baseCtx := ⟨"a", none, none⟩
  permDeps := some
    { engine := .new (fun _ => "") (.new "/data")
        { RuleSet.default with
          rules := [ ⟨"tools", .agentOnly "a" .exact, .allow, [.toolCall "file_ops" []], none, 0⟩,
            ⟨"read", .agentOnly "a" .exact, .allow, [.file "read" ["**"]], none, 0⟩ ] } false
      getSenderId := fun _ => none }

def readCall (path : String) : PendingToolCall := ⟨"1", "Read", .obj [("path", .str path)]⟩

theorem reading_notes_is_authorised :
    (readerExecutor.execute (fun _ => none) (readCall "/srv/notes")).outcome.isCall = true ∧
    (readerExecutor.execute (fun _ => none) (readCall "/srv/notes")).touched workspaceEnv = ["/srv/notes"] ∧
    ∀ p ∈ (readerExecutor.execute (fun _ => none) (readCall "/srv/notes")).touched workspaceEnv,
      (readerExecutor.execute (fun _ => none) (readCall "/srv/notes")).AuthorisedFile "a" "read"
        (workspaceEnv.locate p) :=
  ⟨by decide +kernel, by decide +kernel,
    (file_accesses_authorised_iff workspaceEnv _ readerExecutor (fun _ => none) .read
      (readCall "/srv/notes") rfl rfl).mpr
      fun _ => covered_of_absolute rfl rfl (by decide)⟩

/-- The engine takes the path for `/permissions.json`. -/
theorem a_relative_path_is_checked_elsewhere :
    let run := readerExecutor.execute (fun _ => none) (readCall "../../../permissions.json")
    let listing := readerExecutor.execute (fun _ => none) ⟨"2", "Ls", .obj []⟩
    (readerExecutor.execute (fun _ => none) (readCall "/data/permissions.json")).outcome.isCall = false ∧
    (run.outcome.isCall = true ∧ (run.touched workspaceEnv).map workspaceEnv.locate = [["data", "permissions.json"]] ∧
      ¬ run.AuthorisedFile "a" "read" ["data", "permissions.json"]) ∧
    (listing.outcome.isCall = true ∧ (listing.touched workspaceEnv).map workspaceEnv.locate = [["srv"]] ∧
      ¬ listing.AuthorisedFile "a" "read" ["srv"]) := by
  decide +kernel

end CloseClaw.Gateway
