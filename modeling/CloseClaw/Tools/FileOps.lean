/- The file tools (`tools/src/builtin/file_ops.rs`). A call is the accesses it makes and its
   result; what it finds outside is a parameter (`CallEnv`). -/

import CloseClaw.Gateway.ToolDispatch

namespace CloseClaw.Tools

open Lib Lib.RustPath List PathBuf
open Permission (names)
open Gateway (ToolCallError ToolResult ToolDetail)

abbrev FileName := { n : String // segments n = [Component.normal n] ∧ Text.startsWith n "/" = false }

inductive Entry where
  | file (name : FileName) (content : Option String)
  | dir (name : FileName) (entries : List Entry)

def Entry.name : Entry → String
  | .file n _ => n.1
  | .dir n _ => n.1

structure EditOp where
  oldText : String
  newText : String

structure CallEnv where
  workdir : Option String
  cwd : String
  checkDedupCache : String → Json → Bool
  readAndTruncate : String → Json → Except String String
  pathExists : String → Bool
  mtime : String → Option Nat
  getFileMtime : String → Option Nat
  readToString : String → Except String String
  createParents : String → Except String Unit
  write : String → String → Except String Unit
  planFileAccess : Option (String → String → Except String Unit)
  readDir : String → Except String (List Entry)
  regex : String → Except String (String → Bool)
  escape : String → String
  matchAndApply : String → List EditOp → Bool → Except String (String × Nat)

def CallEnv.locate (env : CallEnv) (path : String) : List String := names ((ofStr env.cwd).join path).text

/-! ## Runs -/

inductive Access where
  | opens (path : String)
  | lists (path : String)
  | writes (path : String)
  | createsParents (path : String)

def Access.touched : Access → Option String
  | .opens path => some path
  | .lists path => some path
  | .writes path => some path
  | .createsParents _ => none

structure FileRun where
  accesses : List Access
  result : Except ToolCallError ToolResult

namespace FileRun

def touched (run : FileRun) : List String := run.accesses.filterMap Access.touched

def fail (e : ToolCallError) : FileRun := ⟨[], .error e⟩

def done (data : Json) : FileRun := ⟨[], .ok ⟨data⟩⟩

def after (access : Access) (run : FileRun) : FileRun := ⟨access :: run.accesses, run.result⟩

@[simp] theorem touched_fail (e : ToolCallError) : (fail e).touched = [] := rfl

@[simp] theorem touched_done (data : Json) : (done data).touched = [] := rfl

@[simp] theorem touched_after (access : Access) (run : FileRun) :
    (after access run).touched = access.touched.toList ++ run.touched := by
  cases access <;> rfl

end FileRun

def requiredStr (args : Json) (key : String) : Except ToolCallError String :=
  match (args.get key).bind Json.asStr with
  | some s => if s = "" then .error (.invalidArgs ("missing required parameter: " ++ key)) else .ok s
  | none => .error (.invalidArgs ("missing required parameter: " ++ key))

def failed (path e : String) : ToolCallError := .executionFailed (path ++ ": " ++ e)

/-! ## The paths a tool passes on -/

section

variable (env : CallEnv)

def normalizeAgainstWorkdir (path : String) : String :=
  if Text.startsWith path "/" then path
  else match env.workdir with
    | some wd => ((ofStr wd).join path).text
    | none => path

def resolveReadPath (path : String) : String := normalizeAgainstWorkdir env path

def isPlanFilePath (path : String) : Bool := Text.startsWith path "plans/" || Text.contains path "/plans/"

def normalizedPlanPath (path : String) : Option String :=
  if isPlanFilePath path then some (normalizeAgainstWorkdir env path) else none

inductive WriteSink where
  | plan (path : String)
  | readback (path : String)

def WriteSink.pick (planPath : Option String) (rawPath : String) : WriteSink :=
  match planPath with
  | some path => .plan path
  | none => .readback rawPath

def WriteSink.path : WriteSink → String
  | .plan path => path
  | .readback path => path

/-! ## Read -/

def read (args : Json) : FileRun :=
  match requiredStr args "path" with
  | .error e => .fail e
  | .ok path =>
    let path := resolveReadPath env path
    if env.checkDedupCache path args then .done (.obj [("content", .str "File unchanged since last read.")])
    else .after (.opens path) <|
      match env.readAndTruncate path args with
      | .error message => .fail (.executionFailed message)
      | .ok content => .done (.obj [("content", .str content)])

/-! ## Write and Edit -/

def checkStaleness (path : String) : Except ToolCallError Unit :=
  match env.getFileMtime path, env.mtime path with
  | some recorded, some current =>
    if current = recorded then .ok ()
    else .error (.executionFailed "file has been modified since last read; re-read the file before editing")
  | _, _ => .ok ()

def writeWithReadback (path content : String) (data : Json) : FileRun :=
  .after (.writes path) <|
    match env.write path content with
    | .ok () => .done data
    | .error e =>
      .after (.opens path) <|
        match env.readToString path with
        | .ok actual => if actual = content then .done data else .fail (failed path e)
        | .error _ => .fail (failed path e)

def commitToSink (sink : WriteSink) (content : String) (data : Json) : FileRun :=
  match sink with
  | .readback target => writeWithReadback env target content data
  | .plan planPath =>
    match env.planFileAccess with
    | none => .fail (.executionFailed
        "plan file writes require an injected PlanFileAccess port (build the tool via with_plan_file_access)")
    | some port =>
      .after (.writes planPath) <|
        match port planPath content with
        | .ok () => .done data
        | .error e => .fail (failed planPath e)

def writeFile (path content : String) : FileRun :=
  let data := Json.obj [("content", .str content)]
  match normalizedPlanPath env path with
  | some planPath => commitToSink env (.pick (some planPath) path) content data
  | none =>
    -- for a path without a parent there is nothing to create, and the answer is `ok`
    .after (.createsParents path) <|
      match env.createParents path with
      | .error e => .fail (.executionFailed ("create_dir_all: " ++ e))
      | .ok () => commitToSink env (.pick none path) content data

def write (args : Json) : FileRun :=
  match requiredStr args "path", requiredStr args "content" with
  | .error e, _ => .fail e
  | _, .error e => .fail e
  | .ok path, .ok content =>
    match if env.pathExists path then checkStaleness env path else .ok () with
    | .error e => .fail e
    | .ok () => writeFile env path content

def parseEdit (i : Nat) (item : Json) : Except ToolCallError EditOp :=
  let oldText := ((item.get "oldText").bind Json.asStr).getD ""
  let newText := ((item.get "newText").bind Json.asStr).getD ""
  if oldText = "" then
    .error (.invalidArgs ("edits[" ++ toString i ++ "]: oldText is required and must not be empty"))
  else if oldText = newText then
    .error (.invalidArgs ("edits[" ++ toString i ++ "]: oldText and newText must be different"))
  else .ok ⟨oldText, newText⟩

def parseEditsArray (arr : List Json) : Except ToolCallError (List EditOp) :=
  if arr.isEmpty then .error (.invalidArgs "edits array must not be empty")
  else arr.zipIdx.mapM fun (item, i) => parseEdit i item

def parseEdits (args : Json) : Except ToolCallError (List EditOp × Bool) :=
  match (args.get "edits").bind Json.asArray with
  | none => .error (.invalidArgs "missing required parameter: edits")
  | some arr => (parseEditsArray arr).map fun edits => (edits, args.isTrue "replace_all")

def editRoute (path : String) : WriteSink := .pick (normalizedPlanPath env path) path

def edit (args : Json) : FileRun :=
  match requiredStr args "path", parseEdits args with
  | .error e, _ => .fail e
  | _, .error e => .fail e
  | .ok path, .ok (edits, replaceAll) =>
    match checkStaleness env path with
    | .error e => .fail e
    | .ok () =>
      let sink := editRoute env path
      .after (.opens sink.path) <|
        match env.readToString sink.path with
        | .error e => .fail (failed sink.path e)
        | .ok content =>
          match env.matchAndApply content edits replaceAll with
          | .error e => .fail (.executionFailed e)
          | .ok (updated, editsApplied) =>
            commitToSink env sink updated
              (.obj [("content", .str updated), ("edits_applied", .num (toString editsApplied))])

/-! ## Grep and Ls -/

def grepFile (path : String) (re : String → Bool) (content : Option String) : List Json :=
  match content with
  | none => []
  | some content => (Text.lines content).zipIdx.filterMap fun (line, i) =>
      if re line then
        some (.obj [("file", .str path), ("line_number", .num (toString (i + 1))), ("line", .str line)])
      else none

mutual

def grepWalk (dir : String) (re : String → Bool) : List Entry → List Access × List Json
  | [] => ([], [])
  | e :: es =>
    let (as, rs) := grepEntry dir re e
    let (as', rs') := grepWalk dir re es
    (as ++ as', rs ++ rs')

def grepEntry (dir : String) (re : String → Bool) : Entry → List Access × List Json
  | .file name content =>
    let p := ((ofStr dir).join name.1).text
    ([.opens p], grepFile p re content)
  | .dir name entries =>
    let p := ((ofStr dir).join name.1).text
    let (as, rs) := grepWalk p re entries
    (.lists p :: as, rs)

end

def dirArg (args : Json) : String := ((args.get "path").bind Json.asStr).getD "."

def grep (args : Json) : FileRun :=
  match requiredStr args "pattern" with
  | .error e => .fail e
  | .ok pattern =>
    let isRegex := args.isTrue "is_regex"
    match env.regex (if isRegex then pattern else env.escape pattern) with
    | .error e => .fail (.invalidArgs ((if isRegex then "invalid regex: " else "regex error: ") ++ e))
    | .ok re =>
      .after (.lists (dirArg args)) <|
        match env.readDir (dirArg args) with
        | .error _ => .done (.obj [("results", .arr [])])
        | .ok entries =>
          let (accesses, results) := grepWalk (dirArg args) re entries
          ⟨accesses, .ok ⟨.obj [("results", .arr results)]⟩⟩

def ls (args : Json) : FileRun :=
  .after (.lists (dirArg args)) <|
    match env.readDir (dirArg args) with
    | .error e => .fail (failed (dirArg args) e)
    | .ok entries => .done (.obj [("entries", .arr (entries.map fun e => .str e.name))])

end

/-! ## The tools -/

inductive FileTool where
  | read
  | write
  | edit
  | grep
  | ls
  deriving DecidableEq

namespace FileTool

def name : FileTool → String
  | .read => "Read"
  | .write => "Write"
  | .edit => "Edit"
  | .grep => "Grep"
  | .ls => "Ls"

def isReadOnly : FileTool → Bool
  | .write => false
  | .edit => false
  | _ => true

def detail (tool : FileTool) : ToolDetail := ⟨"file_ops", tool.isReadOnly⟩

def call (env : CallEnv) : FileTool → Json → FileRun
  | .read => Tools.read env
  | .write => Tools.write env
  | .edit => Tools.edit env
  | .grep => Tools.grep env
  | .ls => Tools.ls env

def argument (tool : FileTool) (args : Json) : Option String :=
  match tool with
  | .grep => some (dirArg args)
  | .ls => some (dirArg args)
  | _ => (requiredStr args "path").toOption

def target (env : CallEnv) (tool : FileTool) (path : String) : String :=
  match tool with
  | .read => resolveReadPath env path
  | .write => (editRoute env path).path
  | .edit => (editRoute env path).path
  | .grep => path
  | .ls => path

end FileTool

/-! ## Where the accesses lie -/

section

variable (env : CallEnv)

theorem locate_absolute {path : String} (h : Text.startsWith path "/" = true) : env.locate path = names path := by
  simp [CallEnv.locate, join, h]

theorem locate_relative {path : String} (h : Text.startsWith path "/" = false) :
    env.locate path = (segments path).foldl Component.visit (names env.cwd) :=
  resolve_join (ofStr env.cwd) h

theorem locate_entry (dir : String) (name : FileName) :
    env.locate ((ofStr dir).join name.1).text = env.locate dir ++ [name.1] := by
  have hseg := name.2.1
  have hrel := name.2.2
  have habs := startsWith_join (ofStr dir) hrel
  cases hd : Text.startsWith dir "/" with
  | true =>
    rw [locate_absolute env (habs.trans hd), locate_absolute env hd]
    show resolve _ = _
    rw [resolve_join _ hrel, hseg]
    rfl
  | false =>
    rw [locate_relative env (habs.trans hd), locate_relative env hd, segments_join _ hrel, hseg, foldl_append]
    rfl

def Access.Below (dir : String) (a : Access) : Prop := ∃ p, a.touched = some p ∧ env.locate dir <+: env.locate p

variable {env}

variable {a : Access}

theorem Access.Below.of_entry {dir : String} {name : FileName}
    (h : a.Below env ((ofStr dir).join name.1).text) : a.Below env dir := by
  obtain ⟨p, hp, hbelow⟩ := h
  rw [locate_entry] at hbelow
  exact ⟨p, hp, (prefix_append _ _).trans hbelow⟩

theorem below_self {dir : String} (h : a.touched = some dir) : a.Below env dir := ⟨dir, h, prefix_rfl⟩

mutual

theorem grepWalk_below (dir : String) (re : String → Bool) (entries : List Entry)
    (h : a ∈ (grepWalk dir re entries).1) : a.Below env dir := by
  cases entries with
  | nil => simp [grepWalk] at h
  | cons e es =>
    rw [grepWalk] at h
    rcases mem_append.mp h with h | h
    · exact grepEntry_below dir re e h
    · exact grepWalk_below dir re es h

theorem grepEntry_below (dir : String) (re : String → Bool) (e : Entry)
    (h : a ∈ (grepEntry dir re e).1) : a.Below env dir := by
  cases e with
  | file =>
    rw [grepEntry, mem_singleton] at h
    subst h
    exact (below_self rfl).of_entry
  | dir name entries =>
    rw [grepEntry] at h
    rcases mem_cons.mp h with rfl | h
    · exact (below_self rfl).of_entry
    · exact (grepWalk_below _ re entries h).of_entry

end

def FileRun.Only (run : FileRun) (path : String) : Prop := ∀ p ∈ run.touched, p = path

theorem only_fail (e : ToolCallError) (path : String) : (FileRun.fail e).Only path := by simp [FileRun.Only]

theorem only_done (data : Json) (path : String) : (FileRun.done data).Only path := by simp [FileRun.Only]

variable {path : String}

theorem FileRun.Only.after {run : FileRun} (h : run.Only path) {a : Access}
    (ha : ∀ p, a.touched = some p → p = path) : (FileRun.after a run).Only path := by
  intro p hp
  rw [FileRun.touched_after] at hp
  rcases mem_append.mp hp with hp | hp
  · exact ha p (Option.mem_toList.mp hp)
  · exact h p hp

theorem touched_self {a : Access} (h : a.touched = some path) (p : String) (hp : a.touched = some p) : p = path :=
  Option.some.inj (hp.symm.trans h)

theorem only_commitToSink (sink : WriteSink) (content : String) (data : Json) :
    (commitToSink env sink content data).Only sink.path := by
  cases sink with
  | readback target =>
    refine FileRun.Only.after ?_ (touched_self rfl)
    cases env.write target content with
    | ok => exact only_done _ _
    | error =>
      refine FileRun.Only.after ?_ (touched_self rfl)
      cases env.readToString target with
      | error => exact only_fail _ _
      | ok =>
        show (if _ then _ else _ : FileRun).Only _
        split
        · exact only_done _ _
        · exact only_fail _ _
  | plan planPath =>
    rw [commitToSink]
    cases env.planFileAccess with
    | none => exact only_fail _ _
    | some port =>
      refine FileRun.Only.after ?_ (touched_self rfl)
      cases port planPath content with
      | ok => exact only_done _ _
      | error => exact only_fail _ _

variable {args : Json}

theorem only_read (h : requiredStr args "path" = .ok path) : (read env args).Only (resolveReadPath env path) := by
  unfold read
  simp only [h]
  split
  · exact only_done _ _
  · refine FileRun.Only.after ?_ (touched_self rfl)
    cases env.readAndTruncate (resolveReadPath env path) args with
    | error => exact only_fail _ _
    | ok => exact only_done _ _

theorem only_writeFile (path content : String) : (writeFile env path content).Only (editRoute env path).path := by
  unfold writeFile editRoute
  cases normalizedPlanPath env path with
  | some => exact only_commitToSink _ _ _
  | none =>
    refine FileRun.Only.after ?_ (fun p hp => by cases hp)
    cases env.createParents path with
    | error => exact only_fail _ _
    | ok => exact only_commitToSink _ _ _

theorem only_write (h : requiredStr args "path" = .ok path) : (write env args).Only (editRoute env path).path := by
  unfold write
  rw [h]
  cases requiredStr args "content" with
  | error => exact only_fail _ _
  | ok content =>
    show (match if env.pathExists path then checkStaleness env path else .ok () with
      | .error e => FileRun.fail e
      | .ok () => writeFile env path content).Only _
    split
    · exact only_fail _ _
    · exact only_writeFile _ _

theorem only_edit (h : requiredStr args "path" = .ok path) : (edit env args).Only (editRoute env path).path := by
  unfold edit
  rw [h]
  cases parseEdits args with
  | error => exact only_fail _ _
  | ok parsed =>
    obtain ⟨edits, replaceAll⟩ := parsed
    simp only
    split
    · exact only_fail _ _
    · refine FileRun.Only.after ?_ (touched_self rfl)
      split
      · exact only_fail _ _
      · split
        · exact only_fail _ _
        · exact only_commitToSink _ _ _

theorem FileRun.Only.spec {run : FileRun} (h : run.Only path) (hne : run.touched ≠ []) :
    path ∈ run.touched ∧ ∀ p ∈ run.touched, env.locate path <+: env.locate p := by
  obtain ⟨p, hp⟩ := exists_mem_of_ne_nil _ hne
  refine ⟨h p hp ▸ hp, fun q hq => ?_⟩
  rw [h q hq]

theorem grep_cases (args : Json) :
    (grep env args).touched = [] ∨ ∃ run : FileRun, grep env args = .after (.lists (dirArg args)) run ∧
      ∀ a ∈ run.accesses, a.Below env (dirArg args) := by
  unfold grep
  split
  · exact .inl rfl
  · simp only
    split
    · exact .inl rfl
    · refine .inr ⟨_, rfl, fun a ha => ?_⟩
      split at ha
      · cases ha
      · exact grepWalk_below _ _ _ ha

theorem grep_spec (hne : (grep env args).touched ≠ []) : dirArg args ∈ (grep env args).touched ∧
      ∀ p ∈ (grep env args).touched, env.locate (dirArg args) <+: env.locate p := by
  rcases grep_cases args with h | ⟨run, hrun, hbelow⟩
  · exact absurd h hne
  · rw [hrun, FileRun.touched_after]
    refine ⟨mem_cons_self, fun p hp => ?_⟩
    rcases mem_cons.mp hp with rfl | hp
    · exact prefix_rfl
    · obtain ⟨a, ha, hap⟩ := mem_filterMap.mp hp
      obtain ⟨q, hq, hpre⟩ := hbelow a ha
      rw [Option.some.inj (hap.symm.trans hq)]
      exact hpre

theorem required_spec {tool : FileTool} (harg : tool.argument args = (requiredStr args "path").toOption)
    (hfail : ∀ e, requiredStr args "path" = .error e → tool.call env args = .fail e)
    (honly : ∀ path, requiredStr args "path" = .ok path → (tool.call env args).Only (tool.target env path))
    (hne : (tool.call env args).touched ≠ []) :
    ∃ path, tool.argument args = some path ∧ tool.target env path ∈ (tool.call env args).touched ∧
      ∀ p ∈ (tool.call env args).touched, env.locate (tool.target env path) <+: env.locate p := by
  cases hp : requiredStr args "path" with
  | error e =>
    rw [hfail e hp] at hne
    exact absurd rfl hne
  | ok path =>
    rw [harg, hp]
    exact ⟨path, rfl, (honly path hp).spec hne⟩

theorem touched_spec {tool : FileTool} (hne : (tool.call env args).touched ≠ []) :
    ∃ path, tool.argument args = some path ∧ tool.target env path ∈ (tool.call env args).touched ∧
      ∀ p ∈ (tool.call env args).touched, env.locate (tool.target env path) <+: env.locate p := by
  cases tool with
  | grep => exact ⟨_, rfl, grep_spec hne⟩
  | ls =>
    refine ⟨_, rfl, FileRun.Only.spec ?_ hne⟩
    refine FileRun.Only.after ?_ (touched_self rfl)
    cases env.readDir (dirArg args) with
    | error => exact only_fail _ _
    | ok => exact only_done _ _
  | read => exact required_spec rfl (fun e h => by simp [FileTool.call, read, h]) (fun _ => only_read) hne
  | write => exact required_spec rfl (fun e h => by simp [FileTool.call, write, h]) (fun _ => only_write) hne
  | edit => exact required_spec rfl (fun e h => by simp [FileTool.call, edit, h]) (fun _ => only_edit) hne

end

end CloseClaw.Tools
