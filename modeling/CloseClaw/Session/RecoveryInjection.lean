/- What recovery puts into a checkpoint (`recovery.rs`) and tells the session
   (`recovery_injection.rs`). The environment is `RecoveryEnv`. -/

import CloseClaw.Lib.Json
import CloseClaw.Lib.Text
import CloseClaw.Session.PendingOperation

namespace CloseClaw.Session.RecoveryInjection

open Lib List

structure ApprovalToolCallRecord where
  toolName : String
  planSummary : String
  timestamp : Option Int

structure Checkpoint (Msg Workflow : Type) where
  pendingMessages : List Msg
  pendingOperations : List PendingOperation
  planFilePath : Option String
  approvalToolCalls : List ApprovalToolCallRecord
  planReferences : List String
  systemInjectionAppends : List String
  recoveryNotification : Option String
  pendingToolFailures : List String
  workflow : Workflow

structure RecoveryEnv (Workflow : Type) where
  extractPlanTasksSection : String → Option String
  format : Int → String
  jsonText : Json → String
  injectWorkflow : Workflow × List String → Workflow × List String

variable {Msg Workflow : Type}

def putTagged (tag text : String) : List String → List String
  | [] => [tag ++ text]
  | s :: rest => if Text.startsWith s tag then (tag ++ text) :: rest else s :: putTagged tag text rest

def formatApprovalHistory (env : RecoveryEnv Workflow) (records : List ApprovalToolCallRecord) : String :=
  if records.isEmpty then ""
  else "[Approval History]\n" ++ "\n".intercalate (records.mapIdx fun i r =>
    "  " ++ toString (i + 1) ++ ". " ++ r.toolName ++ " — " ++ r.planSummary ++
      " (at " ++ (r.timestamp.map env.format).getD "unknown" ++ ")")

def formatPlanReferences (references : List String) : String :=
  if references.isEmpty then ""
  else "[Plan References]\n" ++ "\n".intercalate (references.mapIdx fun i r => "  " ++ toString (i + 1) ++ ". " ++ r)

def injectPlanTasks (env : RecoveryEnv Workflow) (cp : Checkpoint Msg Workflow) : List String :=
  match cp.planFilePath with
  | none => cp.systemInjectionAppends
  | some path =>
    if path = "" then cp.systemInjectionAppends
    else
      match env.extractPlanTasksSection path with
      | none => cp.systemInjectionAppends
      | some tasks => putTagged "__plan_tasks__:" tasks cp.systemInjectionAppends

def injectApprovalHistory (env : RecoveryEnv Workflow) (cp : Checkpoint Msg Workflow) (appends : List String) :
    List String :=
  let summary := formatApprovalHistory env cp.approvalToolCalls
  if summary = "" then appends else putTagged "__approval_history__:" summary appends

def injectPlanReferences (cp : Checkpoint Msg Workflow) (appends : List String) : List String :=
  let summary := formatPlanReferences cp.planReferences
  if cp.planFilePath.isSome || appends.any (Text.startsWith · "__approval_history__:") ||
      appends.any (Text.startsWith · "__progress__:") || summary == "" then appends
  else putTagged "__plan_references__:" summary appends

def formatDurationSeconds (seconds : Int) : String :=
  let s := seconds.toNat
  let part (n : Nat) (unit : String) : String := if 0 < n then toString n ++ unit else ""
  let long := part (s / 86400) "d" ++ part (s % 86400 / 3600) "h" ++ part (s % 3600 / 60) "m"
  if 0 < s % 60 || long == "" then long ++ toString (s % 60) ++ "s" else long

def toolName : PendingOperationDetail → String
  | .toolCall toolName _ => toolName
  | _ => "unknown"

def line (env : RecoveryEnv Workflow) (now : Int) (op : PendingOperation) : Option String :=
  match op.opType with
  | .toolCall =>
    let args := match op.detail with
      | .toolCall _ argsSummary => if argsSummary = "" then "无参数" else argsSummary
      | _ => "无参数"
    some ("  • 工具调用: " ++ toolName op.detail ++ "(" ++ args ++ ") — 发起于 " ++ env.format op.createdAt)
  | .subSessionSpawn =>
    let child := match op.detail with
      | .subSessionSpawn childSessionId _ _ => childSessionId
      | _ => "unknown"
    some ("  • 子 Session: " ++ child ++ " — 已运行 " ++ formatDurationSeconds ((now - op.createdAt).tdiv 1000))
  | .outboundMessage => none

def linesOf (env : RecoveryEnv Workflow) (now : Int) (opType : PendingOperationType) (ops : List PendingOperation) :
    List String :=
  (ops.filter (·.opType = opType)).filterMap (line env now)

def sectionOf (ls : List String) : List String := if ls.isEmpty then [] else ["\n".intercalate ls]

def advice : String :=
  "\n\n你可以使用 sessions_list、sessions_history、process 等工具\n了解当前状态，自行判断这些操作的结果，并决定后续处理。"

def buildNotificationText (env : RecoveryEnv Workflow) (now : Int) (ops : List PendingOperation) : String :=
  ("[系统] 网关已重启（重启时间: " ++ env.format now ++ "）\n\n以下操作在重启前未完成：\n") ++
    "\n\n".intercalate (sectionOf (linesOf env now .toolCall ops) ++ sectionOf (linesOf env now .subSessionSpawn ops)) ++
    advice

def buildToolFailureResults (env : RecoveryEnv Workflow) (ops : List PendingOperation) : List String :=
  (ops.filter (·.opType = .toolCall)).map fun op => env.jsonText
    (.obj [("error", .str "进程中断：网关重启"), ("tool", .str (toolName op.detail)), ("op_id", .str op.opId)])

def inject (env : RecoveryEnv Workflow) (now : Int) (cp : Checkpoint Msg Workflow) : Checkpoint Msg Workflow :=
  let appends := injectPlanReferences cp (injectApprovalHistory env cp (injectPlanTasks env cp))
  let injected := env.injectWorkflow (cp.workflow, appends)
  let cp := { cp with workflow := injected.1, systemInjectionAppends := injected.2 }
  if cp.pendingOperations.isEmpty then cp
  else { cp with
    recoveryNotification := some (buildNotificationText env now cp.pendingOperations)
    pendingToolFailures := buildToolFailureResults env cp.pendingOperations }

def reports (cp : Checkpoint Msg Workflow) : List String := cp.pendingToolFailures ++ cp.recoveryNotification.toList

theorem infix_intercalate (sep : String) {x : String} {xs : List String} (h : x ∈ xs) :
    x.toList <:+: (sep.intercalate xs).toList := by
  induction xs with
  | nil => cases h
  | cons y xs ih =>
    cases xs with
    | nil => simp [mem_singleton.mp h]
    | cons =>
      rw [String.intercalate_cons_cons, String.toList_append, String.toList_append]
      rcases mem_cons.mp h with rfl | h
      · exact ⟨[], _, by rw [nil_append, append_assoc]⟩
      · exact (ih h).trans (suffix_append _ _).isInfix

theorem infix_between (a b c : String) : b.toList <:+: (a ++ b ++ c).toList := by
  rw [String.toList_append, String.toList_append]
  exact infix_append _ _ _

variable (env : RecoveryEnv Workflow) (now : Int)

theorem line_in_notification {ops : List PendingOperation} {op : PendingOperation} {l : String} (hop : op ∈ ops)
    (hl : line env now op = some l) :
    l.toList <:+: (buildNotificationText env now ops).toList := by
  have hmem : l ∈ linesOf env now op.opType ops := mem_filterMap.mpr ⟨op, mem_filter.mpr ⟨hop, by simp⟩, hl⟩
  have hsection : "\n".intercalate (linesOf env now op.opType ops) ∈ sectionOf (linesOf env now op.opType ops) := by
    rw [sectionOf, if_neg]
    · exact mem_cons_self
    · intro hempty
      rw [List.isEmpty_iff.mp hempty] at hmem
      cases hmem
  have hsections : "\n".intercalate (linesOf env now op.opType ops) ∈
      sectionOf (linesOf env now .toolCall ops) ++ sectionOf (linesOf env now .subSessionSpawn ops) := by
    cases htype : op.opType with
    | toolCall =>
      rw [htype] at hsection
      exact mem_append_left _ hsection
    | subSessionSpawn =>
      rw [htype] at hsection
      exact mem_append_right _ hsection
    | outboundMessage =>
      rw [line, htype] at hl
      cases hl
  have hjoined := (infix_intercalate "\n" hmem).trans (infix_intercalate "\n\n" hsections)
  exact hjoined.trans (infix_between _ _ _)

theorem inject_eq (cp : Checkpoint Msg Workflow) :
    (inject env now cp).pendingMessages = cp.pendingMessages ∧
      (inject env now cp).pendingOperations = cp.pendingOperations ∧
      (inject env now cp).pendingToolFailures =
        (if cp.pendingOperations = [] then cp.pendingToolFailures else buildToolFailureResults env cp.pendingOperations) ∧
      (cp.pendingOperations ≠ [] →
        (inject env now cp).recoveryNotification = some (buildNotificationText env now cp.pendingOperations)) := by
  unfold inject
  by_cases hempty : cp.pendingOperations = []
  · simp [hempty]
  · simp [hempty]

/-- A second injection changes nothing, and every pending tool call and sub-session is reported. -/
theorem recovery_twice_is_once (env : RecoveryEnv Workflow) (now now' : Int) (cp : Checkpoint Msg Workflow) :
    (inject env now' (inject env now cp)).pendingMessages = (inject env now cp).pendingMessages ∧
      (inject env now' (inject env now cp)).pendingOperations = (inject env now cp).pendingOperations ∧
      (inject env now' (inject env now cp)).pendingToolFailures = (inject env now cp).pendingToolFailures ∧
      ∀ op ∈ cp.pendingOperations, op.opType ≠ .outboundMessage → ∃ l, line env now op = some l ∧
        ∃ text ∈ reports (inject env now cp), Text.contains text l = true := by
  obtain ⟨-, hkept, hfailures, htold⟩ := inject_eq env now cp
  obtain ⟨hmessages', hkept', hfailures', -⟩ := inject_eq env now' (inject env now cp)
  refine ⟨hmessages', hkept', ?_, ?_⟩
  · rw [hfailures', hkept]
    split_ifs with hempty
    · rfl
    · rw [hfailures, if_neg hempty]
  · intro op hop htype
    have hline : ∃ l, line env now op = some l := by
      unfold line
      cases h : op.opType with
      | toolCall | subSessionSpawn => exact ⟨_, rfl⟩
      | outboundMessage => exact absurd h htype
    obtain ⟨l, hl⟩ := hline
    refine ⟨l, hl, _, ?_, Text.contains_iff.mpr (line_in_notification env now hop hl)⟩
    simp [reports, htold (ne_nil_of_mem hop)]

def outboundOnly : Checkpoint Unit Unit :=
  ⟨[], [⟨"op-7", .outboundMessage, .outboundMessage "feishu" "om-7" "pending", 0⟩], none, [], [], [], none, [], ()⟩

def plainEnv : RecoveryEnv Unit := ⟨fun _ => none, fun _ => "-", fun _ => "", id⟩

theorem an_outbound_message_is_not_reported :
    reports (inject plainEnv 0 outboundOnly) = [buildNotificationText plainEnv 0 []] := by
  have hlines : ∀ opType, linesOf plainEnv 0 opType outboundOnly.pendingOperations = [] := by
    intro opType
    cases opType <;> rfl
  obtain ⟨-, -, hfailures, htold⟩ := inject_eq plainEnv 0 outboundOnly
  have hsame : buildNotificationText plainEnv 0 outboundOnly.pendingOperations = buildNotificationText plainEnv 0 [] := by
    unfold buildNotificationText
    simp only [hlines]
    simp only [linesOf, filter_nil, filterMap_nil]
  simp only [reports, htold (cons_ne_nil _ _), hfailures, hsame]
  rfl

end CloseClaw.Session.RecoveryInjection
