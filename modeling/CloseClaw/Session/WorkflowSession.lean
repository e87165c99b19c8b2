/- The workflow side of a session (`llm_session/workflow.rs`). It holds the run twice: in
   `workflow_run` and inside the handler. -/

import CloseClaw.Session.MessageQueue
import CloseClaw.Session.WorkflowPhases

namespace CloseClaw.Session

open Lib Workflow Transcript

structure ConversationSession where
  sessionId : String
  messages : List SessionMessage
  systemInjectionAppends : List String
  queue : UnifiedMessageQueue
  workflowRun : Option WorkflowRun
  workflowHandler : Option WorkflowHandler

abbrev Loader := String → Option Workflow

def phaseName : Phase → String
  | .executing => "Executing"
  | .verifying => "Verifying"
  | .jumping => "Jumping"
  | .blocked => "Blocked"
  | .complete => "Complete"

def isWorkflowStartBlock (C : ToolCodec) : ContentBlock → Bool
  | .toolResult _ content =>
    match toolAction C content with
    | some .start => true
    | _ => false
  | _ => false

namespace ConversationSession

def ensureWorkflowHandler (load : Loader) (s : ConversationSession) : ConversationSession :=
  match s.workflowHandler, s.workflowRun with
  | some _, _ => s
  | none, none => s
  | none, some run =>
    match load run.definitionName with
    | none => s
    | some definition => { s with workflowHandler := some (.new run definition) }

def hasActiveWorkflow (s : ConversationSession) : Bool := s.workflowRun.any fun run => run.phase != .complete

def injectWorkflowMessage (s : ConversationSession) (content : String) : ConversationSession :=
  { s with messages := Transcript.injectWorkflowMessage s.messages content }

def rejectionMessage (s : ConversationSession) : String :=
  "⚠️ " ++ "无法启动新工作流：当前 Session 已有活跃的工作流运行（阶段：" ++ (s.workflowRun.map fun run => phaseName run.phase).getD "" ++
    "）。\n请等待当前工作流完成后再启动新工作流。"

def eraseVerification (s : ConversationSession) : ConversationSession :=
  let kept := removeWorkflowVerifyMessages s.messages
  { s with messages := removeWorkflowToolExchange kept ["workflow_verify", "workflow_blocked"] }

def eraseJump (s : ConversationSession) : ConversationSession :=
  let kept := removeWorkflowJumpMessages s.messages
  { s with messages := removeWorkflowToolExchange kept ["workflow_jump"] }

def dispatchPostJumpPhase (s : ConversationSession) (h : WorkflowHandler) : ConversationSession :=
  match h.run.phase with
  | .executing =>
    match h.goalMessageForStep h.run.currentStep h.run.pendingGoalHint with
    | none => s
    | some msg => { s.injectWorkflowMessage msg with
        workflowHandler := some h.onGoalInjected, workflowRun := some h.onGoalInjected.run }
  | .complete => { s with workflowRun := some h.run }
  | _ => s

def settleBatch (s : ConversationSession) (before : Phase) (processed : Bool) (result : JumpResult)
    (h : WorkflowHandler) :
    ConversationSession :=
  match if result = .jumped then h.jumpMessageForStep h.run.currentStep else none with
  | some msg => s.eraseVerification.injectWorkflowMessage msg
  | none =>
    if before = .jumping then s.eraseJump.dispatchPostJumpPhase h
    else if processed ∧ before ≠ .blocked ∧ h.run.phase = .blocked then s.eraseVerification
    else s

def processWorkflowToolResults (C : ToolCodec) (load : Loader) (clock : Nat → Clock) (s : ConversationSession)
    (blocks : List ContentBlock) : Bool × ConversationSession :=
  let s := s.ensureWorkflowHandler load
  if s.hasActiveWorkflow && blocks.any (isWorkflowStartBlock C) then (false, s.injectWorkflowMessage s.rejectionMessage)
  else
    match s.workflowHandler with
    | none => (false, s)
    | some h =>
      let batch := h.processContentBlocks C clock blocks
      let synced := { s with
        workflowHandler := some batch.2
        workflowRun := if batch.1.1 then some batch.2.run else s.workflowRun }
      (batch.1.1, synced.settleBatch h.run.phase batch.1.1 batch.1.2 batch.2)

def maybeInjectWorkflowVerify (load : Loader) (anyActive : Bool) (now : String) (s : ConversationSession) :
    ConversationSession :=
  let s := s.ensureWorkflowHandler load
  match s.workflowHandler with
  | none => s
  | some h =>
    match if anyActive then none else h.checkIdleVerifyConditions with
    | none => s
    | some params =>
      match params.phase with
      | .jumping =>
        match h.jumpMessageForStep params.currentStep with
        | none => s
        | some msg => s.injectWorkflowMessage msg
      | .executing | .verifying =>
        let cleared := { s with messages := removeWorkflowVerifyMessages s.messages }
        let injected := match h.verifyMessageForStep params.currentStep params.allowBlocked with
          | none => cleared
          | some msg => cleared.injectWorkflowMessage msg
        { injected with workflowHandler := some (h.onVerifyInjected params.verifyRetryLimit now) }
      | _ => s

structure ControlEnv where
  load : Loader
  goalPushed : Bool
  verifyPushed : Bool
  runPersisted : Bool

def activeWorkflowRunPhase (s : ConversationSession) : Option String :=
  s.workflowRun.bind fun run => if run.phase = .complete then none else some (phaseName run.phase)

def pushWorkflowMessage (s : ConversationSession) (messageId content : String) : ConversationSession :=
  { s with queue := s.queue.push (.userMessage ⟨messageId, content, false, some "workflow"⟩) }

def buildWorkflowContextAppend (wf : Workflow) : String :=
  "--- WORKFLOW ---\n你正在执行受控工作流：" ++ wf.name ++ "\n描述：" ++ wf.description ++ "\n" ++
    (wf.definitionPath.map fun path => "定义文件：" ++ path ++ "\n").getD "" ++
    "Engine 会通过 workflow 控制消息（role: workflow）驱动步骤推进，必须遵守三阶段协议：\n1. 收到 goal → 执行步骤\n" ++
    "2. 收到 verify → 自查验收清单 → 完成则调用 workflow_verify，否则继续\n" ++
    "3. 收到 jump → 回答问题 → 调用 workflow_jump 传递答案\n不要自行跳步或跳过验证。\n--- WORKFLOW END ---"

def startWorkflow (env : ControlEnv) (workflowName : String) (now : String) (s : ConversationSession) :
    ConversationSession :=
  if s.activeWorkflowRunPhase.isSome then s
  else
    match env.load workflowName with
    | none => s
    | some wf =>
      let stored := { s with workflowRun := some (WorkflowEngine.start wf now) }
      if !env.runPersisted then stored
      else
        let appended := { stored with systemInjectionAppends :=
          stored.systemInjectionAppends ++ [buildWorkflowContextAppend wf] }
        match wf.steps[0]? with
        | none => appended
        | some step => appended.pushWorkflowMessage ("workflow-goal-" ++ s.sessionId) (buildGoalMessage step .normal)

def refreshGoalIfChanged (env : ControlEnv) (s : ConversationSession) (run : WorkflowRun) (wf : Workflow)
    (step : Step) :
    Option WorkflowRun × ConversationSession :=
  let latest := wf.version.getD "0.1"
  if run.definitionVersion = latest then
    (some run, { s with messages := removeWorkflowVerifyMessages s.messages })
  else
    let cleared := { s with messages := removeWorkflowMessages s.messages }
    let pushed := cleared.pushWorkflowMessage ("workflow-goal-" ++ s.sessionId)
      (buildGoalMessage step run.pendingGoalHint)
    if !env.goalPushed then (none, pushed)
    else (some { WorkflowEngine.onGoalInjected run with definitionVersion := latest }, pushed)

def pausedReason (s : ConversationSession) : String := (s.workflowRun.map WorkflowRun.pausedReason).getD ""

def onOwnerMessage (env : ControlEnv) (s : ConversationSession) : ConversationSession :=
  if ownerPauseKind s.pausedReason ≠ .resolvable then s
  else
    match s.workflowRun with
    | none => s
    | some run =>
      match env.load run.definitionName with
      | none => s
      | some wf =>
        match wf.steps[run.currentStep]? with
        | none => s
        | some step =>
          match s.refreshGoalIfChanged env run wf step with
          | (none, s) => s
          | (some run, s) =>
            let pushed := s.pushWorkflowMessage ("workflow-verify-" ++ s.sessionId)
              (buildVerifyMessage step (wf.effectiveAllowBlocked step))
            if !env.verifyPushed then pushed
            else { pushed with workflowRun := some (WorkflowEngine.onOwnerResolve run) }

def terminate (s : ConversationSession) : ConversationSession :=
  if s.activeWorkflowRunPhase.isNone then s
  else { s with
    systemInjectionAppends := s.systemInjectionAppends.filter fun a => !Text.startsWith a "--- WORKFLOW ---"
    messages := removeWorkflowMessages s.messages
    workflowRun := none }

def CleanedUp (s : ConversationSession) : Prop :=
  s.workflowHandler = none ∧ s.workflowRun = none ∧ ∀ m ∈ s.messages, m.role ≠ "workflow"

end ConversationSession

end CloseClaw.Session
