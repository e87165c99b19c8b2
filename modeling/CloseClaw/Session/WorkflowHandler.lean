/- From workflow tool results to the engine (`session/src/workflow_handler.rs`). Run and
   definition are kept decoded. -/

import CloseClaw.Lib.Json
import CloseClaw.Workflow.Engine
import CloseClaw.Session.Transcript

namespace CloseClaw.Session

open Lib Workflow WorkflowEngine

inductive JumpResult where
  | jumped
  | completed
  | notJumped
  deriving DecidableEq

structure WorkflowNotification where
  workflowName : String
  currentStep : Nat
  reason : String
  message : String

structure WorkflowHandler where
  run : WorkflowRun
  definition : Workflow
  pendingNotification : Option WorkflowNotification

structure ToolCodec where
  parseJson : String → Option Json
  yamlOfJson : Json → Option Yaml

inductive ToolAction where
  | start
  | verify
  | jump (answers : Option (List (String × Json)))
  | blocked (reason : String)

def toolAction (C : ToolCodec) (content : String) : Option ToolAction :=
  (C.parseJson content).bind fun data =>
    ((data.get "action").bind Json.asStr).bind fun action =>
      match action with
      | "workflow_start" => some .start
      | "workflow_verify" => some .verify
      | "workflow_jump" => some (.jump ((data.get "answers").map fun a => match a with
          | .obj fields => fields
          | _ => []))
      | "workflow_blocked" => some (.blocked (((data.get "reason").bind Json.asStr).getD "unknown"))
      | _ => none

namespace WorkflowHandler

def new (run : WorkflowRun) (definition : Workflow) : WorkflowHandler := ⟨run, definition, none⟩

def currentStepEffectiveAllowBlocked (h : WorkflowHandler) : Option Bool :=
  (h.definition.steps[h.run.currentStep]?).map h.definition.effectiveAllowBlocked

def verifyMessageForStep (h : WorkflowHandler) (step : Nat) (allowBlocked : Bool) : Option String :=
  (h.definition.steps[step]?).map fun s => buildVerifyMessage s allowBlocked

def jumpMessageForStep (h : WorkflowHandler) (step : Nat) : Option String :=
  (h.definition.steps[step]?).map buildJumpMessage

def goalMessageForStep (h : WorkflowHandler) (step : Nat) (hint : GoalHint) : Option String :=
  (h.definition.steps[step]?).map fun s => buildGoalMessage s hint

def stepName (h : WorkflowHandler) (step : Nat) : String := ((h.definition.steps[step]?).map Step.name).getD ""

def tryMapEnumAnswer (letter : String) : Option Nat :=
  match letter.toList with
  | [c] => if 'A' ≤ c ∧ c ≤ 'Z' then some (c.toNat - 65) else none
  | _ => none

def mapEnumLetterAnswer (answers : List (String × Json)) (q : JumpQuestion) : List (String × Json) :=
  if q.questionType ≠ "enum" ∨ q.options = [] then answers
  else
    match ((answers.lookup q.id).bind Json.asStr).bind tryMapEnumAnswer with
    | none => answers
    | some idx =>
      match q.options[idx]? with
      | none => answers
      | some option => answers.map fun entry => if entry.1 = q.id then (q.id, .str option) else entry

def mapEnumLetterAnswers (h : WorkflowHandler) (answers : List (String × Json)) : List (String × Json) :=
  match h.definition.steps[h.run.currentStep]? with
  | none => answers
  | some step => step.jump.foldl mapEnumLetterAnswer answers

def jsonAnswersToYaml (C : ToolCodec) (answers : List (String × Json)) : Answers :=
  answers.filterMap fun entry => (C.yamlOfJson entry.2).map fun value => (entry.1, value)

def handleVerifyResult (h : WorkflowHandler) (clock : Clock) : (Bool × JumpResult) × WorkflowHandler :=
  match handleVerify h.run h.definition clock with
  | (.ok _, run) => ((true, if run.phase = .jumping then .jumped else .notJumped), { h with run := run })
  | (.error _, _) => ((false, .notJumped), h)

def handleJumpResult (C : ToolCodec) (h : WorkflowHandler) (answers : Option (List (String × Json))) (clock : Clock) :
    (Bool × JumpResult) × WorkflowHandler :=
  match answers with
  | none => ((false, .notJumped), h)
  | some answers =>
    match handleJump h.run h.definition (jsonAnswersToYaml C (h.mapEnumLetterAnswers answers)) clock with
    | (.ok _, run) => ((true, if run.phase = .complete then .completed else .notJumped), { h with run := run })
    | (.error _, _) => ((false, .notJumped), h)

def blockedNotification (h : WorkflowHandler) (reason : String) : WorkflowNotification where
  workflowName := h.run.definitionName
  currentStep := h.run.currentStep
  reason := reason
  message := "⚠️ Workflow「" ++ h.run.definitionName ++ "」在 Step " ++ toString h.run.currentStep ++ " (" ++
    h.stepName h.run.currentStep ++ ") 被阻塞\n原因：" ++ reason ++ "\n\n请回复「恢复」继续执行，或「终止」结束工作流。"

def handleBlockedResult (h : WorkflowHandler) (reason : String) : (Bool × JumpResult) × WorkflowHandler :=
  match h.currentStepEffectiveAllowBlocked with
  | none => ((false, .notJumped), h)
  | some allowBlocked =>
    match handleBlocked h.run h.definition allowBlocked reason with
    | (.ok (), run) =>
      ((true, .notJumped), { h with run := run, pendingNotification := some (h.blockedNotification reason) })
    | (.error _, _) => ((false, .notJumped), h)

def onGoalInjected (h : WorkflowHandler) : WorkflowHandler := { h with run := WorkflowEngine.onGoalInjected h.run }

def act (C : ToolCodec) (h : WorkflowHandler) (clock : Clock) : ToolAction → (Bool × JumpResult) × WorkflowHandler
  | .start => ((true, .notJumped), h.onGoalInjected)
  | .verify => h.handleVerifyResult clock
  | .jump answers => handleJumpResult C h answers clock
  | .blocked reason => h.handleBlockedResult reason

def processToolResult (C : ToolCodec) (h : WorkflowHandler) (content : String) (clock : Clock) :
    (Bool × JumpResult) × WorkflowHandler :=
  match toolAction C content with
  | none => ((false, .notJumped), h)
  | some action => act C h clock action

def JumpResult.latest (before after : JumpResult) : JumpResult :=
  match after with
  | .notJumped => before
  | result => result

def processContentBlocksFrom (C : ToolCodec) (clock : Nat → Clock) :
    Nat → (Bool × JumpResult) × WorkflowHandler → List ContentBlock → (Bool × JumpResult) × WorkflowHandler
  | _, acc, [] => acc
  | i, acc, .toolResult _ content :: rest =>
    let result := acc.2.processToolResult C content (clock i)
    processContentBlocksFrom C clock (i + 1)
      ((acc.1.1 || result.1.1, JumpResult.latest acc.1.2 result.1.2), result.2) rest
  | i, acc, _ :: rest => processContentBlocksFrom C clock (i + 1) acc rest

def processContentBlocks (C : ToolCodec) (clock : Nat → Clock) (h : WorkflowHandler) (blocks : List ContentBlock) :
    (Bool × JumpResult) × WorkflowHandler :=
  processContentBlocksFrom C clock 0 ((false, .notJumped), h) blocks

def verifyLimitNotification (h : WorkflowHandler) (verifyRetryLimit : Nat) : WorkflowNotification where
  workflowName := h.run.definitionName
  currentStep := h.run.currentStep
  reason := "验证重试次数超过上限 (" ++ toString verifyRetryLimit ++ ")"
  message := "⚠️ Workflow「" ++ h.run.definitionName ++ "」在 Step " ++ toString h.run.currentStep ++ " (" ++
    h.stepName h.run.currentStep ++ ") 验证重试次数超过上限\n\n请回复「恢复」继续执行，或「终止」结束工作流。"

def onVerifyInjected (h : WorkflowHandler) (verifyRetryLimit : Nat) (now : String) : WorkflowHandler :=
  let counted := { h with run := WorkflowEngine.onVerifyInjected h.run verifyRetryLimit now }
  if counted.run.phase = .blocked ∧ h.pendingNotification = none then
    { counted with pendingNotification := some (counted.verifyLimitNotification verifyRetryLimit) }
  else counted

def onOwnerResolve (h : WorkflowHandler) : WorkflowHandler :=
  { h with run := WorkflowEngine.onOwnerResolve h.run, pendingNotification := none }

variable (h : WorkflowHandler)

variable (limit : Nat) (C : ToolCodec) (now : String)

@[simp] theorem onVerifyInjected_run :
    (h.onVerifyInjected limit now).run = WorkflowEngine.onVerifyInjected h.run limit now := by
  unfold onVerifyInjected
  simp only
  split <;> rfl

@[simp] theorem onVerifyInjected_definition : (h.onVerifyInjected limit now).definition = h.definition := by
  unfold onVerifyInjected
  simp only
  split <;> rfl

structure Same (run run' : WorkflowRun) : Prop where
  phase : run'.phase = run.phase
  currentStep : run'.currentStep = run.currentStep
  pendingVerify : run'.pendingVerify = run.pendingVerify
  pausedReason : run'.pausedReason = run.pausedReason

inductive Acts (wf : Workflow) (run : WorkflowRun) : ToolAction → JumpResult → WorkflowRun → Prop
  | same {action : ToolAction} {run' : WorkflowRun} : Same run run' → Acts wf run action .notJumped run'
  | asks : run.phase = .verifying → run.currentStep < wf.steps.length →
      Acts wf run .verify .jumped { resetCount run with phase := .jumping }
  | moves {run' : WorkflowRun} : run.phase = .verifying → Advanced wf (resetCount run) run' →
      Acts wf run .verify .notJumped run'
  | jumps {answers : Option (List (String × Json))} {run' : WorkflowRun} : run.phase = .jumping → Advanced wf run run' →
      Acts wf run (.jump answers) (if run'.phase = .complete then .completed else .notJumped) run'
  | blocks {reason : String} : Acts wf run (.blocked reason) .notJumped
    { run with phase := .blocked, pausedReason := reason }

theorem Same.refl (run : WorkflowRun) : Same run run := ⟨rfl, rfl, rfl, rfl⟩

structure Performs (h : WorkflowHandler) (action : ToolAction) (r : (Bool × JumpResult) × WorkflowHandler) : Prop where
  acts : Acts h.definition h.run action r.1.2 r.2.run
  definition : r.2.definition = h.definition
  ignored : r.1.1 = false → r.2 = h

theorem Performs.nothing (action : ToolAction) : Performs h action ((false, .notJumped), h) :=
  ⟨.same (Same.refl _), rfl, fun _ => rfl⟩

theorem Performs.processed {h h' : WorkflowHandler} {action : ToolAction} {result : JumpResult}
    (hacts : Acts h.definition h.run action result h'.run) (hdef : h'.definition = h.definition) :
    Performs h action ((true, result), h') :=
  ⟨hacts, hdef, fun hf => by cases hf⟩

theorem handleVerifyResult_performs (clock : Clock) : Performs h .verify (h.handleVerifyResult clock) := by
  unfold handleVerifyResult
  split
  · rename_i v run' hx
    have hrun : (handleVerify h.run h.definition clock).2 = run' := congrArg Prod.snd hx
    obtain ⟨hp, hi, hw | hadv⟩ := handleVerify_ok (congrArg Prod.fst hx)
    · rw [hrun] at hw
      subst hw
      exact .processed (.asks hp hi) rfl
    · rw [hrun] at hadv
      have hne : run'.phase ≠ .jumping := by
        rcases hadv.moved with hm | hm
        · rw [hm.1]; exact Phase.noConfusion
        · rw [hm.1]; exact Phase.noConfusion
      rw [if_neg hne]
      exact .processed (.moves hp hadv) rfl
  · exact .nothing h _

theorem handleJumpResult_performs (h : WorkflowHandler) (answers : Option (List (String × Json))) (clock : Clock) :
    Performs h (.jump answers) (handleJumpResult C h answers clock) := by
  cases answers with
  | none => exact .nothing h _
  | some =>
    unfold handleJumpResult
    dsimp only
    split
    · rename_i a run' hx
      obtain ⟨hp, -, hadv⟩ := handleJump_ok (congrArg Prod.fst hx)
      rw [congrArg Prod.snd hx] at hadv
      exact .processed (.jumps hp hadv) rfl
    · exact .nothing h _

theorem handleBlockedResult_performs (reason : String) :
    Performs h (.blocked reason) (h.handleBlockedResult reason) := by
  unfold handleBlockedResult
  split
  · exact .nothing h _
  · rename_i allowBlocked ha
    rcases handleBlocked_cases h.run h.definition allowBlocked reason with ⟨⟨e, he⟩, -⟩ | ⟨he, -, hr⟩
    · split
      · rename_i hx
        rw [hx] at he
        cases he
      · exact .nothing h _
    · split
      · rename_i run' hx
        rw [hx] at hr
        subst hr
        exact .processed .blocks rfl
      · rename_i hx
        rw [hx] at he
        cases he

theorem act_performs (h : WorkflowHandler) (clock : Clock) (action : ToolAction) :
    Performs h action (act C h clock action) := by
  cases action with
  | start => exact .processed (.same ⟨rfl, rfl, rfl, rfl⟩) rfl
  | verify => exact h.handleVerifyResult_performs clock
  | jump answers => exact handleJumpResult_performs C h answers clock
  | blocked reason => exact h.handleBlockedResult_performs reason

end WorkflowHandler

end CloseClaw.Session
