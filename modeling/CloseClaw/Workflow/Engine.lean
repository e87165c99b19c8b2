/- The workflow state machine (`workflow/src/engine.rs`, `run.rs`). -/

import CloseClaw.Workflow.Definition

namespace CloseClaw.Workflow

open Lib List

structure StepHistoryEntry where
  stepId : Nat
  stepName : String
  enteredAt : String
  completedAt : String

structure PendingVerify where
  count : Nat
  lastInjectTime : String
  maxRetryLimit : Nat

structure WorkflowRun where
  workflowId : String
  definitionName : String
  definitionVersion : String
  currentStep : Nat
  phase : Phase
  currentStepEnteredAt : String
  stepHistory : List StepHistoryEntry
  stepData : Yaml
  pendingGoalHint : GoalHint
  pendingVerify : PendingVerify
  pausedReason : String

inductive VerifyAction where
  | jump
  | blocked

abbrev Answers := List (String × Yaml)

structure Clock where
  completedAt : String
  enteredAt : String

/-! ## Jump evaluation -/

def valuesEqual (answer expected : Yaml) : Bool :=
  answer == expected ||
    match answer.asStr, expected.asStr with
    | some a, some b => a == b
    | _, _ => false

def evaluateWhen (when : Yaml) (answers : Answers) : Bool :=
  match when.asMapping with
  | none => true
  | some mapping => mapping.all fun entry =>
      match entry.1.asStr with
      | none => false
      | some key =>
        match answers.lookup key with
        | none => false
        | some answer => valuesEqual answer entry.2

def toJumpAction (t : Transition) : JumpAction × Option Nat :=
  let action := match t.action with
    | "goto" => JumpAction.goto (t.targetStep.getD 0)
    | "reexecute" => JumpAction.reexecute (t.targetStep.getD 0)
    | "complete" => JumpAction.complete
    | _ => JumpAction.complete
  (action, t.targetStep)

def evaluateTransitionsFrom (answers : Answers) (default : Option Transition) :
    List Transition → Option (JumpAction × Option Nat)
  | [] => default.map toJumpAction
  | t :: rest =>
    match t.when with
    | some whenValue =>
      if evaluateWhen whenValue answers then some (toJumpAction t) else evaluateTransitionsFrom answers default rest
    | none => evaluateTransitionsFrom answers (some t) rest

def evaluateTransitions (transitions : List Transition) (answers : Answers) : Option (JumpAction × Option Nat) :=
  evaluateTransitionsFrom answers none transitions

namespace WorkflowEngine

/-! ## The engine -/

def start (wf : Workflow) (now : String) : WorkflowRun where
  workflowId := wf.id
  definitionName := wf.name
  definitionVersion := wf.version.getD "0.1"
  currentStep := 0
  phase := .executing
  currentStepEnteredAt := now
  stepHistory := []
  stepData := .null
  pendingGoalHint := .normal
  pendingVerify := ⟨0, "", 3⟩
  pausedReason := ""

def onGoalInjected (run : WorkflowRun) : WorkflowRun := { run with pendingGoalHint := .normal }

def onSessionIdle (run : WorkflowRun) : Bool :=
  match run.phase with
  | .executing | .verifying | .jumping => true
  | .blocked | .complete => false

def onVerifyInjected (run : WorkflowRun) (verifyRetryLimit : Nat) (now : String) : WorkflowRun :=
  let counted := { run with pendingVerify := ⟨run.pendingVerify.count + 1, now, verifyRetryLimit⟩ }
  if verifyRetryLimit ≤ run.pendingVerify.count + 1 then { counted with phase := .blocked, pausedReason := "验收重试次数耗尽" }
  else { counted with phase := .verifying }

def executeGoto (run : WorkflowRun) (wf : Workflow) (target : Nat) (clock : Clock) :
    Except WorkflowError Unit × WorkflowRun :=
  if wf.steps[target]?.isNone then (.error (.stepNotFound target), run)
  else
    let stepName := (wf.steps[run.currentStep]?.map Step.name).getD ""
    (.ok (), { run with
      stepHistory := run.stepHistory ++ [⟨run.currentStep, stepName, run.currentStepEnteredAt, clock.completedAt⟩]
      currentStep := target
      currentStepEnteredAt := clock.enteredAt
      stepData := .null
      pendingGoalHint := .normal
      pendingVerify := { run.pendingVerify with count := 0 }
      phase := .executing })

def executeReexecute (run : WorkflowRun) (wf : Workflow) (target : Nat) (clock : Clock) :
    Except WorkflowError Unit × WorkflowRun :=
  if wf.steps[target]?.isNone then (.error (.stepNotFound target), run)
  else
    (.ok (), { run with
      currentStep := target
      currentStepEnteredAt := clock.enteredAt
      pendingGoalHint := .reexecute
      pendingVerify := { run.pendingVerify with count := 0 }
      phase := .executing })

def execute (run : WorkflowRun) (wf : Workflow) (clock : Clock) : JumpAction → Except WorkflowError Unit × WorkflowRun
  | .goto target => executeGoto run wf target clock
  | .reexecute target => executeReexecute run wf target clock
  | .complete => (.ok (), { run with phase := .complete })

def handleVerify (run : WorkflowRun) (wf : Workflow) (clock : Clock) :
    Except WorkflowError VerifyAction × WorkflowRun :=
  if run.phase ≠ .verifying then (.error (.invalidPhase .verifying run.phase), run)
  else
    let run := { run with pendingVerify := { run.pendingVerify with count := 0 } }
    match wf.steps[run.currentStep]? with
    | none => (.error (.stepNotFound run.currentStep), run)
    | some step =>
      if step.jump ≠ [] then (.ok .jump, { run with phase := .jumping })
      else
        match evaluateTransitions step.transitions [] with
        | none => (.error .noMatchingTransition, run)
        | some (action, _) =>
          match execute run wf clock action with
          | (.error e, run) => (.error e, run)
          | (.ok (), run) => (.ok .jump, run)

def handleJump (run : WorkflowRun) (wf : Workflow) (answers : Answers) (clock : Clock) :
    Except WorkflowError JumpAction × WorkflowRun :=
  if run.phase ≠ .jumping then (.error (.invalidPhase .jumping run.phase), run)
  else
    match wf.steps[run.currentStep]? with
    | none => (.error (.stepNotFound run.currentStep), run)
    | some step =>
      match evaluateTransitions step.transitions answers with
      | none => (.error .noMatchingTransition, run)
      | some (action, _) =>
        match execute run wf clock action with
        | (.error e, run) => (.error e, run)
        | (.ok (), run) => (.ok action, run)

def handleBlocked (run : WorkflowRun) (wf : Workflow) (allowBlocked : Bool) (reason : String) :
    Except WorkflowError Unit × WorkflowRun :=
  if wf.steps[run.currentStep]?.isNone then (.error (.stepNotFound run.currentStep), run)
  else if !allowBlocked then (.error .blockingNotAllowed, run)
  else (.ok (), { run with phase := .blocked, pausedReason := reason })

def onOwnerResolve (run : WorkflowRun) : WorkflowRun :=
  { run with pendingVerify := { run.pendingVerify with count := 0 }, pausedReason := "", phase := .verifying }

def onOwnerTerminate (run : WorkflowRun) : WorkflowRun := { run with pausedReason := "", phase := .complete }

end WorkflowEngine

/-! ## Evaluation at a sound step -/

theorem evaluateTransitionsFrom_cases (answers : Answers) (ts : List Transition) (default : Option Transition) :
    (∃ t, (t ∈ ts ∨ default = some t) ∧ evaluateTransitionsFrom answers default ts = some (toJumpAction t)) ∨
      (default = none ∧ (∀ t ∈ ts, t.when ≠ none) ∧ evaluateTransitionsFrom answers default ts = none) := by
  induction ts generalizing default with
  | nil =>
    cases default with
    | none => exact .inr ⟨rfl, by simp, rfl⟩
    | some t => exact .inl ⟨t, .inr rfl, rfl⟩
  | cons t ts ih =>
    rw [evaluateTransitionsFrom]
    cases hw : t.when with
    | none =>
      -- the default so far is replaced, so the rest evaluates to something
      simp only
      rcases ih (some t) with ⟨t', ht', he⟩ | ⟨hd, -⟩
      · refine .inl ⟨t', .inl ?_, he⟩
        rcases ht' with ht' | ht'
        · exact mem_cons_of_mem t ht'
        · exact Option.some.inj ht' ▸ mem_cons_self
      · cases hd
    | some =>
      simp only
      split
      · exact .inl ⟨t, .inl mem_cons_self, rfl⟩
      · rcases ih default with ⟨t', ht', he⟩ | ⟨hd, hnone, he⟩
        · exact .inl ⟨t', ht'.imp (mem_cons_of_mem t) id, he⟩
        · refine .inr ⟨hd, ?_, he⟩
          intro t' ht'
          rcases mem_cons.mp ht' with rfl | ht'
          · rw [hw]; exact Option.some_ne_none _
          · exact hnone t' ht'

def JumpAction.InRange (stepsLen : Nat) : JumpAction → Prop
  | .goto target => target < stepsLen
  | .reexecute target => target < stepsLen
  | .complete => True

theorem Transition.Leads.inRange {t : Transition} {stepsLen : Nat} (h : t.Leads stepsLen) :
    (toJumpAction t).1.InRange stepsLen := by
  rcases h with h | ⟨h | h, target, ht, hlt⟩
  · simp [toJumpAction, h, JumpAction.InRange]
  · simpa [toJumpAction, h, ht, JumpAction.InRange] using hlt
  · simpa [toJumpAction, h, ht, JumpAction.InRange] using hlt

theorem Step.Sound.evaluates {step : Step} {stepsLen : Nat} (h : step.Sound stepsLen) (answers : Answers) :
    ∃ action target,
      evaluateTransitions step.transitions answers = some (action, target) ∧ action.InRange stepsLen := by
  rcases evaluateTransitionsFrom_cases answers step.transitions none with ⟨t, ht, he⟩ | ⟨-, hnone, -⟩
  · rcases ht with ht | ht
    · exact ⟨(toJumpAction t).1, (toJumpAction t).2, he, (h.leads t ht).inRange⟩
    · cases ht
  · obtain ⟨t, ht, hw⟩ := h.default
    exact absurd hw (hnone t ht)

/-! ## What the handlers do -/

structure Advanced (wf : Workflow) (run run' : WorkflowRun) : Prop where
  moved : (run'.phase = .executing ∧ run'.currentStep < wf.steps.length) ∨
    (run'.phase = .complete ∧ run'.currentStep = run.currentStep)
  count : run'.pendingVerify.count ≤ run.pendingVerify.count
  pausedReason : run'.pausedReason = run.pausedReason

theorem Advanced.currentStep {wf : Workflow} {run run' : WorkflowRun} (h : Advanced wf run run')
    (hi : run.currentStep < wf.steps.length) : run'.currentStep < wf.steps.length := by
  rcases h.moved with hm | hm
  · exact hm.2
  · rw [hm.2]; exact hi

namespace WorkflowEngine

variable {wf : Workflow} {run : WorkflowRun} {clock : Clock}

theorem execute_advanced {action : JumpAction} {run' : WorkflowRun} (h : execute run wf clock action = (.ok (), run')) :
    Advanced wf run run' := by
  cases action with
  | goto | reexecute =>
    simp only [execute, executeGoto, executeReexecute] at h
    split at h
    · cases h
    · rename_i hfound
      cases h
      exact ⟨.inl ⟨rfl, by simpa using hfound⟩, Nat.zero_le _, rfl⟩
  | complete =>
    cases h
    exact ⟨.inr ⟨rfl, rfl⟩, Nat.le_refl _, rfl⟩

variable {answers : Answers} {step : Step} {action : JumpAction}

theorem execute_inRange (run : WorkflowRun) (clock : Clock) (h : action.InRange wf.steps.length) :
    ∃ run', execute run wf clock action = (.ok (), run') := by
  cases action with
  | goto target | reexecute target =>
    have hlt : target < wf.steps.length := h
    simp [execute, executeGoto, executeReexecute, hlt]
  | complete => exact ⟨_, rfl⟩

def resetCount (run : WorkflowRun) : WorkflowRun := { run with pendingVerify := { run.pendingVerify with count := 0 } }

theorem handleVerify_wrong_phase (h : run.phase ≠ .verifying) :
    handleVerify run wf clock = (.error (.invalidPhase .verifying run.phase), run) := if_pos h

theorem handleJump_wrong_phase (h : run.phase ≠ .jumping) :
    handleJump run wf answers clock = (.error (.invalidPhase .jumping run.phase), run) := if_pos h

theorem handleVerify_ok {action : VerifyAction} (h : (handleVerify run wf clock).1 = .ok action) :
    run.phase = .verifying ∧ run.currentStep < wf.steps.length ∧
      ((handleVerify run wf clock).2 = { resetCount run with phase := .jumping } ∨
        Advanced wf (resetCount run) (handleVerify run wf clock).2) := by
  by_cases hp : run.phase = .verifying
  · refine ⟨hp, ?_⟩
    have hphase : ¬ run.phase ≠ .verifying := not_not.mpr hp
    simp only [handleVerify, if_neg hphase] at h ⊢
    split at h
    · cases h
    · rename_i step hs
      refine ⟨(List.getElem?_eq_some_iff.mp hs).1, ?_⟩
      split at h
      · rename_i hjump
        rw [if_pos hjump]
        exact .inl rfl
      · rename_i hjump
        rw [if_neg hjump]
        split at h
        · cases h
        · rename_i next target he
          split at h
          · cases h
          · rename_i run' hx
            exact .inr (execute_advanced hx)
  · rw [handleVerify_wrong_phase hp] at h
    cases h

theorem handleVerify_sound (hp : run.phase = .verifying) (hs : wf.steps[run.currentStep]? = some step)
    (h : step.Sound wf.steps.length) (clock : Clock) : (handleVerify run wf clock).1 = .ok .jump := by
  have hphase : ¬ run.phase ≠ .verifying := not_not.mpr hp
  simp only [handleVerify, if_neg hphase, hs]
  split
  · rfl
  · obtain ⟨action, target, he, hr⟩ := h.evaluates []
    obtain ⟨run', hx⟩ := execute_inRange (resetCount run) clock hr
    rw [resetCount] at hx
    simp only [he, hx]

theorem handleJump_ok (h : (handleJump run wf answers clock).1 = .ok action) :
    run.phase = .jumping ∧ run.currentStep < wf.steps.length ∧ Advanced wf run (handleJump run wf answers clock).2 := by
  by_cases hp : run.phase = .jumping
  · refine ⟨hp, ?_⟩
    have hphase : ¬ run.phase ≠ .jumping := not_not.mpr hp
    simp only [handleJump, if_neg hphase] at h ⊢
    split at h
    · cases h
    · rename_i step hs
      refine ⟨(List.getElem?_eq_some_iff.mp hs).1, ?_⟩
      split at h
      · cases h
      · rename_i next target he
        split at h
        · cases h
        · rename_i run' hx
          exact execute_advanced hx
  · rw [handleJump_wrong_phase hp] at h
    cases h

theorem handleJump_sound (hp : run.phase = .jumping) (hs : wf.steps[run.currentStep]? = some step)
    (h : step.Sound wf.steps.length) (answers : Answers) (clock : Clock) :
    ∃ action, (handleJump run wf answers clock).1 = .ok action := by
  have hphase : ¬ run.phase ≠ .jumping := not_not.mpr hp
  obtain ⟨action, target, he, hr⟩ := h.evaluates answers
  obtain ⟨run', hx⟩ := execute_inRange run clock hr
  exact ⟨action, by simp only [handleJump, if_neg hphase, hs, he, hx]⟩

theorem handleBlocked_cases (run : WorkflowRun) (wf : Workflow) (allowBlocked : Bool) (reason : String) :
    ((∃ e, (handleBlocked run wf allowBlocked reason).1 = .error e) ∧
      (handleBlocked run wf allowBlocked reason).2 = run) ∨
      ((handleBlocked run wf allowBlocked reason).1 = .ok () ∧ allowBlocked = true ∧
        (handleBlocked run wf allowBlocked reason).2 = { run with phase := .blocked, pausedReason := reason }) := by
  unfold handleBlocked
  split
  · exact .inl ⟨⟨_, rfl⟩, rfl⟩
  · split
    · exact .inl ⟨⟨_, rfl⟩, rfl⟩
    · rename_i h
      exact .inr ⟨rfl, by simpa using h, rfl⟩

theorem onVerifyInjected_cases (run : WorkflowRun) (limit : Nat) (now : String) :
    (limit ≤ run.pendingVerify.count + 1 ∧ (onVerifyInjected run limit now).phase = .blocked) ∨
      (run.pendingVerify.count + 1 < limit ∧ (onVerifyInjected run limit now).phase = .verifying ∧
        (onVerifyInjected run limit now).pausedReason = run.pausedReason ∧
        (onVerifyInjected run limit now).pendingVerify.count = run.pendingVerify.count + 1) := by
  unfold onVerifyInjected
  simp only
  split
  · rename_i h
    exact .inl ⟨h, rfl⟩
  · rename_i h
    exact .inr ⟨by omega, rfl, rfl, rfl⟩

@[simp] theorem onVerifyInjected_currentStep (run : WorkflowRun) (limit : Nat) (now : String) :
    (onVerifyInjected run limit now).currentStep = run.currentStep := by
  unfold onVerifyInjected
  simp only
  split <;> rfl

end WorkflowEngine

end CloseClaw.Workflow
