/- Runs of the engine, and what a failed call leaves. -/

import CloseClaw.Lib.Trace
import CloseClaw.Workflow.Engine

namespace CloseClaw.Workflow

open Lib WorkflowEngine

inductive EngineOp where
  | verify (clock : Clock)
  | jump (answers : Answers) (clock : Clock)
  | blocked (allowBlocked : Bool) (reason : String)
  | ownerResolve
  | ownerTerminate
  | verifyInjected (verifyRetryLimit : Nat) (now : String)
  | goalInjected

namespace WorkflowEngine

def apply (wf : Workflow) (run : WorkflowRun) : EngineOp → WorkflowRun
  | .verify clock => (handleVerify run wf clock).2
  | .jump answers clock => (handleJump run wf answers clock).2
  | .blocked allowBlocked reason => (handleBlocked run wf allowBlocked reason).2
  | .ownerResolve => onOwnerResolve run
  | .ownerTerminate => onOwnerTerminate run
  | .verifyInjected verifyRetryLimit now => onVerifyInjected run verifyRetryLimit now
  | .goalInjected => onGoalInjected run

end WorkflowEngine

variable {Y : YamlText} {wf : Workflow} {run : WorkflowRun}

theorem step_of_validated (h : validateDefinition Y wf = .ok ()) {i : Nat} (hi : i < wf.steps.length) :
    ∃ step, wf.steps[i]? = some step ∧ step.Sound wf.steps.length :=
  ⟨wf.steps[i], List.getElem?_eq_getElem hi, ((validateDefinition_ok h).2 i hi).2⟩

theorem apply_currentStep (h : validateDefinition Y wf = .ok ()) (op : EngineOp)
    (hi : run.currentStep < wf.steps.length) : (apply wf run op).currentStep < wf.steps.length := by
  obtain ⟨step, hs, hsound⟩ := step_of_validated h hi
  cases op with
  | verify clock =>
    show (handleVerify run wf clock).2.currentStep < _
    by_cases hp : run.phase = .verifying
    · obtain ⟨-, -, hw | hadv⟩ := handleVerify_ok (handleVerify_sound hp hs hsound clock)
      · rw [hw]; exact hi
      · exact hadv.currentStep hi
    · rw [handleVerify_wrong_phase hp]
      exact hi
  | jump answers clock =>
    show (handleJump run wf answers clock).2.currentStep < _
    by_cases hp : run.phase = .jumping
    · obtain ⟨action, hok⟩ := handleJump_sound hp hs hsound answers clock
      exact (handleJump_ok hok).2.2.currentStep hi
    · rw [handleJump_wrong_phase hp]
      exact hi
  | blocked allowBlocked reason =>
    show (handleBlocked run wf allowBlocked reason).2.currentStep < _
    rcases handleBlocked_cases run wf allowBlocked reason with ⟨-, hr⟩ | ⟨-, -, hr⟩
    · rw [hr]; exact hi
    · rw [hr]; exact hi
  | ownerResolve | ownerTerminate | goalInjected => exact hi
  | verifyInjected verifyRetryLimit now =>
    show (onVerifyInjected run verifyRetryLimit now).currentStep < _
    rw [onVerifyInjected_currentStep]
    exact hi

theorem run_currentStep (h : validateDefinition Y wf = .ok ()) (now : String) (ops : List EngineOp) :
    (Trace.run (apply wf) (start wf now) ops).currentStep < wf.steps.length :=
  Trace.invariant (I := fun run : WorkflowRun => run.currentStep < wf.steps.length)
    (fun _ op hi => apply_currentStep h op hi)
    (List.length_pos_iff.mpr (validateDefinition_ok h).1) ops

theorem validated_workflow_never_gets_stuck (h : validateDefinition Y wf = .ok ()) (now : String)
    (ops : List EngineOp) :
    let run := Trace.run (apply wf) (start wf now) ops
    (run.phase ≠ .complete → run.currentStep < wf.steps.length) ∧
    (run.phase = .verifying → ∀ clock, ∃ action, (handleVerify run wf clock).1 = .ok action) ∧
    (run.phase = .jumping →
      ∀ answers clock, ∃ action, (handleJump run wf answers clock).1 = .ok action) := by
  intro run
  have hi : run.currentStep < wf.steps.length := run_currentStep h now ops
  obtain ⟨step, hs, hsound⟩ := step_of_validated h hi
  refine ⟨fun _ => hi, ?_, ?_⟩
  · intro hp clock
    exact ⟨.jump, handleVerify_sound hp hs hsound clock⟩
  · intro hp answers clock
    exact handleJump_sound hp hs hsound answers clock

def draftStep : Step where
  id := 0
  name := "Draft"
  allowBlocked := none
  goal := "Write the draft"
  verify := ["The draft is complete"]
  jump := [⟨"good", "Is it good?", "boolean", [], []⟩]
  transitions := [⟨some (.mapping [(.str "good", .bool true)]), "complete", none⟩, ⟨none, "reexecute", some 0⟩]

def reviewLoop : Workflow where
  id := "review"
  name := "Review"
  description := "Draft until it is good"
  definitionPath := none
  version := none
  allowBlocked := true
  verifyRetryLimit := 1
  steps := [draftStep]

def plainText : YamlText := ⟨fun _ => "", fun _ => ""⟩

theorem reviewLoop_validated : validateDefinition plainText reviewLoop = .ok () := by rfl

theorem reviewLoop_never_gets_stuck : validateDefinition plainText reviewLoop = .ok () ∧
    (let run := Trace.run (apply reviewLoop) (start reviewLoop "")
      [.verifyInjected 3 "", .verify ⟨"", ""⟩]
    run.phase = .jumping ∧ ∀ answers clock, ∃ action, (handleJump run reviewLoop answers clock).1 = .ok action) :=
  ⟨reviewLoop_validated, rfl, (validated_workflow_never_gets_stuck reviewLoop_validated "" [.verifyInjected 3 "", .verify ⟨"", ""⟩]).2.2 rfl⟩

inductive AgentCall where
  | verify (clock : Clock)
  | jump (answers : Answers) (clock : Clock)
  | blocked (allowBlocked : Bool) (reason : String)

def Step.Passes (stepsLen : Nat) (step : Step) : Prop :=
  step.jump ≠ [] ∨
    ∃ action target, evaluateTransitions step.transitions [] = some (action, target) ∧ action.InRange stepsLen

def WorkflowRun.VerifyIsClean (wf : Workflow) (run : WorkflowRun) : Prop :=
  run.pendingVerify.count = 0 ∨ ∃ step, wf.steps[run.currentStep]? = some step ∧ step.Passes wf.steps.length

def AgentCall.IsClean (wf : Workflow) (run : WorkflowRun) : AgentCall → Prop
  | .verify _ => run.phase = .verifying → run.VerifyIsClean wf
  | .jump .. => True
  | .blocked .. => True

namespace WorkflowEngine

def handle (wf : Workflow) (run : WorkflowRun) : AgentCall → Except WorkflowError Unit × WorkflowRun
  | .verify clock => (handleVerify run wf clock).map (Except.map fun _ => ()) id
  | .jump answers clock => (handleJump run wf answers clock).map (Except.map fun _ => ()) id
  | .blocked allowBlocked reason => handleBlocked run wf allowBlocked reason

theorem execute_outOfRange (wf : Workflow) (run : WorkflowRun) (clock : Clock) {action : JumpAction}
    (h : ¬ action.InRange wf.steps.length) : ∃ e, execute run wf clock action = (.error e, run) := by
  cases action with
  | goto target | reexecute target =>
    have hnone : wf.steps[target]?.isNone = true := by simpa [JumpAction.InRange] using h
    exact ⟨.stepNotFound target, by simp only [execute, executeGoto, executeReexecute, if_pos hnone]⟩
  | complete => exact absurd trivial h

theorem handleJump_error {answers : Answers} {clock : Clock} {e : WorkflowError}
    (h : (handleJump run wf answers clock).1 = .error e) : (handleJump run wf answers clock).2 = run := by
  by_cases hp : run.phase = .jumping
  · have hphase : ¬ run.phase ≠ .jumping := not_not.mpr hp
    simp only [handleJump, if_neg hphase] at h ⊢
    cases hs : wf.steps[run.currentStep]? with
    | none => rfl
    | some step =>
      simp only [hs] at h ⊢
      cases he : evaluateTransitions step.transitions answers with
      | none => rfl
      | some next =>
        simp only [he] at h ⊢
        by_cases hr : next.1.InRange wf.steps.length
        · obtain ⟨run', hx⟩ := execute_inRange run clock hr
          simp only [hx] at h
          cases h
        · obtain ⟨e', hx⟩ := execute_outOfRange wf run clock hr
          simp only [hx]
  · rw [handleJump_wrong_phase hp]

theorem handleVerify_cases (wf : Workflow) (hp : run.phase = .verifying) (clock : Clock) :
    ((∃ step, wf.steps[run.currentStep]? = some step ∧ step.Passes wf.steps.length) ∧
        (handleVerify run wf clock).1 = .ok .jump) ∨
      ((¬ ∃ step, wf.steps[run.currentStep]? = some step ∧ step.Passes wf.steps.length) ∧
        ∃ e, handleVerify run wf clock = (.error e, resetCount run)) := by
  have hphase : ¬ run.phase ≠ .verifying := not_not.mpr hp
  simp only [handleVerify, if_neg hphase]
  cases hs : wf.steps[run.currentStep]? with
  | none =>
    right
    refine ⟨?_, .stepNotFound run.currentStep, rfl⟩
    rintro ⟨step, hstep, -⟩
    cases hstep
  | some step =>
    by_cases hjump : step.jump ≠ []
    · left
      exact ⟨⟨step, rfl, .inl hjump⟩, by simp only [if_pos hjump]⟩
    · simp only [if_neg hjump]
      cases he : evaluateTransitions step.transitions [] with
      | none =>
        right
        refine ⟨?_, .noMatchingTransition, rfl⟩
        rintro ⟨step', hstep, hpass⟩
        obtain rfl := Option.some.inj hstep
        rcases hpass with hpass | ⟨action, target, ha, -⟩
        · exact hjump hpass
        · rw [he] at ha
          cases ha
      | some next =>
        by_cases hr : next.1.InRange wf.steps.length
        · left
          obtain ⟨run', hx⟩ := execute_inRange (resetCount run) clock hr
          rw [resetCount] at hx
          exact ⟨⟨step, rfl, .inr ⟨next.1, next.2, he, hr⟩⟩, by simp only [hx]⟩
        · right
          obtain ⟨e', hx⟩ := execute_outOfRange wf (resetCount run) clock hr
          refine ⟨?_, e', ?_⟩
          · rintro ⟨step', hstep, hpass⟩
            obtain rfl := Option.some.inj hstep
            rcases hpass with hpass | ⟨action, target, ha, hin⟩
            · exact hjump hpass
            · obtain rfl := Option.some.inj (he.symm.trans ha)
              exact hr hin
          · rw [resetCount] at hx ⊢
            simp only [hx]

theorem resetCount_eq_iff : resetCount run = run ↔ run.pendingVerify.count = 0 := by
  constructor
  · intro h
    rw [← h]
    rfl
  · intro h
    obtain ⟨_, _, _, _, _, _, _, _, _, ⟨count, _, _⟩, _⟩ := run
    obtain rfl : count = 0 := h
    rfl

end WorkflowEngine

/-- Of the calls that fail only a verification can have changed the run. -/
theorem failed_call_leaves_run_iff (wf : Workflow) (run : WorkflowRun) (call : AgentCall) :
    ((∃ e, (handle wf run call).1 = .error e) → (handle wf run call).2 = run) ↔ call.IsClean wf run := by
  cases call with
  | verify clock =>
    by_cases hp : run.phase = .verifying
    · rcases handleVerify_cases wf hp clock with ⟨hpass, hok⟩ | ⟨hpass, e, he⟩
      · simp [handle, hok, Except.map, AgentCall.IsClean, WorkflowRun.VerifyIsClean, hpass]
      · simp [handle, he, Except.map, AgentCall.IsClean, WorkflowRun.VerifyIsClean, hpass, hp, resetCount_eq_iff]
    · simp [handle, handleVerify_wrong_phase hp, AgentCall.IsClean, hp]
  | jump answers clock =>
    simp only [AgentCall.IsClean, iff_true]
    rintro ⟨e, he⟩
    show (handleJump run wf answers clock).2 = run
    cases hr : (handleJump run wf answers clock).1 with
    | error => exact handleJump_error hr
    | ok => simp [handle, hr, Except.map] at he
  | blocked allowBlocked reason =>
    simp only [AgentCall.IsClean, iff_true]
    rintro ⟨e, he⟩
    rcases handleBlocked_cases run wf allowBlocked reason with ⟨-, hrun⟩ | ⟨hok, -⟩
    · exact hrun
    · rw [handle, hok] at he
      cases he

def deadEnd : Workflow := { reviewLoop with steps := [{ draftStep with jump := [], transitions := [] }] }

/-- The third call fails, and the count starts again at zero. -/
theorem a_failed_verification_forgets_the_count :
    let run := Trace.run (apply deadEnd) (start deadEnd "")
      [.verifyInjected 3 "", .verifyInjected 3 ""]
    (handle deadEnd run (.verify ⟨"", ""⟩)).1 = .error .noMatchingTransition ∧
      run.pendingVerify.count = 2 ∧
      (handle deadEnd run (.verify ⟨"", ""⟩)).2.pendingVerify.count = 0 ∧
      (handle deadEnd run (.verify ⟨"", ""⟩)).2 ≠ run := by
  refine ⟨rfl, rfl, rfl, ?_⟩
  intro h
  have hcount : 0 = 2 := congrArg (fun run => run.pendingVerify.count) h
  cases hcount

end CloseClaw.Workflow
