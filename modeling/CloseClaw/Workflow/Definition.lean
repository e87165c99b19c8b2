/- Workflow definitions and their messages (`definition.rs`). -/

import CloseClaw.Lib.Yaml
import CloseClaw.Lib.Text
import CloseClaw.Lib.Check

set_option linter.dupNamespace false

namespace CloseClaw.Workflow

open Lib

inductive GoalHint where
  | normal
  | reexecute

structure JumpQuestion where
  id : String
  prompt : String
  questionType : String
  options : List String
  optionLabels : List String

structure Transition where
  when : Option Yaml
  action : String
  targetStep : Option Nat

structure Step where
  id : Nat
  name : String
  allowBlocked : Option Bool
  goal : String
  verify : List String
  jump : List JumpQuestion
  transitions : List Transition

structure Workflow where
  id : String
  name : String
  description : String
  definitionPath : Option String
  version : Option String
  allowBlocked : Bool
  verifyRetryLimit : Nat
  steps : List Step

inductive JumpAction where
  | goto (target : Nat)
  | reexecute (target : Nat)
  | complete

def buildVerifyMessage (step : Step) (allowBlocked : Bool) : String :=
  let head := "Verify Step " ++ toString step.id ++ " (" ++ step.name ++ ")"
  let msg := if step.verify ≠ [] then head ++ ":\n" ++ "\n".intercalate step.verify else head ++ " — no explicit checklist."
  if allowBlocked then msg ++ "\n\n如果确认任务无法继续，调用 workflow_blocked(\x7breason: \"原因\"\x7d)" else msg

def buildGoalMessage (step : Step) (hint : GoalHint) : String :=
  let msg := "[workflow goal] Step " ++ toString step.id ++ ": " ++ step.name ++ "\n\n" ++ step.goal
  match hint with
  | .reexecute =>
    msg ++ "\n\n⚠️ 本步骤为重新执行（reexecute）。跨步骤共享数据（step_data）已保留，请对照验收清单重新执行本步骤并修正之前发现的问题。"
  | .normal => msg

def letter (i : Nat) : String := String.singleton (Char.ofNat ((65 + i) % 256))

def renderOptions : Nat → List String → String
  | _, [] => ""
  | j, label :: labels => "   " ++ letter j ++ " — " ++ label ++ "\n" ++ renderOptions (j + 1) labels

def renderQuestion (i : Nat) (q : JumpQuestion) : String :=
  "\n" ++ letter i ++ ". " ++ q.prompt ++ "\n" ++
    match q.questionType with
    | "enum" =>
      renderOptions 0 (if q.optionLabels ≠ [] then q.optionLabels else q.options) ++
        "   答案格式：" ++ q.id ++ " = <选项字母>\n"
    | "boolean" => "   true / false\n" ++ "   答案格式：" ++ q.id ++ " = true 或 false\n"
    | _ => "   答案格式：" ++ q.id ++ " = <自由文本>\n"

def renderQuestions : Nat → List JumpQuestion → String
  | _, [] => ""
  | i, q :: qs => renderQuestion i q ++ renderQuestions (i + 1) qs

def buildJumpMessage (step : Step) : String :=
  "Jump Step " ++ toString step.id ++ " (" ++ step.name ++ ") — 请回答以下跳转问题:\n" ++ renderQuestions 0 step.jump ++
    "\n调用 workflow_jump(\x7banswers: \x7b<id>: <值>, ...\x7d\x7d) 提交答案\n" ++
    "enum 类型的答案传选项字母（如 A、B、C），不传选项内部值。"

def Workflow.effectiveAllowBlocked (wf : Workflow) (step : Step) : Bool := step.allowBlocked.getD wf.allowBlocked

open Lib Lib.Check List

inductive Phase where
  | executing
  | verifying
  | jumping
  | blocked
  | complete
  deriving DecidableEq

inductive WorkflowError where
  | invalidDefinition (msg : String)
  | parseError (msg : String)
  | stepNotFound (step : Nat)
  | noMatchingTransition
  | blockingNotAllowed
  | invalidPhase (expected actual : Phase)

structure YamlText where
  serialize : Yaml → String
  debug : Yaml → String

def isBlank (s : String) : Bool := s.toList.all Text.isWhitespace

def invalid (index : Nat) (msg : String) : WorkflowError :=
  .invalidDefinition ("step " ++ toString index ++ ": " ++ msg)

def validateStepContent (step : Step) (index : Nat) : Result WorkflowError :=
  all [
    failIf (isBlank step.name) (invalid index "name must not be empty"),
    failIf (isBlank step.goal) (invalid index "goal must not be empty"),
    failIf step.verify.isEmpty (invalid index "verify checklist must not be empty"),
    forEachIdx (fun vi item => failIf (isBlank item)
      (invalid index ("verify item " ++ toString vi ++ " must not be blank")))
      0 step.verify]

def validateJumpIdsUnique (index : Nat) (seen : List String) : List JumpQuestion → Result WorkflowError
  | [] => .ok ()
  | jump :: rest =>
    andThen
      (failIf (seen.contains jump.id) (invalid index
        ("duplicate jump id '" ++ jump.id ++ "' (first at position " ++ toString (seen.idxOf jump.id) ++ ")")))
      (validateJumpIdsUnique index (seen ++ [jump.id]) rest)

def validateOptionsUnique (index : Nat) (jump : JumpQuestion) (seen : List String) : List String → Result WorkflowError
  | [] => .ok ()
  | opt :: rest =>
    andThen (failIf (seen.contains opt) (invalid index ("jump '" ++ jump.id ++ "': duplicate option '" ++ opt ++ "'")))
      (validateOptionsUnique index jump (opt :: seen) rest)

def validateEnumOptions (jump : JumpQuestion) (index : Nat) : Result WorkflowError :=
  all [
    failIf jump.options.isEmpty (invalid index ("jump '" ++ jump.id ++ "': enum options must not be empty")),
    validateOptionsUnique index jump [] jump.options,
    failIf (decide (26 < jump.options.length)) (invalid index
      ("jump '" ++ jump.id ++ "': enum options must not exceed 26 (got " ++ toString jump.options.length ++ ")")),
    failIf (!jump.optionLabels.isEmpty && jump.optionLabels.length != jump.options.length) (invalid index
      ("jump '" ++ jump.id ++ "': option_labels length (" ++ toString jump.optionLabels.length ++
        ") must match options length (" ++ toString jump.options.length ++ ")"))]

def validateJump (jump : JumpQuestion) (index : Nat) : Result WorkflowError :=
  match jump.questionType with
  | "boolean" => .ok ()
  | "enum" => validateEnumOptions jump index
  | other => .error (invalid index
      ("jump '" ++ jump.id ++ "': unsupported question_type '" ++ other ++ "' (must be 'boolean' or 'enum')"))

def validateTransitionsStructure (step : Step) (index : Nat) : Result WorkflowError :=
  match step.transitions.getLast? with
  | none => .error (invalid index "transitions must not be empty")
  | some last =>
    andThen (failIf last.when.isSome (invalid index "last transition must be the default (no 'when')"))
      (forEachIdx (fun ti t => failIf t.when.isNone (invalid index
        ("transition " ++ toString ti ++ " must have 'when' condition (only the last transition may be default)")))
        0 step.transitions.dropLast)

def validateTransitionAction (t : Transition) (stepsLen ti index : Nat) : Result WorkflowError :=
  match t.action with
  | "goto" | "reexecute" =>
    failIf (!t.targetStep.any (· < stepsLen)) (invalid index
      ("transition " ++ toString ti ++ " (" ++ t.action ++ "): target_step is invalid or out of range"))
  | "complete" => .ok ()
  | other => .error (invalid index
      ("transition " ++ toString ti ++ ": unknown action '" ++ other ++ "' (must be 'goto', 'reexecute', or 'complete')"))

def validateWhenKey (ti index : Nat) (step : Step) (key : Yaml) : Result WorkflowError :=
  match key.asStr with
  | none => .error (invalid index ("transition " ++ toString ti ++ ": 'when' key must be a string"))
  | some s => failIf (!(step.jump.map JumpQuestion.id).contains s) (invalid index
      ("transition " ++ toString ti ++ ": 'when' key '" ++ s ++ "' does not match any jump id in this step"))

def validateExpectedValue (ti index : Nat) (step : Step) (entry : Yaml × Yaml) : Result WorkflowError :=
  let key := entry.1.asStr.getD ""
  let expected := entry.2
  match step.jump.find? (·.id == key) with
  | none => .ok ()
  | some jump =>
    match jump.questionType with
    | "boolean" => failIf (!expected.isBool) (invalid index
        ("transition " ++ toString ti ++ ": jump '" ++ key ++ "' is boolean but expected_value is not a bool"))
    | "enum" =>
      match expected.asStr with
      | some val => failIf (!jump.options.contains val) (invalid index
          ("transition " ++ toString ti ++ ": expected_value '" ++ val ++ "' is not in enum options for jump '" ++ key ++ "'"))
      | none => .error (invalid index
          ("transition " ++ toString ti ++ ": jump '" ++ key ++ "' is enum but expected_value is not a string"))
    | other => .error (invalid index
        ("transition " ++ toString ti ++ ": jump '" ++ key ++ "' has unsupported question_type '" ++ other ++
          "' (must be 'boolean' or 'enum')"))

variable (Y : YamlText)

def validateTransitions (step : Step) (stepsLen index : Nat) (seen : List Yaml) (ti : Nat) :
    List Transition → Result WorkflowError
  | [] => .ok ()
  | t :: rest =>
    andThen (validateTransitionAction t stepsLen ti index)
      (match t.when with
      | none => validateTransitions step stepsLen index seen (ti + 1) rest
      | some whenVal =>
        match whenVal.asMapping with
        | none => .error (invalid index
            ("transition " ++ toString ti ++ ": 'when' must be a mapping, got " ++ Y.debug whenVal))
        | some mapping =>
          all [
            forEach (fun entry => validateWhenKey ti index step entry.1) mapping,
            failIf (seen.any fun k => Y.serialize k == Y.serialize whenVal) (invalid index
              ("transition " ++ toString ti ++ ": duplicate 'when' condition")),
            forEach (validateExpectedValue ti index step) mapping,
            validateTransitions step stepsLen index (seen ++ [whenVal]) (ti + 1) rest])

def validateStep (stepsLen index : Nat) (step : Step) : Result WorkflowError :=
  all [
    failIf (step.id != index) (invalid index ("expected id " ++ toString index ++ ", got " ++ toString step.id)),
    validateStepContent step index,
    validateJumpIdsUnique index [] step.jump,
    forEach (fun jump => validateJump jump index) step.jump,
    validateTransitionsStructure step index,
    validateTransitions Y step stepsLen index [] 0 step.transitions]

def validateDefinition (wf : Workflow) : Result WorkflowError :=
  andThen (failIf wf.steps.isEmpty (.invalidDefinition "steps must not be empty"))
    (forEachIdx (validateStep Y wf.steps.length) 0 wf.steps)

def Transition.Leads (t : Transition) (stepsLen : Nat) : Prop :=
  t.action = "complete" ∨ (t.action = "goto" ∨ t.action = "reexecute") ∧ ∃ target, t.targetStep = some target ∧
    target < stepsLen

structure Step.Sound (step : Step) (stepsLen : Nat) : Prop where
  default : ∃ t ∈ step.transitions, t.when = none
  leads : ∀ t ∈ step.transitions, t.Leads stepsLen

theorem validateTransitionAction_ok {t : Transition} {stepsLen ti index : Nat} :
    validateTransitionAction t stepsLen ti index = .ok () ↔ t.Leads stepsLen := by
  have htarget : (!t.targetStep.any (· < stepsLen)) = false ↔ ∃ target, t.targetStep = some target ∧
    target < stepsLen := by
    cases t.targetStep <;> simp
  unfold validateTransitionAction Transition.Leads
  split
  · rename_i h
    rw [failIf_ok, htarget]
    simp [h]
  · rename_i h
    rw [failIf_ok, htarget]
    simp [h]
  · rename_i h
    simp [h]
  · rename_i hg hr hc
    constructor
    · intro h; cases h
    · rintro (h | ⟨h | h, -⟩)
      · exact absurd h hc
      · exact absurd h hg
      · exact absurd h hr

variable {Y}

variable {wf : Workflow} {step : Step} {index : Nat}

theorem validateTransitions_leads {stepsLen : Nat} {ts : List Transition} {seen : List Yaml} {ti : Nat}
    (h : validateTransitions Y step stepsLen index seen ti ts = .ok ()) : ∀ t ∈ ts, t.Leads stepsLen := by
  induction ts generalizing seen ti with
  | nil => intro t ht; cases ht
  | cons t ts ih =>
    rw [validateTransitions, andThen_ok] at h
    obtain ⟨hact, hrest⟩ := h
    intro t' ht'
    rcases mem_cons.mp ht' with rfl | ht'
    · exact validateTransitionAction_ok.mp hact
    · -- the rest is checked in every branch that does not fail
      split at hrest
      · exact ih hrest t' ht'
      · split at hrest
        · cases hrest
        · simp only [all_ok, forall_mem_cons] at hrest
          exact ih hrest.2.2.2.1 t' ht'

theorem validateTransitionsStructure_default (h : validateTransitionsStructure step index = .ok ()) :
    ∃ t ∈ step.transitions, t.when = none := by
  unfold validateTransitionsStructure at h
  split at h
  · cases h
  · rename_i last hlast
    rw [andThen_ok, failIf_ok] at h
    exact ⟨last, List.mem_of_getLast? hlast, by simpa using h.1⟩

theorem validateJumpIdsUnique_ok {seen : List String} {jumps : List JumpQuestion}
    (h : validateJumpIdsUnique index seen jumps = .ok ()) :
    (jumps.map JumpQuestion.id).Nodup ∧ ∀ q ∈ jumps, q.id ∉ seen := by
  induction jumps generalizing seen with
  | nil => simp
  | cons jump rest ih =>
    rw [validateJumpIdsUnique, andThen_ok, failIf_ok] at h
    obtain ⟨hnew, hrest⟩ := h
    obtain ⟨hnodup, hseen⟩ := ih hrest
    simp only [mem_append, mem_singleton, not_or] at hseen
    refine ⟨nodup_cons.mpr ⟨?_, hnodup⟩, ?_⟩
    · intro hmem
      obtain ⟨q, hq, hid⟩ := mem_map.mp hmem
      exact (hseen q hq).2 hid
    · exact forall_mem_cons.mpr ⟨by simpa using hnew, fun q hq => (hseen q hq).1⟩

structure Step.Asks (step : Step) : Prop where
  ids : (step.jump.map JumpQuestion.id).Nodup
  options : ∀ q ∈ step.jump, q.questionType = "enum" → q.options.length ≤ 26
  labels : ∀ q ∈ step.jump, q.questionType = "enum" → q.optionLabels ≠ [] →
    q.optionLabels.length = q.options.length

theorem validateDefinition_asks (h : validateDefinition Y wf = .ok ()) (hstep : step ∈ wf.steps) : step.Asks := by
  rw [validateDefinition, andThen_ok, forEachIdx_ok] at h
  obtain ⟨i, hi, rfl⟩ := getElem_of_mem hstep
  have hs := h.2 i hi
  rw [validateStep, all_ok] at hs
  simp only [forall_mem_cons] at hs
  obtain ⟨-, -, hids, hjumps, -⟩ := hs
  have henum : ∀ q ∈ (wf.steps[i]).jump, q.questionType = "enum" → q.options.length ≤ 26 ∧
      (q.optionLabels ≠ [] → q.optionLabels.length = q.options.length) := by
    intro q hq htype
    obtain ⟨k, hk, rfl⟩ := getElem_of_mem hq
    have hchecked := forEachIdx_ok.mp hjumps k hk
    simp only [validateJump, htype, validateEnumOptions, all_ok, forall_mem_cons, failIf_ok] at hchecked
    simpa using hchecked.2.2
  exact ⟨(validateJumpIdsUnique_ok hids).1, fun q hq ht => (henum q hq ht).1, fun q hq ht => (henum q hq ht).2⟩

theorem validateDefinition_ok (h : validateDefinition Y wf = .ok ()) :
    wf.steps ≠ [] ∧ ∀ i (hi : i < wf.steps.length), (wf.steps[i]).id = i ∧ (wf.steps[i]).Sound wf.steps.length := by
  rw [validateDefinition, andThen_ok, failIf_ok, forEachIdx_ok] at h
  refine ⟨by simpa using h.1, ?_⟩
  intro i hi
  have hs := h.2 i hi
  rw [Nat.zero_add, validateStep, all_ok] at hs
  simp only [forall_mem_cons, failIf_ok, bne_eq_false_iff_eq] at hs
  obtain ⟨hid, -, -, -, hstruct, htrans, -⟩ := hs
  exact ⟨hid, validateTransitionsStructure_default hstruct, validateTransitions_leads htrans⟩

end CloseClaw.Workflow
