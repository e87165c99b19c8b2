/- The health check at the end of a turn (`run_health`). -/

import Mathlib.Data.List.Basic

namespace CloseClaw.Session.RunHealth

inductive FailureCategory where
  | retryable
  | invalidResponse
  | unrecoverable
  | sideEffectOccurred
  deriving DecidableEq

inductive HealthStatus where
  | healthy
  | unhealthy (category : FailureCategory)
  deriving DecidableEq

inductive HardRuleViolation where
  | timeout (elapsedMs thresholdMs : Nat)
  | emptyResponse
  | thinkingOnlyResponse
  | structuralAnomaly (detail : String)
  | retryExhausted (attempts maxRetries : Nat)
  | sideEffectOccurred

def HardRuleViolation.category : HardRuleViolation → FailureCategory
  | .timeout _ _ => .retryable
  | .emptyResponse => .invalidResponse
  | .thinkingOnlyResponse => .invalidResponse
  | .structuralAnomaly _ => .invalidResponse
  | .retryExhausted _ _ => .unrecoverable
  | .sideEffectOccurred => .sideEffectOccurred

def HardRuleViolation.isUnsafe : HardRuleViolation → Bool
  | .timeout _ _ => false
  | .emptyResponse => false
  | .thinkingOnlyResponse => false
  | .structuralAnomaly _ => false
  | .retryExhausted _ _ => true
  | .sideEffectOccurred => true

structure HealthCheckInput where
  hasText : Bool
  hasToolCalls : Bool
  hasThinking : Bool
  retryCount : Nat
  turnDurationMs : Nat
  isStructurallyValid : Bool
  structuralAnomalyDetail : Option String
  sideEffectOccurred : Bool

structure HealthCheckOutput where
  status : HealthStatus
  violations : List HardRuleViolation
  suggestedCategory : Option FailureCategory

/-! ## Hard rules -/

abbrev HardRule := HealthCheckInput → Option HardRuleViolation

def timeoutRule (thresholdMs : Nat) : HardRule := fun input =>
  if input.turnDurationMs > thresholdMs then some (.timeout input.turnDurationMs thresholdMs) else none

def emptyResponseRule : HardRule := fun input =>
  if !input.hasText && !input.hasToolCalls then
    if input.hasThinking then some .thinkingOnlyResponse else some .emptyResponse
  else none

def structuralAnomalyRule : HardRule := fun input =>
  if !input.isStructurallyValid then
    some (.structuralAnomaly (input.structuralAnomalyDetail.getD "unknown structural anomaly"))
  else none

def retryExhaustedRule (maxRetries : Nat) : HardRule := fun input =>
  if input.retryCount ≥ maxRetries then some (.retryExhausted input.retryCount maxRetries) else none

def sideEffectOccurredRule : HardRule := fun input =>
  if input.sideEffectOccurred && !input.hasText && !input.hasToolCalls then some .sideEffectOccurred else none

def evaluate (rules : List HardRule) (input : HealthCheckInput) : HealthCheckOutput :=
  match rules.filterMap (· input) with
  | [] => { status := .healthy, violations := [], suggestedCategory := none }
  -- the first violation drives the recovery strategy, the others are only recorded
  | v :: rest =>
    { status := .unhealthy v.category, violations := v :: rest, suggestedCategory := some v.category }

@[simp] theorem evaluate_violations (rules : List HardRule) (input : HealthCheckInput) :
    (evaluate rules input).violations = rules.filterMap (· input) := by
  unfold evaluate
  split <;> simp_all

/-! ## Hooks -/

inductive HookType where
  | planCheck
  | loopCheck
  | progressCheck

def HookType.debug : HookType → String
  | .planCheck => "PlanCheck"
  | .loopCheck => "LoopCheck"
  | .progressCheck => "ProgressCheck"

structure HookParams where
  loopCheckRepetitionThreshold : Nat := 3
  progressCheckMinToolCalls : Nat := 1

structure HookConfig where
  hookType : HookType := .planCheck
  enabled : Bool := true
  params : HookParams := {}

structure HookToolCallInfo where
  name : String
  input : String

structure HookContext where
  text : String
  toolCalls : List HookToolCallInfo
  toolResults : List String
  recentToolCalls : List HookToolCallInfo

structure HookVerdict where
  flag : Bool
  reason : String
  hookType : HookType

def hookPromptTemplate : HookType → String
  | .planCheck =>
    "You are reviewing an assistant turn for plan-only behavior. The assistant made no tool calls. " ++
    "Does the text contain promises, plans, or commitments without concrete action? Respond with YES if the " ++
    "assistant only planned/promised without executing, NO if the turn is acceptable."
  | .loopCheck =>
    "You are reviewing an assistant's recent tool call history for repetitive loops. The assistant has been " ++
    "calling the same tool with similar parameters across multiple turns without meaningful progress. Respond " ++
    "with YES if there is a repetitive loop pattern, NO if the tool calls show genuine progress."
  | .progressCheck =>
    "You are reviewing an assistant turn for verifiable progress. Check whether the turn produced any file " ++
    "changes or meaningful tool results. Respond with YES if no progress was made, NO if the turn advanced " ++
    "the task."

def buildReviewPrompt (hookType : HookType) (params : HookParams) : String :=
  let paramNote := match hookType with
    | .loopCheck =>
      " A loop is defined as " ++ toString params.loopCheckRepetitionThreshold ++
      " or more consecutive calls to the same tool with similar parameters."
    | .progressCheck =>
      " Only evaluate progress if the turn made at least " ++ toString params.progressCheckMinToolCalls ++
      " tool call(s)."
    | .planCheck => ""
  hookPromptTemplate hookType ++ paramNote

def HookToolCallInfo.format (tc : HookToolCallInfo) : String := tc.name ++ "(" ++ tc.input ++ ")"

def formatTurnContext (snapshot : HookContext) : String :=
  let text := if snapshot.text.isEmpty then [] else ["Text: " ++ snapshot.text]
  let calls := if snapshot.toolCalls.isEmpty then [] else
    ["Tool calls: [" ++ String.intercalate ", " (snapshot.toolCalls.map (·.format)) ++ "]"]
  let results := if snapshot.toolResults.isEmpty then [] else
    ["Tool results:\n" ++ String.intercalate "\n"
      (snapshot.toolResults.mapIdx fun i r => "Result " ++ toString i ++ ": " ++ r)]
  let recent := if snapshot.recentToolCalls.isEmpty then [] else
    ["Recent tool calls: [" ++ String.intercalate ", " (snapshot.recentToolCalls.map (·.format)) ++ "]"]
  String.intercalate "\n\n" (text ++ calls ++ results ++ recent)

abbrev HookLlm := String → String → Except String Bool

def runHook (llm : HookLlm) (config : HookConfig) (snapshot : HookContext) : HookVerdict :=
  match llm (buildReviewPrompt config.hookType config.params) (formatTurnContext snapshot) with
  | .ok flag =>
    { flag
      reason := config.hookType.debug ++ (if flag then " flagged the turn" else " found no issues")
      hookType := config.hookType }
  -- a hook that cannot be asked does not block the turn
  | .error err =>
    { flag := false, reason := config.hookType.debug ++ " review failed: " ++ err, hookType := config.hookType }

def review (hooks : List HookConfig) (llm : HookLlm) (snapshot : HookContext) : List HookVerdict :=
  (hooks.filter (·.enabled)).map (runHook llm · snapshot)

/-! ## Backoff -/

/-- What the handler takes from the language: the `f64` arithmetic of a delay and the
    escaping of `{:?}` on a string. -/
structure RustStd (F : Type) where
  two : F
  delay : Nat → F → Nat → Nat
  debugStr : String → String

structure RetryPolicy (F : Type) where
  maxRetries : Nat
  initialDelayMs : Nat
  backoffMultiplier : F

variable {F : Type}

def RetryPolicy.default (R : RustStd F) : RetryPolicy F :=
  { maxRetries := 3, initialDelayMs := 1000, backoffMultiplier := R.two }

structure BackoffCounter (F : Type) where
  attemptCount : Nat
  policy : RetryPolicy F

namespace BackoffCounter

def new (policy : RetryPolicy F) : BackoffCounter F := { attemptCount := 0, policy }

def increment (c : BackoffCounter F) : BackoffCounter F :=
  { c with attemptCount := (c.attemptCount + 1) % UInt32.size }

def isExhausted (c : BackoffCounter F) : Bool := c.attemptCount ≥ c.policy.maxRetries

def nextDelay (R : RustStd F) (c : BackoffCounter F) : Option Nat :=
  if c.isExhausted then none
  else some (R.delay c.policy.initialDelayMs c.policy.backoffMultiplier c.attemptCount)

def HasBudget (c : BackoffCounter F) : Prop := (c.attemptCount + 1) % UInt32.size < c.policy.maxRetries

instance HasBudget.decidable (c : BackoffCounter F) : Decidable c.HasBudget :=
  inferInstanceAs (Decidable (_ < _))

theorem increment_isExhausted (c : BackoffCounter F) : c.increment.isExhausted = !decide c.HasBudget := by
  show decide (c.policy.maxRetries ≤ (c.attemptCount + 1) % UInt32.size) = !decide c.HasBudget
  rw [← decide_not]
  exact decide_eq_decide.mpr Nat.not_lt.symm

end BackoffCounter

/-! ## Unhealthy turns -/

inductive RecoverableAction where
  | retry (delayMs : Nat) (instruction : Option String)
  | notifyUser (message : String)
  | stop (reason : String)
  deriving DecidableEq

def RecoverableAction.isRetry : RecoverableAction → Bool
  | .retry _ _ => true
  | .notifyUser _ => false
  | .stop _ => false

@[simp] theorem RecoverableAction.isRetry_notifyUser (message : String) :
    (RecoverableAction.notifyUser message).isRetry = false := rfl

def retryInstruction : String :=
  "Your previous response was invalid. Please provide a complete, well-structured response."

def retryExhaustedMessage : String := "The operation failed after multiple retries. Please try again later."

def invalidResponseExhaustedMessage : String :=
  "The assistant produced invalid responses repeatedly. Please rephrase your request."

def HardRuleViolation.debug (R : RustStd F) : HardRuleViolation → String
  | .timeout e t =>
    "Timeout \x7b elapsed_ms: " ++ toString e ++ ", threshold_ms: " ++ toString t ++ " \x7d"
  | .emptyResponse => "EmptyResponse"
  | .thinkingOnlyResponse => "ThinkingOnlyResponse"
  | .structuralAnomaly detail => "StructuralAnomaly \x7b detail: " ++ R.debugStr detail ++ " \x7d"
  | .retryExhausted a m =>
    "RetryExhausted \x7b attempts: " ++ toString a ++ ", max_retries: " ++ toString m ++ " \x7d"
  | .sideEffectOccurred => "SideEffectOccurred"

structure UnhealthyHandler (F : Type) where
  retryBackoff : BackoffCounter F
  invalidBackoff : BackoffCounter F

namespace UnhealthyHandler

def new (policy : RetryPolicy F) : UnhealthyHandler F :=
  { retryBackoff := .new policy, invalidBackoff := .new policy }

def retryOrNotify (R : RustStd F) (c : BackoffCounter F) (instruction : Option String) (message : String) :
    RecoverableAction :=
  if c.isExhausted then .notifyUser message else .retry ((c.nextDelay R).getD 0) instruction

def handle (R : RustStd F) (h : UnhealthyHandler F) (output : HealthCheckOutput) :
    UnhealthyHandler F × Option RecoverableAction :=
  match output.suggestedCategory with
  | none => (h, none)
  | some .retryable =>
    let c := h.retryBackoff.increment
    ({ h with retryBackoff := c }, some (retryOrNotify R c none retryExhaustedMessage))
  | some .invalidResponse =>
    let c := h.invalidBackoff.increment
    ({ h with invalidBackoff := c },
      some (retryOrNotify R c (some retryInstruction) invalidResponseExhaustedMessage))
  | some .unrecoverable =>
    let cause := (output.violations.head?.map (·.debug R)).getD "unknown error"
    (h, some (.notifyUser ("Unrecoverable error: " ++ cause)))
  | some .sideEffectOccurred =>
    (h, some (.notifyUser
      "Side effects detected — user verification required. No rollback will be performed."))

def counter (h : UnhealthyHandler F) : FailureCategory → Option (BackoffCounter F)
  | .retryable => some h.retryBackoff
  | .invalidResponse => some h.invalidBackoff
  | .unrecoverable => none
  | .sideEffectOccurred => none

variable (R : RustStd F) (h : UnhealthyHandler F) (output : HealthCheckOutput)

theorem retryOrNotify_isRetry (c : BackoffCounter F) (instruction : Option String) (message : String) :
    (retryOrNotify R c.increment instruction message).isRetry = decide c.HasBudget := by
  rw [retryOrNotify, c.increment_isExhausted]
  by_cases h : c.HasBudget <;> simp [h, RecoverableAction.isRetry]

theorem handle_isRetry :
    (h.handle R output).2.any (·.isRetry) =
      ((output.suggestedCategory.bind h.counter).any fun c => decide c.HasBudget) := by
  unfold handle
  split <;> simp_all [counter, retryOrNotify_isRetry]

theorem handle_counter (category : FailureCategory) :
    (h.handle R output).1.counter category =
      if output.suggestedCategory = some category then (h.counter category).map (·.increment)
      else h.counter category := by
  unfold handle
  split <;> cases category <;> simp_all [counter]

end UnhealthyHandler

/-! ## The checker -/

structure RunHealthVerdict where
  status : HealthStatus
  action : Option RecoverableAction
  deriving DecidableEq

structure RunHealthChecker (F : Type) where
  hardRules : List HardRule
  hookReviewer : Option (List HookConfig)
  unhealthyHandler : UnhealthyHandler F

structure Turn where
  input : HealthCheckInput
  hookContext : Option HookContext
  llm : HookLlm

def buildHookViolationOutput (reasons : List String) : HealthCheckOutput where
  status := .unhealthy .invalidResponse
  violations := [.structuralAnomaly ("hooks flagged: " ++ String.intercalate "; " reasons)]
  suggestedCategory := some .invalidResponse

namespace RunHealthChecker

def healthyVerdict : RunHealthVerdict := { status := .healthy, action := none }

def checkTurn (R : RustStd F) (checker : RunHealthChecker F) (turn : Turn) :
    RunHealthChecker F × RunHealthVerdict :=
  let hardOutput := evaluate checker.hardRules turn.input
  if hardOutput.status = .healthy then
    match checker.hookReviewer, turn.hookContext with
    | some hooks, some ctx =>
      let hookVerdicts := review hooks turn.llm ctx
      if hookVerdicts.any (·.flag) then
        let flagReasons := (hookVerdicts.filter (·.flag)).map (·.reason)
        match checker.unhealthyHandler.handle R (buildHookViolationOutput flagReasons) with
        | (h, some action) =>
          ({ checker with unhealthyHandler := h },
            { status := .unhealthy .invalidResponse, action := some action })
        | (h, none) => ({ checker with unhealthyHandler := h }, healthyVerdict)
      else (checker, healthyVerdict)
    | _, _ => (checker, healthyVerdict)
  else
    let (h, action) := checker.unhealthyHandler.handle R hardOutput
    ({ checker with unhealthyHandler := h }, { status := hardOutput.status, action })

def timeoutThresholdMs : Nat := 300000

def maxRetries : Nat := 3

def defaultRules : List HardRule :=
  [timeoutRule timeoutThresholdMs, emptyResponseRule, structuralAnomalyRule, retryExhaustedRule maxRetries,
    sideEffectOccurredRule]

def createDefaultHealthChecker (R : RustStd F) (llmCaller : Bool) (hookConfigs : List HookConfig) :
    RunHealthChecker F where
  hardRules := defaultRules
  hookReviewer := if llmCaller then some hookConfigs else none
  unhealthyHandler := .new (.default R)

def turnOutput (checker : RunHealthChecker F) (turn : Turn) : HealthCheckOutput :=
  let hardOutput := evaluate checker.hardRules turn.input
  match hardOutput.status, checker.hookReviewer, turn.hookContext with
  | .healthy, some hooks, some ctx =>
    let flagged := (review hooks turn.llm ctx).filter (·.flag)
    if flagged.isEmpty then hardOutput else buildHookViolationOutput (flagged.map (·.reason))
  | _, _, _ => hardOutput

end RunHealthChecker

def HealthCheckOutput.Coherent (output : HealthCheckOutput) : Prop :=
  match output.status with
  | .healthy => output.suggestedCategory = none
  | .unhealthy category => output.suggestedCategory = some category

theorem evaluate_coherent (rules : List HardRule) (input : HealthCheckInput) : (evaluate rules input).Coherent := by
  unfold evaluate
  split <;> rfl

namespace RunHealthChecker

theorem turnOutput_coherent (checker : RunHealthChecker F) (turn : Turn) : (checker.turnOutput turn).Coherent := by
  have hrules := evaluate_coherent checker.hardRules turn.input
  unfold turnOutput
  dsimp only
  split
  · split
    · exact hrules
    · rfl
  · exact hrules

theorem checkTurn_eq (R : RustStd F) (checker : RunHealthChecker F) (turn : Turn) : checker.checkTurn R turn =
      ({ checker with unhealthyHandler := (checker.unhealthyHandler.handle R (checker.turnOutput turn)).1 },
        { status := (checker.turnOutput turn).status
          action := (checker.unhealthyHandler.handle R (checker.turnOutput turn)).2 }) := by
  obtain ⟨rules, reviewer, handler⟩ := checker
  obtain ⟨input, hookContext, llm⟩ := turn
  have hquiet : ∀ output : HealthCheckOutput, output.suggestedCategory = none →
      handler.handle R output = (handler, none) := by
    intro output h
    simp [UnhealthyHandler.handle, h]
  have hcoherent := evaluate_coherent rules input
  unfold checkTurn turnOutput
  cases hs : (evaluate rules input).status with
  | unhealthy => simp [hs]
  | healthy =>
    simp only [HealthCheckOutput.Coherent, hs] at hcoherent
    cases reviewer with
    | none => simp [hs, hquiet _ hcoherent, healthyVerdict]
    | some hooks =>
      cases hookContext with
      | none => simp [hs, hquiet _ hcoherent, healthyVerdict]
      | some ctx =>
        by_cases hflag : (review hooks llm ctx).any (·.flag)
        · have hne : ¬ (review hooks llm ctx).filter (·.flag) = [] := by
            simpa using hflag
          simp [hs, hflag, hne, UnhealthyHandler.handle, buildHookViolationOutput]
        · have hnil : (review hooks llm ctx).filter (·.flag) = [] := by
            simpa using hflag
          simp [hs, hflag, hnil, hquiet _ hcoherent, healthyVerdict]

end RunHealthChecker

end CloseClaw.Session.RunHealth
