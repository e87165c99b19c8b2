/- The health checker over a whole session. -/

import CloseClaw.Lib.Trace
import CloseClaw.Session.RunHealth
import Mathlib.Data.List.Nodup
import Mathlib.Data.List.Perm.Subperm
import Mathlib.Data.List.Range
import Mathlib.Data.Nat.ModEq

namespace CloseClaw.Session.RunHealth.RunHealthChecker

open Lib List HardRuleViolation UnhealthyHandler

variable {F : Type}

def next (R : RustStd F) (checker : RunHealthChecker F) (turn : Turn) : RunHealthChecker F :=
  (checker.checkTurn R turn).1

def verdicts (R : RustStd F) : RunHealthChecker F → List Turn → List RunHealthVerdict
  | _, [] => []
  | checker, turn :: turns => (checker.checkTurn R turn).2 :: verdicts R (checker.next R turn) turns

variable (R : RustStd F) (checker : RunHealthChecker F) (turn : Turn)

@[simp] theorem next_hardRules : (checker.next R turn).hardRules = checker.hardRules := by
  rw [next, checkTurn_eq]

theorem next_handler :
    (checker.next R turn).unhealthyHandler = (checker.unhealthyHandler.handle R (checker.turnOutput turn)).1 := by
  rw [next, checkTurn_eq]

/-! ## Unsafe turns -/

def noContent (input : HealthCheckInput) : Bool := !input.hasText && !input.hasToolCalls

def UnsafeNotRetried (R : RustStd F) (checker : RunHealthChecker F) (turn : Turn) : Prop :=
  (evaluate checker.hardRules turn.input).violations.any (·.isUnsafe) = true →
    (checker.checkTurn R turn).2.action.any (·.isRetry) = false

def IsUnsafe (input : HealthCheckInput) : Prop :=
  input.retryCount ≥ maxRetries ∨ input.sideEffectOccurred = true ∧ noContent input = true

def EarlierSpent (checker : RunHealthChecker F) (turn : Turn) : Prop :=
  if turn.input.turnDurationMs > timeoutThresholdMs then ¬ checker.unhealthyHandler.retryBackoff.HasBudget
  else if noContent turn.input || !turn.input.isStructurallyValid then
    ¬ checker.unhealthyHandler.invalidBackoff.HasBudget
  else True

theorem any_violations (rules : List HardRule) (input : HealthCheckInput) (p : HardRuleViolation → Bool) :
    (evaluate rules input).violations.any p = rules.any fun rule => (rule input).any p := by
  rw [evaluate_violations]
  induction rules with
  | nil => rfl
  | cons rule rules ih => cases h : rule input <;> simp [h, ih]

variable (M : Nat) (input : HealthCheckInput) (limit a n : Nat)

theorem default_isUnsafe_iff : (evaluate defaultRules input).violations.any (·.isUnsafe) = true ↔ IsUnsafe input := by
  have htimeout : ((timeoutRule timeoutThresholdMs input).any (·.isUnsafe)) = false := by
    unfold timeoutRule
    split <;> rfl
  have hempty : ((emptyResponseRule input).any (·.isUnsafe)) = false := by
    unfold emptyResponseRule
    split_ifs <;> rfl
  have hanomaly : ((structuralAnomalyRule input).any (·.isUnsafe)) = false := by
    unfold structuralAnomalyRule
    split <;> rfl
  have hexhausted : ((retryExhaustedRule maxRetries input).any (·.isUnsafe)) =
      decide (input.retryCount ≥ maxRetries) := by
    unfold retryExhaustedRule
    split <;> simp_all [isUnsafe]
  have hside : ((sideEffectOccurredRule input).any (·.isUnsafe)) = (input.sideEffectOccurred && noContent input) := by
    unfold sideEffectOccurredRule noContent
    rw [Bool.and_assoc]
    split <;> simp_all [isUnsafe]
  rw [any_violations]
  simp only [defaultRules, any_cons, any_nil, htimeout, hempty, hanomaly, hexhausted, hside]
  simp [IsUnsafe]

theorem default_category : (evaluate defaultRules input).suggestedCategory =
      if input.turnDurationMs > timeoutThresholdMs then some .retryable
      else if noContent input || !input.isStructurallyValid then some .invalidResponse
      else if input.retryCount ≥ maxRetries then some .unrecoverable else none := by
  have hhead : (evaluate defaultRules input).suggestedCategory =
      ((defaultRules.filterMap (· input)).head?).map (·.category) := by
    unfold evaluate
    split <;> simp_all
  rw [hhead]
  by_cases htimeout : input.turnDurationMs > timeoutThresholdMs
  · simp [defaultRules, timeoutRule, htimeout, category]
  have htime : timeoutRule timeoutThresholdMs input = none := by simp [timeoutRule, htimeout]
  by_cases hcontent : noContent input = true
  · have hempty : (emptyResponseRule input).map (·.category) = some .invalidResponse := by
      unfold noContent at hcontent
      by_cases hthinking : input.hasThinking = true <;>
        simp [emptyResponseRule, hcontent, hthinking, category]
    obtain ⟨v, hv, hcategory⟩ := Option.map_eq_some_iff.mp hempty
    simp [defaultRules, htimeout, htime, hv, hcategory, hcontent]
  have hempty : emptyResponseRule input = none := by
    unfold noContent at hcontent
    simp [emptyResponseRule, hcontent]
  have hside : sideEffectOccurredRule input = none := by
    unfold noContent at hcontent
    simp [sideEffectOccurredRule, Bool.and_assoc, hcontent]
  by_cases hvalid : input.isStructurallyValid = true
  · by_cases hexhausted : input.retryCount ≥ maxRetries <;>
      simp [defaultRules, htime, hempty, hside, structuralAnomalyRule, retryExhaustedRule, htimeout, hcontent, hvalid,
        hexhausted, category]
  · simp [defaultRules, htime, hempty, structuralAnomalyRule, htimeout, hvalid, category]

theorem turnOutput_of_violations (h : (evaluate checker.hardRules turn.input).violations ≠ []) :
    checker.turnOutput turn = evaluate checker.hardRules turn.input := by
  rw [evaluate_violations] at h
  have hs : (evaluate checker.hardRules turn.input).status ≠ .healthy := by
    unfold evaluate
    split <;> simp_all
  unfold turnOutput
  dsimp only
  split
  · simp_all
  · rfl

theorem unsafeNotRetried_iff (hrules : checker.hardRules = defaultRules) :
    UnsafeNotRetried R checker turn ↔ (IsUnsafe turn.input → checker.EarlierSpent turn) := by
  rw [UnsafeNotRetried, hrules, default_isUnsafe_iff]
  refine imp_congr_right fun hdanger => ?_
  have hsome : (evaluate checker.hardRules turn.input).violations ≠ [] := by
    intro hnil
    have := (default_isUnsafe_iff turn.input).mpr hdanger
    rw [hrules] at hnil
    rw [hnil] at this
    exact Bool.false_ne_true this
  rw [checkTurn_eq, handle_isRetry, turnOutput_of_violations _ _ hsome, hrules, default_category, EarlierSpent]
  split_ifs <;> simp [counter]

theorem unsafe_never_retried_iff (R : RustStd F) (llmCaller : Bool) (hookConfigs : List HookConfig)
    (turns : List Turn) :
    Trace.Along (next R) (UnsafeNotRetried R) (createDefaultHealthChecker R llmCaller hookConfigs) turns ↔
      Trace.Along (next R) (fun checker turn => IsUnsafe turn.input → checker.EarlierSpent turn)
        (createDefaultHealthChecker R llmCaller hookConfigs) turns := by
  refine Trace.along_congr (I := fun checker : RunHealthChecker F => checker.hardRules = defaultRules) ?_ rfl ?_
  · intro checker turn h
    rw [next_hardRules, h]
  · intro checker turn h
    exact unsafeNotRetried_iff R checker turn h

def interruptedTurn : Turn where
  input :=
    { hasText := false, hasToolCalls := false, hasThinking := false, retryCount := 0, turnDurationMs := 1000
      isStructurallyValid := true, structuralAnomalyDetail := none, sideEffectOccurred := true }
  hookContext := none
  llm := fun _ _ => .ok false

def exactStd : RustStd Nat where
  two := 2
  delay := fun initial multiplier attempts => initial * multiplier ^ attempts
  debugStr := fun s => "\"" ++ s ++ "\""

theorem interrupted_turn_is_retried :
    ¬ Trace.Along (next exactStd) (UnsafeNotRetried exactStd) (createDefaultHealthChecker exactStd false [])
      [interruptedTurn] := by
  rintro ⟨h, -⟩
  have hretry : true = false := h rfl
  exact Bool.false_ne_true hretry.symm

/-! ## A counter that wraps -/

def below (M limit a n : Nat) : Nat := (List.range n).countP fun i => (a + 1 + i) % M < limit

theorem below_mono : below M limit a n ≤ below M limit a (n + 1) := by
  unfold below
  rw [range_succ, countP_append]
  omega

theorem below_succ :
    below M limit a (n + 1) = below M limit ((a + 1) % M) n + if (a + 1) % M < limit then 1 else 0 := by
  unfold below
  rw [range_succ_eq_map, countP_cons, countP_map]
  have hshift : ∀ i, (a + 1 + (i + 1)) % M = ((a + 1) % M + 1 + i) % M := by
    intro i
    rw [Nat.add_assoc ((a + 1) % M), Nat.mod_add_mod, Nat.add_comm 1 i]
  simp [Function.comp_def, hshift]

theorem below_le {M limit a n : Nat} (h : n ≤ M) : below M limit a n ≤ limit := by
  set values := ((List.range n).filter fun i => (a + 1 + i) % M < limit).map fun i => (a + 1 + i) % M with hvalues
  have hnodup : values.Nodup := by
    refine List.Nodup.map_on ?_ (nodup_range.filter _)
    intro i hi j hj hij
    have hi : i < n := by simpa using (mem_filter.mp hi).1
    have hj : j < n := by simpa using (mem_filter.mp hj).1
    have hmod : Nat.ModEq M i j := Nat.ModEq.add_left_cancel' (a + 1) hij
    exact Nat.ModEq.eq_of_lt_of_lt hmod (by omega) (by omega)
  have hsub : values ⊆ List.range limit := by
    intro x hx
    obtain ⟨i, hi, rfl⟩ := mem_map.mp hx
    simpa using (mem_filter.mp hi).2
  have hlength := (hnodup.subperm hsub).length_le
  rw [length_range, hvalues, length_map, ← countP_eq_length_filter] at hlength
  exact hlength

/-! ## Streaks of unhealthy turns -/

def retriedAs (category : FailureCategory) (verdict : RunHealthVerdict) : Bool :=
  verdict.status = .unhealthy category && verdict.action.any (·.isRetry)

def streaks (verdicts : List RunHealthVerdict) : List (List RunHealthVerdict) :=
  verdicts.splitOnP (·.status = .healthy)

def Limited (limit : Nat) (checker : RunHealthChecker F) : Prop :=
  ∀ category c, checker.unhealthyHandler.counter category = some c → c.policy.maxRetries = limit

variable (category : FailureCategory)

theorem next_counter : (checker.next R turn).unhealthyHandler.counter category =
      if (checker.turnOutput turn).status = .unhealthy category then
        (checker.unhealthyHandler.counter category).map (·.increment)
      else checker.unhealthyHandler.counter category := by
  rw [next_handler, handle_counter]
  have hcoherent := checker.turnOutput_coherent turn
  unfold HealthCheckOutput.Coherent at hcoherent
  cases hs : (checker.turnOutput turn).status <;> simp_all

theorem retriedAs_checkTurn : retriedAs category (checker.checkTurn R turn).2 =
      (decide ((checker.turnOutput turn).status = .unhealthy category) &&
        (checker.unhealthyHandler.counter category).any fun c => decide c.HasBudget) := by
  rw [checkTurn_eq, retriedAs, handle_isRetry]
  by_cases hs : (checker.turnOutput turn).status = .unhealthy category
  · have hcoherent := checker.turnOutput_coherent turn
    simp only [HealthCheckOutput.Coherent, hs] at hcoherent
    simp [hs, hcoherent]
  · simp [hs]

variable (turns : List Turn)

theorem retries_le_below : ∀ checker c, checker.unhealthyHandler.counter category = some c →
      (verdicts R checker turns).countP (retriedAs category) ≤
        below UInt32.size c.policy.maxRetries c.attemptCount turns.length := by
  induction turns with
  | nil => intro checker c h; simp [verdicts]
  | cons turn turns ih =>
    intro checker c h
    have hnext := next_counter R checker turn category
    rw [verdicts, countP_cons, retriedAs_checkTurn, length_cons]
    by_cases hs : (checker.turnOutput turn).status = .unhealthy category
    · rw [if_pos hs, h] at hnext
      have hrest := ih (checker.next R turn) c.increment hnext
      rw [below_succ]
      have hcount : (decide c.HasBudget = true) = ((c.attemptCount + 1) % UInt32.size < c.policy.maxRetries) :=
        decide_eq_true_eq
      simp only [hs, h, Option.any_some, decide_true, Bool.true_and, hcount]
      exact Nat.add_le_add_right hrest _
    · rw [if_neg hs, h] at hnext
      have hrest := ih (checker.next R turn) c hnext
      have hmono := below_mono UInt32.size c.policy.maxRetries c.attemptCount turns.length
      simp only [hs, decide_false, Bool.false_and, Bool.false_eq_true, if_false]
      omega

theorem retries_eq_zero : ∀ checker : RunHealthChecker F, checker.unhealthyHandler.counter category = none →
      (verdicts R checker turns).countP (retriedAs category) = 0 := by
  induction turns with
  | nil => intro checker h; rfl
  | cons turn turns ih =>
    intro checker h
    have hnext := next_counter R checker turn category
    simp only [h, Option.map_none, ite_self] at hnext
    rw [verdicts, countP_cons, retriedAs_checkTurn, ih _ hnext]
    simp [h]

theorem limited_next {limit : Nat} {checker : RunHealthChecker F} (h : checker.Limited limit) :
    (checker.next R turn).Limited limit := by
  intro category c hc
  rw [next_counter] at hc
  split at hc
  · obtain ⟨c', hc', rfl⟩ := Option.map_eq_some_iff.mp hc
    exact h category c' hc'
  · exact h category c hc

theorem verdicts_take : ∀ (checker : RunHealthChecker F) (n : Nat),
      (verdicts R checker turns).take n = verdicts R checker (turns.take n) := by
  induction turns with
  | nil => intro checker n; simp [verdicts]
  | cons turn turns ih =>
    intro checker n
    cases n with
    | zero => rfl
    | succ => simp [verdicts, ih]

theorem infix_verdicts {limit : Nat} {part : List RunHealthVerdict} :
    ∀ checker : RunHealthChecker F, checker.Limited limit → part <:+: verdicts R checker turns →
      ∃ checker' turns', Limited limit checker' ∧ part = verdicts R checker' turns' := by
  induction turns with
  | nil =>
    intro checker hlimit hpart
    exact ⟨checker, [], hlimit, eq_nil_of_infix_nil hpart⟩
  | cons turn turns ih =>
    intro checker hlimit hpart
    rw [verdicts, infix_cons_iff] at hpart
    rcases hpart with hfront | hlater
    · refine ⟨checker, (turn :: turns).take part.length, hlimit, ?_⟩
      rw [← verdicts_take]
      exact prefix_iff_eq_take.mp hfront
    · exact ih _ (limited_next R turn hlimit) hlater

theorem streaks_infix (l : List RunHealthVerdict) :
    ∃ first others, streaks l = first :: others ∧ first <+: l ∧ ∀ part ∈ others, part <:+: l := by
  unfold streaks
  induction l with
  | nil => exact ⟨[], [], splitOnP_nil, nil_prefix, by simp⟩
  | cons v l ih =>
    obtain ⟨first, others, heq, hfirst, hothers⟩ := ih
    rw [splitOnP_cons_eq_if_modifyHead, heq]
    split
    · refine ⟨[], first :: others, rfl, nil_prefix, ?_⟩
      intro part hpart
      rcases mem_cons.mp hpart with rfl | hpart
      · exact hfirst.isInfix.trans (suffix_cons v l).isInfix
      · exact (hothers part hpart).trans (suffix_cons v l).isInfix
    · refine ⟨v :: first, others, rfl, cons_prefix_cons.mpr ⟨rfl, hfirst⟩, ?_⟩
      intro part hpart
      exact (hothers part hpart).trans (suffix_cons v l).isInfix

theorem infix_of_mem_streaks {l part : List RunHealthVerdict} (h : part ∈ streaks l) : part <:+: l := by
  obtain ⟨first, others, heq, hfirst, hothers⟩ := streaks_infix l
  rw [heq] at h
  rcases mem_cons.mp h with rfl | h
  · exact hfirst.isInfix
  · exact hothers part h

theorem verdicts_length : ∀ checker : RunHealthChecker F, (verdicts R checker turns).length = turns.length := by
  induction turns with
  | nil => intro checker; rfl
  | cons turn turns ih => intro checker; simp [verdicts, ih]

/-- The counters are `u32`s, so the bound is for streaks in which they go round at most once. -/
theorem streak_retries_le (R : RustStd F) (rules : List HardRule) (hookReviewer : Option (List HookConfig))
    (policy : RetryPolicy F) (turns : List Turn) :
    ∀ streak ∈ streaks (verdicts R ⟨rules, hookReviewer, .new policy⟩ turns), streak.length ≤ UInt32.size →
      ∀ category, streak.countP (retriedAs category) ≤ policy.maxRetries := by
  intro streak hstreak hlength category
  have hstart : Limited policy.maxRetries (⟨rules, hookReviewer, .new policy⟩ : RunHealthChecker F) := by
    intro category c hc
    cases category <;> cases hc <;> rfl
  obtain ⟨checker, part, hlimit, rfl⟩ := infix_verdicts R turns _ hstart (infix_of_mem_streaks hstreak)
  cases hc : checker.unhealthyHandler.counter category with
  | none => simp [retries_eq_zero R category part checker hc]
  | some c =>
    rw [verdicts_length] at hlength
    calc (verdicts R checker part).countP (retriedAs category)
        ≤ below UInt32.size c.policy.maxRetries c.attemptCount part.length := retries_le_below R category part checker c hc
      _ ≤ c.policy.maxRetries := below_le hlength
      _ = policy.maxRetries := hlimit category c hc

def healthyTurn : Turn :=
  { interruptedTurn with input := { interruptedTurn.input with hasText := true, sideEffectOccurred := false } }

def emptyTurn : Turn :=
  { interruptedTurn with input := { interruptedTurn.input with sideEffectOccurred := false } }

def slowTurn : Turn := { healthyTurn with input := { healthyTurn.input with turnDurationMs := 300001 } }

def mixedStreak : List RunHealthVerdict :=
  verdicts exactStd (createDefaultHealthChecker exactStd false [])
    [healthyTurn, slowTurn, slowTurn, emptyTurn, emptyTurn, healthyTurn]

theorem mixedStreak_retries_le :
    let streak := (streaks mixedStreak).getD 1 []
    streak.length = 4 ∧ streak.countP (retriedAs .invalidResponse) ≤ 3 :=
  ⟨by decide +kernel, streak_retries_le exactStd defaultRules none (.default exactStd) _ _
    (by decide +kernel : (streaks mixedStreak).getD 1 [] ∈ streaks mixedStreak) (by decide +kernel) .invalidResponse⟩

theorem two_counters_in_one_streak :
    ¬ ∀ streak ∈ streaks mixedStreak, streak.countP (fun v => v.action.any (·.isRetry)) ≤ 3 := by
  decide +kernel

end CloseClaw.Session.RunHealth.RunHealthChecker
