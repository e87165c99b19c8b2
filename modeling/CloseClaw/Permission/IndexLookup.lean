/- The indexed candidate lookup against a plain scan. -/

import CloseClaw.Permission.Verdict

namespace CloseClaw.Permission

open Lib List DenyOverrides

def evaluateByScan (E : EvalContext) (request : PermissionRequest) (extraDeny : Option (List Subject)) (rules : RuleSet) :
    PermissionResponse :=
  match decideEarly E request with
  | some response => response
  | none =>
    decideByRules E request extraDeny rules (sortByPriority rules (positions rules (·.subject.isAgentOnly)))
      (sortByPriority rules
        (positions rules fun rule => rule.subject.isUserRule && rule.subject.matchesCaller request.caller))

section

variable (templates : HashMap String Template) (request : PermissionRequest) (rules : RuleSet)

def Applying (sel : Rule → Bool) : Prop :=
  ∃ r ∈ rules.rules, sel r = true ∧ r.applies templates request.caller request.body = true

def ApplyingDeny (sel : Rule → Bool) : Prop :=
  ∃ r ∈ rules.rules, sel r = true ∧ r.applies templates request.caller request.body = true ∧ r.denies = true

def Granted (agentSel userSel : Rule → Bool) : Prop :=
  Applying templates request rules agentSel ∧
    (request.isOwner = true ∨ request.caller.userId = "" ∨ Applying templates request rules userSel)

def isAgentRule (r : Rule) : Bool := r.subject.isAgentOnly

def isUserRule (r : Rule) : Bool := r.subject.isUserRule

def fallbackDefaults : Defaults := if request.isOwner then rules.defaults else callerDefaults rules request.caller

/-- A Deny that applies is accompanied by a visible one, and where only an Allow can let the request
through the visible rules give it too. -/
structure NoDecisiveRuleHidden : Prop where
  agentDeny : ApplyingDeny templates request rules isAgentRule →
    ApplyingDeny templates request rules (agentVisible rules request.caller)
  userDeny : ApplyingDeny templates request rules isUserRule →
    ApplyingDeny templates request rules (userVisible rules request.caller)
  allow : request.body.isConfigWrite = false → (fallbackDefaults request rules).allows request.body = false →
    ¬ ApplyingDeny templates request rules isAgentRule →
    (request.isOwner = false → ¬ ApplyingDeny templates request rules isUserRule) →
    Granted templates request rules isAgentRule isUserRule →
    Granted templates request rules (agentVisible rules request.caller) (userVisible rules request.caller)

end

variable {templates : HashMap String Template} {request : PermissionRequest} {rules : RuleSet}

def selPhase (templates : HashMap String Template) (request : PermissionRequest) (rules : RuleSet) (sel : Rule → Bool) :
    Option Bool :=
  phase templates request.caller request.body (rules.rules.filter sel)

theorem selPhase_deny (templates : HashMap String Template) (request : PermissionRequest) (rules : RuleSet)
    (sel : Rule → Bool) :
    selPhase templates request rules sel = some false ↔ ApplyingDeny templates request rules sel := by
  simp only [selPhase, phase, combine_eq_deny, mem_filter, ApplyingDeny, and_assoc]

theorem selPhase_allow (templates : HashMap String Template) (request : PermissionRequest) (rules : RuleSet)
    (sel : Rule → Bool) :
    selPhase templates request rules sel = some true ↔
      Applying templates request rules sel ∧ ¬ ApplyingDeny templates request rules sel := by
  simp only [selPhase, phase, combine_eq_allow, mem_filter, Applying, ApplyingDeny, and_assoc]
  refine and_congr_right fun _ => ?_
  simp

def Hides (part whole : Option Bool) : Prop := part = whole ∨ (part = none ∧ whole = some true)

variable {part : Rule → Bool} {caller : Caller} {whole : Rule → Bool} {r : Rule}

theorem ApplyingDeny.mono
    (hsub : ∀ r ∈ rules.rules, r.applies templates request.caller request.body = true → part r = true → whole r = true)
    (h : ApplyingDeny templates request rules part) : ApplyingDeny templates request rules whole := by
  obtain ⟨r, hr, hp, ha, hd⟩ := h
  exact ⟨r, hr, hsub r hr ha hp, ha, hd⟩

theorem hides_of_subset
    (hsub : ∀ r ∈ rules.rules, r.applies templates request.caller request.body = true → part r = true → whole r = true)
    (hdeny : ApplyingDeny templates request rules whole → ApplyingDeny templates request rules part) :
    Hides (selPhase templates request rules part) (selPhase templates request rules whole) := by
  cases hw : selPhase templates request rules whole with
  | none =>
    left
    refine combine_eq_none.mpr fun r hr => ?_
    obtain ⟨hr, hp⟩ := mem_filter.mp hr
    by_contra ha
    rw [Bool.not_eq_false] at ha
    have := combine_eq_none.mp hw r (mem_filter.mpr ⟨hr, hsub r hr ha hp⟩)
    rw [ha] at this
    cases this
  | some b =>
    cases b with
    | false => left; exact (selPhase_deny _ _ _ _).mpr (hdeny ((selPhase_deny _ _ _ _).mp hw))
    | true =>
      have hno := ((selPhase_allow _ _ _ _).mp hw).2
      cases hp : selPhase templates request rules part with
      | none => exact .inr ⟨rfl, rfl⟩
      | some b =>
        cases b with
        | false => exact absurd (((selPhase_deny _ _ _ _).mp hp).mono hsub) hno
        | true => exact .inl rfl

theorem agentVisible_isAgentRule (h : agentVisible rules caller r = true) : isAgentRule r = true := by
  unfold agentVisible at h
  unfold isAgentRule
  split at h
  · cases hs : r.subject <;> simp_all [Subject.isForAgent, Subject.isAgentOnly]
  · exact (Bool.and_eq_true_iff.mp h).1

theorem userVisible_isUserRule (h : userVisible rules caller r = true) : isUserRule r = true := by
  unfold userVisible at h
  unfold isUserRule
  split at h
  · cases hs : r.subject <;>
      simp_all [Subject.isForUser, Subject.isUserRule, Subject.isUserAndAgent, Subject.isUserOnly]
  · exact (Bool.and_eq_true_iff.mp h).1

/-! ## The merge table under hidden rules -/

theorem mergeAllows_hides : ∀ (noUser fallback : Bool) (a a' u u' : Option Bool), Hides a a' → Hides u u' →
    (mergeAllows noUser fallback a u = mergeAllows noUser fallback a' u' ↔
      (fallback = false → a' = some true → u' ≠ some false → (noUser = true ∨ u' = some true) →
        a = some true ∧ (noUser = true ∨ u = some true))) := by
  intro noUser fallback a a' u u' ha hu
  rcases ha with rfl | ⟨rfl, rfl⟩ <;> rcases hu with rfl | ⟨rfl, rfl⟩
  · exact ⟨fun _ _ h1 _ h2 => ⟨h1, h2⟩, fun _ => rfl⟩
  · rcases a with _ | _ | _ <;> cases noUser <;> cases fallback <;> simp [mergeAllows]
  · rcases u with _ | _ | _ <;> cases noUser <;> cases fallback <;> simp [mergeAllows]
  · cases noUser <;> cases fallback <;> simp [mergeAllows]

theorem rulesAllow_hides {a a' u u' : Option Bool} (ha : Hides a a') (hu : Hides u u') :
    rulesAllow request rules a u = rulesAllow request rules a' u' ↔
      (request.body.isConfigWrite = false → (fallbackDefaults request rules).allows request.body = false →
        a' = some true → (request.isOwner = true ∨ u' ≠ some false ∧ (request.caller.userId = "" ∨ u' = some true)) →
        a = some true ∧ (request.isOwner = true ∨ request.caller.userId = "" ∨ u = some true)) := by
  unfold rulesAllow fallbackDefaults
  by_cases hc : request.body.isConfigWrite = true
  · simp [hc]
  by_cases ho : request.isOwner = true
  · rcases ha with rfl | ⟨rfl, rfl⟩
    · simp [ho]
    · simp [ho, hc]
  · have key := mergeAllows_hides (request.caller.userId == "")
      ((callerDefaults rules request.caller).allows request.body) a a' u u' ha hu
    simp only [hc, ho, Bool.not_false, Bool.true_and, Bool.false_eq_true, if_false, false_or, forall_const, and_imp]
    rw [key]
    simp only [beq_iff_eq]

theorem rulesAllow_hidden_iff (hda : ApplyingDeny templates request rules isAgentRule →
      ApplyingDeny templates request rules (agentVisible rules request.caller))
    (hdu : ApplyingDeny templates request rules isUserRule →
      ApplyingDeny templates request rules (userVisible rules request.caller)) :
    rulesAllow request rules (agentPhase templates rules request.caller request.body)
        (userPhase templates rules request.caller request.body) =
      rulesAllow request rules (selPhase templates request rules isAgentRule) (selPhase templates request rules isUserRule) ↔
    (request.body.isConfigWrite = false → (fallbackDefaults request rules).allows request.body = false →
      ¬ ApplyingDeny templates request rules isAgentRule →
      (request.isOwner = false → ¬ ApplyingDeny templates request rules isUserRule) →
      Granted templates request rules isAgentRule isUserRule →
      Granted templates request rules (agentVisible rules request.caller) (userVisible rules request.caller)) := by
  have hsubA := hides_of_subset (fun r _ _ hv => agentVisible_isAgentRule hv) hda
  have hsubU := hides_of_subset (fun r _ _ hv => userVisible_isUserRule hv) hdu
  refine (rulesAllow_hides hsubA hsubU).trans ⟨fun h hc hf hna hnu hg => ?_, fun h hc hf ha hu => ?_⟩
  · obtain ⟨hga, hgu⟩ := hg
    have hasked : request.isOwner = true ∨ selPhase templates request rules isUserRule ≠ some false ∧
        (request.caller.userId = "" ∨ selPhase templates request rules isUserRule = some true) := by
      by_cases ho : request.isOwner = true
      · exact .inl ho
      · have hno := hnu (Bool.not_eq_true _ ▸ ho)
        refine .inr ⟨fun e => hno ((selPhase_deny _ _ _ _).mp e), ?_⟩
        rcases hgu with h1 | h1 | h1
        · exact absurd h1 ho
        · exact .inl h1
        · exact .inr ((selPhase_allow _ _ _ _).mpr ⟨h1, hno⟩)
    obtain ⟨h1, h2⟩ := h hc hf ((selPhase_allow _ _ _ _).mpr ⟨hga, hna⟩) hasked
    exact ⟨((selPhase_allow _ _ _ _).mp h1).1, h2.imp_right (Or.imp_right fun h3 => ((selPhase_allow _ _ _ _).mp h3).1)⟩
  · obtain ⟨hga, hna⟩ := (selPhase_allow _ _ _ _).mp ha
    have hnu : request.isOwner = false → ¬ ApplyingDeny templates request rules isUserRule := by
      intro ho hd
      rcases hu with h1 | h1
      · rw [ho] at h1; cases h1
      · exact h1.1 ((selPhase_deny _ _ _ _).mpr hd)
    have hg : Granted templates request rules isAgentRule isUserRule :=
      ⟨hga, hu.imp_right fun h1 => h1.2.imp_right fun h2 => ((selPhase_allow _ _ _ _).mp h2).1⟩
    obtain ⟨h1, h2⟩ := h hc hf hna hnu hg
    refine ⟨(selPhase_allow _ _ _ _).mpr ⟨h1, fun hd => hna (hd.mono fun r _ _ hv => agentVisible_isAgentRule hv)⟩, ?_⟩
    by_cases ho : request.isOwner = true
    · exact .inl ho
    · have hno := hnu (Bool.not_eq_true _ ▸ ho)
      exact h2.imp_right (Or.imp_right fun h3 =>
        (selPhase_allow _ _ _ _).mpr ⟨h3, fun hd => hno (hd.mono fun r _ _ hv => userVisible_isUserRule hv)⟩)

def RulesGrant (templates : HashMap String Template) (request : PermissionRequest) (rules : RuleSet) : Prop :=
  request.body.isConfigWrite = false ∧
    ¬ ApplyingDeny templates request rules (agentVisible rules request.caller) ∧
    ¬ ApplyingDeny templates request rules (userVisible rules request.caller) ∧
    ((callerDefaults rules request.caller).allows request.body = true ∨
      Granted templates request rules (agentVisible rules request.caller) (userVisible rules request.caller))

theorem mergeAllows_iff (noUser fallback : Bool) (a u : Option Bool) : mergeAllows noUser fallback a u = true ↔
      a ≠ some false ∧ u ≠ some false ∧ (fallback = true ∨ a = some true ∧ (noUser = true ∨ u = some true)) := by
  rcases a with _ | _ | _ <;> rcases u with _ | _ | _ <;> simp [mergeAllows, or_comm]

theorem rulesAllow_iff_rulesGrant (ho : request.isOwner = false) :
    rulesAllow request rules (agentPhase templates rules request.caller request.body)
      (userPhase templates rules request.caller request.body) = true ↔ RulesGrant templates request rules := by
  have ha := selPhase_deny templates request rules (agentVisible rules request.caller)
  have hu := selPhase_deny templates request rules (userVisible rules request.caller)
  have hat := selPhase_allow templates request rules (agentVisible rules request.caller)
  have hut := selPhase_allow templates request rules (userVisible rules request.caller)
  unfold rulesAllow RulesGrant Granted
  change (!request.body.isConfigWrite && if request.isOwner = true then _ else mergeAllows _ _
    (selPhase templates request rules (agentVisible rules request.caller))
    (selPhase templates request rules (userVisible rules request.caller))) = true ↔ _
  rw [ho, Bool.and_eq_true, Bool.not_eq_true', if_neg Bool.false_ne_true, mergeAllows_iff, ne_eq, ha, ne_eq, hu, hat, hut,
    beq_iff_eq]
  refine and_congr_right fun _ => and_congr_right fun hna => and_congr_right fun hnu => or_congr_right ?_
  simp [hna, hnu]

theorem isAllowed_evaluateByScan (E : EvalContext) (extraDeny : Option (List Subject)) :
    (evaluateByScan E request extraDeny rules).isAllowed =
      (earlyVerdict E request).getD (rulesAllow request rules (selPhase E.templates request rules isAgentRule)
            (selPhase E.templates request rules isUserRule) &&
          (request.isOwner || !extraDenied request extraDeny)) := by
  have hagent : phase E.templates request.caller request.body
      (rulesAt rules (sortByPriority rules (positions rules (·.subject.isAgentOnly)))) =
      selPhase E.templates request rules isAgentRule := by
    refine combine_congr fun r _ => ?_
    rw [mem_rulesAt_positions fun i => by rw [mem_sortByPriority, mem_positions], mem_filter]
    rfl
  have huser : phase E.templates request.caller request.body (rulesAt rules (sortByPriority rules
      (positions rules fun rule => rule.subject.isUserRule && rule.subject.matchesCaller request.caller))) =
      selPhase E.templates request rules isUserRule := by
    refine combine_congr fun r ha => ?_
    rw [mem_rulesAt_positions fun i => by rw [mem_sortByPriority, mem_positions], mem_filter]
    simp [(Bool.and_eq_true_iff.mp ha).1, isUserRule]
  unfold evaluateByScan
  rw [← isAllowed_decideEarly]
  cases decideEarly E request with
  | some => rfl
  | none =>
    simp only [Option.map_none, Option.getD_none]
    rw [isAllowed_decideByRules, hagent, huser]

/-! ## The lookup and the scan -/

def DenyDecides (templates : HashMap String Template) (request : PermissionRequest) (rules : RuleSet) (kind : Rule → Bool)
    (candidates : List Nat) : Prop :=
  ApplyingDeny templates request rules kind →
    (matchRules templates candidates rules request.caller request.body).map PermissionResponse.isAllowed = some false

/-- The indexed evaluation gives the scan's verdict exactly when no rule the lookup hides is
decisive. -/
theorem indexed_evaluation_agrees_with_scan_iff (E : EvalContext) (hmode : E.sessionModeQuery = none)
    (request : PermissionRequest) (hfile : fileVerdict E request = none) (rules : RuleSet) :
    ((evaluateWithRules E request none rules).isAllowed = (evaluateByScan E request none rules).isAllowed ∧
      DenyDecides E.templates request rules isAgentRule
        (collectAgentCandidates request.caller request.caller.agent rules (buildRuleIndices rules)) ∧
      DenyDecides E.templates request rules isUserRule
        (collectUserAgentCandidates request.caller request.caller.agent rules (buildRuleIndices rules))) ↔
      NoDecisiveRuleHidden E.templates request rules := by
  have hearly : earlyVerdict E request = none := by
    have hm : ∀ agent, E.sessionMode agent = none := by simp [EvalContext.sessionMode, hmode]
    simp [earlyVerdict, isPlanQuestion, planDenies, autoDenies, hm, hfile]
  have hagent : DenyDecides E.templates request rules isAgentRule
      (collectAgentCandidates request.caller request.caller.agent rules (buildRuleIndices rules)) ↔
      (ApplyingDeny E.templates request rules isAgentRule →
        ApplyingDeny E.templates request rules (agentVisible rules request.caller)) := by
    unfold DenyDecides
    rw [isAllowed_agentCandidates]
    exact imp_congr_right fun _ => selPhase_deny _ _ _ _
  have huser : DenyDecides E.templates request rules isUserRule
      (collectUserAgentCandidates request.caller request.caller.agent rules (buildRuleIndices rules)) ↔
      (ApplyingDeny E.templates request rules isUserRule →
        ApplyingDeny E.templates request rules (userVisible rules request.caller)) := by
    unfold DenyDecides
    rw [isAllowed_userCandidates]
    exact imp_congr_right fun _ => selPhase_deny _ _ _ _
  rw [hagent, huser, isAllowed_evaluateWithRules, isAllowed_evaluateByScan, hearly]
  simp only [Option.getD_none, extraDenied, any_nil, Bool.not_false, Bool.or_true, Bool.and_true]
  constructor
  · intro ⟨hsame, hda, hdu⟩
    exact ⟨hda, hdu, (rulesAllow_hidden_iff hda hdu).mp hsame⟩
  · intro h
    exact ⟨(rulesAllow_hidden_iff h.agentDeny h.userDeny).mpr h.allow, h.agentDeny, h.userDeny⟩

def exactAllowGlobDeny : RuleSet :=
  { RuleSet.default with
    rules := [ ⟨"own", .agentOnly "a" .exact, .allow, [.all], none, 0⟩, ⟨"everyone", .agentOnly "*" .glob, .deny, [.all], none, 0⟩ ] }

theorem indexed_evaluation_agrees_with_scan_iff_command : (EvalContext.new "/data").sessionModeQuery = none ∧
    fileVerdict (.new "/data") (.bare (.commandExec "a" "ls" [])) = none ∧
    (((evaluateWithRules (.new "/data") (.bare (.commandExec "a" "ls" [])) none exactAllowGlobDeny).isAllowed =
        (evaluateByScan (.new "/data") (.bare (.commandExec "a" "ls" [])) none exactAllowGlobDeny).isAllowed ∧
      DenyDecides ∅ (.bare (.commandExec "a" "ls" [])) exactAllowGlobDeny isAgentRule
        (collectAgentCandidates ⟨"", "a"⟩ "a" exactAllowGlobDeny (buildRuleIndices exactAllowGlobDeny)) ∧
      DenyDecides ∅ (.bare (.commandExec "a" "ls" [])) exactAllowGlobDeny isUserRule
        (collectUserAgentCandidates ⟨"", "a"⟩ "a" exactAllowGlobDeny (buildRuleIndices exactAllowGlobDeny))) ↔
      NoDecisiveRuleHidden ∅ (.bare (.commandExec "a" "ls" [])) exactAllowGlobDeny) :=
  ⟨rfl, rfl, indexed_evaluation_agrees_with_scan_iff (.new "/data") rfl (.bare (.commandExec "a" "ls" [])) rfl
    exactAllowGlobDeny⟩

theorem a_glob_deny_is_hidden_by_an_exact_rule : fileVerdict (.new "/data") (.bare (.commandExec "a" "ls" [])) = none ∧
    (evaluateWithRules (.new "/data") (.bare (.commandExec "a" "ls" [])) none exactAllowGlobDeny).isAllowed = true ∧
    (evaluateByScan (.new "/data") (.bare (.commandExec "a" "ls" [])) none exactAllowGlobDeny).isAllowed = false := by
  decide

end CloseClaw.Permission
