/- What an evaluation answers, stage by stage. Every later module argues from
   `isAllowed_evaluateInner`. -/

import CloseClaw.Lib.DenyOverrides
import CloseClaw.Permission.Eval
import Mathlib.Logic.Equiv.Defs

namespace CloseClaw.Permission

open Lib List Subject Rule PermissionResponse RuleIndices
open Lib.KeyIndex (push indexed mem_indexed_push mem_indexed_fold)
open Lib.DenyOverrides (combine)

def Rule.effectiveActions (templates : HashMap String Template) (r : Rule) : List Action :=
  match r.template with
  | some ref => ((templates.lookup ref.name).map (resolveTemplateActions · ref.overrides)).getD []
  | none => r.actions

def Rule.applies (templates : HashMap String Template) (caller : Caller) (body : PermissionRequestBody) (r : Rule) : Bool :=
  r.subject.matchesCaller caller && (r.effectiveActions templates).any (actionMatchesRequest · body)

def Rule.denies (r : Rule) : Bool := r.effect == .deny

def phase (templates : HashMap String Template) (caller : Caller) (body : PermissionRequestBody) (rs : List Rule) :
    Option Bool :=
  combine (applies templates caller body) denies rs

def rulesAt (rules : RuleSet) (candidates : List Nat) : List Rule := candidates.filterMap (rules.rules[·]?)

variable {templates : HashMap String Template} {caller : Caller} {body : PermissionRequestBody}

def loopTest (templates : HashMap String Template) (caller : Caller) (body : PermissionRequestBody) (r : Rule) : Bool :=
  r.subject.matchesCaller caller && ruleActionsMatch templates r body

theorem isAllowed_matchRulesLoop (rs : List Rule) (matching : Option String) :
    (matchRulesLoop templates caller body matching rs).map isAllowed =
      if rs.any (fun r => loopTest templates caller body r && r.denies) then some false
      else if matching.isSome || rs.any (loopTest templates caller body) then some true else none := by
  induction rs generalizing matching with
  | nil => cases matching <;> simp [matchRulesLoop]
  | cons r rs ih =>
    unfold matchRulesLoop
    by_cases hs : r.subject.matchesCaller caller = true
    · by_cases ha : ruleActionsMatch templates r body = true
      · by_cases hd : r.effect = .deny
        · simp [hs, ha, hd, loopTest, denies]
        · simp only [hs, ha, hd, Bool.not_true, Bool.false_eq_true, if_false]
          rw [ih]
          simp [loopTest, denies, hs, ha, hd]
      · simp only [hs, ha, Bool.not_true, Bool.false_eq_true, if_false, Bool.not_false, if_true]
        rw [ih]
        simp [loopTest, hs, ha]
    · simp only [hs, Bool.not_false, if_true]
      rw [ih]
      simp [loopTest, hs]

theorem expandRule_applies (r : Rule) :
    (expandRule templates r).any (loopTest templates caller body) = r.applies templates caller body := by
  unfold expandRule applies effectiveActions loopTest
  cases ht : r.template with
  | none => simp [ruleActionsMatch, ht]
  | some ref =>
    cases hl : templates.lookup ref.name with
    | none => simp [hl]
    | some =>
      simp only [any_map, ruleActionsMatch, Function.comp_def, Option.map_some, Option.getD_some, any_cons,
        any_nil, Bool.or_false, hl]
      cases r.subject.matchesCaller caller <;> simp

variable {r : Rule}

theorem expandRule_denies {a : Rule} (h : a ∈ expandRule templates r) : a.denies = r.denies := by
  unfold expandRule at h
  split at h
  · split at h
    · obtain ⟨action, -, rfl⟩ := mem_map.mp h
      rfl
    · cases h
  · rw [mem_singleton.mp h]

theorem isAllowed_matchRules (candidates : List Nat) (rules : RuleSet) :
    (matchRules templates candidates rules caller body).map isAllowed =
      phase templates caller body (rulesAt rules candidates) := by
  have hx : combine (loopTest templates caller body) denies ((rulesAt rules candidates).flatMap (expandRule templates)) =
      combine (applies templates caller body) denies (rulesAt rules candidates) :=
    DenyOverrides.combine_flatMap expandRule_applies fun b a ha => expandRule_denies ha
  rw [phase, ← hx, matchRules, isAllowed_matchRulesLoop, combine]
  rfl

/-! ## Which rules a phase sees -/

def Subject.isForAgent (agent : String) : Subject → Bool
  | .agentOnly a _ => agent == a
  | _ => false

def Subject.isForUser (caller : Caller) : Subject → Bool
  | .agentOnly .. => false
  | .userAndAgent u a _ _ =>
    userAgentKey caller.userId caller.agent == userAgentKey u a || userAgentKey caller.userId "*" == userAgentKey u a
  | .userOnly u _ =>
    userAgentKey caller.userId caller.agent == userAgentKey u "*" || userAgentKey caller.userId "*" == userAgentKey u "*"

def Subject.isUserRule (s : Subject) : Bool := s.isUserAndAgent || s.isUserOnly

def agentVisible (rules : RuleSet) (caller : Caller) (r : Rule) : Bool :=
  if rules.rules.any (·.subject.isForAgent caller.agent) then r.subject.isForAgent caller.agent
  else r.subject.isAgentOnly && r.subject.matchesCaller caller

def userVisible (rules : RuleSet) (caller : Caller) (r : Rule) : Bool :=
  if rules.rules.any (·.subject.isForUser caller) then r.subject.isForUser caller
  else r.subject.isUserRule && r.subject.matchesCaller caller

def Subject.agentKeys : Subject → List String
  | .agentOnly agent _ => [agent]
  | .userAndAgent _ agent _ _ => [agent]
  | .userOnly .. => []

def Subject.userAgentKeys : Subject → List String
  | .agentOnly .. => []
  | .userAndAgent userId agent _ _ => [userAgentKey userId agent]
  | .userOnly userId _ => [userAgentKey userId "*"]

variable {k : String} {i : Nat}

variable {ix : RuleIndices} {entry : Rule × Nat}

theorem mem_add_agent :
    i ∈ indexed (ix.add entry).agent k ↔ i ∈ indexed ix.agent k ∨ (k ∈ entry.1.subject.agentKeys ∧ i = entry.2) := by
  unfold add
  cases hs : entry.1.subject <;> simp [agentKeys, mem_indexed_push]

theorem mem_add_userAgent : i ∈ indexed (ix.add entry).userAgent k ↔
      i ∈ indexed ix.userAgent k ∨ (k ∈ entry.1.subject.userAgentKeys ∧ i = entry.2) := by
  unfold add
  cases hs : entry.1.subject <;> simp [userAgentKeys, mem_indexed_push]

variable {rules : RuleSet}

theorem indexed_agent :
    i ∈ indexed (buildRuleIndices rules).agent k ↔ ∃ r, rules.rules[i]? = some r ∧ k ∈ r.subject.agentKeys := by
  have h := mem_indexed_fold agent (fun r : Rule => r.subject.agentKeys) add
    (fun _ _ _ _ => mem_add_agent) rules.rules.zipIdx ⟨∅, ∅⟩ k i
  simpa [buildRuleIndices, List.mem_zipIdx_iff_getElem?] using h

theorem indexed_userAgent :
    i ∈ indexed (buildRuleIndices rules).userAgent k ↔ ∃ r, rules.rules[i]? = some r ∧ k ∈ r.subject.userAgentKeys := by
  have h := mem_indexed_fold userAgent (fun r : Rule => r.subject.userAgentKeys) add
    (fun _ _ _ _ => mem_add_userAgent) rules.rules.zipIdx ⟨∅, ∅⟩ k i
  simpa [buildRuleIndices, List.mem_zipIdx_iff_getElem?] using h

theorem mem_positions {test : Rule → Bool} :
    i ∈ positions rules test ↔ ∃ r, rules.rules[i]? = some r ∧ test r = true := by
  simp [positions, List.mem_zipIdx_iff_getElem?]

variable {candidates found : List Nat}

theorem mem_rulesAt : r ∈ rulesAt rules candidates ↔ ∃ i ∈ candidates, rules.rules[i]? = some r := mem_filterMap

theorem mem_sortByPriority : i ∈ sortByPriority rules candidates ↔ i ∈ candidates := mem_insertionSort _

theorem mem_rulesAt_positions {test : Rule → Bool}
    (hf : ∀ i, i ∈ found ↔ ∃ r, rules.rules[i]? = some r ∧ test r = true) :
    r ∈ rulesAt rules found ↔ r ∈ rules.rules ∧ test r = true := by
  rw [mem_rulesAt]
  constructor
  · intro ⟨i, h1, h3⟩
    obtain ⟨r', h1, h2⟩ := (hf i).mp h1
    obtain rfl : r' = r := Option.some.inj (h1.symm.trans h3)
    exact ⟨List.mem_of_getElem? h3, h2⟩
  · intro ⟨hr, h2⟩
    obtain ⟨i, hi⟩ := List.mem_iff_getElem?.mp hr
    exact ⟨i, (hf i).mpr ⟨r, hi, h2⟩, hi⟩

theorem mem_rulesAt_orIfEmpty (keyed fallback : Rule → Bool)
    (hf : ∀ i, i ∈ found ↔ ∃ r, rules.rules[i]? = some r ∧ keyed r = true) :
    r ∈ rulesAt rules (sortByPriority rules (orIfEmpty found (positions rules fallback))) ↔
      r ∈ rules.rules ∧ (if rules.rules.any keyed then keyed r else fallback r) = true := by
  have hempty : found.isEmpty = true ↔ rules.rules.any keyed = false := by
    rw [List.isEmpty_iff, any_eq_false, eq_nil_iff_forall_not_mem]
    constructor
    · intro h r hr hk
      obtain ⟨i, hi⟩ := List.mem_iff_getElem?.mp hr
      exact h i ((hf i).mpr ⟨r, hi, hk⟩)
    · intro h i hi
      obtain ⟨r, hr, hk⟩ := (hf i).mp hi
      exact h r (List.mem_of_getElem? hr) hk
  by_cases he : found.isEmpty = true
  · rw [if_neg (by simp [hempty.mp he])]
    exact mem_rulesAt_positions fun i => by rw [mem_sortByPriority, orIfEmpty, if_pos he, mem_positions]
  · have hany : rules.rules.any keyed = true := by
      rw [← Bool.not_eq_false]; exact fun h => he (hempty.mpr h)
    rw [if_pos hany]
    exact mem_rulesAt_positions fun i => by rw [mem_sortByPriority, orIfEmpty, if_neg he, hf]

theorem mem_agentCandidates :
    r ∈ rulesAt rules (collectAgentCandidates caller caller.agent rules (buildRuleIndices rules)) ↔
      r ∈ rules.rules ∧ agentVisible rules caller r = true := by
  refine mem_rulesAt_orIfEmpty _ _ fun i => ?_
  rw [mem_filter, indexed_agent]
  constructor
  · rintro ⟨⟨r, hr, hk⟩, ha⟩
    refine ⟨r, hr, ?_⟩
    rw [hr, Option.any_some] at ha
    cases hs : r.subject with
    | agentOnly => simpa [agentKeys, isForAgent, hs] using hk
    | _ => simp [hs, isAgentOnly] at ha
  · rintro ⟨r, hr, hk⟩
    cases hs : r.subject with
    | agentOnly =>
      refine ⟨⟨r, hr, ?_⟩, by simp [hr, hs, isAgentOnly]⟩
      simpa [agentKeys, isForAgent, hs] using hk
    | _ => simp [hs, isForAgent] at hk

theorem isForUser_iff {s : Subject} : s.isForUser caller = true ↔
      userAgentKey caller.userId caller.agent ∈ s.userAgentKeys ∨ userAgentKey caller.userId "*" ∈ s.userAgentKeys := by
  cases s <;> simp [isForUser, userAgentKeys]

theorem mem_userCandidates :
    r ∈ rulesAt rules (collectUserAgentCandidates caller caller.agent rules (buildRuleIndices rules)) ↔
      r ∈ rules.rules ∧ userVisible rules caller r = true := by
  refine mem_rulesAt_orIfEmpty (fun r => r.subject.isForUser caller)
    (fun r => r.subject.isUserRule && r.subject.matchesCaller caller) fun i => ?_
  rw [mem_append, indexed_userAgent, indexed_userAgent, ← exists_or]
  simp only [isForUser_iff, and_or_left]

def agentPhase (templates : HashMap String Template) (rules : RuleSet) (caller : Caller) (body : PermissionRequestBody) :
    Option Bool :=
  phase templates caller body (rules.rules.filter (agentVisible rules caller))

def userPhase (templates : HashMap String Template) (rules : RuleSet) (caller : Caller) (body : PermissionRequestBody) :
    Option Bool :=
  phase templates caller body (rules.rules.filter (userVisible rules caller))

theorem isAllowed_agentCandidates (rules : RuleSet) :
    (matchRules templates (collectAgentCandidates caller caller.agent rules (buildRuleIndices rules)) rules caller body).map
      isAllowed = agentPhase templates rules caller body := by
  rw [isAllowed_matchRules]
  exact DenyOverrides.combine_congr fun r _ => by rw [mem_agentCandidates, mem_filter]

theorem isAllowed_userCandidates (rules : RuleSet) :
    (matchRules templates (collectUserAgentCandidates caller caller.agent rules (buildRuleIndices rules)) rules caller
      body).map isAllowed = userPhase templates rules caller body := by
  rw [isAllowed_matchRules]
  exact DenyOverrides.combine_congr fun r _ => by rw [mem_userCandidates, mem_filter]

/-! ## The stages -/

def Defaults.allows (defaults : Defaults) (body : PermissionRequestBody) : Bool := defaults.effectFor body == .allow

def mergeAllows (noUser fallback : Bool) : Option Bool → Option Bool → Bool
  | some false, _ => false
  | _, some false => false
  | some true, some true => true
  | some true, none => noUser || fallback
  | none, _ => fallback

def callerDefaults (rules : RuleSet) (caller : Caller) : Defaults :=
  if caller.userId != "" then rules.userDefaults else rules.defaults

def rulesAllow (request : PermissionRequest) (rules : RuleSet) (agent user : Option Bool) : Bool :=
  !request.body.isConfigWrite &&
    if request.isOwner then agent.getD (rules.defaults.allows request.body)
    else mergeAllows (request.caller.userId == "") ((callerDefaults rules request.caller).allows request.body) agent user

def extraDenied (request : PermissionRequest) (extraDeny : Option (List Subject)) : Bool :=
  (extraDeny.getD []).any (·.matchesCaller request.caller)

def fileVerdict (E : EvalContext) (request : PermissionRequest) : Option Bool :=
  match request.body.fileAccess with
  | some (agent, path) =>
    if isConfigDirPath E.dataRoot path then some false
    else if isWorkspacePath E.dataRoot agent request.caller.userId path then some true
    else none
  | none => none

def earlyVerdict (E : EvalContext) (request : PermissionRequest) : Option Bool :=
  if isPlanQuestion E request then some true
  else if planDenies E request then some false
  else if !request.isOwner && autoDenies E request then some false
  else fileVerdict E request

variable (body : PermissionRequestBody)

theorem isAllowed_defaultResponse (defaults : Defaults) (reason : String) :
    (defaultResponse body defaults reason).isAllowed = (!body.isConfigWrite && defaults.allows body) := by
  unfold defaultResponse Defaults.allows
  by_cases hc : body.isConfigWrite = true
  · simp [hc]
  · cases he : defaults.effectFor body <;> simp [hc]

theorem isAllowed_guardConfigWrite (result : Option PermissionResponse) : (guardConfigWrite body result).map isAllowed =
      if body.isConfigWrite then (result.map isAllowed).map fun _ => false else result.map isAllowed := by
  unfold guardConfigWrite
  by_cases hc : body.isConfigWrite = true
  · match result with
    | some (.allowed m) => simp [hc]
    | some (.denied ..) => simp
    | none => simp
  · match result with
    | some (.allowed m) => simp [hc]
    | some (.denied ..) => simp [hc]
    | none => simp

theorem isAllowed_mergePhases (caller : Caller) (rules : RuleSet) (agentResult userResult : Option PermissionResponse) :
    (mergePhases body caller rules agentResult userResult).isAllowed =
      mergeAllows (caller.userId == "") (!body.isConfigWrite && (callerDefaults rules caller).allows body)
        (agentResult.map isAllowed) (userResult.map isAllowed) := by
  have hf := isAllowed_defaultResponse body (callerDefaults rules caller) "no matching rule"
  unfold callerDefaults at hf
  unfold mergePhases callerDefaults
  match agentResult, userResult with
  | some (.denied ..), _ => simp [mergeAllows]
  | none, some (.denied ..) => simp [mergeAllows]
  | some (.allowed _), some (.denied ..) => simp [mergeAllows]
  | some (.allowed _), some (.allowed _) => simp [mergeAllows]
  | some (.allowed _), none =>
    by_cases hu : caller.userId = ""
    · simp [mergeAllows, hu]
    · have hu' : (caller.userId == "") = false := by simpa using hu
      simpa [mergeAllows, hu, hu'] using hf
  | none, some (.allowed _) => simpa [mergeAllows] using hf
  | none, none => simpa [mergeAllows] using hf

theorem mergeAllows_denied {noUser : Bool} (agent user : Option Bool) :
    mergeAllows noUser false (agent.map fun _ => false) (user.map fun _ => false) = false := by
  cases agent <;> cases user <;> rfl

variable (E : EvalContext) (request : PermissionRequest)

variable (extraDeny : Option (List Subject))

theorem isAllowed_decideByRules (rules : RuleSet) (agentCandidates userCandidates : List Nat) :
    (decideByRules E request extraDeny rules agentCandidates userCandidates).isAllowed =
      (rulesAllow request rules (phase E.templates request.caller request.body (rulesAt rules agentCandidates))
          (phase E.templates request.caller request.body (rulesAt rules userCandidates)) &&
        (request.isOwner || !extraDenied request extraDeny)) := by
  have hm := isAllowed_mergePhases request.body request.caller rules
    (guardConfigWrite request.body (matchRules E.templates agentCandidates rules request.caller request.body))
    (guardConfigWrite request.body (matchRules E.templates userCandidates rules request.caller request.body))
  rw [isAllowed_guardConfigWrite, isAllowed_guardConfigWrite, isAllowed_matchRules, isAllowed_matchRules] at hm
  unfold decideByRules rulesAllow extraDenied
  simp only
  by_cases ho : request.isOwner = true
  · have hg := isAllowed_guardConfigWrite request.body
      (matchRules E.templates agentCandidates rules request.caller request.body)
    rw [isAllowed_matchRules] at hg
    simp only [ho, if_true, Bool.true_or, Bool.and_true]
    rw [← Option.getD_map isAllowed, hg, isAllowed_defaultResponse]
    by_cases hc : request.body.isConfigWrite = true
    · rw [if_pos hc, hc]
      cases phase E.templates request.caller request.body (rulesAt rules agentCandidates) <;> simp
    · simp [hc]
  · simp only [ho, Bool.false_eq_true, if_false, Bool.false_or]
    split
    · rename_i hx; simp [hx]
    · rename_i hx
      rw [hm]
      by_cases hc : request.body.isConfigWrite = true
      · simp [hc, hx, mergeAllows_denied]
      · simp [hc, hx]

theorem isAllowed_fileGuards : (fileGuards E request).map isAllowed = fileVerdict E request := by
  unfold fileGuards fileVerdict
  cases request.body.fileAccess with
  | none => rfl
  | some =>
    simp only
    split
    · rfl
    · split <;> rfl

theorem isAllowed_decideEarly : (decideEarly E request).map isAllowed = earlyVerdict E request := by
  unfold decideEarly earlyVerdict
  simp only [Option.map_or, isAllowed_checkPlanModeFilter, isAllowed_fileGuards]
  by_cases hq : isPlanQuestion E request = true
  · simp [hq]
  by_cases hd : planDenies E request = true
  · simp [hq, hd]
  by_cases ho : request.isOwner = true
  · simp [hq, hd, ho]
  · by_cases hu : autoDenies E request = true <;> simp [hq, hd, ho, hu, isAllowed_checkAutoModeFilter]

theorem isAllowed_evaluateWithRules (rules : RuleSet) :
    (evaluateWithRules E request extraDeny rules).isAllowed =
      (earlyVerdict E request).getD (rulesAllow request rules (agentPhase E.templates rules request.caller request.body)
            (userPhase E.templates rules request.caller request.body) &&
          (request.isOwner || !extraDenied request extraDeny)) := by
  unfold evaluateWithRules evaluateInner
  rw [← isAllowed_decideEarly]
  cases decideEarly E request with
  | some => rfl
  | none =>
    simp only [Option.map_none, Option.getD_none]
    rw [isAllowed_decideByRules, ← isAllowed_matchRules, isAllowed_agentCandidates, ← isAllowed_matchRules,
      isAllowed_userCandidates]

open Lib List

def RuleSet.rearranged (rules : RuleSet) (order : Equiv.Perm (Fin rules.rules.length))
    (priority : Fin rules.rules.length → Int) : RuleSet :=
  { rules with rules := List.ofFn fun i => { rules.rules.get (order i) with priority := priority i } }

def Rule.Alike (r r' : Rule) : Prop := ∃ p, r' = { r with priority := p }

section Alike
variable {r r' : Rule} (h : r.Alike r')
include h

theorem Rule.Alike.subject : r'.subject = r.subject := by
  obtain ⟨p, rfl⟩ := h
  rfl

theorem Rule.Alike.denies : r'.denies = r.denies := by
  obtain ⟨p, rfl⟩ := h
  rfl

theorem Rule.Alike.applies (templates : HashMap String Template) (caller : Caller) (body : PermissionRequestBody) :
    r'.applies templates caller body = r.applies templates caller body := by
  obtain ⟨p, rfl⟩ := h
  rfl

end Alike

section Rearranged
variable {rules : RuleSet} {order : Equiv.Perm (Fin rules.rules.length)} {priority : Fin rules.rules.length → Int}

theorem exists_rearranged {r : Rule} (h : r ∈ rules.rules) : ∃ r' ∈ (rules.rearranged order priority).rules, r.Alike r' := by
  obtain ⟨i, rfl⟩ := mem_iff_get.mp h
  refine ⟨{ rules.rules.get i with priority := priority (order.symm i) }, ?_, _, rfl⟩
  exact mem_ofFn.mpr ⟨order.symm i, by rw [Equiv.apply_symm_apply]⟩

theorem exists_of_rearranged {r' : Rule} (h : r' ∈ (rules.rearranged order priority).rules) :
    ∃ r ∈ rules.rules, r.Alike r' := by
  obtain ⟨i, rfl⟩ := mem_ofFn.mp h
  exact ⟨rules.rules.get (order i), get_mem _ _, priority i, rfl⟩

theorem any_subject_rearranged (test : Subject → Bool) :
    (rules.rearranged order priority).rules.any (test ·.subject) = rules.rules.any (test ·.subject) := by
  rw [Bool.eq_iff_iff]
  simp only [any_eq_true]
  constructor
  · intro h
    obtain ⟨r', hr', ht⟩ := h
    obtain ⟨r, hr, halike⟩ := exists_of_rearranged hr'
    exact ⟨r, hr, by rwa [← halike.subject]⟩
  · intro h
    obtain ⟨r, hr, ht⟩ := h
    obtain ⟨r', hr', halike⟩ := exists_rearranged hr
    exact ⟨r', hr', by rwa [halike.subject]⟩

theorem phase_rearranged (visible : RuleSet → Rule → Bool) (hvisible : ∀ r r', r.Alike r' →
      visible (rules.rearranged order priority) r' = visible rules r)
    (templates : HashMap String Template) (caller : Caller) (body : PermissionRequestBody) :
    phase templates caller body
        ((rules.rearranged order priority).rules.filter (visible (rules.rearranged order priority))) =
      phase templates caller body (rules.rules.filter (visible rules)) := by
  symm
  apply DenyOverrides.combine_congr_of_alike
  · intro r hr
    obtain ⟨hmem, hvis⟩ := mem_filter.mp hr
    obtain ⟨r', hr', halike⟩ : ∃ r' ∈ (rules.rearranged order priority).rules, r.Alike r' := exists_rearranged hmem
    exact ⟨r', mem_filter.mpr ⟨hr', by rw [hvisible r r' halike, hvis]⟩, halike.applies _ _ _, halike.denies⟩
  · intro r' hr'
    obtain ⟨hmem, hvis⟩ := mem_filter.mp hr'
    obtain ⟨r, hr, halike⟩ := exists_of_rearranged hmem
    exact ⟨r, mem_filter.mpr ⟨hr, by rw [← hvisible r r' halike, hvis]⟩, (halike.applies _ _ _).symm,
      halike.denies.symm⟩

theorem agentPhase_rearranged (templates : HashMap String Template) (caller : Caller) (body : PermissionRequestBody) :
    agentPhase templates (rules.rearranged order priority) caller body = agentPhase templates rules caller body := by
  refine phase_rearranged (fun rules r => agentVisible rules caller r) (fun r r' halike => ?_) templates caller body
  simp only [agentVisible, any_subject_rearranged, halike.subject]

theorem userPhase_rearranged (templates : HashMap String Template) (caller : Caller) (body : PermissionRequestBody) :
    userPhase templates (rules.rearranged order priority) caller body = userPhase templates rules caller body := by
  refine phase_rearranged (fun rules r => userVisible rules caller r) (fun r r' halike => ?_) templates caller body
  simp only [userVisible, any_subject_rearranged, halike.subject]

end Rearranged

theorem verdict_rearranged (E : EvalContext) (request : PermissionRequest) (extraDeny : Option (List Subject))
    (rules : RuleSet) (order : Equiv.Perm (Fin rules.rules.length)) (priority : Fin rules.rules.length → Int) :
    (evaluateWithRules E request extraDeny (rules.rearranged order priority)).isAllowed =
      (evaluateWithRules E request extraDeny rules).isAllowed := by
  rw [isAllowed_evaluateWithRules, isAllowed_evaluateWithRules, agentPhase_rearranged, userPhase_rearranged]
  rfl

end CloseClaw.Permission
