/- The guards no rule should be able to lift. -/

import CloseClaw.Permission.AgentRules
import CloseClaw.Permission.IndexLookup

namespace CloseClaw.Permission

open Lib PermissionEngine Lib.RustPath PermissionRequestBody EvalContext

def Defaults.allowing : Defaults := ⟨.allow, .allow, .allow, .allow, .allow, .allow, .allow, .allow⟩

def PermissionEngine.allowing (context : EvalContext) : PermissionEngine :=
  .new (fun _ => "") context ⟨[], .allowing, .allowing, ""⟩ false

theorem allowing_allows (body : PermissionRequestBody) : Defaults.allowing.allows body = true := by
  cases body <;> simp [Defaults.allows, Defaults.effectFor, Defaults.allowing]

theorem rulesAllow_silent (request : PermissionRequest) (rules : RuleSet) : rulesAllow request rules none none =
      (!request.body.isConfigWrite && (fallbackDefaults request rules).allows request.body) := by
  unfold rulesAllow fallbackDefaults
  split <;> rfl

theorem allowing_evaluate {context : EvalContext} (request : PermissionRequest) (extraDeny : Option (List Subject))
    (disk : Disk) (hx : extraDenied request extraDeny = false)
    (hc : request.body.isConfigWrite = false) (he : earlyVerdict context request ≠ some false) :
    ((allowing context).evaluate disk request extraDeny).1.isAllowed = true := by
  have hdef : (fallbackDefaults request (allowing context).rules).allows request.body = true := by
    unfold fallbackDefaults callerDefaults
    split
    · exact allowing_allows _
    · split <;> exact allowing_allows _
  have hrules := rulesAllow_silent request (allowing context).rules
  rw [hdef, hc] at hrules
  rw [evaluate_fst, isAllowed_evaluateWithRules, rulesInForce_of_none rfl]
  change (earlyVerdict context request).getD (rulesAllow request (allowing context).rules none none && _) = _
  cases h : earlyVerdict context request with
  | none => simp [hrules, hx]
  | some b =>
    cases b with
    | false => exact absurd h he
    | true => rfl

/-! ## Configuration guards -/

def Guarded (dataRoot : PathBuf) (body : PermissionRequestBody) : Prop :=
  body.isConfigWrite = true ∨ ∃ agent path, body.fileAccess = some (agent, path) ∧ InConfigDir (dataRoot.toStr.getD "") path

variable {E : EvalContext} {request : PermissionRequest}

theorem earlyVerdict_allows (h : earlyVerdict E request = some true) :
    isPlanQuestion E request = true ∨ fileVerdict E request = some true := by
  unfold earlyVerdict at h
  split at h
  · exact .inl ‹_›
  · split at h
    · cases h
    · split at h
      · cases h
      · exact .inr h

theorem isPlanQuestion_toolCall (h : isPlanQuestion E request = true) :
    ∃ agent skill method, request.body = .toolCall agent skill method := by
  unfold isPlanQuestion at h
  cases hb : request.body <;> simp_all

theorem configWrite_never_allowed (E : EvalContext) (request : PermissionRequest) (extraDeny : Option (List Subject))
    (rules : RuleSet) (hc : request.body.isConfigWrite = true) :
    (evaluateWithRules E request extraDeny rules).isAllowed = false := by
  have hr : ∀ agent user, rulesAllow request rules agent user = false := by simp [rulesAllow, hc]
  rw [isAllowed_evaluateWithRules, hr, Bool.false_and]
  cases h : earlyVerdict E request with
  | none => rfl
  | some b =>
    cases b with
    | false => rfl
    | true =>
      rcases earlyVerdict_allows h with h1 | h1
      · obtain ⟨_, _, _, hb⟩ := isPlanQuestion_toolCall h1
        simp [hb, isConfigWrite] at hc
      · unfold fileVerdict at h1
        cases hb : request.body <;> simp_all [isConfigWrite, fileAccess]

theorem configDir_never_allowed (E : EvalContext) (request : PermissionRequest) (extraDeny : Option (List Subject))
    (rules : RuleSet) {agent path : String} (hf : request.body.fileAccess = some (agent, path))
    (hp : isConfigDirPath E.dataRoot path = true) : (evaluateWithRules E request extraDeny rules).isAllowed = false := by
  have hv : fileVerdict E request = some false := by simp [fileVerdict, hf, hp]
  have hq : isPlanQuestion E request = false := by
    rw [← Bool.not_eq_true]
    intro h
    obtain ⟨_, _, _, hb⟩ := isPlanQuestion_toolCall h
    simp [hb, fileAccess] at hf
  have he : earlyVerdict E request = some false := by
    unfold earlyVerdict
    rw [if_neg (by simp [hq]), hv]
    split
    · rfl
    · split <;> rfl
  rw [isAllowed_evaluateWithRules, he]
  rfl

/-- No guarded request is allowed, exactly for the roots that normalise to a name. -/
theorem hard_guards_hold_iff (dataRoot : PathBuf) :
    (∀ (engine : PermissionEngine) (disk : Disk) (request : PermissionRequest) (extraDeny : Option (List Subject))
        (rules : RuleSet), engine.dataRoot = dataRoot → Guarded dataRoot request.body →
        (engine.evaluate disk request extraDeny).1.isAllowed = false ∧
        (evaluateWithRules engine.toEvalContext request extraDeny rules).isAllowed = false) ↔
      normalizePath (dataRoot.toStr.getD "") ≠ "/" := by
  constructor
  · intro h hroot
    have hnil := normalizePath_eq_slash.mp hroot
    -- the guard is off for every path but `/`, so an engine that allows by default allows this read
    let context : EvalContext := { new "" with dataRoot := dataRoot }
    let request : PermissionRequest := .bare (.fileOp "a" "/x" "read")
    have hin : InConfigDir (dataRoot.toStr.getD "") "/x" := by
      unfold InConfigDir; rw [hnil]; decide
    have hoff : isConfigDirPath dataRoot "/x" = false := isConfigDirPath_of_root_nil hnil (by decide)
    have he : earlyVerdict context request ≠ some false := by
      have hm : ∀ agent, context.sessionMode agent = none := fun _ => rfl
      have hf : request.body.fileAccess = some ("a", "/x") := rfl
      simp only [earlyVerdict, isPlanQuestion, planDenies, autoDenies, hm, fileVerdict, hf]
      simp only [context, hoff]
      simp
    have := (h (.allowing context) (fun _ => none) request none .default rfl (.inr ⟨"a", "/x", rfl, hin⟩)).1
    rw [allowing_evaluate _ _ _ rfl rfl he] at this
    cases this
  · intro hroot engine disk request extraDeny rules hd hg
    have hne : names (dataRoot.toStr.getD "") ≠ [] := fun e => hroot (normalizePath_eq_slash.mpr e)
    rw [evaluate_fst]
    rcases hg with hc | ⟨agent, path, hf, hin⟩
    · exact ⟨configWrite_never_allowed _ _ _ _ hc, configWrite_never_allowed _ _ _ _ hc⟩
    · have hp : isConfigDirPath engine.dataRoot path = true := by rw [hd]; exact (isConfigDirPath_iff hne).mpr hin
      exact ⟨configDir_never_allowed _ _ _ _ hf hp, configDir_never_allowed _ _ _ _ hf hp⟩

theorem a_root_that_resolves_to_nothing_guards_nothing :
    Component.normal "a" ∈ components "/a/.." ∧ Guarded (.ofStr "/a/..") (.fileOp "b" "/agents/b/permissions.json" "read") ∧
    ((allowing (.new "/a/..")).evaluate (fun _ => none)
      (.bare (.fileOp "b" "/agents/b/permissions.json" "read")) none).1.isAllowed = true := by
  refine ⟨by decide, .inr ⟨"b", "/agents/b/permissions.json", rfl, by decide +kernel⟩, by decide +kernel⟩

/-! ## The extra-deny list -/

def AgentRulesDeny (templates : HashMap String Template) (request : PermissionRequest) (rules : RuleSet) : Prop :=
  ApplyingDeny templates request rules (agentVisible rules request.caller) ∨
    ¬ Applying templates request rules (agentVisible rules request.caller) ∧ rules.defaults.allows request.body = false

theorem agentPhase_getD_false {templates : HashMap String Template} {rules : RuleSet} :
    (agentPhase templates rules request.caller request.body).getD (rules.defaults.allows request.body) = false ↔
      AgentRulesDeny templates request rules := by
  have hdeny := selPhase_deny templates request rules (agentVisible rules request.caller)
  have hallow := selPhase_allow templates request rules (agentVisible rules request.caller)
  change (selPhase templates request rules (agentVisible rules request.caller)).getD _ = false ↔ _
  unfold AgentRulesDeny
  rcases h : selPhase templates request rules (agentVisible rules request.caller) with _ | _ | _
  · have hno : ¬ ApplyingDeny templates request rules (agentVisible rules request.caller) := by simp [← hdeny, h]
    have hnone : ¬ Applying templates request rules (agentVisible rules request.caller) := by
      intro ha
      have := hallow.mpr ⟨ha, hno⟩
      rw [h] at this; cases this
    simp [hno, hnone]
  · simp [hdeny.mp h]
  · obtain ⟨h1, h2⟩ := hallow.mp h
    simp [h1, h2]

def configDirAccess (E : EvalContext) (body : PermissionRequestBody) : Bool :=
  body.fileAccess.any fun access => isConfigDirPath E.dataRoot access.2

theorem fileVerdict_of_not_workspace (hws : ∀ agent path, request.body.fileAccess = some (agent, path) →
      isWorkspacePath E.dataRoot agent request.caller.userId path = false) :
    fileVerdict E request = if configDirAccess E request.body then some false else none := by
  unfold fileVerdict configDirAccess
  cases hf : request.body.fileAccess with
  | none => rfl
  | some access =>
    obtain ⟨agent, path⟩ := access
    simp only [Option.any_some, hws agent path hf, Bool.false_eq_true, if_false]

theorem extra_deny_wins_iff (engine : PermissionEngine) (disk : Disk) (request : PermissionRequest)
    (subjects : List Subject) (hx : subjects.any (·.matchesCaller request.caller) = true)
    (hws : ∀ agent path, request.body.fileAccess = some (agent, path) →
      isWorkspacePath engine.dataRoot agent request.caller.userId path = false) :
    (engine.evaluate disk request (some subjects)).1.isAllowed = false ↔
      isPlanQuestion engine.toEvalContext request = false ∧
      (request.isOwner = true → planDenies engine.toEvalContext request = true ∨ request.body.isConfigWrite = true ∨
        configDirAccess engine.toEvalContext request.body = true ∨
        AgentRulesDeny engine.templates request (engine.rulesInForce disk request.caller.agent)) := by
  have hfile := fileVerdict_of_not_workspace hws
  have hextra : extraDenied request (some subjects) = true := hx
  rw [evaluate_fst, isAllowed_evaluateWithRules, earlyVerdict, hfile, hextra]
  by_cases hq : isPlanQuestion engine.toEvalContext request = true
  · simp [hq]
  by_cases hd : planDenies engine.toEvalContext request = true
  · simp [hq, hd]
  by_cases ho : request.isOwner = true
  · by_cases hc : configDirAccess engine.toEvalContext request.body = true
    · simp [hq, hd, ho, hc]
    · rw [← agentPhase_getD_false]
      by_cases hw : request.body.isConfigWrite = true <;> simp [hq, hd, ho, hc, hw, rulesAllow]
  · by_cases ha : autoDenies engine.toEvalContext request = true
    · simp [hq, hd, ho, ha]
    · by_cases hc : configDirAccess engine.toEvalContext request.body = true <;> simp [hq, hd, ho, ha, hc]

theorem extra_deny_wins_iff_owner_command : [Subject.agentOnly "a" .exact].any (·.matchesCaller ⟨"u", "a"⟩) = true ∧
    (((allowing (.new "/data")).evaluate (fun _ => none)
        (.withCaller ⟨"u", "a"⟩ (.commandExec "a" "ls" []) (some "u")) (some [.agentOnly "a" .exact])).1.isAllowed = false ↔
      isPlanQuestion (.new "/data") (.withCaller ⟨"u", "a"⟩ (.commandExec "a" "ls" []) (some "u")) = false ∧
      (PermissionRequest.isOwner (.withCaller ⟨"u", "a"⟩ (.commandExec "a" "ls" []) (some "u")) = true →
        planDenies (.new "/data") (.withCaller ⟨"u", "a"⟩ (.commandExec "a" "ls" []) (some "u")) = true ∨
        isConfigWrite (.commandExec "a" "ls" []) = true ∨
        configDirAccess (.new "/data") (.commandExec "a" "ls" []) = true ∨
        AgentRulesDeny ∅ (.withCaller ⟨"u", "a"⟩ (.commandExec "a" "ls" []) (some "u"))
          ((allowing (.new "/data")).rulesInForce (fun _ => none) "a"))) :=
  ⟨by decide, extra_deny_wins_iff (.allowing (.new "/data")) (fun _ => none)
    (.withCaller ⟨"u", "a"⟩ (.commandExec "a" "ls" []) (some "u")) [.agentOnly "a" .exact] (by decide) nofun⟩

theorem the_owner_is_not_held_by_the_extra_deny_list : ((allowing (.new "/data")).evaluate (fun _ => none)
      (.withCaller ⟨"u", "a"⟩ (.commandExec "a" "ls" []) (some "u")) (some [.agentOnly "a" .exact])).1.isAllowed = true ∧
    ((allowing { new "/data" with sessionModeQuery := some fun _ => some .plan }).evaluate
      (fun _ => none) (.bare (.toolCall "a" "ask_user_question" "ask")) (some [.agentOnly "a" .exact])).1.isAllowed = true := by
  decide +kernel

/-! ## Plan mode -/

def BelowPlans (path : String) : Prop := "plans" ∈ (names path).dropLast

instance (path : String) : Decidable (BelowPlans path) := inferInstanceAs (Decidable (_ ∈ _))

theorem planDenies_never_allowed (h : planDenies E request = true)
    (extraDeny : Option (List Subject)) (rules : RuleSet) :
    (evaluateWithRules E request extraDeny rules).isAllowed = false := by
  have hq : isPlanQuestion E request = false := by
    unfold planDenies at h
    unfold isPlanQuestion
    cases hb : request.body <;> simp_all
  rw [isAllowed_evaluateWithRules, earlyVerdict, if_neg (by simp [hq]), if_pos h]
  rfl

theorem exists_root_outside (path : String) : ∃ root : String, isConfigDirPath (.ofStr root) path = false := by
  by_cases hp : names path = []
  · refine ⟨"/r", ?_⟩
    have hroot : names ((PathBuf.ofStr "/r").toStr.getD "") = ["r"] := by decide
    rw [← Bool.not_eq_true, isConfigDirPath_iff (by rw [hroot]; simp)]
    rintro ⟨hpre, -⟩
    rw [hroot, hp] at hpre
    simp at hpre
  · exact ⟨"/", isConfigDirPath_of_root_nil (by decide) hp⟩

theorem exists_context_open (body : PermissionRequestBody) :
    ∃ context : EvalContext, earlyVerdict context (.bare body) ≠ some false := by
  have hopen : ∀ root : String, (∀ agent path, body.fileAccess = some (agent, path) →
      isConfigDirPath (.ofStr root) path = false) → earlyVerdict (.new root) (.bare body) ≠ some false := by
    intro root hr
    have hm : ∀ agent, (new root).sessionMode agent = none := fun _ => rfl
    have hb : (PermissionRequest.bare body).body = body := rfl
    have hd : (new root).dataRoot = .ofStr root := rfl
    cases hf : body.fileAccess with
    | none => simp [earlyVerdict, isPlanQuestion, planDenies, autoDenies, hm, fileVerdict, hb, hf]
    | some access =>
      have := hr access.1 access.2 hf
      simp [earlyVerdict, isPlanQuestion, planDenies, autoDenies, hm, fileVerdict, hb, hf, hd, this]
  cases hf : body.fileAccess with
  | none => exact ⟨_, hopen "/" fun agent path h => by rw [hf] at h; cases h⟩
  | some access =>
    obtain ⟨root, hroot⟩ := exists_root_outside access.2
    exact ⟨_, hopen root fun agent path h => by rw [hf] at h; cases h; exact hroot⟩

/-- Writes stay below a `plans` directory exactly for the paths that resolve below one or do not
pass for a plans path. -/
theorem plan_mode_confines_writes_iff (path : String) :
    (∀ (engine : PermissionEngine) (disk : Disk) (request : PermissionRequest) (extraDeny : Option (List Subject)),
        engine.sessionMode request.caller.agent = some .plan →
        ((∃ agent cmd args, request.body = .commandExec agent cmd args) ∨ request.body.isConfigWrite = true →
          (engine.evaluate disk request extraDeny).1.isAllowed = false) ∧
        (∀ agent, request.body = .fileOp agent path "write" →
          (engine.evaluate disk request extraDeny).1.isAllowed = true → BelowPlans path)) ↔
      (isPlansPath path = true → BelowPlans path) := by
  constructor
  · intro h hplans
    obtain ⟨root, hroot⟩ := exists_root_outside path
    let context : EvalContext := { new root with sessionModeQuery := some fun _ => some .plan }
    let request : PermissionRequest := .bare (.fileOp "a" path "write")
    have he : earlyVerdict context request ≠ some false := by
      have hm : ∀ agent, context.sessionMode agent = some .plan := fun _ => rfl
      have hb : request.body = .fileOp "a" path "write" := rfl
      have hr : context.dataRoot = .ofStr root := rfl
      simp [earlyVerdict, isPlanQuestion, planDenies, autoDenies, hm, fileVerdict, hb, fileAccess, hr, hroot, hplans]
    exact (h (.allowing context) (fun _ => none) request none rfl).2 "a" rfl (allowing_evaluate _ _ _ rfl rfl he)
  · intro hpath engine disk request extraDeny hm
    rw [evaluate_fst]
    refine ⟨fun hb => ?_, fun agent hb hallowed => ?_⟩
    · refine planDenies_never_allowed ?_ _ _
      rcases hb with ⟨agent, cmd, args, hb⟩ | hb
      · simp [planDenies, hm, hb]
      · cases hbody : request.body <;> simp_all [planDenies, isConfigWrite]
    · by_contra hno
      have hplans : isPlansPath path = false := by
        rw [← Bool.not_eq_true]; exact fun e => hno (hpath e)
      have hd : planDenies engine.toEvalContext request = true := by simp [planDenies, hm, hb, hplans]
      rw [planDenies_never_allowed hd] at hallowed
      cases hallowed

theorem a_plans_path_escapes_by_dotdot : ¬ BelowPlans "/plans/../etc/passwd" ∧
    ((allowing { new "/data" with sessionModeQuery := some fun _ => some .plan }).evaluate
      (fun _ => none) (.bare (.fileOp "a" "/plans/../etc/passwd" "write")) none).1.isAllowed = true := by
  decide +kernel

end CloseClaw.Permission
