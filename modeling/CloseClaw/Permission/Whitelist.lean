/- Whitelist rules (`whitelist.rs`). -/

import CloseClaw.Permission.Guards

namespace CloseClaw.Permission

open Lib.RustPath (PathBuf)

inductive WhitelistTarget where
  | auto
  | agentOnly
  | userOnly
  | userAndAgent

def requestBodyToAction : PermissionRequestBody → Option Action
  | .fileOp _ path op => some (.file op [path])
  | .commandExec _ cmd args => some (.command cmd (.allowed args))
  | .netOp _ host port => some (.network [host] [port])
  | .toolCall _ skill method => some (.toolCall skill [method])
  | .interAgentMsg _ dst => some (.interAgent [dst])
  | .configWrite .. => none
  | .slashCommand .. => none
  | .messageSend _ direction target => some (.message direction [target])

def callerToSubject (caller : Caller) (target : WhitelistTarget) : Subject :=
  match target with
  | .auto =>
    if caller.userId = "owner" ∨ caller.userId = "" then .agentOnly caller.agent .exact
    else .userAndAgent caller.userId caller.agent .exact .exact
  | .agentOnly => .agentOnly caller.agent .exact
  | .userOnly => if caller.userId = "" then .agentOnly caller.agent .exact else .userOnly caller.userId .exact
  | .userAndAgent =>
    if caller.userId = "" then .agentOnly caller.agent .exact
    else .userAndAgent caller.userId caller.agent .exact .exact

def buildRule (effect : Effect) (caller : Caller) (body : PermissionRequestBody) (name : String)
    (target : WhitelistTarget) : Option Rule :=
  (requestBodyToAction body).map fun action =>
    { name := name
      subject := callerToSubject caller target
      effect := effect
      actions := [action]
      template := none
      priority := 0 }

def buildWhitelistRule := buildRule .allow

def buildDenyRule := buildRule .deny

def RuleSet.withRule (rules : RuleSet) (rule : Rule) : RuleSet := { rules with rules := rules.rules ++ [rule] }

def appendRule (disk : Disk) (path : PathBuf) (rule : Rule) (mtime : Int) : Disk :=
  let ruleset := ((disk path).bind (·.content)).getD .default
  fun p => if p = path then some ⟨mtime, some (ruleset.withRule rule)⟩ else disk p

/-! ## The rule applies to the request it was made for -/

def LiteralParams : PermissionRequestBody → Prop
  | .fileOp _ path _ => '*' ∉ path.toList
  | .commandExec _ cmd args => '*' ∉ cmd.toList ∧ ∀ arg ∈ args, '*' ∉ arg.toList
  | .netOp _ host _ => '*' ∉ host.toList
  | .interAgentMsg _ dst => '*' ∉ dst.toList
  | .messageSend _ _ target => '*' ∉ target.toList
  | _ => True

theorem requestBodyToAction_matches {body : PermissionRequestBody} {action : Action} (hlit : LiteralParams body)
    (h : requestBodyToAction body = some action) : actionMatchesRequest action body = true := by
  cases body with
  | fileOp | netOp | interAgentMsg | messageSend =>
    obtain rfl := Option.some.inj h
    simp [actionMatchesRequest, globMatch_self hlit]
  | commandExec =>
    obtain rfl := Option.some.inj h
    simp only [actionMatchesRequest, globMatch_self hlit.1, Bool.true_and, List.all_eq_true, List.any_eq_true]
    exact fun arg harg => ⟨arg, harg, globMatch_self (hlit.2 arg harg)⟩
  | toolCall =>
    obtain rfl := Option.some.inj h
    simp [actionMatchesRequest]
  | configWrite | slashCommand => cases h

theorem callerToSubject_cases (caller : Caller) (target : WhitelistTarget) :
    callerToSubject caller target = .agentOnly caller.agent .exact ∨
      (caller.userId ≠ "" ∧ (callerToSubject caller target = .userAndAgent caller.userId caller.agent .exact .exact ∨
        callerToSubject caller target = .userOnly caller.userId .exact)) := by
  by_cases hu : caller.userId = ""
  · left
    cases target <;> simp [callerToSubject, hu]
  · cases target with
    | auto =>
      by_cases ho : caller.userId = "owner" <;> simp [callerToSubject, hu, ho]
    | agentOnly => exact .inl rfl
    | userOnly => exact .inr ⟨hu, .inr (if_neg hu)⟩
    | userAndAgent => exact .inr ⟨hu, .inl (if_neg hu)⟩

theorem callerToSubject_matches (caller : Caller) (target : WhitelistTarget) :
    (callerToSubject caller target).matchesCaller caller = true := by
  rcases callerToSubject_cases caller target with h | ⟨-, h | h⟩ <;> simp [h, Subject.matchesCaller, MatchType.test]

theorem callerToSubject_filed (caller : Caller) (target : WhitelistTarget) :
    (callerToSubject caller target).isForAgent caller.agent = (callerToSubject caller target).isAgentOnly ∧
      (callerToSubject caller target).isForUser caller = !(callerToSubject caller target).isAgentOnly := by
  rcases callerToSubject_cases caller target with h | ⟨-, h | h⟩ <;>
    simp [h, Subject.isForAgent, Subject.isForUser, Subject.isAgentOnly]

section

variable {caller : Caller} {body : PermissionRequestBody} {name : String} {target : WhitelistTarget} {rule : Rule}

theorem buildWhitelistRule_subject (h : buildWhitelistRule caller body name target = some rule) :
    rule.subject = callerToSubject caller target := by
  obtain ⟨action, -, rfl⟩ := Option.map_eq_some_iff.mp h
  rfl

theorem buildWhitelistRule_denies (h : buildWhitelistRule caller body name target = some rule) : rule.denies = false := by
  obtain ⟨action, -, rfl⟩ := Option.map_eq_some_iff.mp h
  rfl

theorem buildWhitelistRule_applies (hlit : LiteralParams body)
    (h : buildWhitelistRule caller body name target = some rule) (templates : HashMap String Template) :
    rule.applies templates caller body = true := by
  obtain ⟨action, ha, rfl⟩ := Option.map_eq_some_iff.mp h
  simp [Rule.applies, Rule.effectiveActions, callerToSubject_matches, requestBodyToAction_matches hlit ha]

theorem buildWhitelistRule_not_configWrite (h : buildWhitelistRule caller body name target = some rule) :
    body.isConfigWrite = false := by
  cases body with
  | configWrite => cases h
  | _ => rfl

end

/-! ## The rules with the rule added -/

section

variable {templates : HashMap String Template} {request : PermissionRequest} {rules : RuleSet} {rule : Rule}

theorem mem_withRule {r : Rule} : r ∈ (rules.withRule rule).rules ↔ r ∈ rules.rules ∨ r = rule := by simp [RuleSet.withRule]

def visibleBy (keyed fallback : Rule → Bool) (rules : RuleSet) (r : Rule) : Bool :=
  if rules.rules.any keyed then keyed r else fallback r

theorem agentVisible_eq (rules : RuleSet) (caller : Caller) :
    agentVisible rules caller = visibleBy (fun r => r.subject.isForAgent caller.agent)
      (fun r => r.subject.isAgentOnly && r.subject.matchesCaller caller) rules := rfl

theorem userVisible_eq (rules : RuleSet) (caller : Caller) :
    userVisible rules caller = visibleBy (fun r => r.subject.isForUser caller)
      (fun r => r.subject.isUserRule && r.subject.matchesCaller caller) rules := rfl

section

variable {keyed fallback : Rule → Bool}

theorem applying_of_keyed (hk : keyed rule = true) (ha : rule.applies templates request.caller request.body = true) :
    Applying templates request (rules.withRule rule) (visibleBy keyed fallback (rules.withRule rule)) := by
  refine ⟨rule, mem_withRule.mpr (.inr rfl), ?_, ha⟩
  rw [visibleBy, if_pos (by simp [RuleSet.withRule, hk]), hk]

theorem applying_of_unseen (hk : keyed rule = false) (hf : fallback rule = false) :
    Applying templates request (rules.withRule rule) (visibleBy keyed fallback (rules.withRule rule)) ↔
      Applying templates request rules (visibleBy keyed fallback rules) := by
  have hsame : ∀ r, visibleBy keyed fallback (rules.withRule rule) r = visibleBy keyed fallback rules r := by
    intro r
    simp [visibleBy, RuleSet.withRule, hk]
  have hrule : visibleBy keyed fallback rules rule = false := by
    unfold visibleBy
    split
    · exact hk
    · exact hf
  unfold Applying
  simp only [hsame, mem_withRule]
  constructor
  · intro ⟨r, hr, hs, ha⟩
    rcases hr with hm | rfl
    · exact ⟨r, hm, hs, ha⟩
    · rw [hrule] at hs; cases hs
  · intro ⟨r, hm, hs, ha⟩
    exact ⟨r, .inl hm, hs, ha⟩

end

theorem not_applyingDeny_withRule (hrule : rule.denies = false)
    (h : ∀ r ∈ rules.rules, r.applies templates request.caller request.body = true → r.denies = false)
    (sel : Rule → Bool) : ¬ ApplyingDeny templates request (rules.withRule rule) sel := by
  intro ⟨r, hr, _, ha, hd⟩
  rcases mem_withRule.mp hr with hm | rfl
  · rw [h r hm ha] at hd; cases hd
  · rw [hrule] at hd; cases hd

end

theorem rulesOfFile_appendRule (disk : Disk) (path : PathBuf) (rule : Rule) (mtime : Int) :
    rulesOfFile (appendRule disk path rule mtime path) = rulesOfFile (disk path) ++ [rule] := by
  simp [rulesOfFile, appendRule, RuleSet.withRule]

theorem rulesInForce_appendRule {engine : PermissionEngine} {store : AgentRuleStore} (h : engine.agentRules = some store)
    (disk : Disk) (agentId : String) (rule : Rule) (mtime : Int) :
    (engine.invalidateAgentRules agentId).rulesInForce (appendRule disk (store.agentPermissionsPath agentId) rule mtime)
        agentId =
      (mergedWith engine.rules (rulesOfFile (disk (store.agentPermissionsPath agentId)))).withRule rule := by
  rw [PermissionEngine.rulesInForce_invalidated h _ _ (by simp [rulesOfFile_appendRule]), rulesOfFile_appendRule]
  simp [mergedWith, RuleSet.withRule]

/-! ## When the rule takes effect -/

def workspaceAccess (E : EvalContext) (request : PermissionRequest) : Bool :=
  request.body.fileAccess.any fun access => isWorkspacePath E.dataRoot access.1 request.caller.userId access.2

theorem earlyVerdict_normal {E : EvalContext} {request : PermissionRequest}
    (hmode : E.sessionMode request.caller.agent = some .normal ∨ E.sessionMode request.caller.agent = none)
    (hcfg : configDirAccess E request.body = false) :
    earlyVerdict E request = if workspaceAccess E request then some true else none := by
  have hq : isPlanQuestion E request = false := by rcases hmode with h | h <;> simp [isPlanQuestion, h]
  have hd : planDenies E request = false := by rcases hmode with h | h <;> simp [planDenies, h]
  have ha : autoDenies E request = false := by rcases hmode with h | h <;> simp [autoDenies, h]
  simp only [earlyVerdict, hq, hd, ha, Bool.and_false, Bool.false_eq_true, if_false]
  unfold fileVerdict workspaceAccess
  unfold configDirAccess at hcfg
  cases hf : request.body.fileAccess with
  | none => rfl
  | some =>
    rw [hf, Option.any_some] at hcfg
    simp only [hcfg, Bool.false_eq_true, if_false, Option.any_some]

/-- The phase that does not read the rule lets the request through: for an agent rule
    there is no user to ask or a user rule applies, for a user rule an agent rule does. -/
def OtherPhaseOpen (templates : HashMap String Template) (request : PermissionRequest) (rules : RuleSet)
    (subject : Subject) : Prop :=
  if subject.isAgentOnly then
    request.caller.userId = "" ∨ Applying templates request rules (userVisible rules request.caller)
  else Applying templates request rules (agentVisible rules request.caller)

def WhitelistOpen (engine : PermissionEngine) (store : AgentRuleStore) (disk : Disk) (request : PermissionRequest)
    (rule : Rule) : Prop :=
  workspaceAccess engine.toEvalContext request = true ∨
  (callerDefaults engine.rules request.caller).allows request.body = true ∨
  OtherPhaseOpen engine.templates request
    (mergedWith engine.rules (rulesOfFile (disk (store.agentPermissionsPath request.caller.agent)))) rule.subject

theorem granted_withRule_iff {templates : HashMap String Template} {request : PermissionRequest} {rules : RuleSet}
    {name : String} {target : WhitelistTarget} {rule : Rule}
    (hrule : buildWhitelistRule request.caller request.body name target = some rule) (hlit : LiteralParams request.body)
    (ho : request.isOwner = false) :
    Granted templates request (rules.withRule rule) (agentVisible (rules.withRule rule) request.caller)
        (userVisible (rules.withRule rule) request.caller) ↔ OtherPhaseOpen templates request rules rule.subject := by
  have happ := buildWhitelistRule_applies hlit hrule templates
  obtain ⟨hagent, huser⟩ := callerToSubject_filed request.caller target
  rw [← buildWhitelistRule_subject hrule] at hagent huser
  unfold Granted OtherPhaseOpen
  by_cases hs : rule.subject.isAgentOnly = true
  · have hk : rule.subject.isUserRule = false := by
      cases hsub : rule.subject <;>
        simp_all [Subject.isUserRule, Subject.isUserAndAgent, Subject.isUserOnly, Subject.isAgentOnly]
    have hown : Applying templates request (rules.withRule rule) (agentVisible (rules.withRule rule) request.caller) := by
      rw [agentVisible_eq]
      exact applying_of_keyed (hagent.trans hs) happ
    have hother : Applying templates request (rules.withRule rule) (userVisible (rules.withRule rule) request.caller) ↔
        Applying templates request rules (userVisible rules request.caller) := by
      rw [userVisible_eq, userVisible_eq]
      exact applying_of_unseen (by simpa [hs] using huser) (by simp [hk])
    simp [hs, hown, hother, ho]
  · rw [Bool.not_eq_true] at hs
    have hown : Applying templates request (rules.withRule rule) (userVisible (rules.withRule rule) request.caller) := by
      rw [userVisible_eq]
      exact applying_of_keyed (by simpa [hs] using huser) happ
    have hother : Applying templates request (rules.withRule rule) (agentVisible (rules.withRule rule) request.caller) ↔
        Applying templates request rules (agentVisible rules request.caller) := by
      rw [agentVisible_eq, agentVisible_eq]
      exact applying_of_unseen (hagent.trans hs) (by simp [hs])
    simp [hs, hown, hother]

theorem isAllowed_whitelisted_iff (engine : PermissionEngine) (store : AgentRuleStore) (disk : Disk)
    (request : PermissionRequest) (name : String) (target : WhitelistTarget) (rule : Rule) (mtime : Int)
    (hstore : engine.agentRules = some store)
    (hrule : buildWhitelistRule request.caller request.body name target = some rule)
    (hlit : LiteralParams request.body) (ho : request.isOwner = false)
    (hmode : engine.sessionMode request.caller.agent = some .normal ∨ engine.sessionMode request.caller.agent = none)
    (hcfg : configDirAccess engine.toEvalContext request.body = false)
    (hdeny : ∀ r ∈ engine.rules.rules ++ rulesOfFile (disk (store.agentPermissionsPath request.caller.agent)),
      r.applies engine.templates request.caller request.body = true → r.denies = false) :
    ((engine.invalidateAgentRules request.caller.agent).evaluate
        (appendRule disk (store.agentPermissionsPath request.caller.agent) rule mtime) request none).1.isAllowed = true ↔
      WhitelistOpen engine store disk request rule := by
  unfold WhitelistOpen
  generalize hbefore : mergedWith engine.rules (rulesOfFile (disk (store.agentPermissionsPath request.caller.agent))) = before
  have hctx : (engine.invalidateAgentRules request.caller.agent).toEvalContext = engine.toEvalContext := rfl
  have hdefaults : callerDefaults (before.withRule rule) request.caller = callerDefaults engine.rules request.caller := by
    rw [← hbefore]; rfl
  have hno : ∀ sel, ¬ ApplyingDeny engine.templates request (before.withRule rule) sel :=
    not_applyingDeny_withRule (buildWhitelistRule_denies hrule) (by rw [← hbefore]; exact hdeny)
  rw [PermissionEngine.evaluate_fst, rulesInForce_appendRule hstore, hbefore, hctx, isAllowed_evaluateWithRules,
    earlyVerdict_normal hmode hcfg]
  by_cases hw : workspaceAccess engine.toEvalContext request = true
  · simp [hw]
  · rw [if_neg hw]
    simp only [Option.getD_none, extraDenied, List.any_nil, Bool.not_false, Bool.or_true, Bool.and_true, hw,
      Bool.false_eq_true, false_or]
    rw [rulesAllow_iff_rulesGrant ho]
    unfold RulesGrant
    simp only [buildWhitelistRule_not_configWrite hrule, hno, not_false_eq_true, true_and, hdefaults]
    rw [granted_withRule_iff hrule hlit ho]

/-- A whitelisted request is allowed once the phase its rule is not for lets it through. -/
theorem whitelist_opens_its_dimension (engine : PermissionEngine) (store : AgentRuleStore) (disk : Disk)
    (request : PermissionRequest) (name : String) (target : WhitelistTarget) (rule : Rule) (mtime : Int)
    (hstore : engine.agentRules = some store)
    (hrule : buildWhitelistRule request.caller request.body name target = some rule)
    (hlit : LiteralParams request.body) (ho : request.isOwner = false)
    (hmode : engine.sessionMode request.caller.agent = some .normal ∨ engine.sessionMode request.caller.agent = none)
    (hcfg : configDirAccess engine.toEvalContext request.body = false)
    (hdeny : ∀ r ∈ engine.rules.rules ++ rulesOfFile (disk (store.agentPermissionsPath request.caller.agent)),
      r.applies engine.templates request.caller request.body = true → r.denies = false) :
    (WhitelistOpen engine store disk request rule →
      ((engine.invalidateAgentRules request.caller.agent).evaluate
        (appendRule disk (store.agentPermissionsPath request.caller.agent) rule mtime) request none).1.isAllowed = true) ∧
    (target = .agentOnly ∨ target = .userOnly → ¬ WhitelistOpen engine store disk request rule →
      ((engine.invalidateAgentRules request.caller.agent).evaluate
        (appendRule disk (store.agentPermissionsPath request.caller.agent) rule mtime) request none).1.isAllowed = false) := by
  have hiff := isAllowed_whitelisted_iff engine store disk request name target rule mtime hstore hrule hlit ho hmode hcfg
    hdeny
  refine ⟨hiff.mpr, fun _ hclosed => ?_⟩
  rw [← Bool.not_eq_true]
  exact fun hallowed => hclosed (hiff.mp hallowed)

def bareEngine : PermissionEngine := .new (fun _ => "") (.new "/data") .default true

def lsOfUser : PermissionRequest := .withCaller ⟨"u", "a"⟩ (.commandExec "a" "ls" []) (some "o")

def lsRule : Rule := ⟨"w", .agentOnly "a" .exact, .allow, [.command "ls" (.allowed [])], none, 0⟩

theorem whitelist_opens_its_dimension_ls :
    buildWhitelistRule ⟨"u", "a"⟩ (.commandExec "a" "ls" []) "w" .agentOnly = some lsRule ∧ lsOfUser.isOwner = false ∧
    (¬ WhitelistOpen bareEngine (.new (.ofStr "/data")) (fun _ => none) lsOfUser lsRule →
      ((bareEngine.invalidateAgentRules "a").evaluate
        (appendRule (fun _ => none) ((AgentRuleStore.new (.ofStr "/data")).agentPermissionsPath "a") lsRule 1)
        lsOfUser none).1.isAllowed = false) :=
  ⟨by decide, by decide, (whitelist_opens_its_dimension bareEngine (.new (.ofStr "/data")) (fun _ => none) lsOfUser "w"
    .agentOnly lsRule 1 rfl (by decide) ⟨by decide, nofun⟩ (by decide) (.inr rfl) (by decide) nofun).2 (.inl rfl)⟩

theorem an_agent_whitelist_leaves_the_user_phase_closed :
    buildWhitelistRule lsOfUser.caller lsOfUser.body "w" .agentOnly = some lsRule ∧ bareEngine.rules.rules = [] ∧
    ((bareEngine.invalidateAgentRules "a").evaluate
      (appendRule (fun _ => none) ((AgentRuleStore.new (.ofStr "/data")).agentPermissionsPath "a") lsRule 1)
      lsOfUser none).1.isAllowed = false := by
  decide +kernel

end CloseClaw.Permission
