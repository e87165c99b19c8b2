/- What a spawn chain can deny. -/

import CloseClaw.Permission.Chain
import CloseClaw.Permission.Guards

namespace CloseClaw.Permission

open Lib PermissionEngine Lib.AncestorWalk List

section

variable (lookup : SessionLookup) (provider : AgentPermissionProvider)

def chainPermissions : List String → Option AgentPermissions
  | [] => none
  | parent :: above =>
    ((lookup.getChatId parent).bind provider).map fun perms =>
      ((reachedAgents lookup above).filterMap provider).foldl AgentPermissions.intersect perms

/-- The direct parent is configured, and it denies when no further ancestor reached is configured;
else some configured one of those reached does not allow the dimension. -/
def chainDenies (chain : List String) (dim : String) : Bool :=
  match chain with
  | [] => false
  | parent :: above =>
    ((lookup.getChatId parent).bind provider).any fun perms =>
      let further := (reachedAgents lookup above).filterMap provider
      if further.isEmpty then perms.denies dim else !(perms :: further).all (·.isAllowed dim)

def chainSubjects (rules : RuleSet) (session : String) (chain : List String) (child : String) : List Subject :=
  foldWhile (denyVisit lookup rules child) [] (session :: chain)

end

variable {lookup : SessionLookup} {provider : AgentPermissionProvider} {session : String} {chain : List String} {fuel : Nat}

theorem denies_chainPermissions {dim : String} (hd : dim ∈ dimensions) :
    (chainPermissions lookup provider chain).any (·.denies dim) = chainDenies lookup provider chain dim := by
  cases chain with
  | nil => rfl
  | cons =>
    simp only [chainPermissions, chainDenies, Option.any_map]
    congr 1
    funext perms
    simp only [denies_foldl_intersect hd, List.isEmpty_iff]

theorem collectChainEffective_eq (h : Ancestors lookup.getParentOf session chain) (hf : chain.length < fuel) :
    collectChainEffective fuel lookup session provider = some (chainPermissions lookup provider chain) := by
  unfold collectChainEffective chainPermissions
  cases h with
  | root hp => simp [hp]
  | @climb _ parent above hp h' =>
    simp only [hp]
    cases hc : lookup.getChatId parent with
    | none => rfl
    | some agent =>
      simp only [Option.bind_some, collectChainEffectivePermissions]
      cases ha : provider agent with
      | none => rfl
      | some =>
        simp only [Option.map_some]
        cases h' with
        | root hp' => simp [hp', reachedAgents]
        | climb hp' h'' =>
          simp only [hp']
          rw [walk_eq h'' (by simp only [length_cons] at hf; omega), effectiveFold_eq]
          rfl

theorem collectChainDenySubjects_eq (h : Ancestors lookup.getParentOf session chain) (hf : chain.length < fuel)
    (rules : RuleSet) (child : String) :
    collectChainDenySubjects fuel lookup rules session child = some (chainSubjects lookup rules session chain child) :=
  walk_eq h hf

theorem mem_chainSubjects {rules : RuleSet} {child : String} {s : Subject} :
    s ∈ chainSubjects lookup rules session chain child ↔
      ∃ agent ∈ reachedAgents lookup (session :: chain), s ∈ getAgentDenySubjects rules agent child := by
  unfold chainSubjects
  rw [mem_denyFold]
  simp

theorem evaluateWithChain_spec (provider : AgentPermissionProvider)
    (h : Ancestors lookup.getParentOf session chain) (hf : chain.length < fuel)
    (engine : PermissionEngine) (disk : Disk) (request : PermissionRequest) :
    ∃ result, engine.evaluateWithChain disk fuel request lookup session provider = some result ∧
      result.1.isAllowed =
        (!request.body.dimensionName.any (chainDenies lookup provider chain) &&
          (engine.evaluate disk request
            (some (chainSubjects lookup engine.rules session chain request.agentId))).1.isAllowed) := by
  have hextra : ∀ subjects : List Subject,
      (engine.evaluate disk request (if subjects.isEmpty then none else some subjects)).1.isAllowed =
        (engine.evaluate disk request (some subjects)).1.isAllowed := by
    intro subjects
    cases subjects with
    | nil => simp [evaluate_fst, isAllowed_evaluateWithRules, extraDenied]
    | cons => rfl
  unfold evaluateWithChain
  rw [collectChainEffective_eq h hf, collectChainDenySubjects_eq h hf]
  simp only [Option.bind_eq_bind, Option.bind_some]
  have hdim : (chainDeniedDim (chainPermissions lookup provider chain) request.body).isSome =
      request.body.dimensionName.any (chainDenies lookup provider chain) := by
    cases hb : request.body.dimensionName with
    | none => cases hp : chainPermissions lookup provider chain <;> simp [chainDeniedDim, hb]
    | some dim =>
      rw [Option.any_some, ← denies_chainPermissions (dimensionName_mem hb)]
      cases hp : chainPermissions lookup provider chain with
      | none => simp [chainDeniedDim]
      | some perms => by_cases hd : perms.denies dim = true <;> simp [chainDeniedDim, hb, hd]
  cases hc : chainDeniedDim (chainPermissions lookup provider chain) request.body with
  | some =>
    rw [hc, Option.isSome_some] at hdim
    exact ⟨_, rfl, by simp [← hdim]⟩
  | none =>
    rw [hc, Option.isSome_none] at hdim
    exact ⟨_, rfl, by rw [← hdim, Bool.not_false, Bool.true_and]; exact hextra _⟩

/-! ## Denials along a chain -/

def DenyingAncestor (lookup : SessionLookup) (provider : AgentPermissionProvider) (chain : List String) (dim : String) :
    Prop :=
  ∃ s ∈ chain, ∃ agent, lookup.getChatId s = some agent ∧ ∃ perms, provider agent = some perms ∧ perms.denies dim = true

def DeniedAlong (lookup : SessionLookup) (provider : AgentPermissionProvider) (session : String)
    (engine : PermissionEngine) (disk : Disk) (request : PermissionRequest) : Prop :=
  ∃ n, ∀ fuel, n < fuel →
    ∃ result, engine.evaluateWithChain disk fuel request lookup session provider = some result ∧ result.1.isAllowed = false

theorem deniedAlong_iff (lookup : SessionLookup) (h : Ancestors lookup.getParentOf session chain)
    (engine : PermissionEngine) (disk : Disk) (request : PermissionRequest) :
    DeniedAlong lookup provider session engine disk request ↔
      request.body.dimensionName.any (chainDenies lookup provider chain) = true ∨
        (engine.evaluate disk request
          (some (chainSubjects lookup engine.rules session chain request.agentId))).1.isAllowed = false := by
  have hspec := fun fuel (hf : chain.length < fuel) => evaluateWithChain_spec provider h hf engine disk request
  constructor
  · intro ⟨n, hden⟩
    obtain ⟨result, hres, hno⟩ := hden (n + chain.length + 1) (by omega)
    obtain ⟨result', hres', heq⟩ := hspec (n + chain.length + 1) (by omega)
    rw [hres] at hres'
    obtain rfl := Option.some.inj hres'
    rw [hno, eq_comm, Bool.and_eq_false_iff, Bool.not_eq_false'] at heq
    exact heq
  · intro hor
    refine ⟨chain.length, fun fuel hf => ?_⟩
    obtain ⟨result, hres, heq⟩ := hspec fuel hf
    refine ⟨result, hres, ?_⟩
    rw [heq, Bool.and_eq_false_iff, Bool.not_eq_false']
    exact hor

theorem evaluate_denied_mono {engine : PermissionEngine} {disk : Disk} {request : PermissionRequest}
    {fewer more : List Subject} (hsub : ∀ s ∈ fewer, s ∈ more)
    (h : (engine.evaluate disk request (some fewer)).1.isAllowed = false) :
    (engine.evaluate disk request (some more)).1.isAllowed = false := by
  have hextra : extraDenied request (some fewer) = true → extraDenied request (some more) = true := by
    simp only [extraDenied, Option.getD_some, any_eq_true]
    rintro ⟨s, hs, hm⟩
    exact ⟨s, hsub s hs, hm⟩
  rw [evaluate_fst, isAllowed_evaluateWithRules] at h ⊢
  cases he : earlyVerdict engine.toEvalContext request with
  | some => simpa [he] using h
  | none =>
    rw [he, Option.getD_none, Bool.and_eq_false_iff] at h
    rw [Option.getD_none, Bool.and_eq_false_iff]
    refine h.imp_right fun h1 => ?_
    rw [Bool.or_eq_false_iff, Bool.not_eq_false'] at h1 ⊢
    exact ⟨h1.1, hextra h1.2⟩

theorem chainSubjects_allowing (context : EvalContext) (child : String) :
    chainSubjects lookup (allowing context).rules session chain child = [] := by
  rw [eq_nil_iff_forall_not_mem]
  intro s hs
  obtain ⟨agent, -, h⟩ := mem_chainSubjects.mp hs
  cases h

theorem exists_not_deniedAlong (provider : AgentPermissionProvider)
    {body : PermissionRequestBody} (hc : body.isConfigWrite = false) :
    ∃ engine : PermissionEngine, ∀ (lookup : SessionLookup) (session : String) (chain : List String),
      Ancestors lookup.getParentOf session chain → body.dimensionName.any (chainDenies lookup provider chain) = false →
      ¬ DeniedAlong lookup provider session engine (fun _ => none) (.bare body) := by
  obtain ⟨context, hopen⟩ := exists_context_open body
  refine ⟨.allowing context, fun lookup session chain h hno => ?_⟩
  rw [deniedAlong_iff lookup h, chainSubjects_allowing]
  have hallow := allowing_evaluate (.bare body) (some []) (fun _ => none) rfl hc hopen
  intro hor
  rcases hor with h1 | h1
  · change body.dimensionName.any _ = true at h1
    rw [hno] at h1; cases h1
  · rw [hallow] at h1; cases h1

def SessionLookup.insertAbove (lookup : SessionLookup) (lo u agent : String) : SessionLookup :=
  ⟨AncestorWalk.insertAbove lookup.getParentOf lo u, fun s => if s = u then some agent else lookup.getChatId s⟩

section Insertion

variable {lo u agent : String} {below above : List String}

theorem reachedAgents_of_notMem {sessions : List String} (hu : u ∉ sessions) :
    reachedAgents (lookup.insertAbove lo u agent) sessions = reachedAgents lookup sessions := by
  induction sessions with
  | nil => rfl
  | cons s sessions ih =>
    rw [mem_cons, not_or] at hu
    have hs : (lookup.insertAbove lo u agent).getChatId s = lookup.getChatId s := if_neg (Ne.symm hu.1)
    simp only [reachedAgents, hs, ih hu.2]

theorem reachedAgents_insert (lookup : SessionLookup) (lo agent : String) (hu : u ∉ below ++ above) :
    reachedAgents (lookup.insertAbove lo u agent) (below ++ u :: above) = reachedAgents lookup (below ++ above) ∨
      ∃ l r, reachedAgents (lookup.insertAbove lo u agent) (below ++ u :: above) = l ++ agent :: r ∧
        reachedAgents lookup (below ++ above) = l ++ r := by
  induction below with
  | nil =>
    have hs : (lookup.insertAbove lo u agent).getChatId u = some agent := if_pos rfl
    rw [nil_append] at hu
    right
    refine ⟨[], reachedAgents lookup above, ?_, rfl⟩
    simp only [nil_append, reachedAgents, hs, reachedAgents_of_notMem hu]
  | cons s below ih =>
    rw [cons_append, mem_cons, not_or] at hu
    have hs : (lookup.insertAbove lo u agent).getChatId s = lookup.getChatId s := if_neg (Ne.symm hu.1)
    simp only [cons_append, reachedAgents, hs]
    cases lookup.getChatId s with
    | none => exact .inl rfl
    | some a =>
      rcases ih hu.2 with h | ⟨l, r, h1, h2⟩
      · exact .inl (by simp only [h])
      · exact .inr ⟨a :: l, r, by simp only [h1, cons_append], by simp only [h2, cons_append]⟩

theorem filterMap_reachedAgents_insert (hu : u ∉ below ++ above) (ha : provider agent = none) :
    (reachedAgents (lookup.insertAbove lo u agent) (below ++ u :: above)).filterMap provider =
      (reachedAgents lookup (below ++ above)).filterMap provider := by
  rcases reachedAgents_insert lookup lo agent hu with h | ⟨l, r, h1, h2⟩
  · rw [h]
  · rw [h1, h2]; simp [ha]

theorem chainSubjects_insert (below : List String) {rules : RuleSet} {child : String} {s : Subject}
    (hu : u ∉ session :: (below ++ above)) (hs : s ∈ chainSubjects lookup rules session (below ++ above) child) :
    s ∈ chainSubjects (lookup.insertAbove lo u agent) rules session (below ++ u :: above) child := by
  rw [mem_chainSubjects] at hs ⊢
  obtain ⟨a, hmem, hs⟩ := hs
  refine ⟨a, ?_, hs⟩
  rcases reachedAgents_insert lookup lo agent (show u ∉ (session :: below) ++ above from hu) with h | ⟨l, r, h1, h2⟩
  · rw [← cons_append, h]; exact hmem
  · rw [← cons_append] at hmem ⊢
    rw [h2] at hmem
    rw [h1]
    rcases mem_append.mp hmem with h | h
    · exact mem_append_left _ h
    · exact mem_append_right _ (mem_cons_of_mem _ h)

theorem chainDenies_insert (lookup : SessionLookup) (lo dim : String) (hb : below ≠ [])
    (hu : u ∉ below ++ above) (ha : provider agent = none) :
    chainDenies (lookup.insertAbove lo u agent) provider (below ++ u :: above) dim =
      chainDenies lookup provider (below ++ above) dim := by
  cases below with
  | nil => exact absurd rfl hb
  | cons parent =>
    rw [cons_append, mem_cons, not_or] at hu
    have hs : (lookup.insertAbove lo u agent).getChatId parent = lookup.getChatId parent := if_neg (Ne.symm hu.1)
    simp only [cons_append, chainDenies, hs, filterMap_reachedAgents_insert hu.2 ha]

theorem chainDenies_insert_self {dim : String} (ha : provider agent = none) :
    chainDenies (lookup.insertAbove session u agent) provider (u :: chain) dim = false := by
  have hs : (lookup.insertAbove session u agent).getChatId u = some agent := if_pos rfl
  simp [chainDenies, hs, ha]

variable {engine : PermissionEngine} {disk : Disk}

theorem deniedAlong_insert (h : Ancestors lookup.getParentOf session chain) (hlo : lo ∈ chain)
    (hu : u ∉ session :: chain) (ha : provider agent = none) {request : PermissionRequest}
    (hden : DeniedAlong lookup provider session engine disk request) :
    DeniedAlong (lookup.insertAbove lo u agent) provider session engine disk request := by
  obtain ⟨below, above, rfl⟩ := append_of_mem hlo
  have h' := h.insertAbove_mem rfl hu
  have hsplit : ∀ l, below ++ lo :: l = (below ++ [lo]) ++ l := by simp
  rw [hsplit] at h' h hu
  rw [deniedAlong_iff lookup h] at hden
  rw [deniedAlong_iff (lookup.insertAbove lo u agent) h']
  refine hden.imp (fun hc => ?_) (evaluate_denied_mono fun s hs => chainSubjects_insert _ hu hs)
  have hkeep := fun dim => chainDenies_insert lookup lo dim (by simp) (fun hm => hu (mem_cons_of_mem _ hm)) ha
  rwa [funext hkeep]

theorem deniedAlong_insert_self (h : Ancestors lookup.getParentOf session chain) (hu : u ∉ session :: chain)
    {request : PermissionRequest} (hno : request.body.dimensionName.any (chainDenies lookup provider chain) = false)
    (hden : DeniedAlong lookup provider session engine disk request) :
    DeniedAlong (lookup.insertAbove session u agent) provider session engine disk request := by
  have h' := h.insertAbove_self hu
  rw [deniedAlong_iff lookup h, hno] at hden
  rw [deniedAlong_iff (lookup.insertAbove session u agent) h']
  rcases hden with hc | hc
  · cases hc
  · exact .inr (evaluate_denied_mono (fun s hs => chainSubjects_insert [] hu hs) hc)

end Insertion

/-- A dimension an ancestor denies is denied exactly when the walk's result denies it; a new
session of an unconfigured agent can lift it. -/
theorem chain_denial_iff (lookup : SessionLookup) (provider : AgentPermissionProvider) (session : String)
    (chain : List String) (body : PermissionRequestBody) (dim : String)
    (h : Ancestors lookup.getParentOf session chain) (hd : body.dimensionName = some dim) :
    ((DenyingAncestor lookup provider chain dim → ∀ (engine : PermissionEngine) (disk : Disk) (request : PermissionRequest),
        request.body = body → DeniedAlong lookup provider session engine disk request) ↔
      (DenyingAncestor lookup provider chain dim →
        body.isConfigWrite = true ∨ chainDenies lookup provider chain dim = true)) ∧
    ∀ lo u agent, lo ∈ session :: chain → u ∉ session :: chain → provider agent = none →
      ((∀ (engine : PermissionEngine) (disk : Disk) (request : PermissionRequest), request.body = body →
          DeniedAlong lookup provider session engine disk request →
          DeniedAlong (lookup.insertAbove lo u agent) provider session engine disk request) ↔
        body.isConfigWrite = true ∨ lo ≠ session ∨ chainDenies lookup provider chain dim = false) := by
  have hchain : ∀ (lookup : SessionLookup) (chain : List String),
      body.dimensionName.any (chainDenies lookup provider chain) = chainDenies lookup provider chain dim := by
    simp [hd]
  refine ⟨⟨fun hall hda => ?_, fun hcond hda engine disk request hb => ?_⟩, fun lo u agent hlo hu ha => ⟨fun hkeep => ?_, ?_⟩⟩
  · by_contra hno
    rw [not_or, Bool.not_eq_true, Bool.not_eq_true] at hno
    obtain ⟨engine, hopen⟩ := exists_not_deniedAlong provider hno.1
    exact hopen lookup session chain h (by rw [hchain]; exact hno.2) (hall hda engine _ (.bare body) rfl)
  · rw [deniedAlong_iff lookup h, hb, hchain]
    refine (hcond hda).symm.imp_right fun hc => ?_
    rw [evaluate_fst]
    exact configWrite_never_allowed _ _ _ _ (hb ▸ hc)
  · by_contra hno
    simp only [not_or, Bool.not_eq_true, not_not, Bool.not_eq_false] at hno
    obtain ⟨hc, rfl, hdenies⟩ := hno
    obtain ⟨engine, hopen⟩ := exists_not_deniedAlong provider hc
    have hden : DeniedAlong lookup provider lo engine (fun _ => none) (.bare body) :=
      (deniedAlong_iff lookup h _ _ _).mpr (.inl ((hchain lookup chain).trans hdenies))
    exact hopen (lookup.insertAbove lo u agent) lo (u :: chain) (h.insertAbove_self hu)
      (by rw [hchain]; exact chainDenies_insert_self ha) (hkeep engine _ (.bare body) rfl hden)
  · intro hcond engine disk request hb hden
    rcases mem_cons.mp hlo with rfl | hlo
    · rcases hcond with hc | hne | hno
      · rw [deniedAlong_iff (lookup.insertAbove lo u agent) (h.insertAbove_self hu), evaluate_fst]
        exact .inr (configWrite_never_allowed _ _ _ _ (hb ▸ hc))
      · exact absurd rfl hne
      · exact deniedAlong_insert_self h hu (by rw [hb, hchain]; exact hno) hden
    · exact deniedAlong_insert h hlo hu ha hden

def leafOfTop : SessionLookup := ⟨fun s => if s = "leaf" then some "top" else none, some⟩

def topDeniesExec : AgentPermissionProvider := fun agent =>
  if agent = "top" then some ⟨"top", AList.insert "exec" ⟨false, .default⟩ ∅, none⟩ else none

theorem leafOfTop_chain : Ancestors leafOfTop.getParentOf "leaf" ["top"] := .climb rfl (.root rfl)

theorem chain_denial_iff_leafOfTop : Ancestors leafOfTop.getParentOf "leaf" ["top"] ∧
    (PermissionRequestBody.commandExec "leaf" "ls" []).dimensionName = some "exec" ∧
    ((∀ (engine : PermissionEngine) (disk : Disk) (request : PermissionRequest),
        request.body = .commandExec "leaf" "ls" [] → DeniedAlong leafOfTop topDeniesExec "leaf" engine disk request →
        DeniedAlong (leafOfTop.insertAbove "leaf" "mid" "mid") topDeniesExec "leaf" engine disk request) ↔
      (PermissionRequestBody.commandExec "leaf" "ls" []).isConfigWrite = true ∨ "leaf" ≠ "leaf" ∨
        chainDenies leafOfTop topDeniesExec ["top"] "exec" = false) :=
  ⟨leafOfTop_chain, rfl, (chain_denial_iff leafOfTop topDeniesExec "leaf" ["top"] (.commandExec "leaf" "ls" []) "exec"
    leafOfTop_chain rfl).2 "leaf" "mid" "mid" (by decide) (by decide) rfl⟩

theorem an_unconfigured_parent_lifts_the_chain :
    Ancestors (leafOfTop.insertAbove "leaf" "mid" "mid").getParentOf "leaf" ["mid", "top"] ∧
    DenyingAncestor (leafOfTop.insertAbove "leaf" "mid" "mid") topDeniesExec ["mid", "top"] "exec" ∧
    ((allowing (.new "/data")).evaluateWithChain (fun _ => none) 3 (.bare (.commandExec "leaf" "ls" []))
      leafOfTop "leaf" topDeniesExec).map (·.1.isAllowed) = some false ∧
    ((allowing (.new "/data")).evaluateWithChain (fun _ => none) 3 (.bare (.commandExec "leaf" "ls" []))
      (leafOfTop.insertAbove "leaf" "mid" "mid") "leaf" topDeniesExec).map (·.1.isAllowed) = some true :=
  ⟨leafOfTop_chain.insertAbove_self (by decide), ⟨"top", by decide, "top", rfl, _, rfl, rfl⟩, by decide, by decide⟩

/-! ## A session without a parent -/

theorem mem_getAgentDenySubjects {rules : RuleSet} {parent child : String} {s : Subject} :
    s ∈ getAgentDenySubjects rules parent child ↔
      ∃ r ∈ rules.rules, r.denies = true ∧ ∃ m, r.subject = .agentOnly parent m ∧ s = .agentOnly child m := by
  unfold getAgentDenySubjects
  rw [mem_filterMap]
  refine exists_congr fun r => and_congr_right fun _ => ?_
  by_cases hd : r.effect = .deny
  · cases hs : r.subject with
    | agentOnly agent =>
      by_cases ha : agent = parent
      · simp [hd, Rule.denies, ha, eq_comm]
      · simp [hd, Rule.denies, ha]
    | _ => simp [hd]
  · simp [hd, Rule.denies]

/-- A Deny rule of the session's own agent, for any action, whose pattern read on the
    request's agent matches the caller. -/
def HeldByOwnRules (lookup : SessionLookup) (rules : RuleSet) (session : String) (request : PermissionRequest) : Prop :=
  ∃ agent, lookup.getChatId session = some agent ∧ ∃ r ∈ rules.rules, r.denies = true ∧
    ∃ m : MatchType, r.subject = .agentOnly agent m ∧ m.test request.agentId request.caller.agent = true

theorem extraDenied_root {rules : RuleSet} {request : PermissionRequest} :
    extraDenied request (some (chainSubjects lookup rules session [] request.agentId)) = true ↔
      HeldByOwnRules lookup rules session request := by
  unfold extraDenied HeldByOwnRules
  simp only [Option.getD_some, any_eq_true, mem_chainSubjects, mem_getAgentDenySubjects]
  constructor
  · rintro ⟨s, ⟨agent, hagent, r, hr, hd, m, hs, rfl⟩, hm⟩
    refine ⟨agent, ?_, r, hr, hd, m, hs, hm⟩
    cases hc : lookup.getChatId session with
    | none => simp [reachedAgents, hc] at hagent
    | some => simpa [reachedAgents, hc, eq_comm] using hagent
  · rintro ⟨agent, hc, r, hr, hd, m, hs, hm⟩
    exact ⟨.agentOnly request.agentId m, ⟨agent, by simp [reachedAgents, hc], r, hr, hd, m, hs, rfl⟩, hm⟩

/-- Without a parent the verdict is the plain one, unless a Deny rule of the agent holds a request
that the rules grant. -/
theorem no_chain_matches_evaluate_iff (engine : PermissionEngine) (disk : Disk) (request : PermissionRequest)
    (lookup : SessionLookup) (session : String) (provider : AgentPermissionProvider)
    (hroot : lookup.getParentOf session = none) (fuel : Nat) (hf : 0 < fuel) :
    ∃ result, engine.evaluateWithChain disk fuel request lookup session provider = some result ∧
      (result.1.isAllowed = (engine.evaluate disk request none).1.isAllowed ↔
        ¬ (HeldByOwnRules lookup engine.rules session request ∧ request.isOwner = false ∧
          earlyVerdict engine.toEvalContext request = none ∧
          RulesGrant engine.templates request (engine.rulesInForce disk request.caller.agent))) := by
  obtain ⟨result, hres, hallow⟩ := evaluateWithChain_spec provider (Ancestors.root hroot) hf engine disk request
  refine ⟨result, hres, ?_⟩
  have hchain : request.body.dimensionName.any (chainDenies lookup provider []) = false := by
    cases request.body.dimensionName <;> rfl
  rw [hallow, hchain, Bool.not_false, Bool.true_and, evaluate_fst, evaluate_fst,
    isAllowed_evaluateWithRules, isAllowed_evaluateWithRules, ← extraDenied_root]
  cases he : earlyVerdict engine.toEvalContext request with
  | some => simp
  | none =>
    by_cases ho : request.isOwner = true
    · simp [ho]
    · rw [Bool.not_eq_true] at ho
      rw [← rulesAllow_iff_rulesGrant ho]
      simp only [ho, Option.getD_none, Bool.false_or, true_and]
      cases extraDenied request (some (chainSubjects lookup engine.rules session [] request.agentId)) <;>
        simp [extraDenied]

def noRm : RuleSet :=
  { RuleSet.default with
    rules := [ ⟨"all", .agentOnly "a" .exact, .allow, [.all], none, 0⟩,
      ⟨"no-rm", .agentOnly "a" .exact, .deny, [.command "rm" .any], none, 0⟩ ] }

def rootOfA : SessionLookup := ⟨fun _ => none, fun _ => some "a"⟩

theorem no_chain_matches_evaluate_iff_command : rootOfA.getParentOf "s" = none ∧ 0 < 1 ∧
    ∃ result, (new (fun _ => "v") (.new "/data") noRm false).evaluateWithChain (fun _ => none) 1
        (.bare (.commandExec "a" "ls" [])) rootOfA "s" (fun _ => none) = some result ∧
      (result.1.isAllowed = ((new (fun _ => "v") (.new "/data") noRm false).evaluate (fun _ => none)
          (.bare (.commandExec "a" "ls" [])) none).1.isAllowed ↔
        ¬ (HeldByOwnRules rootOfA (noRm.computeVersion fun _ => "v") "s" (.bare (.commandExec "a" "ls" [])) ∧
          PermissionRequest.isOwner (.bare (.commandExec "a" "ls" [])) = false ∧
          earlyVerdict (.new "/data") (.bare (.commandExec "a" "ls" [])) = none ∧
          RulesGrant ∅ (.bare (.commandExec "a" "ls" []))
            ((new (fun _ => "v") (.new "/data") noRm false).rulesInForce (fun _ => none) "a"))) :=
  ⟨rfl, by decide, no_chain_matches_evaluate_iff (.new (fun _ => "v") (.new "/data") noRm false) (fun _ => none)
    (.bare (.commandExec "a" "ls" [])) rootOfA "s" (fun _ => none) rfl 1 (by decide)⟩

theorem a_root_session_is_held_by_its_own_unrelated_deny :
    rootOfA.getParentOf "s" = none ∧ ((new (fun _ => "v") (.new "/data") noRm false).evaluate (fun _ => none)
      (.bare (.commandExec "a" "ls" [])) none).1.isAllowed = true ∧
    ((new (fun _ => "v") (.new "/data") noRm false).evaluateWithChain (fun _ => none) 1
      (.bare (.commandExec "a" "ls" [])) rootOfA "s" (fun _ => none)).map (·.1.isAllowed) = some false := by
  decide +kernel

end CloseClaw.Permission
