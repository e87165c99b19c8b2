/- Spawn validation and its budgets (`spawn/controller.rs`). -/

import CloseClaw.Lib.AncestorWalk
import CloseClaw.Lib.Trace

namespace CloseClaw.Session

open Lib Lib.AncestorWalk

inductive SpawnError where
  | depthExceeded (current max : Nat)
  | maxChildrenReached (current max : Nat)
  | agentNotAllowed (agentId : String)
  | agentIdRequired
  | configNotFound (agentId : String)

structure AgentSpawnBudget (Ratio : Type) where
  maxSpawnDepth : Option Nat
  maxChildren : Option Nat
  allowAgents : List String
  requireAgentId : Option Bool
  timeout : Option Nat
  timeoutWarning : Option Nat
  timeoutNotifyIntervalRatio : Option Ratio

structure SpawnValidationResult (Ratio : Type) where
  agentId : String
  effectiveMaxSpawnDepth : Nat
  spawnTimeout : Option Nat
  timeoutWarningSecs : Option Nat
  timeoutNotifyIntervalRatio : Option Ratio

abbrev SpawnBudgetLookup (Ratio : Type) := String → Option (AgentSpawnBudget Ratio)

structure SpawnContext where
  activeChildrenCount : String → Nat
  chatId : String → Option String
  effectiveMaxSpawnDepth : String → Option Nat

structure ParentSpawnConfig where
  maxChildren : Nat
  allowAgents : List String
  requireAgentId : Bool

def defaultSpawnTimeoutSecs : Nat := 172800

variable {Ratio : Type}

def maxSpawnDepthOf (lookup : SpawnBudgetLookup Ratio) (agentId : String) : Nat :=
  ((lookup agentId).bind (·.maxSpawnDepth)).getD 1

def resolveParentDepth (lookup : SpawnBudgetLookup Ratio) (ctx : SpawnContext)
    (parentSessionId parentAgentId : String) :
    Except SpawnError Nat :=
  let parentMaxSpawnDepth := maxSpawnDepthOf lookup parentAgentId
  let parentEffectiveBudget := (ctx.effectiveMaxSpawnDepth parentSessionId).getD parentMaxSpawnDepth
  if parentEffectiveBudget = 0 then .error (.depthExceeded 1 0) else .ok parentEffectiveBudget

def readParentConfig (lookup : SpawnBudgetLookup Ratio) (parentAgentId : String) : ParentSpawnConfig :=
  match lookup parentAgentId with
  | some b => ⟨b.maxChildren.getD 5, b.allowAgents, b.requireAgentId.getD false⟩
  | none => ⟨5, ["*"], false⟩

/-- The count is cut to 32 bits before it is compared. -/
def checkConcurrency (ctx : SpawnContext) (parentSessionId : String) (maxChildren : Nat) : Except SpawnError Unit :=
  let active := ctx.activeChildrenCount parentSessionId
  if active % UInt32.size ≥ maxChildren then .error (.maxChildrenReached active maxChildren) else .ok ()

def checkWhitelist (targetId : String) (allowAgents : List String) : Except SpawnError Unit :=
  if allowAgents.any (fun a => a == "*" || a == targetId) then .ok () else .error (.agentNotAllowed targetId)

def computeEffectiveMaxDepth (parentEffectiveBudget : Nat) (target : AgentSpawnBudget Ratio) : Nat :=
  min (target.maxSpawnDepth.getD 1) (parentEffectiveBudget - 1)

def validate (lookup : SpawnBudgetLookup Ratio) (ctx : SpawnContext) (parentSessionId : String)
    (targetAgentId : Option String) : Except SpawnError (SpawnValidationResult Ratio) := do
  let parentAgentId := (ctx.chatId parentSessionId).getD ""
  let parentEffectiveBudget ← resolveParentDepth lookup ctx parentSessionId parentAgentId
  let parentCfg := readParentConfig lookup parentAgentId
  checkConcurrency ctx parentSessionId parentCfg.maxChildren
  if parentCfg.requireAgentId && targetAgentId.isNone then throw .agentIdRequired
  let targetId := targetAgentId.getD parentAgentId
  checkWhitelist targetId parentCfg.allowAgents
  match lookup targetId with
  | none => throw (.configNotFound targetId)
  | some budget =>
    return {
      agentId := targetId
      effectiveMaxSpawnDepth := computeEffectiveMaxDepth parentEffectiveBudget budget
      spawnTimeout := budget.timeout.or (some defaultSpawnTimeoutSecs)
      timeoutWarningSecs := budget.timeoutWarning
      timeoutNotifyIntervalRatio := budget.timeoutNotifyIntervalRatio }

def SpawnContext.budget (lookup : SpawnBudgetLookup Ratio) (ctx : SpawnContext) (sessionId : String) : Nat :=
  (ctx.effectiveMaxSpawnDepth sessionId).getD (maxSpawnDepthOf lookup ((ctx.chatId sessionId).getD ""))

variable {lookup : SpawnBudgetLookup Ratio} {ctx : SpawnContext}

theorem resolveParentDepth_ok {parent : String} {b : Nat}
    (h : resolveParentDepth lookup ctx parent ((ctx.chatId parent).getD "") = .ok b) :
    b = ctx.budget lookup parent ∧ 0 < b := by
  unfold resolveParentDepth at h
  dsimp only at h
  split at h
  · cases h
  · next hne =>
    obtain rfl := Except.ok.inj h
    exact ⟨rfl, Nat.pos_of_ne_zero hne⟩

theorem validate_ok {parent : String} {target : Option String} {v : SpawnValidationResult Ratio}
    (h : validate lookup ctx parent target = .ok v) :
    0 < ctx.budget lookup parent ∧
      v.effectiveMaxSpawnDepth = min (maxSpawnDepthOf lookup v.agentId) (ctx.budget lookup parent - 1) := by
  simp only [validate, bind, Except.bind, pure, Except.pure, throw, throwThe, MonadExceptOf.throw] at h
  split at h
  · cases h
  · next b hb =>
    obtain ⟨rfl, hpos⟩ := resolveParentDepth_ok hb
    split at h
    · cases h
    · split at h
      · cases h
      · split at h
        · cases h
        · split at h
          · cases h
          · next budget hbudget =>
            obtain rfl := Except.ok.inj h
            refine ⟨hpos, ?_⟩
            simp only [computeEffectiveMaxDepth, maxSpawnDepthOf, hbudget, Option.bind_some]

structure SpawnedSession where
  agentId : Option String
  parentSessionId : Option String
  effectiveMaxSpawnDepth : Option Nat

structure SpawnState (Ratio : Type) where
  sessions : String → Option SpawnedSession
  validated : List (String × SpawnValidationResult Ratio)

inductive SpawnEvent where
  | start (id : String) (agentId : Option String)
  | validate (parent : String) (target : Option String) (active : Nat)
  | create (k : Nat) (id : String)

namespace SpawnState

def empty : SpawnState Ratio := ⟨fun _ => none, []⟩

def context (s : SpawnState Ratio) (active : Nat) : SpawnContext where
  activeChildrenCount _ := active
  chatId id := (s.sessions id).bind (·.agentId)
  effectiveMaxSpawnDepth id := (s.sessions id).bind (·.effectiveMaxSpawnDepth)

def budget (lookup : SpawnBudgetLookup Ratio) (s : SpawnState Ratio) (id : String) :
    Nat := (s.context 0).budget lookup id

def agentOf (s : SpawnState Ratio) (id : String) : String := ((s.sessions id).bind (·.agentId)).getD ""

def parentOf (s : SpawnState Ratio) (id : String) : Option String := (s.sessions id).bind (·.parentSessionId)

def add (s : SpawnState Ratio) (id : String) (c : SpawnedSession) : SpawnState Ratio :=
  if s.sessions id = none then { s with sessions := fun i => if i = id then some c else s.sessions i } else s

def step (lookup : SpawnBudgetLookup Ratio) (s : SpawnState Ratio) : SpawnEvent → SpawnState Ratio
  | .start id agentId => s.add id ⟨agentId, none, none⟩
  | .validate parent target active =>
    if s.sessions parent = none then s
    else match validate lookup (s.context active) parent target with
      | .ok v => { s with validated := s.validated ++ [(parent, v)] }
      | .error _ => s
  | .create k id =>
    match s.validated[k]? with
    | some (parent, v) => s.add id ⟨some v.agentId, some parent, some v.effectiveMaxSpawnDepth⟩
    | none => s

variable {s : SpawnState Ratio} {id j : String} {c : SpawnedSession}

theorem sessions_add_of_some {a : SpawnedSession} (h : s.sessions j = some a) : (s.add id c).sessions j = some a := by
  unfold add
  by_cases hid : s.sessions id = none
  · have hne : j ≠ id := by
      rintro rfl
      rw [hid] at h
      cases h
    simp [hid, hne, h]
  · simp [hid, h]

theorem sessions_add_cases {a : SpawnedSession} (h : (s.add id c).sessions j = some a) :
    s.sessions j = some a ∨ s.sessions id = none ∧ j = id ∧ a = c := by
  unfold add at h
  by_cases hid : s.sessions id = none
  · by_cases hj : j = id
    · simp only [hid, hj, if_true, Option.some.injEq] at h
      exact .inr ⟨hid, hj, h.symm⟩
    · simp only [hid, hj, if_true, if_false] at h
      exact .inl h
  · simp only [hid, if_false] at h
    exact .inl h

theorem validated_add : (s.add id c).validated = s.validated := by
  unfold add
  split <;> rfl

theorem budget_eq (h : s.sessions id = some c) :
    s.budget lookup id = c.effectiveMaxSpawnDepth.getD (maxSpawnDepthOf lookup (c.agentId.getD "")) := by
  simp [budget, SpawnContext.budget, context, h]

theorem agentOf_eq (h : s.sessions id = some c) : s.agentOf id = c.agentId.getD "" := by
  simp [agentOf, h]

theorem budget_add_of_some (h : (s.sessions j).isSome) : (s.add id c).budget lookup j = s.budget lookup j := by
  obtain ⟨a, ha⟩ := Option.isSome_iff_exists.mp h
  rw [budget_eq ha, budget_eq (sessions_add_of_some ha)]

structure Budgeted (lookup : SpawnBudgetLookup Ratio) (s : SpawnState Ratio) : Prop where
  below_parent : ∀ c p, s.parentOf c = some p → (s.sessions p).isSome ∧ s.budget lookup c + 1 ≤ s.budget lookup p
  below_agent : ∀ id, (s.sessions id).isSome → s.budget lookup id ≤ maxSpawnDepthOf lookup (s.agentOf id)
  waiting : ∀ x ∈ s.validated, (s.sessions x.1).isSome ∧ x.2.effectiveMaxSpawnDepth + 1 ≤ s.budget lookup x.1 ∧
    x.2.effectiveMaxSpawnDepth ≤ maxSpawnDepthOf lookup x.2.agentId

theorem Budgeted.empty : Budgeted lookup (SpawnState.empty : SpawnState Ratio) where
  below_parent _ _ h := by cases h
  below_agent _ h := by cases h
  waiting _ h := by cases h

theorem Budgeted.add (hs : Budgeted lookup s) (hparent : ∀ p, c.parentSessionId = some p → (s.sessions p).isSome ∧
      c.effectiveMaxSpawnDepth.getD (maxSpawnDepthOf lookup (c.agentId.getD "")) + 1 ≤ s.budget lookup p)
    (hagent : c.effectiveMaxSpawnDepth.getD (maxSpawnDepthOf lookup (c.agentId.getD "")) ≤
      maxSpawnDepthOf lookup (c.agentId.getD "")) : Budgeted lookup (s.add id c) where
  below_parent d p hp := by
    obtain ⟨a, ha, hap⟩ := Option.bind_eq_some_iff.mp hp
    have hkeep : (s.sessions p).isSome → ((s.add id c).sessions p).isSome := fun h => by
      obtain ⟨q, hq⟩ := Option.isSome_iff_exists.mp h
      rw [sessions_add_of_some hq]
      rfl
    rcases sessions_add_cases ha with hold | ⟨-, -, rfl⟩
    · obtain ⟨hsome, hle⟩ := hs.below_parent d p (by simp [parentOf, hold, hap])
      refine ⟨hkeep hsome, ?_⟩
      rw [budget_add_of_some hsome, budget_add_of_some (by simp [hold])]
      exact hle
    · obtain ⟨hsome, hle⟩ := hparent p hap
      refine ⟨hkeep hsome, ?_⟩
      rw [budget_add_of_some hsome, budget_eq ha]
      exact hle
  below_agent d hd := by
    obtain ⟨a, ha⟩ := Option.isSome_iff_exists.mp hd
    rcases sessions_add_cases ha with hold | ⟨-, -, rfl⟩
    · have := hs.below_agent d (by simp [hold])
      rw [budget_eq hold, agentOf_eq hold] at this
      rw [budget_eq ha, agentOf_eq ha]
      exact this
    · rw [budget_eq ha, agentOf_eq ha]
      exact hagent
  waiting x hx := by
    rw [validated_add] at hx
    obtain ⟨hsome, hle, hmax⟩ := hs.waiting x hx
    obtain ⟨a, ha⟩ := Option.isSome_iff_exists.mp hsome
    exact ⟨by rw [sessions_add_of_some ha]; rfl, by rw [budget_add_of_some hsome]; exact hle, hmax⟩

theorem Budgeted.step (hs : Budgeted lookup s) (e : SpawnEvent) : Budgeted lookup (s.step lookup e) := by
  cases e with
  | start => exact hs.add (fun p hp => by cases hp) (Nat.le_refl _)
  | validate parent target active =>
    unfold SpawnState.step
    dsimp only
    split
    · exact hs
    · next hparent =>
      split
      · next v hv =>
        obtain ⟨hpos, heff⟩ := validate_ok hv
        have hb : (s.context active).budget lookup parent = s.budget lookup parent := rfl
        rw [hb] at hpos heff
        refine ⟨hs.below_parent, hs.below_agent, fun x hx => ?_⟩
        rcases List.mem_append.mp hx with hx | hx
        · exact hs.waiting x hx
        · obtain rfl := List.mem_singleton.mp hx
          refine ⟨Option.isSome_iff_ne_none.mpr hparent, ?_, ?_⟩
          · show v.effectiveMaxSpawnDepth + 1 ≤ s.budget lookup parent
            omega
          · show v.effectiveMaxSpawnDepth ≤ maxSpawnDepthOf lookup v.agentId
            omega
      · exact hs
  | create =>
    unfold SpawnState.step
    dsimp only
    split
    · next parent v hv =>
      obtain ⟨hsome, hle, hmax⟩ := hs.waiting (parent, v) (List.mem_of_getElem? hv)
      refine hs.add (fun p hp => ?_) hmax
      obtain rfl := Option.some.inj hp
      exact ⟨hsome, hle⟩
    · exact hs

theorem budget_step (h : (s.sessions j).isSome) (e : SpawnEvent) :
    ((s.step lookup e).sessions j).isSome ∧ (s.step lookup e).budget lookup j = s.budget lookup j := by
  have hadd : ∀ id c, ((s.add id c).sessions j).isSome ∧ (s.add id c).budget lookup j = s.budget lookup j := by
    intro id c
    obtain ⟨a, ha⟩ := Option.isSome_iff_exists.mp h
    exact ⟨by rw [sessions_add_of_some ha]; rfl, budget_add_of_some h⟩
  cases e with
  | start => exact hadd _ _
  | validate =>
    unfold SpawnState.step
    dsimp only
    split
    · exact ⟨h, rfl⟩
    · split <;> exact ⟨h, rfl⟩
  | create =>
    unfold SpawnState.step
    dsimp only
    split
    · exact hadd _ _
    · exact ⟨h, rfl⟩

theorem budget_run (h : (s.sessions j).isSome) (events : List SpawnEvent) :
    (Trace.run (step lookup) s events).budget lookup j = s.budget lookup j :=
  (Trace.invariant (I := fun t : SpawnState Ratio => (t.sessions j).isSome ∧ t.budget lookup j = s.budget lookup j)
    (fun _ e ht => ⟨(budget_step ht.1 e).1, (budget_step ht.1 e).2.trans ht.2⟩) ⟨h, rfl⟩ events).2

end SpawnState

open SpawnState

/-- Chains below a session are no longer than its budget, which is at most what each ancestor
leaves it and never changes. -/
theorem spawn_budgets_bound_tree (lookup : SpawnBudgetLookup Ratio) (events : List SpawnEvent) :
    let s := Trace.run (step lookup) empty events
    (∀ a n d, Below s.parentOf a n d → n ≤ s.budget lookup a) ∧
      (∀ id, (s.sessions id).isSome → s.budget lookup id ≤ maxSpawnDepthOf lookup (s.agentOf id)) ∧
      (∀ a n d, Below s.parentOf a n d → s.budget lookup d ≤ s.budget lookup a - n) ∧
      ∀ id more, (s.sessions id).isSome → (Trace.run (step lookup) s more).budget lookup id = s.budget lookup id := by
  intro s
  have hs : Budgeted lookup s := Trace.invariant (I := Budgeted lookup) (fun _ e ht => ht.step e) .empty events
  have hrank : ∀ c p, s.parentOf c = some p → s.budget lookup c + 1 ≤ s.budget lookup p := fun c p hp =>
    (hs.below_parent c p hp).2
  refine ⟨?_, hs.below_agent, ?_, ?_⟩
  · intro a n d h
    have := h.add_rank_le hrank
    omega
  · intro a n d h
    have := h.add_rank_le hrank
    omega
  · intro id more h
    exact budget_run h more

example :
    let lookup : SpawnBudgetLookup Unit := fun a =>
      if a = "a" then some ⟨some 2, none, ["*"], none, none, none, none⟩ else none
    let s := Trace.run (step lookup) empty [.start "r" (some "a"), .validate "r" none 0, .create 0 "c",
      .validate "c" none 0, .create 1 "g", .validate "g" none 0]
    (s.budget lookup "r", s.budget lookup "c", s.budget lookup "g", s.validated.length) = (2, 1, 0, 2) := by decide

end CloseClaw.Session
