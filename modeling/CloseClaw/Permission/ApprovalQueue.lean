/- The queue of pending approvals (`approval.rs`). A callback is a box with an identity; a
   resolution returns the calls it made. -/

import CloseClaw.Lib.Escrow
import CloseClaw.Permission.Whitelist

namespace CloseClaw.Permission

open AList
open Lib.Escrow (Settles)

abbrev RequestId := String

abbrev OperationKey := String

inductive ApproveOrDeny where
  | approve
  | deny

inductive RejectReason where
  | duplicate

inductive ApprovalMode where
  | once
  | withWhitelist (target : WhitelistTarget)

inductive RejectWhitelistReason where
  | highRisk
  | configWrite

structure Callback where
  box : Nat
  deriving DecidableEq

structure EnqueueRequest where
  request : PermissionRequestBody
  caller : Caller
  operationDesc : String
  riskLevel : RiskLevel
  sessionResume : String
  callback : Callback

structure PendingApproval where
  requestId : RequestId
  caller : Caller
  request : PermissionRequestBody
  operationKey : OperationKey
  operationDesc : String
  riskLevel : RiskLevel
  sessionResume : String
  ruleVersion : String
  snapshottedRules : RuleSet

structure KeyHash where
  json : PermissionRequestBody → String
  sha256 : String → String

def computeOperationKey (H : KeyHash) (caller : Caller) (body : PermissionRequestBody) : OperationKey :=
  H.sha256 (caller.userId ++ ":" ++ caller.agent ++ ":" ++ H.json body)

structure ApprovalQueue where
  pending : HashMap RequestId PendingApproval
  callbacks : HashMap RequestId Callback

abbrev Invocation := Callback × ApproveOrDeny

namespace ApprovalQueue

def new : ApprovalQueue := ⟨∅, ∅⟩

def isPending (q : ApprovalQueue) (key : OperationKey) : Bool := q.pending.entries.any (·.2.operationKey == key)

def enqueue (H : KeyHash) (q : ApprovalQueue) (req : EnqueueRequest) (currentRules : RuleSet) (uuid : RequestId) :
    Except RejectReason RequestId × ApprovalQueue :=
  let operationKey := computeOperationKey H req.caller req.request
  if q.isPending operationKey then (.error .duplicate, q)
  else
    let pending : PendingApproval :=
      { requestId := uuid
        caller := req.caller
        request := req.request
        operationKey := operationKey
        operationDesc := req.operationDesc
        riskLevel := req.riskLevel
        sessionResume := req.sessionResume
        ruleVersion := currentRules.ruleVersion
        snapshottedRules := currentRules }
    (.ok uuid, ⟨q.pending.insert uuid pending, q.callbacks.insert uuid req.callback⟩)

def getPending (q : ApprovalQueue) (requestId : RequestId) : Option PendingApproval := q.pending.lookup requestId

def doResolve (q : ApprovalQueue) (requestId : RequestId) (result : ApproveOrDeny) :
    Bool × ApprovalQueue × List Invocation :=
  match q.callbacks.lookup requestId with
  | some callback => (true, ⟨q.pending.erase requestId, q.callbacks.erase requestId⟩, [(callback, result)])
  | none => (false, q, [])

def rejectWhitelist : ApprovalMode → Option PendingApproval → Option RejectWhitelistReason
  | .withWhitelist _, some pending =>
    if pending.request.isConfigWrite then some .configWrite
    else if pending.riskLevel.isHighOrCritical then some .highRisk
    else none
  | _, _ => none

def approve (q : ApprovalQueue) (requestId : RequestId) (mode : ApprovalMode) :
    Except RejectWhitelistReason Bool × ApprovalQueue × List Invocation :=
  match rejectWhitelist mode (q.pending.lookup requestId) with
  | some reason => (.error reason, q, [])
  | none =>
    let (resolved, q, calls) := q.doResolve requestId .approve
    (.ok resolved, q, calls)

def deny (q : ApprovalQueue) (requestId : RequestId) : Bool × ApprovalQueue × List Invocation :=
  q.doResolve requestId .deny

def clear (q : ApprovalQueue) : List RequestId → ApprovalQueue × List Invocation
  | [] => (q, [])
  | requestId :: rest =>
    let (_, q, calls) := q.deny requestId
    let (q, later) := q.clear rest
    (q, calls ++ later)

def called (calls : List Invocation) : List Callback := calls.map (·.1)

structure Inv (q : ApprovalQueue) (enqueued : List Callback) (calls : List Invocation) : Prop where
  sameKeys : ∀ id, id ∈ q.pending ↔ id ∈ q.callbacks
  distinct : ∀ id id' p p', q.pending.lookup id = some p → q.pending.lookup id' = some p' →
    p.operationKey = p'.operationKey → id = id'
  settles : Settles enqueued (called calls) q.callbacks

variable {q : ApprovalQueue} {enqueued : List Callback} {calls : List Invocation}

theorem inv_new : new.Inv [] [] where
  sameKeys _ := by simp [new]
  distinct _ _ _ _ h := by simp [new] at h
  settles := Settles.empty

variable {p : PendingApproval}

variable {id : RequestId}

theorem isPending_of_lookup (h : q.pending.lookup id = some p) : q.isPending p.operationKey = true :=
  List.any_eq_true.mpr ⟨⟨id, p⟩, mem_lookup_iff.mp h, beq_self_eq_true _⟩

theorem enqueue_cases (H : KeyHash) (q : ApprovalQueue) (req : EnqueueRequest) (currentRules : RuleSet) (uuid : RequestId) :
    (q.isPending (computeOperationKey H req.caller req.request) = true ∧
        q.enqueue H req currentRules uuid = (.error .duplicate, q)) ∨
      (q.isPending (computeOperationKey H req.caller req.request) = false ∧
        ∃ p : PendingApproval, p.operationKey = computeOperationKey H req.caller req.request ∧
          q.enqueue H req currentRules uuid =
            (.ok uuid, ⟨q.pending.insert uuid p, q.callbacks.insert uuid req.callback⟩)) := by
  unfold enqueue
  by_cases hd : q.isPending (computeOperationKey H req.caller req.request) = true
  · exact .inl ⟨hd, if_pos hd⟩
  · exact .inr ⟨by simpa using hd, _, rfl, if_neg hd⟩

theorem Inv.file (h : q.Inv enqueued calls) {uuid : RequestId} (hu : uuid ∉ q.pending)
    (hp : q.isPending p.operationKey = false) (callback : Callback) :
    Inv ⟨q.pending.insert uuid p, q.callbacks.insert uuid callback⟩ (callback :: enqueued) calls where
  sameKeys id := by rw [mem_insert, mem_insert, h.sameKeys]
  distinct id id' p₁ p₂ h₁ h₂ he := by
    -- a request that was pending has another operation key than the new one
    have hold : ∀ i r, i ≠ uuid → (q.pending.insert uuid p).lookup i = some r →
        q.pending.lookup i = some r ∧ r.operationKey ≠ p.operationKey := by
      intro i r hi hr
      rw [lookup_insert_ne hi] at hr
      refine ⟨hr, fun e => ?_⟩
      rw [← e, isPending_of_lookup hr] at hp
      cases hp
    have hnew : ∀ i r, i = uuid → (q.pending.insert uuid p).lookup i = some r → r = p := by
      rintro i r rfl hr
      rw [lookup_insert] at hr
      exact (Option.some.inj hr).symm
    by_cases e₁ : id = uuid <;> by_cases e₂ : id' = uuid
    · exact e₁.trans e₂.symm
    · exact absurd (hnew id p₁ e₁ h₁ ▸ he).symm (hold id' p₂ e₂ h₂).2
    · exact absurd (hnew id' p₂ e₂ h₂ ▸ he) (hold id p₁ e₁ h₁).2
    · exact h.distinct id id' p₁ p₂ (hold id p₁ e₁ h₁).1 (hold id' p₂ e₂ h₂).1 he
  settles := h.settles.take (fun hc => hu ((h.sameKeys uuid).mpr hc)) callback

theorem lookup_of_erase {pending : HashMap RequestId PendingApproval} {i : RequestId}
    (h : (pending.erase id).lookup i = some p) : pending.lookup i = some p := by
  by_cases e : i = id
  · rw [e, lookup_erase] at h
    cases h
  · rwa [lookup_erase_ne e] at h

theorem Inv.doResolve (h : q.Inv enqueued calls) (id : RequestId) (result : ApproveOrDeny) :
    (q.doResolve id result).2.1.Inv enqueued (calls ++ (q.doResolve id result).2.2) := by
  unfold ApprovalQueue.doResolve
  cases hc : q.callbacks.lookup id with
  | none => simpa using h
  | some =>
    refine ⟨fun i => by simp only [mem_erase, h.sameKeys], fun i i' p p' h₁ h₂ he => ?_, ?_⟩
    · exact h.distinct i i' p p' (lookup_of_erase h₁) (lookup_of_erase h₂) he
    · simpa [called] using h.settles.give hc

theorem Inv.approve (h : q.Inv enqueued calls) (id : RequestId) (mode : ApprovalMode) :
    (q.approve id mode).2.1.Inv enqueued (calls ++ (q.approve id mode).2.2) := by
  unfold ApprovalQueue.approve
  cases rejectWhitelist mode (q.pending.lookup id) with
  | some => simpa using h
  | none => exact h.doResolve id .approve

theorem Inv.deny (h : q.Inv enqueued calls) (id : RequestId) :
    (q.deny id).2.1.Inv enqueued (calls ++ (q.deny id).2.2) := h.doResolve id .deny

theorem Inv.clear (h : q.Inv enqueued calls) (order : List RequestId) :
    (q.clear order).1.Inv enqueued (calls ++ (q.clear order).2) := by
  induction order generalizing q calls with
  | nil => simpa [ApprovalQueue.clear] using h
  | cons id rest ih =>
    have := ih (h.deny id)
    simpa [ApprovalQueue.clear, List.append_assoc] using this

theorem approve_error {mode : ApprovalMode} {reason : RejectWhitelistReason}
    (h : (q.approve id mode).1 = .error reason) : (q.approve id mode).2 = (q, []) := by
  unfold approve at h ⊢
  cases hr : rejectWhitelist mode (q.pending.lookup id) with
  | some => rfl
  | none => rw [hr] at h; cases h

theorem approve_withWhitelist {target : WhitelistTarget} {resolved : Bool} (hp : q.pending.lookup id = some p)
    (h : (q.approve id (.withWhitelist target)).1 = .ok resolved) :
    p.request.isConfigWrite = false ∧ p.riskLevel.isHighOrCritical = false := by
  unfold approve at h
  rw [hp, rejectWhitelist] at h
  by_cases hc : p.request.isConfigWrite = true
  · simp [hc] at h
  · by_cases hr : p.riskLevel.isHighOrCritical = true
    · simp [hc, hr] at h
    · exact ⟨by simpa using hc, by simpa using hr⟩

theorem mem_pending_doResolve (h : ∀ i, i ∈ q.pending ↔ i ∈ q.callbacks) (id i : RequestId) (result : ApproveOrDeny) :
    i ∈ (q.doResolve id result).2.1.pending ↔ i ≠ id ∧ i ∈ q.pending := by
  unfold doResolve
  cases hc : q.callbacks.lookup id with
  | none =>
    have hn : id ∉ q.pending := by rw [h]; exact lookup_eq_none.mp hc
    exact ⟨fun hi => ⟨fun e => hn (e ▸ hi), hi⟩, fun hi => hi.2⟩
  | some => exact mem_erase

theorem mem_pending_clear (h : q.Inv enqueued calls) (order : List RequestId) (i : RequestId) :
    i ∈ (q.clear order).1.pending ↔ i ∉ order ∧ i ∈ q.pending := by
  induction order generalizing q calls with
  | nil => simp [clear]
  | cons id rest ih =>
    have hstep := mem_pending_doResolve h.sameKeys id i .deny
    have hrest := ih (h.deny id)
    simp only [clear, List.mem_cons, not_or]
    rw [hrest]
    unfold deny
    rw [hstep]
    tauto

end ApprovalQueue

end CloseClaw.Permission
