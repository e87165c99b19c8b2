/- The approval flow over whole runs (`Reach`). -/

import CloseClaw.Permission.ApprovalFlow

namespace CloseClaw.Permission

open List ApprovalFlow
open Lib.Escrow (tokens)
open Lib.RustPath (PathBuf)

namespace ApprovalRuns

inductive Ev where
  | submitDenial (caller : Caller) (request : PermissionRequestBody) (riskLevel : RiskLevel) (sessionId : String)
      (isSubAgent : Bool) (draw : Draw)
  | approveRequest (requestId : RequestId) (mode : ApprovalMode) (outside : Outside)
  | denyRequest (requestId : RequestId)
  | clear (order : List RequestId)
  | submitUserCreation (userId channel : String) (initialPermissions : List InitialPermissionSet) (uuid : RequestId)
  | setUserCreationPermissions (requestId : RequestId) (initialPermissions : List InitialPermissionSet)
  | updateRules (rules : RuleSet)
  | setHeartbeatMode (mode : HeartbeatApprovalMode)

variable (H : Host)

def apply (flow : ApprovalFlow) : Ev → ApprovalFlow × List Output
  | .submitDenial caller request riskLevel sessionId isSubAgent draw =>
    (flow.submitDenial H caller request riskLevel sessionId isSubAgent draw).2
  | .approveRequest requestId mode outside => (flow.approveRequest H requestId mode outside).2
  | .denyRequest requestId => (flow.denyRequest requestId).2
  | .clear order => flow.clear order
  | .submitUserCreation userId channel initialPermissions uuid =>
    (flow.submitUserCreation userId channel initialPermissions uuid).2
  | .setUserCreationPermissions requestId initialPermissions =>
    ((flow.setUserCreationPermissions requestId initialPermissions).2, [])
  | .updateRules rules => (flow.updateRules rules, [])
  | .setHeartbeatMode mode => (flow.setHeartbeatMode mode, [])

def handedOver (flow : ApprovalFlow) : Ev → List Callback
  | .submitDenial caller request riskLevel sessionId isSubAgent draw =>
    if (flow.submitDenial H caller request riskLevel sessionId isSubAgent draw).1.isSome then [draw.box] else []
  | _ => []

def draws : Ev → List RequestId
  | .submitDenial _ _ _ _ _ draw => [draw.uuid]
  | .submitUserCreation _ _ _ uuid => [uuid]
  | _ => []

structure Sys where
  flow : ApprovalFlow
  drawn : List RequestId
  enqueued : List Callback
  outputs : List Output

def step (s : Sys) (ev : Ev) : Sys where
  flow := (apply H s.flow ev).1
  drawn := draws ev ++ s.drawn
  enqueued := handedOver H s.flow ev ++ s.enqueued
  outputs := s.outputs ++ (apply H s.flow ev).2

def init (forceDeny : Bool) (heartbeatMode : HeartbeatApprovalMode) (configDir : PathBuf) (initialRules : RuleSet) : Sys :=
  ⟨.newInner forceDeny heartbeatMode configDir initialRules, [], [], []⟩

def Admissible (s : Sys) : Ev → Prop
  | .submitDenial _ _ _ _ _ draw => draw.uuid ∉ s.drawn ∧ draw.box ∉ s.enqueued
  | .submitUserCreation _ _ _ uuid => uuid ∉ s.drawn
  | .clear order => order.Perm s.flow.queue.pending.keys
  | _ => True

inductive Reach : Sys → Prop
  | init (forceDeny : Bool) (heartbeatMode : HeartbeatApprovalMode) (configDir : PathBuf) (initialRules : RuleSet) :
      Reach (init forceDeny heartbeatMode configDir initialRules)
  | step {s : Sys} (ev : Ev) : Reach s → Admissible s ev → Reach (step H s ev)

structure Inv (s : Sys) : Prop where
  queue : s.flow.queue.Inv s.enqueued (callsOf s.outputs)
  drawn : ∀ id ∈ s.flow.queue.pending, id ∈ s.drawn
  boxes : s.enqueued.Nodup

variable {H : Host} {s : Sys} {ev : Ev}

theorem Inv.of_queue (h : Inv s) (hb : handedOver H s.flow ev = [])
    (hq : (apply H s.flow ev).1.queue.Inv s.enqueued (callsOf s.outputs ++ callsOf (apply H s.flow ev).2))
    (hsub : ∀ id ∈ (apply H s.flow ev).1.queue.pending, id ∈ s.flow.queue.pending) : Inv (step H s ev) where
  queue := by
    simp only [step, hb, nil_append, callsOf_append]
    exact hq
  drawn id hid := mem_append_right _ (h.drawn id (hsub id hid))
  boxes := by
    simp only [step, hb, nil_append]
    exact h.boxes

theorem Inv.of_same_queue (h : Inv s) (hb : handedOver H s.flow ev = [])
    (hq : (apply H s.flow ev).1.queue = s.flow.queue) (hc : callsOf (apply H s.flow ev).2 = []) : Inv (step H s ev) :=
  h.of_queue hb (by rw [hq, hc, append_nil]; exact h.queue) fun id hid => hq ▸ hid

theorem mem_pending_approve {q : ApprovalQueue} (h : ∀ i, i ∈ q.pending ↔ i ∈ q.callbacks) {id i : RequestId}
    {mode : ApprovalMode} (hi : i ∈ (q.approve id mode).2.1.pending) : i ∈ q.pending := by
  unfold ApprovalQueue.approve at hi
  split at hi
  · exact hi
  · exact ((ApprovalQueue.mem_pending_doResolve h id i .approve).mp hi).2

theorem Inv.of_resolved {requestId : RequestId} (h : Inv s) (hb : handedOver H s.flow ev = [])
    (hr : s.flow.Resolved requestId (apply H s.flow ev).1 (apply H s.flow ev).2) : Inv (step H s ev) := by
  rcases hr with ⟨hq, hc⟩ | ⟨mode, hq, hc⟩ | ⟨hq, hc⟩
  · exact h.of_same_queue hb hq hc
  · exact h.of_queue hb (by rw [hq, hc]; exact h.queue.approve requestId mode) fun id hid =>
      mem_pending_approve h.queue.sameKeys (hq ▸ hid)
  · refine h.of_queue hb (by rw [hq, hc]; exact h.queue.deny requestId) fun id hid => ?_
    exact ((ApprovalQueue.mem_pending_doResolve h.queue.sameKeys requestId id .deny).mp (hq ▸ hid)).2

theorem Inv.of_submitted {caller : Caller} {request : PermissionRequestBody}
    {riskLevel : RiskLevel} {sessionId : String} {isSubAgent : Bool} {draw : Draw} (h : Inv s)
    (hu : draw.uuid ∉ s.drawn) (hbox : draw.box ∉ s.enqueued) :
    Inv (step H s (.submitDenial caller request riskLevel sessionId isSubAgent draw)) := by
  obtain ⟨hqueue, hcalls, -⟩ := s.flow.submitDenial_submitted H caller request riskLevel sessionId draw isSubAgent
  rcases hqueue with ⟨hnone, hq⟩ | ⟨hsome, p, hp, hq⟩
  · exact h.of_same_queue (by simp [handedOver, hnone]) hq hcalls
  · have hnew : draw.uuid ∉ s.flow.queue.pending := fun hm => hu (h.drawn _ hm)
    refine ⟨?_, fun id hid => ?_, ?_⟩
    · simp only [step, apply, handedOver, hsome, Option.isSome_some, if_true, singleton_append, callsOf_append, hcalls,
        append_nil, hq]
      exact h.queue.file hnew hp draw.box
    · simp only [step, apply, hq, AList.mem_insert] at hid
      simp only [step, draws, singleton_append, mem_cons]
      exact hid.imp_right (h.drawn id)
    · simp only [step, handedOver, hsome, Option.isSome_some, if_true, singleton_append]
      exact nodup_cons.mpr ⟨hbox, h.boxes⟩

theorem step_inv (h : Inv s) (ha : Admissible s ev) : Inv (step H s ev) := by
  cases ev with
  | submitDenial => exact h.of_submitted ha.1 ha.2
  | approveRequest requestId mode outside =>
    exact h.of_resolved rfl (approveRequest_resolved requestId mode outside)
  | denyRequest requestId => exact h.of_resolved rfl (denyRequest_resolved requestId)
  | clear order =>
    refine h.of_queue rfl ?_ fun id hid => ((ApprovalQueue.mem_pending_clear h.queue order id).mp hid).2
    simp only [apply, clear, callsOf_map_call]
    exact h.queue.clear order
  | submitUserCreation =>
    refine h.of_same_queue rfl ?_ ?_ <;> simp only [apply, submitUserCreation] <;> split <;> rfl
  | setUserCreationPermissions =>
    refine h.of_same_queue rfl ?_ rfl
    simp only [apply, setUserCreationPermissions]
    split <;> rfl
  | updateRules | setHeartbeatMode => exact h.of_same_queue rfl rfl rfl

theorem reach_inv (h : Reach H s) : Inv s := by
  induction h with
  | init =>
    exact ⟨ApprovalQueue.inv_new, fun id hid => absurd hid (AList.notMem_empty id), nodup_nil⟩
  | step ev _ ha ih => exact step_inv ih ha

theorem apply_writes {flow : ApprovalFlow} {o : Output} (ho : o ∈ (apply H flow ev).2) (hw : o.writesRule = true) :
    ∃ requestId mode outside, ev = .approveRequest requestId mode outside ∧ flow.JustifiedWrite requestId mode o := by
  cases ev with
  | approveRequest requestId mode outside =>
    exact ⟨requestId, mode, outside, rfl, approveRequest_writes ho hw⟩
  | submitDenial caller request riskLevel sessionId isSubAgent draw =>
    have := (flow.submitDenial_submitted H caller request riskLevel sessionId draw isSubAgent).writes o ho
    rw [this] at hw; cases hw
  | denyRequest => rw [denyRequest_writes ho] at hw; cases hw
  | clear =>
    obtain ⟨_, -, rfl⟩ := mem_map.mp ho
    cases hw
  | submitUserCreation =>
    simp only [apply, submitUserCreation] at ho
    split at ho
    · cases ho
    · rw [mem_singleton.mp ho] at hw; cases hw
  | setUserCreationPermissions | updateRules | setHeartbeatMode => cases ho

def callCount (s : Sys) (callback : Callback) : Nat := (ApprovalQueue.called (callsOf s.outputs)).count callback

def heldCount (s : Sys) (callback : Callback) : Nat := (tokens s.flow.queue.callbacks).count callback

structure Safe (H : Host) (s : Sys) : Prop where
  sameKeys : ∀ id, id ∈ s.flow.queue.pending ↔ id ∈ s.flow.queue.callbacks
  distinctOperations : ∀ id id' p p', s.flow.queue.pending.lookup id = some p → s.flow.queue.pending.lookup id' = some p' →
    p.operationKey = p'.operationKey → id = id'
  calledOnceOrHeld : ∀ callback ∈ s.enqueued, (callCount s callback = 1 ∧ heldCount s callback = 0) ∨
    (callCount s callback = 0 ∧ heldCount s callback = 1)
  refusalChangesNothing : ∀ requestId mode outside reason,
    (s.flow.approveRequest H requestId mode outside).1 = .error reason →
    (s.flow.approveRequest H requestId mode outside).2.1.queue = s.flow.queue
  writesJustified : ∀ ev, ∀ o ∈ (apply H s.flow ev).2, o.writesRule = true →
    ∃ requestId mode outside, ev = .approveRequest requestId mode outside ∧ s.flow.JustifiedWrite requestId mode o

theorem approval_flow_is_safe (H : Host) (s : Sys) (h : Reach H s) : Safe H s := by
  have hinv := reach_inv h
  exact
    { sameKeys := hinv.queue.sameKeys
      distinctOperations := hinv.queue.distinct
      calledOnceOrHeld := fun _ hc => hinv.queue.settles.once hinv.boxes hc
      refusalChangesNothing := fun _ _ _ _ he => approveRequest_error he
      writesJustified := fun _ _ ho hw => apply_writes ho hw }

def plainHost : Host := ⟨⟨formatOperationDesc, id⟩, .ofStr "/tmp"⟩

def submitThenApprove : Sys :=
  step plainHost
    (step plainHost (init false .skip (.ofStr "/config") .default)
      (.submitDenial ⟨"u", "a"⟩ (.commandExec "a" "ls" []) .low "session" false ⟨"1", ⟨0⟩⟩))
    (.approveRequest "1" (.withWhitelist .auto) ⟨0, true, []⟩)

theorem approval_flow_is_safe_submitThenApprove :
    submitThenApprove.enqueued = [⟨0⟩] ∧ callCount submitThenApprove ⟨0⟩ = 1 ∧ Safe plainHost submitThenApprove :=
  ⟨by decide +kernel, by decide +kernel, approval_flow_is_safe plainHost submitThenApprove
    (.step _ (.step _ (.init _ _ _ _) ⟨not_mem_nil, not_mem_nil⟩) trivial)⟩

end ApprovalRuns

end CloseClaw.Permission
