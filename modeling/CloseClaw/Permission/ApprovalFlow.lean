/- The approval flow (`approval_flow.rs`). What it does outside itself is an `Output`, in order;
   what it takes from outside is an argument. -/

import CloseClaw.Permission.ApprovalQueue

namespace CloseClaw.Permission

open List
open Lib.RustPath (PathBuf)

inductive InitialPermissionSet where
  | basicMessaging

structure UserRegistration where
  userId : String
  imChannel : String
  initialPermissions : List InitialPermissionSet

structure UserCreationRequest where
  userId : String
  imChannel : String
  requestId : RequestId
  initialPermissions : List InitialPermissionSet

abbrev UserRegistry := List UserRegistration

def InitialPermissionSet.ruleFor (userId suffix : String) (action : Action) : Rule :=
  ⟨"user-" ++ userId ++ suffix, .userAndAgent userId "*" .exact .glob, .allow, [action], none, 10⟩

def InitialPermissionSet.toRules (userId : String) : InitialPermissionSet → List Rule
  | .basicMessaging =>
    [ ruleFor userId "-chat-send" (.toolCall "chat" ["send"]),
      ruleFor userId "-workspace-read" (.file "read" ["workspace/**"]) ]

def registerUser (registry : UserRegistry) (userId channel : String) (initialPermissions : List InitialPermissionSet) :
    Option (RuleSet × UserRegistry) :=
  if registry.any (·.userId == userId) then none
  else
    some ({ RuleSet.default with rules := initialPermissions.flatMap (·.toRules userId) },
      registry ++ [⟨userId, channel, initialPermissions⟩])

/-! ## The flow -/

inductive HeartbeatApprovalMode where
  | skip
  | notify
  | ask

structure ApprovalNotification where
  requestId : RequestId
  caller : Caller
  operationDesc : String
  riskLevel : RiskLevel

structure ApprovalFlow where
  queue : ApprovalQueue
  heartbeatMode : HeartbeatApprovalMode
  configDir : PathBuf
  userCreationRequests : HashMap RequestId UserCreationRequest
  currentRules : RuleSet
  forceDeny : Bool

inductive Output where
  | call (invocation : Invocation)
  | notifyOwner (notification : ApprovalNotification)
  | appendWhitelistRule (configDir : PathBuf) (agentId : String) (rule : Rule)
  | whitelistUpdated (agentId : String)
  | persistUserRegistry (configDir : PathBuf) (registry : UserRegistry)
  | persistInitialPermissionRules (configDir : PathBuf) (userId : String) (rules : RuleSet)
  | pushMessage (sessionId content : String)

structure Host extends KeyHash where
  tempDir : PathBuf

structure Draw where
  uuid : RequestId
  box : Callback

structure Outside where
  millis : Int
  written : Bool
  registry : UserRegistry

def isHeartbeatOperation : PermissionRequestBody → Bool
  | .toolCall _ skill method => skill == "heartbeat" && method == "ping"
  | _ => false

def MessageDirection.debug : MessageDirection → String
  | .send => "Send"
  | .receive => "Receive"
  | .both => "Both"

def formatOperationDesc : PermissionRequestBody → String
  | .fileOp agent path op => agent ++ " file " ++ op ++ " " ++ path
  | .commandExec agent cmd _ => agent ++ " execute " ++ cmd
  | .netOp agent host port => agent ++ " network " ++ host ++ ":" ++ toString port
  | .toolCall agent skill method => agent ++ " tool " ++ skill ++ "/" ++ method
  | .interAgentMsg src dst => "inter-agent " ++ src ++ " -> " ++ dst
  | .configWrite agent configFile => agent ++ " config write " ++ configFile
  | .slashCommand agent command => agent ++ " slash /" ++ command
  | .messageSend agent direction target => agent ++ " message " ++ direction.debug ++ " " ++ target

def tempContext (H : Host) : EvalContext := { EvalContext.new "" with dataRoot := H.tempDir.join "closeclaw_test" }

def reevaluateWithSnapshottedRules (H : Host) (pendingInfo : Option PendingApproval) : Option ApprovalMode :=
  pendingInfo.bind fun p =>
    let request := PermissionRequest.withCaller p.caller p.request none
    if (evaluateWithRules (tempContext H) request none p.snapshottedRules).isAllowed then some .once else none

namespace ApprovalFlow

def newInner (forceDeny : Bool) (heartbeatMode : HeartbeatApprovalMode) (configDir : PathBuf) (initialRules : RuleSet) :
    ApprovalFlow :=
  ⟨.new, heartbeatMode, configDir, ∅, initialRules, forceDeny⟩

def new := newInner false

def newDenyAll := newInner true

variable (flow : ApprovalFlow)

def setHeartbeatMode (mode : HeartbeatApprovalMode) : ApprovalFlow := { flow with heartbeatMode := mode }

def updateRules (rules : RuleSet) : ApprovalFlow := { flow with currentRules := rules }

def handleHeartbeatDenial (caller : Caller) (request : PermissionRequestBody) (riskLevel : RiskLevel) :
    Bool × List Output :=
  match flow.heartbeatMode with
  | .skip => (false, [])
  | .notify =>
    match request with
    | .toolCall agent skill method =>
      (false, [.notifyOwner ⟨"", caller, agent ++ " tool " ++ skill ++ "/" ++ method, riskLevel⟩])
    | _ => (false, [])
  | .ask => (true, [])

def enqueueDenial (H : Host) (caller : Caller) (request : PermissionRequestBody) (riskLevel : RiskLevel)
    (sessionId : String) (draw : Draw) : Option RequestId × ApprovalFlow × List Output :=
  let operationDesc := formatOperationDesc request
  let req : EnqueueRequest := ⟨request, caller, operationDesc, riskLevel, sessionId, draw.box⟩
  match flow.queue.enqueue H.toKeyHash req flow.currentRules draw.uuid with
  | (.ok requestId, queue) =>
    (some requestId, { flow with queue := queue }, [.notifyOwner ⟨requestId, caller, operationDesc, riskLevel⟩])
  | (.error _, queue) => (none, { flow with queue := queue }, [])

def submitDenial (H : Host) (caller : Caller) (request : PermissionRequestBody) (riskLevel : RiskLevel)
    (sessionId : String) (isSubAgent : Bool) (draw : Draw) : Option RequestId × ApprovalFlow × List Output :=
  if flow.forceDeny then (none, flow, [])
  else if isSubAgent then (none, flow, [])
  else if isHeartbeatOperation request then
    match flow.handleHeartbeatDenial caller request riskLevel with
    | (false, outputs) => (none, flow, outputs)
    | (true, outputs) =>
      let (requestId, flow, later) := flow.enqueueDenial H caller request riskLevel sessionId draw
      (requestId, flow, outputs ++ later)
  else flow.enqueueDenial H caller request riskLevel sessionId draw

def submitUserCreation (userId channel : String) (initialPermissions : List InitialPermissionSet) (uuid : RequestId) :
    Option RequestId × ApprovalFlow × List Output :=
  if flow.userCreationRequests.entries.any fun r => r.2.userId == userId && r.2.imChannel == channel then (none, flow, [])
  else
    let request : UserCreationRequest := ⟨userId, channel, uuid, initialPermissions⟩
    (some uuid, { flow with userCreationRequests := flow.userCreationRequests.insert uuid request },
      [.notifyOwner ⟨uuid, ⟨userId, ""⟩, "新用户注册请求：" ++ userId ++ " 通过 " ++ channel ++ " 渠道", .low⟩])

def setUserCreationPermissions (requestId : RequestId) (initialPermissions : List InitialPermissionSet) :
    Bool × ApprovalFlow :=
  match flow.userCreationRequests.lookup requestId with
  | some request =>
    let request := { request with initialPermissions := initialPermissions }
    (true, { flow with userCreationRequests := flow.userCreationRequests.insert requestId request })
  | none => (false, flow)

def approveUserCreation (request : UserCreationRequest) (registry : UserRegistry) : Bool × List Output :=
  match registerUser registry request.userId request.imChannel request.initialPermissions with
  | some (ruleset, registry) =>
    (true, [.persistUserRegistry flow.configDir registry,
      .persistInitialPermissionRules flow.configDir request.userId ruleset, .whitelistUpdated request.userId])
  | none => (false, [])

def persistWhitelist (pendingInfo : Option PendingApproval) (finalMode : ApprovalMode) (result : Bool) (outside : Outside) :
    List Output :=
  match finalMode, result, pendingInfo with
  | .withWhitelist target, true, some p =>
    let name := "whitelist-" ++ toString outside.millis ++ "-" ++ p.ruleVersion
    match buildWhitelistRule p.caller p.request name target with
    | some rule =>
      .appendWhitelistRule flow.configDir p.caller.agent rule ::
        if outside.written then [.whitelistUpdated p.caller.agent] else []
    | none => []
  | _, _, _ => []

def approveRequest (H : Host) (requestId : RequestId) (mode : ApprovalMode) (outside : Outside) :
    Except RejectWhitelistReason Bool × ApprovalFlow × List Output :=
  match flow.userCreationRequests.lookup requestId with
  | some request =>
    let flow := { flow with userCreationRequests := flow.userCreationRequests.erase requestId }
    let (registered, outputs) := flow.approveUserCreation request outside.registry
    (.ok registered, flow, outputs)
  | none =>
    let pendingInfo := flow.queue.getPending requestId
    let finalMode := (reevaluateWithSnapshottedRules H pendingInfo).getD mode
    match flow.queue.approve requestId finalMode with
    | (.error reason, queue, calls) => (.error reason, { flow with queue := queue }, calls.map .call)
    | (.ok result, queue, calls) =>
      (.ok result, { flow with queue := queue },
        calls.map .call ++ flow.persistWhitelist pendingInfo finalMode result outside)

def denyRequest (requestId : RequestId) : Bool × ApprovalFlow × List Output :=
  if requestId ∈ flow.userCreationRequests then
    (true, { flow with userCreationRequests := flow.userCreationRequests.erase requestId }, [])
  else
    let pendingInfo := flow.queue.getPending requestId
    let (result, queue, calls) := flow.queue.deny requestId
    let messages := if result then pendingInfo.toList.map fun p =>
        Output.pushMessage p.sessionResume ("[审批 " ++ requestId ++ "] 操作已拒绝") else []
    (result, { flow with queue := queue }, calls.map .call ++ messages)

def clear (order : List RequestId) : ApprovalFlow × List Output :=
  let (queue, calls) := flow.queue.clear order
  ({ flow with queue := queue }, calls.map .call)

end ApprovalFlow

/-! ## What an operation does to the queue -/

def callsOf (outputs : List Output) : List Invocation :=
  outputs.filterMap fun
    | .call invocation => some invocation
    | _ => none

def Output.writesRule : Output → Bool
  | .appendWhitelistRule .. => true
  | _ => false

@[simp] theorem callsOf_nil : callsOf [] = [] := rfl

theorem callsOf_append (a b : List Output) : callsOf (a ++ b) = callsOf a ++ callsOf b := filterMap_append

@[simp] theorem callsOf_map_call (calls : List Invocation) : callsOf (calls.map .call) = calls := by
  simp [callsOf, filterMap_map]

namespace ApprovalFlow

variable {H : Host} {flow : ApprovalFlow}

theorem handleHeartbeatDenial_outputs (flow : ApprovalFlow) (caller : Caller) (request : PermissionRequestBody)
    (riskLevel : RiskLevel) :
    callsOf (flow.handleHeartbeatDenial caller request riskLevel).2 = [] ∧
      ∀ o ∈ (flow.handleHeartbeatDenial caller request riskLevel).2, o.writesRule = false := by
  unfold handleHeartbeatDenial
  split
  · simp [callsOf]
  · split <;> simp [callsOf, Output.writesRule]
  · simp [callsOf]

structure Submitted (flow : ApprovalFlow) (draw : Draw) (r : Option RequestId × ApprovalFlow × List Output) : Prop where
  queue : (r.1 = none ∧ r.2.1.queue = flow.queue) ∨
    (r.1 = some draw.uuid ∧ ∃ p : PendingApproval, flow.queue.isPending p.operationKey = false ∧
      r.2.1.queue = ⟨flow.queue.pending.insert draw.uuid p, flow.queue.callbacks.insert draw.uuid draw.box⟩)
  calls : callsOf r.2.2 = []
  writes : ∀ o ∈ r.2.2, o.writesRule = false

section

variable (flow : ApprovalFlow) (H : Host) (caller : Caller) (request : PermissionRequestBody) (riskLevel : RiskLevel)
  (sessionId : String) (draw : Draw)

theorem enqueueDenial_submitted :
    Submitted flow draw (flow.enqueueDenial H caller request riskLevel sessionId draw) := by
  unfold enqueueDenial
  simp only
  rcases ApprovalQueue.enqueue_cases H.toKeyHash flow.queue
    ⟨request, caller, formatOperationDesc request, riskLevel, sessionId, draw.box⟩ flow.currentRules draw.uuid with
    ⟨-, he⟩ | ⟨hp, p, hk, he⟩
  · rw [he]
    exact ⟨.inl ⟨rfl, rfl⟩, callsOf_nil, by simp⟩
  · rw [he]
    exact ⟨.inr ⟨rfl, p, hk ▸ hp, rfl⟩, by simp [callsOf], by simp [Output.writesRule]⟩

theorem submitDenial_submitted (isSubAgent : Bool) :
    Submitted flow draw (flow.submitDenial H caller request riskLevel sessionId isSubAgent draw) := by
  have hsilent : Submitted flow draw (none, flow, []) := ⟨.inl ⟨rfl, rfl⟩, callsOf_nil, by simp⟩
  have henqueue := enqueueDenial_submitted flow H caller request riskLevel sessionId draw
  obtain ⟨hcalls, hwrites⟩ := handleHeartbeatDenial_outputs flow caller request riskLevel
  unfold submitDenial
  split
  · exact hsilent
  split
  · exact hsilent
  split
  · split <;> rename_i hb <;> rw [hb] at hcalls hwrites
    · exact ⟨.inl ⟨rfl, rfl⟩, hcalls, hwrites⟩
    · refine ⟨henqueue.queue, by simp [callsOf_append, hcalls, henqueue.calls], fun o ho => ?_⟩
      rcases mem_append.mp ho with h | h
      · exact hwrites o h
      · exact henqueue.writes o h
  · exact henqueue

end

def Resolved (flow : ApprovalFlow) (requestId : RequestId) (after : ApprovalFlow) (outputs : List Output) : Prop :=
  (after.queue = flow.queue ∧ callsOf outputs = []) ∨
    (∃ mode, after.queue = (flow.queue.approve requestId mode).2.1 ∧
      callsOf outputs = (flow.queue.approve requestId mode).2.2) ∨
    (after.queue = (flow.queue.deny requestId).2.1 ∧ callsOf outputs = (flow.queue.deny requestId).2.2)

theorem callsOf_persistWhitelist (pendingInfo : Option PendingApproval) (finalMode : ApprovalMode) (result : Bool)
    (outside : Outside) : callsOf (flow.persistWhitelist pendingInfo finalMode result outside) = [] := by
  unfold persistWhitelist
  split
  · simp only
    split
    · split <;> rfl
    · rfl
  · rfl

theorem approveUserCreation_outputs (request : UserCreationRequest) (registry : UserRegistry) :
    callsOf (flow.approveUserCreation request registry).2 = [] ∧
      ∀ o ∈ (flow.approveUserCreation request registry).2, o.writesRule = false := by
  unfold approveUserCreation
  split <;> simp [callsOf, Output.writesRule]

theorem approveRequest_resolved (requestId : RequestId) (mode : ApprovalMode) (outside : Outside) :
    Resolved flow requestId (flow.approveRequest H requestId mode outside).2.1
      (flow.approveRequest H requestId mode outside).2.2 := by
  unfold approveRequest
  split
  · exact .inl ⟨rfl, (approveUserCreation_outputs _ _).1⟩
  · refine .inr (.inl ⟨(reevaluateWithSnapshottedRules H (flow.queue.getPending requestId)).getD mode, ?_⟩)
    simp only
    split <;> rename_i ha <;> rw [ha]
    · simp
    · simp [callsOf_append, callsOf_persistWhitelist]

theorem denyRequest_resolved (requestId : RequestId) :
    Resolved flow requestId (flow.denyRequest requestId).2.1 (flow.denyRequest requestId).2.2 := by
  unfold denyRequest
  split
  · exact .inl ⟨rfl, rfl⟩
  · refine .inr (.inr ⟨rfl, ?_⟩)
    simp only [callsOf_append, callsOf_map_call, append_right_eq_self]
    split
    · simp [callsOf, filterMap_map]
    · rfl

variable {requestId : RequestId} {mode : ApprovalMode} {outside : Outside}

theorem approveRequest_error {reason : RejectWhitelistReason}
    (h : (flow.approveRequest H requestId mode outside).1 = .error reason) :
    (flow.approveRequest H requestId mode outside).2.1.queue = flow.queue := by
  unfold approveRequest at h ⊢
  split at h
  · cases h
  · simp only at h ⊢
    split at h
    · rename_i hq
      have := ApprovalQueue.approve_error (by rw [hq])
      rw [hq] at this
      exact congrArg Prod.fst this
    · cases h

/-! ## Who gets a whitelist rule -/

def JustifiedWrite (flow : ApprovalFlow) (requestId : RequestId) (mode : ApprovalMode) (o : Output) : Prop :=
  ∃ target p name rule, mode = .withWhitelist target ∧ flow.queue.pending.lookup requestId = some p ∧
    p.request.isConfigWrite = false ∧ (p.riskLevel = .low ∨ p.riskLevel = .medium) ∧
    buildWhitelistRule p.caller p.request name target = some rule ∧
    o = .appendWhitelistRule flow.configDir p.caller.agent rule

variable {pendingInfo : Option PendingApproval} {o : Output}

theorem persistWhitelist_writes {finalMode : ApprovalMode} {result : Bool}
    (ho : o ∈ flow.persistWhitelist pendingInfo finalMode result outside) (hw : o.writesRule = true) :
    ∃ target p name rule, finalMode = .withWhitelist target ∧ pendingInfo = some p ∧
      buildWhitelistRule p.caller p.request name target = some rule ∧
      o = .appendWhitelistRule flow.configDir p.caller.agent rule := by
  unfold persistWhitelist at ho
  split at ho
  · rename_i target p
    simp only at ho
    split at ho
    · rename_i rule hrule
      rcases mem_cons.mp ho with rfl | ho
      · exact ⟨target, p, _, rule, rfl, rfl, hrule, rfl⟩
      · split at ho
        · rw [mem_singleton.mp ho] at hw; cases hw
        · cases ho
    · cases ho
  · cases ho

theorem finalMode_withWhitelist {target : WhitelistTarget}
    (h : (reevaluateWithSnapshottedRules H pendingInfo).getD mode = .withWhitelist target) :
    mode = .withWhitelist target := by
  cases hr : reevaluateWithSnapshottedRules H pendingInfo with
  | none => simpa [hr] using h
  | some =>
    obtain ⟨p, -, hp⟩ := Option.bind_eq_some_iff.mp hr
    simp only at hp
    split at hp
    · rw [hr, ← Option.some.inj hp] at h; cases h
    · cases hp

theorem approveRequest_writes (ho : o ∈ (flow.approveRequest H requestId mode outside).2.2)
    (hw : o.writesRule = true) :
    flow.JustifiedWrite requestId mode o := by
  have hcall : ∀ calls : List Invocation, o ∉ calls.map Output.call := by
    intro calls hm
    obtain ⟨_, -, rfl⟩ := mem_map.mp hm
    cases hw
  unfold approveRequest at ho
  split at ho
  · rw [(approveUserCreation_outputs _ _).2 o ho] at hw; cases hw
  · simp only at ho
    split at ho
    · exact absurd ho (hcall _)
    · rename_i resolved queue calls ha
      rcases mem_append.mp ho with hm | hm
      · exact absurd hm (hcall _)
      · obtain ⟨target, p, name, rule, hmode, hp, hrule, hout⟩ := persistWhitelist_writes hm hw
        rw [hmode] at ha
        obtain ⟨hc, hr⟩ := ApprovalQueue.approve_withWhitelist hp (congrArg Prod.fst ha)
        refine ⟨target, p, name, rule, finalMode_withWhitelist hmode, hp, hc, ?_, hrule, hout⟩
        cases hrisk : p.riskLevel <;> simp_all [RiskLevel.isHighOrCritical]

theorem denyRequest_writes (ho : o ∈ (flow.denyRequest requestId).2.2) : o.writesRule = false := by
  unfold denyRequest at ho
  split at ho
  · cases ho
  · rcases mem_append.mp ho with hm | hm
    · obtain ⟨_, -, rfl⟩ := mem_map.mp hm
      rfl
    · split at hm
      · obtain ⟨_, -, rfl⟩ := mem_map.mp hm
        rfl
      · cases hm

end ApprovalFlow

end CloseClaw.Permission
