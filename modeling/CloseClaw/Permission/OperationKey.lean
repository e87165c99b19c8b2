/- Which operations the approval queue takes for one (`approval.rs`). SHA-256 is a parameter,
   taken to be injective. -/

import CloseClaw.Lib.TaggedJson
import CloseClaw.Permission.ApprovalRuns

namespace CloseClaw.Permission

open Lib ApprovalFlow ApprovalQueue ApprovalRuns
open Lib.RustPath (PathBuf)

def MessageDirection.lowercase : MessageDirection → String
  | .send => "send"
  | .receive => "receive"
  | .both => "both"

def bodyObject : PermissionRequestBody → TaggedJson.Object
  | .fileOp agent path op => ⟨"file_op", [("agent", .text agent), ("path", .text path), ("op", .text op)]⟩
  | .commandExec agent cmd args => ⟨"command_exec", [("agent", .text agent), ("cmd", .text cmd), ("args", .list args)]⟩
  | .netOp agent host port => ⟨"net_op", [("agent", .text agent), ("host", .text host), ("port", .number port.toNat)]⟩
  | .toolCall agent skill method =>
    ⟨"tool_call", [("agent", .text agent), ("skill", .text skill), ("method", .text method)]⟩
  | .interAgentMsg src dst => ⟨"inter_agent_msg", [("from", .text src), ("to", .text dst)]⟩
  | .configWrite agent configFile => ⟨"config_write", [("agent", .text agent), ("config_file", .text configFile)]⟩
  | .slashCommand agent command => ⟨"slash_command", [("agent", .text agent), ("command", .text command)]⟩
  | .messageSend agent direction target =>
    ⟨"message_send", [("agent", .text agent), ("direction", .text direction.lowercase), ("target", .text target)]⟩

def bodyJson (body : PermissionRequestBody) : String := String.ofList (bodyObject body).render

theorem lowercase_inj {d d' : MessageDirection} : d.lowercase = d'.lowercase ↔ d = d' := by
  cases d <;> cases d' <;> decide

theorem bodyObject_injective : Function.Injective bodyObject := by
  intro b b' h
  cases b <;> cases b' <;> simp_all [bodyObject, UInt16.toNat_inj, lowercase_inj]

/-! ## The text that is hashed -/

/-- One text of a user and an agent, cut at another colon. -/
def Ambiguous (c c' : Caller) : Prop := ∃ x, c'.userId = c.userId ++ ":" ++ x ∧ c.agent = x ++ ":" ++ c'.agent

def keyText (caller : Caller) (body : PermissionRequestBody) : String :=
  caller.userId ++ ":" ++ caller.agent ++ ":" ++ bodyJson body

variable {c c' : Caller} {b b' : PermissionRequestBody}

theorem Ambiguous.keyText_eq (h : Ambiguous c c') (body : PermissionRequestBody) :
    keyText c body = keyText c' body := by
  obtain ⟨x, hu, ha⟩ := h
  simp only [keyText, hu, ha, String.append_assoc]

theorem not_ambiguous_of_length (h : c.userId.length = c'.userId.length) : ¬Ambiguous c c' := by
  intro hamb
  obtain ⟨x, hu, -⟩ := hamb
  have hlen := congrArg String.length hu
  simp only [String.length_append] at hlen
  have hcolon : (":" : String).length = 1 := by decide
  omega

theorem Ambiguous.ne (h : Ambiguous c c') : c ≠ c' := fun heq =>
  not_ambiguous_of_length (by rw [heq]) h

theorem callers_of_keyText_eq (h : keyText c b = keyText c' b') :
    b = b' ∧ c.userId ++ ":" ++ c.agent = c'.userId ++ ":" ++ c'.agent := by
  have hchars := congrArg String.toList h
  simp only [keyText, String.toList_append, bodyJson, String.toList_ofList] at hchars
  have hboth : ∀ {front front' : List Char} {o o' : TaggedJson.Object}, front ++ o.render = front' ++ o'.render →
      front = front' ∧ o = o' := by
    intro front front' o o' heq
    rcases List.append_eq_append_iff.mp heq with ⟨s, hfront, hs⟩ | ⟨s, hfront, hs⟩ <;>
      obtain rfl := TaggedJson.render_suffix_free hs
    · exact ⟨by simpa using hfront.symm, TaggedJson.render_injective hs⟩
    · exact ⟨by simpa using hfront, (TaggedJson.render_injective hs).symm⟩
  obtain ⟨hfront, hobject⟩ := hboth hchars
  refine ⟨bodyObject_injective hobject, ?_⟩
  rw [← String.toList_inj]
  simp only [String.toList_append]
  exact List.append_cancel_right hfront

theorem eq_or_ambiguous (h : c.userId ++ ":" ++ c.agent = c'.userId ++ ":" ++ c'.agent) :
    c = c' ∨ Ambiguous c c' ∨ Ambiguous c' c := by
  have hcut : ∀ {u u' a a' : List Char}, u ++ ':' :: a = u' ++ ':' :: a' →
      (u = u' ∧ a = a') ∨ (∃ x, u' = u ++ ':' :: x ∧ a = x ++ ':' :: a') ∨ ∃ x, u = u' ++ ':' :: x ∧ a' = x ++ ':' :: a := by
    intro u u' a a' heq
    rcases List.append_eq_append_iff.mp heq with ⟨s, hu, hs⟩ | ⟨s, hu, hs⟩
    · cases s with
      | nil => exact .inl ⟨by simpa using hu.symm, (List.cons.inj hs).2⟩
      | cons d x =>
        obtain ⟨rfl, ha⟩ := List.cons.inj hs
        exact .inr (.inl ⟨x, hu, ha⟩)
    · cases s with
      | nil => exact .inl ⟨by simpa using hu, (List.cons.inj hs).2.symm⟩
      | cons d x =>
        obtain ⟨rfl, ha⟩ := List.cons.inj hs
        exact .inr (.inr ⟨x, hu, ha⟩)
  have htext : ∀ {s t u : List Char} {x y : String}, s = t ++ ':' :: u → x.toList = s → y.toList = t →
      x = y ++ ":" ++ String.ofList u := by
    intro s t u x y hs hx hy
    rw [← String.toList_inj, hx, hs]
    simp [hy]
  have hchars := congrArg String.toList h
  simp only [String.toList_append] at hchars
  rcases hcut (by simpa using hchars) with ⟨hu, ha⟩ | ⟨x, hu, ha⟩ | ⟨x, hu, ha⟩
  · left
    cases c
    cases c'
    simp_all [String.toList_inj]
  · exact .inr (.inl ⟨String.ofList x, htext hu rfl rfl, by rw [← String.toList_inj]; simp [ha]⟩)
  · exact .inr (.inr ⟨String.ofList x, htext hu rfl rfl, by rw [← String.toList_inj]; simp [ha]⟩)

theorem keyText_eq_iff : keyText c b = keyText c' b' ↔ b = b' ∧ (c = c' ∨ Ambiguous c c' ∨ Ambiguous c' c) := by
  constructor
  · intro h
    obtain ⟨hb, hc⟩ := callers_of_keyText_eq h
    exact ⟨hb, eq_or_ambiguous hc⟩
  · intro h
    obtain ⟨rfl, rfl | h | h⟩ := h
    · rfl
    · exact h.keyText_eq b
    · exact (h.keyText_eq b).symm

/-! ## Every pending request carries its key -/

def Keyed (H : KeyHash) (q : ApprovalQueue) : Prop :=
  ∀ id p, q.pending.lookup id = some p → p.operationKey = computeOperationKey H p.caller p.request

section Keyed
variable {H : KeyHash} {q : ApprovalQueue}

theorem Keyed.enqueue (h : Keyed H q) (req : EnqueueRequest) (rules : RuleSet) (uuid : RequestId) :
    Keyed H (q.enqueue H req rules uuid).2 := by
  intro id p hp
  unfold ApprovalQueue.enqueue at hp
  simp only at hp
  split at hp
  · exact h id p hp
  · by_cases hid : id = uuid
    · rw [hid, AList.lookup_insert, Option.some.injEq] at hp
      subst hp
      rfl
    · rw [AList.lookup_insert_ne hid] at hp
      exact h id p hp

theorem Keyed.doResolve (h : Keyed H q) (requestId : RequestId) (result : ApproveOrDeny) :
    Keyed H (q.doResolve requestId result).2.1 := by
  unfold ApprovalQueue.doResolve
  split
  · exact fun id p hp => h id p (lookup_of_erase hp)
  · exact h

theorem Keyed.approve (h : Keyed H q) (requestId : RequestId) (mode : ApprovalMode) :
    Keyed H (q.approve requestId mode).2.1 := by
  unfold ApprovalQueue.approve
  split
  · exact h
  · exact h.doResolve requestId .approve

theorem Keyed.clear (h : Keyed H q) (order : List RequestId) : Keyed H (q.clear order).1 := by
  induction order generalizing q with
  | nil => exact h
  | cons id rest ih => exact ih (h.doResolve id .deny)

end Keyed

theorem enqueueDenial_queue (H : Host) (flow : ApprovalFlow) (caller : Caller) (request : PermissionRequestBody)
    (riskLevel : RiskLevel) (sessionId : String) (draw : Draw) :
    (flow.enqueueDenial H caller request riskLevel sessionId draw).2.1.queue = (flow.queue.enqueue H.toKeyHash
      ⟨request, caller, formatOperationDesc request, riskLevel, sessionId, draw.box⟩ flow.currentRules draw.uuid).2 := by
  unfold enqueueDenial
  simp only
  split <;> rename_i he <;> rw [he]

variable {flow : ApprovalFlow}

theorem Keyed.submitDenial {H : Host} (h : Keyed H.toKeyHash flow.queue) (caller : Caller)
    (request : PermissionRequestBody) (riskLevel : RiskLevel) (sessionId : String) (isSubAgent : Bool) (draw : Draw) :
    Keyed H.toKeyHash (flow.submitDenial H caller request riskLevel sessionId isSubAgent draw).2.1.queue := by
  have henqueue : Keyed H.toKeyHash (flow.enqueueDenial H caller request riskLevel sessionId draw).2.1.queue := by
    rw [enqueueDenial_queue]
    exact h.enqueue _ _ _
  unfold ApprovalFlow.submitDenial
  split
  · exact h
  split
  · exact h
  split
  · split
    · exact h
    · exact henqueue
  · exact henqueue

theorem Keyed.resolved {H : KeyHash} {after : ApprovalFlow} {requestId : RequestId}
    {outputs : List Output} (h : Keyed H flow.queue) (hr : flow.Resolved requestId after outputs) : Keyed H after.queue := by
  rcases hr with ⟨hq, -⟩ | ⟨mode, hq, -⟩ | ⟨hq, -⟩
  · rwa [hq]
  · rw [hq]
    exact h.approve requestId mode
  · rw [hq]
    exact h.doResolve requestId .deny

theorem Keyed.apply {H : Host} (h : Keyed H.toKeyHash flow.queue) (ev : Ev) :
    Keyed H.toKeyHash (ApprovalRuns.apply H flow ev).1.queue := by
  cases ev with
  | submitDenial caller request riskLevel sessionId isSubAgent draw =>
    exact h.submitDenial caller request riskLevel sessionId isSubAgent draw
  | approveRequest requestId mode outside =>
    exact h.resolved (approveRequest_resolved requestId mode outside)
  | denyRequest requestId => exact h.resolved (denyRequest_resolved requestId)
  | clear order => exact h.clear order
  | submitUserCreation =>
    simp only [ApprovalRuns.apply, submitUserCreation]
    split <;> exact h
  | setUserCreationPermissions =>
    simp only [ApprovalRuns.apply, setUserCreationPermissions]
    split <;> exact h
  | updateRules | setHeartbeatMode => exact h

theorem reach_keyed {H : Host} {s : Sys} (h : Reach H s) : Keyed H.toKeyHash s.flow.queue := by
  induction h with
  | init =>
    intro id p hp
    cases hp
  | step ev _ _ ih => exact ih.apply ev

/-! ## Duplicates -/

def ReachesQueue (flow : ApprovalFlow) (request : PermissionRequestBody) (isSubAgent : Bool) : Prop :=
  flow.forceDeny = false ∧ isSubAgent = false ∧ (isHeartbeatOperation request = true → flow.heartbeatMode = .ask)

variable {request : PermissionRequestBody}

theorem submitDenial_none_iff {H : Host} {isSubAgent : Bool}
    (h : ReachesQueue flow request isSubAgent) (caller : Caller) (riskLevel : RiskLevel)
    (sessionId : String) (draw : Draw) :
    (flow.submitDenial H caller request riskLevel sessionId isSubAgent draw).1 = none ↔
      flow.queue.isPending (computeOperationKey H.toKeyHash caller request) = true := by
  have henqueue : (flow.enqueueDenial H caller request riskLevel sessionId draw).1 = none ↔
      flow.queue.isPending (computeOperationKey H.toKeyHash caller request) = true := by
    unfold enqueueDenial
    simp only
    rcases enqueue_cases H.toKeyHash flow.queue
      ⟨request, caller, formatOperationDesc request, riskLevel, sessionId, draw.box⟩ flow.currentRules draw.uuid with
      ⟨hp, he⟩ | ⟨hp, p, -, he⟩
    · rw [he]
      simp [hp]
    · rw [he]
      simp [hp]
  obtain ⟨hforce, hsub, hheart⟩ := h
  unfold ApprovalFlow.submitDenial
  rw [if_neg (by simp [hforce]), if_neg (by simp [hsub])]
  split
  · rename_i hbeat
    have hask : flow.handleHeartbeatDenial caller request riskLevel = (true, []) := by
      simp [handleHeartbeatDenial, hheart hbeat]
    rw [hask]
    exact henqueue
  · exact henqueue

def PendingFor (q : ApprovalQueue) (caller : Caller) (request : PermissionRequestBody) : Prop :=
  ∃ id p, q.pending.lookup id = some p ∧ p.caller = caller ∧ p.request = request

def PendingForAmbiguous (q : ApprovalQueue) (caller : Caller) (request : PermissionRequestBody) : Prop :=
  ∃ id p, q.pending.lookup id = some p ∧ p.request = request ∧ (Ambiguous p.caller caller ∨ Ambiguous caller p.caller)

def hashHost (sha256 : String → String) (tempDir : PathBuf) : Host := ⟨⟨bodyJson, sha256⟩, tempDir⟩

variable {sha256 : String → String}

theorem operationKey_eq_iff (hsha : Function.Injective sha256) {c c' : Caller} {b b' : PermissionRequestBody} :
    computeOperationKey ⟨bodyJson, sha256⟩ c b = computeOperationKey ⟨bodyJson, sha256⟩ c' b' ↔
      b = b' ∧ (c = c' ∨ Ambiguous c c' ∨ Ambiguous c' c) := by
  rw [← keyText_eq_iff]
  exact hsha.eq_iff

theorem isPending_iff (hsha : Function.Injective sha256) {q : ApprovalQueue}
    (h : Keyed ⟨bodyJson, sha256⟩ q) {caller : Caller} :
    q.isPending (computeOperationKey ⟨bodyJson, sha256⟩ caller request) = true ↔
      PendingFor q caller request ∨ PendingForAmbiguous q caller request := by
  constructor
  · intro hp
    obtain ⟨⟨id, p⟩, hmem, hkey⟩ := List.any_eq_true.mp hp
    have hlook := AList.mem_lookup_iff.mpr hmem
    rw [beq_iff_eq, h id p hlook, operationKey_eq_iff hsha] at hkey
    obtain ⟨hb, rfl | hamb⟩ := hkey
    · exact .inl ⟨id, p, hlook, rfl, hb⟩
    · exact .inr ⟨id, p, hlook, hb, hamb⟩
  · intro hp
    obtain ⟨id, p, hlook, hkey⟩ : ∃ id p, q.pending.lookup id = some p ∧
        p.operationKey = computeOperationKey ⟨bodyJson, sha256⟩ caller request := by
      rcases hp with ⟨id, p, hlook, hc, hb⟩ | ⟨id, p, hlook, hb, hamb⟩
      · exact ⟨id, p, hlook, by rw [h id p hlook, hc, hb]⟩
      · exact ⟨id, p, hlook, by rw [h id p hlook, operationKey_eq_iff hsha]; exact ⟨hb, .inr hamb⟩⟩
    rw [← hkey]
    exact isPending_of_lookup hlook

theorem not_pendingFor_of_ambiguous (hsha : Function.Injective sha256) {q : ApprovalQueue}
    {enqueued : List Callback} {calls : List Invocation} (hinv : q.Inv enqueued calls)
    (h : Keyed ⟨bodyJson, sha256⟩ q) {caller : Caller} (hamb : PendingForAmbiguous q caller request) :
    ¬PendingFor q caller request := by
  intro hown
  obtain ⟨id, p, hlook, hb, hamb⟩ := hamb
  obtain ⟨id', p', hlook', hc', hb'⟩ := hown
  have hkey : p.operationKey = p'.operationKey := by
    rw [h id p hlook, h id' p' hlook', operationKey_eq_iff hsha, hc', hb', hb]
    exact ⟨rfl, .inr hamb⟩
  obtain rfl := hinv.distinct id id' p p' hlook hlook' hkey
  obtain rfl : p = p' := Option.some.inj (hlook.symm.trans hlook')
  rcases hamb with hamb | hamb
  · exact hamb.ne hc'
  · exact hamb.ne hc'.symm

/-- Two keys tell two operations apart unless the body is the same and the callers are ambiguous. -/
theorem operation_key_exact_iff (sha256 : String → String) (hsha : Function.Injective sha256) (tempDir : PathBuf) :
    (∀ (c c' : Caller) (b b' : PermissionRequestBody),
      ((computeOperationKey ⟨bodyJson, sha256⟩ c b = computeOperationKey ⟨bodyJson, sha256⟩ c' b' ↔ c = c' ∧ b = b') ↔
        ¬(b = b' ∧ (Ambiguous c c' ∨ Ambiguous c' c)))) ∧
    ∀ s, Reach (hashHost sha256 tempDir) s → ∀ (caller : Caller) (request : PermissionRequestBody)
      (riskLevel : RiskLevel) (sessionId : String) (isSubAgent : Bool) (draw : Draw),
      ReachesQueue s.flow request isSubAgent →
      (((s.flow.submitDenial (hashHost sha256 tempDir) caller request riskLevel sessionId isSubAgent draw).1 = none →
          PendingFor s.flow.queue caller request) ↔ ¬PendingForAmbiguous s.flow.queue caller request) := by
  constructor
  · intro c c' b b'
    rw [operationKey_eq_iff hsha]
    constructor
    · intro h hboth
      obtain ⟨rfl, hamb⟩ := hboth
      obtain ⟨rfl, -⟩ := h.mp ⟨rfl, .inr hamb⟩
      rcases hamb with hamb | hamb <;> exact hamb.ne rfl
    · intro h
      constructor
      · intro heq
        obtain ⟨rfl, rfl | hamb⟩ := heq
        · exact ⟨rfl, rfl⟩
        · exact absurd ⟨rfl, hamb⟩ h
      · intro heq
        exact ⟨heq.2, .inl heq.1⟩
  · intro s hs caller request riskLevel sessionId isSubAgent draw hreach
    have hkeyed : Keyed ⟨bodyJson, sha256⟩ s.flow.queue := reach_keyed hs
    have hinv := (reach_inv hs).queue
    rw [submitDenial_none_iff hreach]
    show (s.flow.queue.isPending (computeOperationKey ⟨bodyJson, sha256⟩ caller request) = true → _) ↔ _
    rw [isPending_iff hsha hkeyed]
    constructor
    · intro h hamb
      exact not_pendingFor_of_ambiguous hsha hinv hkeyed hamb (h (.inr hamb))
    · intro h hp
      exact hp.resolve_right h

theorem operation_key_exact_iff_users : (computeOperationKey ⟨bodyJson, id⟩ ⟨"u", "a"⟩ (.commandExec "a" "ls" []) =
        computeOperationKey ⟨bodyJson, id⟩ ⟨"v", "a"⟩ (.commandExec "a" "ls" []) ↔
      (⟨"u", "a"⟩ : Caller) = ⟨"v", "a"⟩ ∧
        PermissionRequestBody.commandExec "a" "ls" [] = PermissionRequestBody.commandExec "a" "ls" []) ∧
    (((init false .ask (.ofStr "/c") .default).flow.submitDenial (hashHost id (.ofStr "/tmp")) ⟨"u", "a"⟩
          (.commandExec "a" "ls" []) .low "s" false ⟨"r1", ⟨0⟩⟩).1 = none →
      PendingFor (init false .ask (.ofStr "/c") .default).flow.queue ⟨"u", "a"⟩ (.commandExec "a" "ls" [])) := by
  obtain ⟨hkeys, hruns⟩ := operation_key_exact_iff id Function.injective_id (.ofStr "/tmp")
  refine ⟨(hkeys _ _ _ _).mpr fun h => ?_, ?_⟩
  · exact h.2.elim (not_ambiguous_of_length rfl) (not_ambiguous_of_length rfl)
  · refine (hruns _ (.init false .ask (.ofStr "/c") .default) _ _ _ _ _ _ ⟨rfl, rfl, fun _ => rfl⟩).mpr fun h => ?_
    obtain ⟨_, _, hlook, _⟩ := h
    cases hlook

theorem a_colon_merges_two_callers : ¬∃ sha256 : String → String, ∀ (c c' : Caller) (b b' : PermissionRequestBody),
      computeOperationKey ⟨bodyJson, sha256⟩ c b = computeOperationKey ⟨bodyJson, sha256⟩ c' b' ↔ c = c' ∧ b = b' := by
  intro h
  obtain ⟨sha256, h⟩ := h
  have hamb : Ambiguous ⟨"a", "b:c"⟩ ⟨"a:b", "c"⟩ := ⟨"b", by decide, by decide⟩
  have hkey := congrArg sha256 (hamb.keyText_eq (.commandExec "x" "ls" []))
  obtain ⟨hc, -⟩ := (h ⟨"a", "b:c"⟩ ⟨"a:b", "c"⟩ (.commandExec "x" "ls" []) (.commandExec "x" "ls" [])).mp hkey
  exact hamb.ne hc

end CloseClaw.Permission
