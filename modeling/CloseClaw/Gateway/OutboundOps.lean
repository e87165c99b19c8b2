/- The outbound records of one checkpoint (`outbound_helpers.rs`), loaded, changed and saved
   without a lock. -/

import CloseClaw.Session.PendingOperation
import CloseClaw.Session.Transcript

namespace CloseClaw.Gateway.OutboundOps

open Lib Session Trace

structure OutboundMessage extends PendingMessage where
  targetChannel : String
  platform : Option String
  dslResult : Option String
  contentBlocks : Option String
  deriving DecidableEq

structure SessionCheckpoint where
  pendingOperations : List PendingOperation
  outboundPending : List OutboundMessage
  pendingMessages : List SessionMessage
  userAppends : List String
  lastMessageAt : Option Int

namespace SessionCheckpoint

def new : SessionCheckpoint := ⟨[], [], [], [], none⟩

def addOutboundPending (cp : SessionCheckpoint) (m : OutboundMessage) : SessionCheckpoint :=
  { cp with outboundPending := cp.outboundPending ++ [m] }

def recordOutboundPendingOp (cp : SessionCheckpoint) (op : PendingOperation) : SessionCheckpoint :=
  { cp with pendingOperations := cp.pendingOperations ++ [op] }

def clearOutboundPendingOp (cp : SessionCheckpoint) (messageId : String) : SessionCheckpoint :=
  { cp with pendingOperations :=
      cp.pendingOperations.filter fun op => !(op.opType == .outboundMessage && op.opId == messageId) }

def outboundOps (cp : SessionCheckpoint) : List PendingOperation :=
  cp.pendingOperations.filter fun op => op.opType == .outboundMessage

variable (messageIds : List String) (cp : SessionCheckpoint)

theorem outboundOps_recordOutboundPendingOp {op : PendingOperation} (h : op.opType = .outboundMessage) :
    (cp.recordOutboundPendingOp op).outboundOps = cp.outboundOps ++ [op] := by
  simp [outboundOps, recordOutboundPendingOp, h]

theorem outboundOps_clearOutboundPendingOp (messageId : String) :
    (cp.clearOutboundPendingOp messageId).outboundOps = cp.outboundOps.filter fun op => op.opId != messageId := by
  simp only [outboundOps, clearOutboundPendingOp, List.filter_filter]
  refine List.filter_congr fun op _ => ?_
  cases op.opType == .outboundMessage <;> simp [bne]

theorem outboundOps_foldl_clear :
    (messageIds.foldl clearOutboundPendingOp cp).outboundOps =
      cp.outboundOps.filter fun op => decide (op.opId ∉ messageIds) := by
  induction messageIds generalizing cp with
  | nil => simp
  | cons id rest ih =>
    rw [List.foldl_cons, ih, outboundOps_clearOutboundPendingOp, List.filter_filter]
    refine List.filter_congr fun op _ => ?_
    simp [bne, Bool.and_comm, beq_eq_decide]

theorem outboundPending_foldl_clear :
    (messageIds.foldl clearOutboundPendingOp cp).outboundPending = cp.outboundPending := by
  induction messageIds generalizing cp with
  | nil => rfl
  | cons id rest ih => exact ih _

end SessionCheckpoint

/-! ## The tasks -/

def messageId (millis : Nat) : String := "out-" ++ toString millis

variable {n : Nat}

theorem messageId_injective {m : Nat} (h : messageId m = messageId n) : m = n := by
  have hdigits : toString m = toString n := (String.append_right_inj "out-").mp h
  -- the digits read back as the number
  have hread := congrArg (fun t : String => Nat.ofDigitChars 10 t.toList 0) hdigits
  simpa [Nat.toString_eq_ofList_toDigits] using hread

inductive SendPc where
  | sending
  | recording (copy : SessionCheckpoint)
  | recorded
  | clearing (copy : SessionCheckpoint)
  | delivered
  | persisting (copy : SessionCheckpoint)
  | done

namespace SendPc

def copy : SendPc → Option SessionCheckpoint
  | .recording cp | .clearing cp | .persisting cp => some cp
  | _ => none

def load (cp : SessionCheckpoint) : SendPc → SendPc
  | .sending => .recording cp
  | .recorded => .clearing cp
  | .delivered => .persisting cp
  | pc => pc

end SendPc

structure Send where
  millis : Nat
  pc : SendPc

def Send.id (snd : Send) : String := messageId snd.millis

inductive DrainPc where
  | loaded
  | delivering
  | finished
  deriving DecidableEq

structure Drain where
  loaded : SessionCheckpoint
  fallbackChannel : Option String
  outboundOps : List (String × String)
  delivered : List String
  pc : DrainPc

open SessionCheckpoint

namespace Drain

def messageAndChannel (op : PendingOperation) : String × String :=
  match op.detail with
  | .outboundMessage targetChannel messageId _ => (messageId, targetChannel)
  | _ => (op.opId, "")

def start (cp : SessionCheckpoint) (fallbackChannel : Option String) : Drain :=
  ⟨cp, fallbackChannel, cp.outboundOps.map messageAndChannel, [], .loaded⟩

def canDeliver (d : Drain) (op : String × String) : Bool :=
  (!op.2.isEmpty || d.fallbackChannel.isSome) && d.loaded.outboundPending.any fun m => m.messageId == op.1

def deliver (d : Drain) (sent : Bool) : Drain :=
  match d.pc, d.outboundOps with
  | .delivering, op :: ops =>
    { d with
      outboundOps := ops
      delivered := if d.canDeliver op && sent then d.delivered ++ [op.1] else d.delivered }
  | _, _ => d

def copy (d : Drain) : SessionCheckpoint := d.delivered.foldl clearOutboundPendingOp d.loaded

end Drain

structure SessionState where
  pendingUserMessages : List OutboundMessage
  messages : List SessionMessage
  userSystemAppends : List String

structure Contents where
  content : String
  channel : String
  platform : Option String
  dslResult : Option String
  contentBlocks : Option String
  markSent : Bool

def Contents.message (c : Contents) (id : String) : OutboundMessage where
  messageId := id
  content := c.content
  sent := c.markSent
  role := some "assistant"
  targetChannel := c.channel
  platform := c.platform
  dslResult := c.dslResult
  contentBlocks := c.contentBlocks

def outboundOperation (id channel : String) (now : Int) : PendingOperation :=
  ⟨id, .outboundMessage, .outboundMessage channel id "pending", now⟩

/-! ## Runs -/

structure Outbox where
  checkpoint : Option SessionCheckpoint
  sends : List Send
  drains : List Drain
  compactions : List (Option SessionCheckpoint)
  ledger : List (Nat × PendingOperation)
  persisted : List OutboundMessage

inductive Event where
  | send (millis : Nat)
  | stream (millis : Nat)
  | load (n : Nat)
  | recordOutboundPendingOp (n : Nat) (channel : String) (now : Int)
  | clearOutboundPendingOp (n : Nat)
  | persistOutboundCheckpoint (n : Nat) (contents : Contents) (userAppends : Option (List String)) (now : Int)
  | drainOutboundPending (fallbackChannel : Option String)
  | deliver (i : Nat) (sent : Bool)
  | saveDrain (i : Nat)
  | loadAfterCompact
  | saveCheckpointAfterCompact (i : Nat) (session : Option SessionState)

namespace Outbox

def loaded (s : Outbox) : SessionCheckpoint := s.checkpoint.getD .new

def setSend (s : Outbox) (n : Nat) (snd : Send) (pc : SendPc) : Outbox :=
  { s with sends := s.sends.set n { snd with pc := pc } }

def record (s : Outbox) (n : Nat) (channel : String) (now : Int) (snd : Send) : Outbox :=
  match snd.pc with
  | .recording cp =>
    let op := outboundOperation snd.id channel now
    { s.setSend n snd .recorded with
      checkpoint := some (cp.recordOutboundPendingOp op), ledger := s.ledger ++ [(n, op)] }
  | _ => s

def clear (s : Outbox) (n : Nat) (snd : Send) : Outbox :=
  match snd.pc with
  | .clearing cp =>
    { s.setSend n snd .delivered with
      checkpoint := some (cp.clearOutboundPendingOp snd.id), ledger := s.ledger.filter fun e => e.1 != n }
  | _ => s

def persist (s : Outbox) (n : Nat) (contents : Contents) (userAppends : Option (List String)) (now : Int)
    (snd : Send) : Outbox :=
  match snd.pc with
  | .persisting cp =>
    let m := contents.message snd.id
    { s.setSend n snd .done with
      checkpoint := some { cp.addOutboundPending m with
        userAppends := userAppends.getD cp.userAppends, lastMessageAt := some now }
      persisted := s.persisted ++ [m] }
  | _ => s

def drain (s : Outbox) (fallbackChannel : Option String) : Outbox :=
  match s.checkpoint with
  | some cp =>
    if cp.outboundOps = [] then s else { s with drains := s.drains ++ [Drain.start cp fallbackChannel] }
  | none => s

def saveDrain (s : Outbox) (i : Nat) (d : Drain) : Outbox :=
  match d.pc, d.outboundOps with
  | .loaded, _ => { s with checkpoint := some d.loaded, drains := s.drains.set i { d with pc := .delivering } }
  | .delivering, [] =>
    { s with
      checkpoint := some d.copy
      drains := s.drains.set i { d with pc := .finished }
      ledger := s.ledger.filter fun e => decide (e.2.opId ∉ d.delivered) }
  | _, _ => s

def saveAfterCompact (s : Outbox) (i : Nat) (session : Option SessionState) (cp : SessionCheckpoint) : Outbox :=
  { s with
    checkpoint := some (session.elim cp fun cs =>
      { cp with
        outboundPending := cs.pendingUserMessages
        pendingMessages := cs.messages
        userAppends := cs.userSystemAppends })
    compactions := s.compactions.set i none }

def step (s : Outbox) : Event → Outbox
  | .send millis => { s with sends := s.sends ++ [⟨millis, .sending⟩] }
  | .stream millis => { s with sends := s.sends ++ [⟨millis, .delivered⟩] }
  | .load n => s.sends[n]?.elim s fun snd => s.setSend n snd (snd.pc.load s.loaded)
  | .recordOutboundPendingOp n channel now => s.sends[n]?.elim s (s.record n channel now)
  | .clearOutboundPendingOp n => s.sends[n]?.elim s (s.clear n)
  | .persistOutboundCheckpoint n contents appends now => s.sends[n]?.elim s (s.persist n contents appends now)
  | .drainOutboundPending fallback => s.drain fallback
  | .deliver i sent => s.drains[i]?.elim s fun d => { s with drains := s.drains.set i (d.deliver sent) }
  | .saveDrain i => s.drains[i]?.elim s (s.saveDrain i)
  | .loadAfterCompact =>
    s.checkpoint.elim s fun cp => { s with compactions := s.compactions ++ [some cp] }
  | .saveCheckpointAfterCompact i session => s.compactions[i]?.join.elim s (s.saveAfterCompact i session)

end Outbox

def restart (cp : Option SessionCheckpoint) (earlier : List Nat) : Outbox where
  checkpoint := cp
  sends := earlier.map fun millis => ⟨millis, .done⟩
  drains := []
  compactions := []
  ledger := (cp.getD .new).outboundOps.zipIdx.map Prod.swap
  persisted := (cp.getD .new).outboundPending

structure Intact (s : Outbox) : Prop where
  operations : s.loaded.outboundOps = s.ledger.map Prod.snd
  messages : ∀ m ∈ s.persisted, m ∈ s.loaded.outboundPending
  ids : (s.sends.map Send.id).Nodup

def Current (s : Outbox) (copy : SessionCheckpoint) : Prop :=
  copy.outboundOps = s.loaded.outboundOps ∧ copy.outboundPending = s.loaded.outboundPending

instance Current.decidable (s : Outbox) (copy : SessionCheckpoint) : Decidable (Current s copy) :=
  inferInstanceAs (Decidable (_ ∧ _))

def Careful (s : Outbox) : Event → Prop
  | .send millis | .stream millis => millis ∉ s.sends.map Send.millis
  | .recordOutboundPendingOp n _ _ | .clearOutboundPendingOp n | .persistOutboundCheckpoint n _ _ _ =>
    ∀ snd ∈ s.sends[n]?, ∀ copy ∈ snd.pc.copy, Current s copy
  | .saveDrain i => ∀ d ∈ s.drains[i]?, d.pc ≠ .finished → Current s d.loaded
  | .saveCheckpointAfterCompact i session =>
    ∀ copy ∈ s.compactions[i]?.join, Current s copy ∧
      ∀ cs ∈ session, ∀ m ∈ s.persisted, m ∈ cs.pendingUserMessages
  | .load _ | .drainOutboundPending _ | .deliver _ _ | .loadAfterCompact => True

instance Careful.decidable (s : Outbox) : ∀ e, Decidable (Careful s e)
  | .send _ | .stream _ => inferInstanceAs (Decidable (_ ∉ _))
  | .recordOutboundPendingOp n _ _ | .clearOutboundPendingOp n | .persistOutboundCheckpoint n _ _ _ =>
    inferInstanceAs (Decidable (∀ snd ∈ s.sends[n]?, ∀ copy ∈ snd.pc.copy, Current s copy))
  | .saveDrain i => inferInstanceAs (Decidable (∀ d ∈ s.drains[i]?, d.pc ≠ .finished → Current s d.loaded))
  | .saveCheckpointAfterCompact i session =>
    inferInstanceAs (Decidable (∀ copy ∈ s.compactions[i]?.join, Current s copy ∧
      ∀ cs ∈ session, ∀ m ∈ s.persisted, m ∈ cs.pendingUserMessages))
  | .load _ | .drainOutboundPending _ | .deliver _ _ | .loadAfterCompact => isTrue trivial

/-! ## The invariant -/

structure Inv (s : Outbox) : Prop extends Intact s where
  own : ∀ e ∈ s.ledger, (s.sends.map Send.id)[e.1]? = some e.2.opId

theorem ids_nodup_iff {sends : List Send} : (sends.map Send.id).Nodup ↔ (sends.map Send.millis).Nodup := by
  have : sends.map Send.id = (sends.map Send.millis).map messageId := by simp [Send.id, Function.comp_def]
  rw [this]
  exact List.nodup_map_iff fun _ _ => messageId_injective

variable {snd : Send}

theorem map_id_set {sends : List Send} (h : sends[n]? = some snd) (pc : SendPc) :
    (sends.set n { snd with pc := pc }).map Send.id = sends.map Send.id := by
  obtain ⟨hlt, rfl⟩ := List.getElem?_eq_some_iff.mp h
  rw [List.map_set]
  show (sends.map Send.id).set n (Send.id sends[n]) = _
  rw [← List.getElem_map Send.id (h := by simpa using hlt), List.set_getElem_self]

variable {s : Outbox}

theorem Inv.save {s' : Outbox} (h : Inv s) (hids : s'.sends.map Send.id = s.sends.map Send.id)
    (hops : s'.loaded.outboundOps = s'.ledger.map Prod.snd)
    (hmessages : ∀ m ∈ s'.persisted, m ∈ s'.loaded.outboundPending)
    (hown : ∀ e ∈ s'.ledger, e ∈ s.ledger ∨ (s.sends.map Send.id)[e.1]? = some e.2.opId) : Inv s' := by
  refine ⟨⟨hops, hmessages, ?_⟩, ?_⟩
  · rw [hids]
    exact h.ids
  · intro e he
    rw [hids]
    obtain hold | hnew := hown e he
    · exact h.own e hold
    · exact hnew

theorem Inv.start {millis : Nat} (h : Inv s) (hnew : millis ∉ s.sends.map Send.millis) (pc : SendPc) :
    Inv { s with sends := s.sends ++ [⟨millis, pc⟩] } := by
  refine ⟨⟨h.operations, h.messages, ?_⟩, ?_⟩
  · rw [ids_nodup_iff, List.map_append, List.nodup_append]
    refine ⟨ids_nodup_iff.mp h.ids, List.nodup_singleton _, ?_⟩
    intro a ha b hb heq
    obtain rfl : b = millis := List.mem_singleton.mp hb
    exact hnew (heq ▸ ha)
  · intro e he
    have hown := h.own e he
    obtain ⟨hlt, -⟩ := List.getElem?_eq_some_iff.mp hown
    rw [List.map_append, List.getElem?_append_left hlt]
    exact hown

theorem Inv.load (h : Inv s) (hsend : s.sends[n]? = some snd) (pc : SendPc) : Inv (s.setSend n snd pc) :=
  h.save (map_id_set hsend pc) h.operations h.messages fun _ => .inl

theorem Inv.map_filter_ledger (h : Inv s) (hsend : s.sends[n]? = some snd) :
    (s.ledger.filter fun e => e.1 != n).map Prod.snd = (s.ledger.map Prod.snd).filter fun op => op.opId != snd.id := by
  rw [List.filter_map]
  congr 1
  refine List.filter_congr fun e he => ?_
  have hown := h.own e he
  have hid : (s.sends.map Send.id)[n]? = some snd.id := by simp [hsend]
  have hlt : n < (s.sends.map Send.id).length := (List.getElem?_eq_some_iff.mp hid).1
  have hiff : e.1 = n ↔ e.2.opId = snd.id := by
    rw [eq_comm, ← List.getElem?_inj hlt h.ids, hid, hown, Option.some.injEq, eq_comm]
  simp [bne, beq_eq_decide, hiff]

open Outbox

theorem Inv.record {channel : String} {now : Int} (h : Inv s) (hsend : s.sends[n]? = some snd)
    (hc : ∀ copy ∈ snd.pc.copy, Current s copy) : Inv (s.record n channel now snd) := by
  unfold Outbox.record
  split
  · next cp hpc =>
    obtain ⟨hops, hmessages⟩ := hc cp (by simp [hpc, SendPc.copy])
    refine h.save (map_id_set hsend .recorded) ?_ ?_ ?_
    · show (cp.recordOutboundPendingOp _).outboundOps = (s.ledger ++ [_]).map Prod.snd
      rw [outboundOps_recordOutboundPendingOp cp rfl, hops, h.operations, List.map_append]
      rfl
    · show ∀ m ∈ s.persisted, m ∈ cp.outboundPending
      rw [hmessages]
      exact h.messages
    · intro e he
      obtain hold | hnew := List.mem_append.mp he
      · exact .inl hold
      · rw [List.mem_singleton.mp hnew]
        exact .inr (by simp [hsend, outboundOperation])
  · exact h

theorem Inv.clear (h : Inv s) (hsend : s.sends[n]? = some snd)
    (hc : ∀ copy ∈ snd.pc.copy, Current s copy) : Inv (s.clear n snd) := by
  unfold Outbox.clear
  split
  · next cp hpc =>
    obtain ⟨hops, hmessages⟩ := hc cp (by simp [hpc, SendPc.copy])
    refine h.save (map_id_set hsend .delivered) ?_ ?_ fun _ he => .inl (List.mem_of_mem_filter he)
    · show (cp.clearOutboundPendingOp snd.id).outboundOps = (s.ledger.filter fun e => e.1 != n).map Prod.snd
      rw [outboundOps_clearOutboundPendingOp, hops, h.operations, h.map_filter_ledger hsend]
    · show ∀ m ∈ s.persisted, m ∈ cp.outboundPending
      rw [hmessages]
      exact h.messages
  · exact h

theorem Inv.persist {contents : Contents} {appends : Option (List String)} {now : Int} (h : Inv s)
    (hsend : s.sends[n]? = some snd) (hc : ∀ copy ∈ snd.pc.copy, Current s copy) :
    Inv (s.persist n contents appends now snd) := by
  unfold Outbox.persist
  split
  · next cp hpc =>
    obtain ⟨hops, hmessages⟩ := hc cp (by simp [hpc, SendPc.copy])
    refine h.save (map_id_set hsend .done) ?_ ?_ fun _ => .inl
    · show cp.outboundOps = s.ledger.map Prod.snd
      rw [hops, h.operations]
    · show ∀ m ∈ s.persisted ++ [_], m ∈ cp.outboundPending ++ [_]
      rw [hmessages]
      intro m hm
      obtain hold | hnew := List.mem_append.mp hm
      · exact List.mem_append_left _ (h.messages m hold)
      · exact List.mem_append_right _ hnew
  · exact h

theorem Inv.drain (h : Inv s) (fallback : Option String) : Inv (s.drain fallback) := by
  unfold Outbox.drain
  split
  · split
    · exact h
    · exact h.save rfl h.operations h.messages fun _ => .inl
  · exact h

theorem Inv.saveDrain {i : Nat} {d : Drain} (h : Inv s) (hc : d.pc ≠ .finished → Current s d.loaded) :
    Inv (s.saveDrain i d) := by
  unfold Outbox.saveDrain
  split
  · next hpc =>
    obtain ⟨hops, hmessages⟩ := hc (by simp [hpc])
    refine h.save rfl ?_ ?_ fun _ => .inl
    · show d.loaded.outboundOps = s.ledger.map Prod.snd
      rw [hops, h.operations]
    · show ∀ m ∈ s.persisted, m ∈ d.loaded.outboundPending
      rw [hmessages]
      exact h.messages
  · next hpc _ =>
    obtain ⟨hops, hmessages⟩ := hc (by simp [hpc])
    refine h.save rfl ?_ ?_ fun _ he => .inl (List.mem_of_mem_filter he)
    · show d.copy.outboundOps = (s.ledger.filter fun e => decide (e.2.opId ∉ d.delivered)).map Prod.snd
      rw [Drain.copy, outboundOps_foldl_clear, hops, h.operations, List.filter_map]
      rfl
    · show ∀ m ∈ s.persisted, m ∈ d.copy.outboundPending
      rw [Drain.copy, outboundPending_foldl_clear, hmessages]
      exact h.messages
  · exact h

theorem Inv.saveAfterCompact {i : Nat} {session : Option SessionState} {cp : SessionCheckpoint} (h : Inv s)
    (hc : Current s cp) (hqueue : ∀ cs ∈ session, ∀ m ∈ s.persisted, m ∈ cs.pendingUserMessages) :
    Inv (s.saveAfterCompact i session cp) := by
  obtain ⟨hops, hmessages⟩ := hc
  cases session with
  | none =>
    refine h.save rfl ?_ ?_ fun _ => .inl
    · show cp.outboundOps = s.ledger.map Prod.snd
      rw [hops, h.operations]
    · show ∀ m ∈ s.persisted, m ∈ cp.outboundPending
      rw [hmessages]
      exact h.messages
  | some cs =>
    refine h.save rfl ?_ (hqueue cs rfl) fun _ => .inl
    show cp.outboundOps = s.ledger.map Prod.snd
    rw [hops, h.operations]

theorem inv_step (e : Event) (h : Inv s) (hc : Careful s e) : Inv (s.step e) := by
  cases e with
  | send => exact h.start hc .sending
  | stream => exact h.start hc .delivered
  | load => exact invariant_elim h fun snd hsend => h.load hsend _
  | recordOutboundPendingOp => exact invariant_elim h fun snd hsend => h.record hsend (hc snd hsend)
  | clearOutboundPendingOp => exact invariant_elim h fun snd hsend => h.clear hsend (hc snd hsend)
  | persistOutboundCheckpoint =>
    exact invariant_elim h fun snd hsend => h.persist hsend (hc snd hsend)
  | drainOutboundPending fallback => exact h.drain fallback
  | deliver => exact invariant_elim h fun d _ => h.save rfl h.operations h.messages fun _ => .inl
  | saveDrain => exact invariant_elim h fun d hd => h.saveDrain (hc d hd)
  | loadAfterCompact => exact invariant_elim h fun cp _ => h.save rfl h.operations h.messages fun _ => .inl
  | saveCheckpointAfterCompact =>
    refine invariant_elim h fun cp hcp => ?_
    obtain ⟨hcurrent, hqueue⟩ := hc cp hcp
    exact h.saveAfterCompact hcurrent hqueue

theorem inv_restart {cp : Option SessionCheckpoint} {earlier : List Nat}
    (hids : (cp.getD .new).outboundOps.map PendingOperation.opId = earlier.map messageId) (hnodup : earlier.Nodup) :
    Inv (restart cp earlier) := by
  have hsends : (restart cp earlier).sends.map Send.id = earlier.map messageId := by
    simp [restart, Send.id, Function.comp_def]
  refine ⟨⟨?_, fun m hm => hm, ?_⟩, ?_⟩
  · show (cp.getD .new).outboundOps = ((cp.getD .new).outboundOps.zipIdx.map Prod.swap).map Prod.snd
    rw [List.map_map]
    exact (List.zipIdx_map_fst 0 _).symm
  · rw [hsends]
    exact hnodup.map fun _ _ => messageId_injective
  · intro e he
    obtain ⟨⟨op, i⟩, hmem, rfl⟩ := List.mem_map.mp he
    rw [hsends, ← hids, List.getElem?_map]
    have hop := List.mem_zipIdx_iff_getElem?.mp hmem
    show ((cp.getD .new).outboundOps[i]?).map PendingOperation.opId = some op.opId
    rw [hop]
    rfl

/-- The checkpoint keeps every persisted message and exactly the operations that were recorded and
not cleared. -/
theorem outbound_records_kept (cp : Option SessionCheckpoint) (earlier : List Nat)
    (hids : (cp.getD .new).outboundOps.map PendingOperation.opId = earlier.map messageId) (hnodup : earlier.Nodup)
    (events : List Event) (hc : Along step Careful (restart cp earlier) events) :
    Intact (run step (restart cp earlier) events) :=
  (invariant_along (fun _ e h hc => inv_step e h hc) (inv_restart hids hnodup) hc).toIntact

def reply : Contents := ⟨"done", "feishu", some "feishu", none, none, true⟩

def wholeSend (n millis : Nat) : List Event :=
  [.send millis, .load n, .recordOutboundPendingOp n "feishu" 0, .load n, .clearOutboundPendingOp n, .load n,
   .persistOutboundCheckpoint n reply none 0]

theorem one_send_after_the_other_kept : Along step Careful (restart none []) (wholeSend 0 1 ++ wholeSend 1 2) ∧
    Intact (run step (restart none []) (wholeSend 0 1 ++ wholeSend 1 2)) :=
  ⟨by decide +kernel, outbound_records_kept none [] rfl .nil _ (by decide +kernel)⟩

def interleavedSends : List Event :=
  [.send 1, .send 2, .load 0, .load 1, .recordOutboundPendingOp 0 "feishu" 0, .recordOutboundPendingOp 1 "feishu" 0]

def undelivered : SessionCheckpoint :=
  { new with
    pendingOperations := [outboundOperation (messageId 1) "feishu" 0]
    outboundPending := [reply.message (messageId 1)] }

def redelivery : List Event :=
  [.drainOutboundPending none, .saveDrain 0] ++ wholeSend 1 2 ++ [.deliver 0 true, .saveDrain 0]

def compactionAfterSend : List Event :=
  wholeSend 0 1 ++ [.loadAfterCompact, .saveCheckpointAfterCompact 0 (some ⟨[], [], []⟩)]

theorem outbound_records_are_lost : ¬ Intact (run step (restart none []) interleavedSends) ∧
    ¬ Intact (run step (restart (some undelivered) [1]) redelivery) ∧
    ¬ Intact (run step (restart none []) compactionAfterSend) ∧
    ¬ Intact (run step (restart none []) [.send 1, .send 1]) := by
  refine ⟨fun h => ?_, fun h => ?_, fun h => ?_, fun h => ?_⟩
  · exact absurd h.operations (by decide +kernel)
  · exact absurd h.messages (by decide +kernel)
  · exact absurd h.messages (by decide +kernel)
  · exact absurd h.ids (by decide +kernel)

end CloseClaw.Gateway.OutboundOps
