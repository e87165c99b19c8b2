/- What a forceful stop writes down (`session_manager/stop.rs`). -/

import CloseClaw.Session.PendingOperation
import CloseClaw.Session.Storage

namespace CloseClaw.Gateway.ForcefulStop

open Session Gateway.ChildAnnounce List

variable {Msg Level : Type}

inductive LlmState where
  | idle
  | requesting
  | receiving
  deriving DecidableEq

structure ConversationSession (Msg Level : Type) where
  stopped : Bool
  cancelled : Bool
  llmState : LlmState
  toolStates : List ToolEntry
  toolKeys : (toolStates.map (·.callId)).Nodup
  childStates : List ChildEntry
  childKeys : (childStates.map (·.childId)).Nodup
  toolHandles : List String
  childHandles : List String
  queue : List Msg
  userAppends : List String
  verbosityLevel : Level

namespace ConversationSession

def terminate (t : ToolEntry) : ToolEntry := if t.state.isRunning then { t with state := .terminated } else t

theorem callId_terminate (t : ToolEntry) : (terminate t).callId = t.callId := by
  unfold terminate
  split_ifs <;> rfl

def killToolHandles (s : ConversationSession Msg Level) : ConversationSession Msg Level :=
  { s with
    toolStates := s.toolStates.map terminate
    toolKeys := by
      have hsame : (fun t : ToolEntry => t.callId) ∘ terminate = fun t => t.callId := funext callId_terminate
      rw [map_map, hsame]
      exact s.toolKeys }

def forceKill (s : ConversationSession Msg Level) : ConversationSession Msg Level :=
  { s.killToolHandles with cancelled := true }

def collectPendingOperations (now : Int) (s : ConversationSession Msg Level) : List PendingOperation :=
  Session.collectPendingOperations now s.toolStates s.childStates

def clearExecState (s : ConversationSession Msg Level) : ConversationSession Msg Level :=
  { s with
    llmState := .idle, toolStates := [], toolKeys := nodup_nil, childStates := [], childKeys := nodup_nil
    toolHandles := [], childHandles := [] }

def maybeClearQueue (clearQueue : Bool) (s : ConversationSession Msg Level) : ConversationSession Msg Level :=
  if clearQueue then { s with queue := [] } else s

end ConversationSession

structure Checkpoint (Msg Level : Type) where
  status : SessionStatus
  platform : Option String
  agentId : Option String
  outboundPending : List Msg
  userAppends : List String
  verbosityLevel : Level
  pendingOperations : List PendingOperation

inductive Backend where
  | memory
  | sqlite

def Backend.operations : Backend → List PendingOperation → List PendingOperation
  | .memory, ops => ops
  | .sqlite, _ => []

structure Store (Msg Level : Type) where
  backend : Backend
  saved : Option (Checkpoint Msg Level)
  loadFails : Bool
  saveFails : Bool

namespace Store

def loadCheckpoint (st : Store Msg Level) : Except PersistenceError (Option (Checkpoint Msg Level)) :=
  if st.loadFails then .error .io
  else .ok (st.saved.map fun c => { c with pendingOperations := st.backend.operations c.pendingOperations })

def saveCheckpoint (st : Store Msg Level) (c : Checkpoint Msg Level) :
    Except PersistenceError Unit × Store Msg Level :=
  if st.saveFails then (.error .io, st) else (.ok (), { st with saved := some c })

def atNextStart (st : Store Msg Level) : List PendingOperation :=
  (st.saved.map fun c => st.backend.operations c.pendingOperations).getD []

end Store

structure Routing where
  agentId : Option String
  channel : Option String

def buildCheckpoint (r : Routing) (s : ConversationSession Msg Level) (old : Option (Checkpoint Msg Level)) :
    Checkpoint Msg Level where
  status := .active
  platform := r.channel
  agentId := r.agentId
  outboundPending := s.queue
  userAppends := s.userAppends
  verbosityLevel := s.verbosityLevel
  pendingOperations := (old.map (·.pendingOperations)).getD []

def Checkpoint.withPending (c : Checkpoint Msg Level) (ops : List PendingOperation) : Checkpoint Msg Level :=
  if ops = [] then c else { c with pendingOperations := ops }

def persistCheckpointWithPending (r : Routing) (s : ConversationSession Msg Level) (ops : List PendingOperation) :
    Option (Store Msg Level) → Except PersistenceError Unit × Option (Store Msg Level)
  | none => (.ok (), none)
  | some st =>
    match st.loadCheckpoint with
    | .error e => (.error e, some st)
    | .ok old =>
      ((st.saveCheckpoint ((buildCheckpoint r s old).withPending ops)).1,
        some (st.saveCheckpoint ((buildCheckpoint r s old).withPending ops)).2)

inductive StopError where
  | skipped
  | failed

structure StopResult (Msg Level : Type) where
  result : Except StopError Unit
  session : Option (ConversationSession Msg Level)
  store : Option (Store Msg Level)

def beforeCollection (s : ConversationSession Msg Level) : ConversationSession Msg Level :=
  { s with stopped := true }.forceKill

def stopForceful (now : Int) (r : Routing) (clearQueue : Bool) (s : ConversationSession Msg Level)
    (store : Option (Store Msg Level)) : StopResult Msg Level :=
  let ops := (beforeCollection s).collectPendingOperations now
  let cleared := (beforeCollection s).clearExecState.maybeClearQueue clearQueue
  let persisted := persistCheckpointWithPending r cleared ops store
  { result := persisted.1.mapError fun _ => .failed
    session := some cleared
    store := persisted.2 }

def stopSingleSession (now : Int) (r : Routing) (clearQueue : Bool) (s : Option (ConversationSession Msg Level))
    (store : Option (Store Msg Level)) : StopResult Msg Level :=
  match s with
  | none => ⟨.error .skipped, none, store⟩
  | some s => stopForceful now r clearQueue s store

/-! ## What a stop owes -/

structure Recorded (s : ConversationSession Msg Level) (ops : List PendingOperation) : Prop where
  tools : ∀ t ∈ s.toolStates, t.state.isUnfinished = true → HasOperation ops .toolCall t.callId
  children : ∀ c ∈ s.childStates, c.state = .running → HasOperation ops .subSessionSpawn c.childId

def operationsAfter (store : Option (Store Msg Level)) : List PendingOperation :=
  (store.map Store.atNextStart).getD []

def NothingInFlight (s : ConversationSession Msg Level) : Prop :=
  (∀ t ∈ s.toolStates, t.state.isUnfinished = false) ∧ ∀ c ∈ s.childStates, c.state ≠ .running

def NoToolRunning (s : ConversationSession Msg Level) : Prop := ∀ t ∈ s.toolStates, t.state.isRunning = false

/-- Only tools are running, and the stored checkpoint has an operation for each. -/
def OnlyStoredTools (s : ConversationSession Msg Level) (st : Store Msg Level) : Prop :=
  (∀ t ∈ s.toolStates, t.state.isUnfinished = true →
    t.state.isRunning = true ∧ HasOperation st.atNextStart .toolCall t.callId) ∧
  ∀ c ∈ s.childStates, c.state ≠ .running

def Kept (s : ConversationSession Msg Level) (store : Option (Store Msg Level)) : Prop :=
  ∃ st, store = some st ∧ st.backend = .memory ∧ (NoToolRunning s ∨ OnlyStoredTools s st)

/-! ## What a stop writes -/

open ConversationSession

section Stop

variable {s : ConversationSession Msg Level}

theorem mem_killed_unfinished {id : String} :
    (∃ t ∈ (beforeCollection s).toolStates, t.state.isUnfinished = true ∧ t.callId = id) ↔
      ∃ t ∈ s.toolStates, t.state.isUnfinished = true ∧ t.state.isRunning = false ∧ t.callId = id := by
  simp only [beforeCollection, forceKill, killToolHandles, mem_map]
  constructor
  · rintro ⟨_, ⟨t, ht, rfl⟩, hstate, hid⟩
    rw [callId_terminate] at hid
    unfold terminate at hstate
    by_cases hrun : t.state.isRunning = true
    · rw [if_pos hrun] at hstate
      cases hstate
    · rw [if_neg hrun] at hstate
      exact ⟨t, ht, hstate, by simpa using hrun, hid⟩
  · rintro ⟨t, ht, hstate, hrun, hid⟩
    exact ⟨t, ⟨t, ht, by simp [terminate, hrun]⟩, hstate, hid⟩

variable {now : Int}

theorem collected_eq_nil : (beforeCollection s).collectPendingOperations now = [] ↔
    (∀ t ∈ s.toolStates, t.state.isUnfinished = true → t.state.isRunning = true) ∧
      ∀ c ∈ s.childStates, c.state ≠ .running := by
  unfold ConversationSession.collectPendingOperations
  rw [collectPendingOperations_eq_nil]
  refine and_congr ?_ Iff.rfl
  constructor
  · intro hnone t ht hstate
    by_contra hrun
    obtain ⟨t', ht', hstate', -⟩ := mem_killed_unfinished.mpr ⟨t, ht, hstate, by simpa using hrun, rfl⟩
    rw [hnone t' ht'] at hstate'
    cases hstate'
  · intro hall t ht
    by_contra hstate
    obtain ⟨t', ht', hstate', hrun', -⟩ := mem_killed_unfinished.mp ⟨t, ht, by simpa using hstate, rfl⟩
    rw [hall t' ht' hstate'] at hrun'
    cases hrun'

theorem operationsAfter_stop {r : Routing} {clearQueue : Bool} {store : Option (Store Msg Level)}
    (h : (stopForceful now r clearQueue s store).result = .ok ()) :
    (store = none ∧ operationsAfter (stopForceful now r clearQueue s store).store = []) ∨
      ∃ st, store = some st ∧ operationsAfter (stopForceful now r clearQueue s store).store =
        st.backend.operations (if (beforeCollection s).collectPendingOperations now = [] then st.atNextStart
          else (beforeCollection s).collectPendingOperations now) := by
  cases store with
  | none => exact .inl ⟨rfl, rfl⟩
  | some st =>
    refine .inr ⟨st, rfl, ?_⟩
    obtain ⟨backend, saved, loadFails, saveFails⟩ := st
    simp only [stopForceful, persistCheckpointWithPending, Store.loadCheckpoint] at h ⊢
    cases loadFails with
    | true => cases h
    | false =>
      cases saveFails with
      | true => cases h
      | false =>
        simp only [Bool.false_eq_true, if_false, Store.saveCheckpoint, operationsAfter, Option.map_some,
          Option.getD_some, Store.atNextStart, Checkpoint.withPending]
        split_ifs
        · cases saved <;> rfl
        · rfl

theorem not_hasOperation_nil {opType : PendingOperationType} {id : String} : ¬ HasOperation [] opType id := by
  rintro ⟨op, hmem, -⟩
  cases hmem

theorem recorded_nil_iff : Recorded s [] ↔ NothingInFlight s := by
  constructor
  · intro h
    refine ⟨fun t ht => ?_, fun c hc hrun => not_hasOperation_nil (h.children c hc hrun)⟩
    by_contra hstate
    exact not_hasOperation_nil (h.tools t ht (by simpa using hstate))
  · rintro ⟨htools, hchildren⟩
    refine ⟨fun t ht hstate => ?_, fun c hc hrun => absurd hrun (hchildren c hc)⟩
    rw [htools t ht] at hstate
    cases hstate

theorem recorded_collected_iff : Recorded s ((beforeCollection s).collectPendingOperations now) ↔ NoToolRunning s := by
  unfold ConversationSession.collectPendingOperations
  constructor
  · intro h t ht
    by_contra hrun
    have hrunning : t.state.isRunning = true := by simpa using hrun
    obtain ⟨t', ht', -, hidle, hid⟩ := mem_killed_unfinished.mp
      (hasOperation_collected_toolCall.mp (h.tools t ht (ToolExecState.isUnfinished_of_isRunning hrunning)))
    have heq : t' = t := inj_on_of_nodup_map s.toolKeys ht' ht hid
    rw [heq, hrunning] at hidle
    cases hidle
  · intro hnone
    refine ⟨fun t ht hstate => ?_, fun c hc hrun => ?_⟩
    · exact hasOperation_collected_toolCall.mpr (mem_killed_unfinished.mpr ⟨t, ht, hstate, hnone t ht, rfl⟩)
    · exact hasOperation_collected_subSession.mpr ⟨c, hc, hrun, rfl⟩

variable {st : Store Msg Level}

theorem recorded_stored_iff (hnil : (beforeCollection s).collectPendingOperations now = []) :
    Recorded s st.atNextStart ↔ OnlyStoredTools s st := by
  obtain ⟨htools, hchildren⟩ := collected_eq_nil.mp hnil
  constructor
  · intro h
    exact ⟨fun t ht hstate => ⟨htools t ht hstate, h.tools t ht hstate⟩, hchildren⟩
  · rintro ⟨hstored, -⟩
    exact ⟨fun t ht hstate => (hstored t ht hstate).2, fun c hc hrun => absurd hrun (hchildren c hc)⟩

theorem NothingInFlight.onlyStoredTools (h : NothingInFlight s) (st : Store Msg Level) : OnlyStoredTools s st := by
  refine ⟨fun t ht hstate => ?_, h.2⟩
  rw [h.1 t ht] at hstate
  cases hstate

theorem OnlyStoredTools.collected_eq_nil (h : OnlyStoredTools s st) :
    (beforeCollection s).collectPendingOperations now = [] :=
  ForcefulStop.collected_eq_nil.mpr ⟨fun t ht hstate => (h.1 t ht hstate).1, h.2⟩

theorem NoToolRunning.nothingInFlight (h : NoToolRunning s)
    (hnil : (beforeCollection s).collectPendingOperations now = []) : NothingInFlight s := by
  obtain ⟨htools, hchildren⟩ := collected_eq_nil.mp hnil
  refine ⟨fun t ht => ?_, hchildren⟩
  by_contra hstate
  have hrun := htools t ht (by simpa using hstate)
  rw [h t ht] at hrun
  cases hrun

theorem kept_none : ¬ Kept s (none : Option (Store Msg Level)) := by
  intro h
  obtain ⟨st, heq, -⟩ := h
  cases heq

theorem kept_some : Kept s (some st) ↔ st.backend = .memory ∧ (NoToolRunning s ∨ OnlyStoredTools s st) := by
  constructor
  · intro h
    obtain ⟨st', heq, hkept⟩ := h
    cases heq
    exact hkept
  · intro h
    exact ⟨st, rfl, h⟩

end Stop

theorem work_recorded_iff (now : Int) (r : Routing) (clearQueue : Bool) (s : ConversationSession Msg Level)
    (store : Option (Store Msg Level)) (h : (stopSingleSession now r clearQueue (some s) store).result = .ok ()) :
    Recorded s (operationsAfter (stopSingleSession now r clearQueue (some s) store).store) ↔
      NothingInFlight s ∨ Kept s store := by
  obtain ⟨rfl, hops⟩ | ⟨st, rfl, hops⟩ := operationsAfter_stop h
  · rw [stopSingleSession, hops, recorded_nil_iff, or_iff_left kept_none]
  rw [stopSingleSession, hops, kept_some]
  cases hb : st.backend with
  | sqlite => simp [Backend.operations, recorded_nil_iff]
  | memory =>
    simp only [Backend.operations, true_and]
    split_ifs with hnil
    · rw [recorded_stored_iff hnil]
      constructor
      · intro hstored
        exact .inr (.inr hstored)
      · rintro (hnone | hidle | hstored)
        · exact hnone.onlyStoredTools st
        · exact (hidle.nothingInFlight hnil).onlyStoredTools st
        · exact hstored
    · rw [recorded_collected_iff]
      constructor
      · intro hidle
        exact .inr (.inl hidle)
      · rintro (hnone | hidle | hstored)
        · exact absurd (hnone.onlyStoredTools st).collected_eq_nil hnil
        · exact hidle
        · exact absurd hstored.collected_eq_nil hnil

def sessionWith (tools : List ToolEntry) (keys : (tools.map (·.callId)).Nodup) : ConversationSession String Nat where
  stopped := false
  cancelled := false
  llmState := .idle
  toolStates := tools
  toolKeys := keys
  childStates := []
  childKeys := nodup_nil
  toolHandles := []
  childHandles := []
  queue := []
  userAppends := []
  verbosityLevel := 0

def pendingCall : ToolEntry := ⟨"t2", .pending, some (.toolCall "read" "notes.md")⟩

def runningCall : ToolEntry := ⟨"t1", .runningForeground, some (.toolCall "bash" "make")⟩

def emptyStore (backend : Backend) : Store String Nat := ⟨backend, none, false, false⟩

theorem pending_call_recorded : (stopSingleSession 0 ⟨none, none⟩ false (some (sessionWith [pendingCall] (by decide)))
        (some (emptyStore .memory))).result = .ok () ∧
      Recorded (sessionWith [pendingCall] (by decide)) (operationsAfter (stopSingleSession 0 ⟨none, none⟩ false
        (some (sessionWith [pendingCall] (by decide))) (some (emptyStore .memory))).store) := by
  refine ⟨rfl, (work_recorded_iff 0 ⟨none, none⟩ false (sessionWith [pendingCall] (by decide))
    (some (emptyStore .memory)) rfl).mpr (.inr ⟨_, rfl, rfl, .inl ?_⟩)⟩
  unfold NoToolRunning
  decide

theorem a_killed_tool_is_forgotten :
    (stopSingleSession 0 ⟨none, none⟩ false (some (sessionWith [runningCall, pendingCall] (by decide)))
        (some (emptyStore .memory))).result = .ok () ∧
      (operationsAfter (stopSingleSession 0 ⟨none, none⟩ false
        (some (sessionWith [runningCall, pendingCall] (by decide)))
        (some (emptyStore .memory))).store).map (·.opId) = ["t2"] ∧
      (operationsAfter (stopSingleSession 0 ⟨none, none⟩ false
        (some (sessionWith [runningCall, pendingCall] (by decide))) (some (emptyStore .sqlite))).store) = [] ∧
      ¬ Recorded (sessionWith [runningCall, pendingCall] (by decide)) (operationsAfter (stopSingleSession 0
        ⟨none, none⟩ false (some (sessionWith [runningCall, pendingCall] (by decide)))
        (some (emptyStore .memory))).store) := by
  refine ⟨rfl, by decide, by decide, fun h => ?_⟩
  have hrunning := h.tools runningCall (by decide) rfl
  revert hrunning
  decide

end CloseClaw.Gateway.ForcefulStop
