/- From a message to its session (`session_manager/resolve.rs`). Which row an unordered query
   returns is a `RowChoice`; SHA-256 is injective (`Key`). -/

import Mathlib.Data.List.AList
import CloseClaw.Session.Storage

namespace CloseClaw.Gateway.Sessions

open Lib List AList
open CloseClaw.Session (SessionStatus)

structure Message where
  channel : String
  sender : String
  agentId : String
  accountId : Option String := none
  threadId : Option String := none
  replyRef : Option String := none

inductive Key where
  | sha256 (text : String)
  | plain (text : String)
  deriving DecidableEq

def routingText (account channel sender peer : String) : String :=
  account ++ ":" ++ channel ++ ":" ++ sender ++ ":" ++ peer

def Message.routingText (m : Message) : String :=
  Sessions.routingText (m.accountId.getD "default") m.channel m.sender m.agentId

def Message.key (m : Message) : Key := .sha256 m.routingText

structure Checkpoint (Msg : Type) where
  status : SessionStatus
  platform : Option String
  senderId : Option String
  peerId : Option String
  accountId : Option String
  agentId : Option String
  threadId : Option String
  replyRef : Option String
  lastMessageAt : Option Int
  createdAt : Int
  pendingMessages : List Msg

structure Session where
  agentId : String
  channel : String

structure SessionManager (Msg : Type) where
  keyRegistry : AList fun _ : Key => String := ∅
  sessions : AList fun _ : String => Session := ∅
  conversations : AList fun _ : String => List Msg := ∅
  channelActive : AList fun _ : String => String := ∅
  localCache : AList fun _ : String => Checkpoint Msg := ∅
  store : AList fun _ : String => Checkpoint Msg := ∅

structure RowChoice where
  pick : List String → Option String
  mem_of_pick : ∀ ids id, pick ids = some id → id ∈ ids
  isSome_pick : ∀ ids, ids ≠ [] → (pick ids).isSome = true

def firstRow : RowChoice where
  pick := List.head?
  mem_of_pick _ _ h := List.mem_of_head? h
  isSome_pick ids h := by cases ids <;> simp_all

variable {Msg : Type}

/-! ## The store and the cache -/

def Checkpoint.touch (cp : Checkpoint Msg) (m : Message) : Checkpoint Msg :=
  { cp with threadId := m.threadId, replyRef := m.replyRef }

def Checkpoint.RoutedBy (cp : Checkpoint Msg) (m : Message) : Prop :=
  cp.platform = some m.channel ∧ cp.senderId = some m.sender ∧ cp.peerId = some m.agentId ∧ cp.accountId = m.accountId

instance Checkpoint.RoutedBy.decidable (cp : Checkpoint Msg) (m : Message) : Decidable (cp.RoutedBy m) :=
  inferInstanceAs (Decidable (_ ∧ _))

namespace SessionManager

def rows (sm : SessionManager Msg) (status : SessionStatus) (m : Message) :
    List (Sigma fun _ : String => Checkpoint Msg) :=
  sm.store.entries.filter fun e => e.2.status = status ∧ e.2.RoutedBy m

def findByRouting (Q : RowChoice) (sm : SessionManager Msg) (status : SessionStatus) (m : Message) : Option String :=
  Q.pick ((sm.rows status m).map (·.1))

def findArchived (Q : RowChoice) (sm : SessionManager Msg) (m : Message) : Option String :=
  let archived := sm.rows .archived m
  Q.pick ((archived.filter fun e =>
    archived.all fun e' => e'.2.lastMessageAt.getD 0 ≤ e.2.lastMessageAt.getD 0).map (·.1))

def load (sm : SessionManager Msg) (id : String) : Option (Checkpoint Msg) × SessionManager Msg :=
  match sm.localCache.lookup id with
  | some cp => (some cp, sm)
  | none =>
    match sm.store.lookup id with
    | some cp => (some cp, { sm with localCache := sm.localCache.insert id cp })
    | none => (none, sm)

def saveDirect (sm : SessionManager Msg) (id : String) (cp : Checkpoint Msg) : SessionManager Msg :=
  { sm with localCache := sm.localCache.insert id cp, store := sm.store.insert id cp }

def updateCheckpointFields (sm : SessionManager Msg) (id : String) (m : Message) : SessionManager Msg :=
  match sm.load id with
  | (some cp, sm) => sm.saveDirect id (cp.touch m)
  | (none, sm) => sm

def setStatus (sm : SessionManager Msg) (id : String) (cp : Checkpoint Msg) (status : SessionStatus) :
    SessionManager Msg :=
  { sm with store := sm.store.insert id { cp with status } }

def restoreCheckpoint (sm : SessionManager Msg) (id : String) : Option (SessionManager Msg) :=
  match sm.store.lookup id with
  | some cp => if cp.status = .active then none else some (sm.setStatus id cp .active)
  | none => none

def tryRestoreArchivedSession (sm : SessionManager Msg) (id : String) : Option (SessionManager Msg) :=
  match sm.store.lookup id with
  | some cp => if cp.status = .archived then sm.restoreCheckpoint id else none
  | none => none

def waitForArchiveCompletion (sm : SessionManager Msg) (id : String) (archives : Bool) : Bool × SessionManager Msg :=
  match sm.store.lookup id with
  | some cp =>
    if cp.status = .archived then (true, sm)
    else if cp.status = .migrating ∧ archives then (true, sm.setStatus id cp .archived)
    else (false, sm)
  | none => (false, sm)

/-! ## The maps -/

def register (sm : SessionManager Msg) (key : Key) (id : String) : SessionManager Msg :=
  { sm with keyRegistry := sm.keyRegistry.insert key id }

def unregister (sm : SessionManager Msg) (key : Key) : SessionManager Msg :=
  { sm with keyRegistry := sm.keyRegistry.erase key }

def withSession (sessions : AList fun _ : String => Session) (id : String) (m : Message) :
    AList fun _ : String => Session :=
  match sessions.lookup id with
  | some _ => sessions
  | none => sessions.insert id ⟨m.agentId, m.channel⟩

def ensureSession (sm : SessionManager Msg) (id : String) (m : Message) : SessionManager Msg :=
  { sm with sessions := withSession sm.sessions id m }

def removeSession (sm : SessionManager Msg) (id : String) : SessionManager Msg :=
  { sm with
    sessions := sm.sessions.erase id
    conversations := sm.conversations.erase id
    channelActive := ⟨sm.channelActive.entries.filter (·.2 ≠ id),
      sm.channelActive.nodupKeys.sublist filter_sublist⟩ }

def withTranscript (conversations : AList fun _ : String => List Msg) (id : String) (transcript : List Msg) :
    AList fun _ : String => List Msg :=
  if transcript.isEmpty then
    match conversations.lookup id with
    | some _ => conversations
    | none => conversations.insert id []
  else conversations.insert id transcript

def rebuildSession (sm : SessionManager Msg) (id : String) (cp : Checkpoint Msg) : SessionManager Msg :=
  { sm with conversations := withTranscript sm.conversations id cp.pendingMessages }

/-! ## Resolving -/

def reopen (sm : SessionManager Msg) (id : String) (cp : Checkpoint Msg) (m : Message) : SessionManager Msg :=
  ((sm.rebuildSession id cp).ensureSession id m).saveDirect id (cp.touch m)

def settle (sm : SessionManager Msg) (id : String) (m : Message) : SessionManager Msg :=
  (sm.register m.key id).updateCheckpointFields id m

def reloadAndRebuild (sm : SessionManager Msg) (id : String) (m : Message) : SessionManager Msg :=
  match sm.store.lookup id with
  | some cp => ((sm.saveDirect id cp).rebuildSession id cp).ensureSession id m
  | none => sm

def restoreMigratingOnTimeout (sm : SessionManager Msg) (id : String) (m : Message) : Option (SessionManager Msg) :=
  (sm.restoreCheckpoint id).map fun sm => (sm.reloadAndRebuild id m).settle id m

def newCheckpoint (channel sender peer : String) (accountId threadId : Option String) (now : Int) : Checkpoint Msg where
  status := .active
  platform := some channel
  senderId := some sender
  peerId := some peer
  accountId := accountId
  agentId := some peer
  threadId := threadId
  replyRef := none
  lastMessageAt := none
  createdAt := now
  pendingMessages := []

def enter (sm : SessionManager Msg) (key : Key) (id : String) (session : Session) : SessionManager Msg :=
  { sm with
    keyRegistry := sm.keyRegistry.insert key id
    conversations := sm.conversations.insert id []
    sessions := sm.sessions.insert id session }

def create (sm : SessionManager Msg) (m : Message) (id : String) (now : Int) : SessionManager Msg :=
  (sm.enter m.key id ⟨m.agentId, m.channel⟩).saveDirect id
    (newCheckpoint m.channel m.sender m.agentId m.accountId m.threadId now)

def reopenArchived (sm : SessionManager Msg) (id : String) (m : Message) : SessionManager Msg :=
  match sm.load id with
  | (some cp, sm) => sm.reopen id cp m
  | (none, sm) => sm

def resolveArchived (Q : RowChoice) (sm : SessionManager Msg) (m : Message) (newId : String) (now : Int) :
    String × SessionManager Msg :=
  match sm.findArchived Q m with
  | some id =>
    match sm.tryRestoreArchivedSession id with
    | some sm => (id, (sm.reopenArchived id m).settle id m)
    | none => (newId, sm.create m newId now)
  | none => (newId, sm.create m newId now)

def resolveMigrating (Q : RowChoice) (sm : SessionManager Msg) (m : Message) (newId : String) (now : Int)
    (archives : Bool) : String × SessionManager Msg :=
  match sm.findByRouting Q .migrating m with
  | some id =>
    match sm.waitForArchiveCompletion id archives with
    | (true, sm) => sm.resolveArchived Q m newId now
    | (false, sm) =>
      match sm.restoreMigratingOnTimeout id m with
      | some sm => (id, sm)
      | none => sm.resolveArchived Q m newId now
  | none => sm.resolveArchived Q m newId now

def live (sm : SessionManager Msg) (key : Key) : Option String :=
  (sm.keyRegistry.lookup key).filter fun id => (sm.sessions.lookup id).isSome

def heal (sm : SessionManager Msg) (id : String) (m : Message) : SessionManager Msg :=
  ((sm.register m.key id).ensureSession id m).updateCheckpointFields id m

def resolveMiss (Q : RowChoice) (sm : SessionManager Msg) (m : Message) (newId : String) (now : Int) (archives : Bool) :
    String × SessionManager Msg :=
  -- The collision check; the second look after ten milliseconds sees the same.
  match sm.live m.key with
  | some id => (id, sm.updateCheckpointFields id m)
  | none =>
    match sm.findByRouting Q .active m with
    | some id => (id, sm.heal id m)
    | none => sm.resolveMigrating Q m newId now archives

def resolveInactive (Q : RowChoice) (sm : SessionManager Msg) (id : String) (m : Message) (newId : String) (now : Int)
    (archives : Bool) : String × SessionManager Msg :=
  match sm.tryRestoreArchivedSession id with
  | some sm =>
    match sm.store.lookup id with
    | some cp => (id, (sm.reopen id cp m).settle id m)
    | none => (id, sm.settle id m)
  | none => sm.resolveMiss Q m newId now archives

def resolveLive (Q : RowChoice) (sm : SessionManager Msg) (id : String) (m : Message) (newId : String) (now : Int)
    (archives : Bool) : String × SessionManager Msg :=
  match sm.load id with
  | (none, sm) => (id, sm.updateCheckpointFields id m)
  | (some cp, sm) =>
    match cp.status with
    | .active => (id, sm.updateCheckpointFields id m)
    | .migrating =>
      match sm.waitForArchiveCompletion id archives with
      | (true, sm) => sm.resolveInactive Q id m newId now archives
      | (false, sm) =>
        match ((sm.unregister m.key).removeSession id).restoreMigratingOnTimeout id m with
        | some sm => (id, sm)
        | none => ((sm.unregister m.key).removeSession id).resolveInactive Q id m newId now archives
    | .archived => ((sm.unregister m.key).removeSession id).resolveInactive Q id m newId now archives

def resolve (Q : RowChoice) (sm : SessionManager Msg) (m : Message) (newId : String) (now : Int) (archives : Bool) :
    String × SessionManager Msg :=
  match sm.keyRegistry.lookup m.key with
  | none => sm.resolveMiss Q m newId now archives
  | some id =>
    match sm.sessions.lookup id with
    | some _ => sm.resolveLive Q id m newId now archives
    | none => sm.resolveInactive Q id m newId now archives

/-! ## `/new` and the restart -/

def forceNewForChannel (sm : SessionManager Msg) (channel agentId newId : String) (now : Int) : SessionManager Msg :=
  { sm.enter (.plain (channel ++ ":" ++ agentId ++ ":" ++ agentId)) newId ⟨agentId, channel⟩ with
    channelActive := sm.channelActive.insert channel newId }.saveDirect newId
      (newCheckpoint channel agentId agentId none none now)

end SessionManager

def Checkpoint.rebuiltText (cp : Checkpoint Msg) : Option String :=
  match cp.platform, cp.peerId with
  | some platform, some peerId =>
    some (routingText (cp.accountId.getD "default") platform ((cp.senderId.or cp.agentId).getD peerId) peerId)
  | _, _ => none

def Checkpoint.sortKey (cp : Checkpoint Msg) : Int := cp.lastMessageAt.getD cp.createdAt

def keepBest (best : AList fun _ : Key => Int × String) (key : Key) (entry : Int × String) :
    AList fun _ : Key => Int × String :=
  match best.lookup key with
  | some old => if entry.1 ≤ old.1 then best else best.insert key entry
  | none => best.insert key entry

namespace SessionManager

def rebuildStep (acc : SessionManager Msg × AList fun _ : Key => Int × String) (id : String) :
    SessionManager Msg × AList fun _ : Key => Int × String :=
  match acc.1.load id with
  | (some cp, sm) =>
    match cp.rebuiltText with
    | some text => (sm, keepBest acc.2 (.sha256 text) (cp.sortKey, id))
    | none => (sm, acc.2)
  | (none, sm) => (sm, acc.2)

def listActiveSessions (sm : SessionManager Msg) : List String :=
  (sm.store.entries.filter fun e => e.2.status = .active).map (·.1)

def rebuildKeyRegistry (sm : SessionManager Msg) : SessionManager Msg :=
  let acc := sm.listActiveSessions.foldl rebuildStep (sm, ∅)
  acc.2.entries.foldl (fun sm e => sm.register e.1 e.2.2) acc.1

def restart (sm : SessionManager Msg) : SessionManager Msg := rebuildKeyRegistry { store := sm.store }

end SessionManager

/-! ## Runs -/

inductive Event where
  | message (m : Message) (newId : String) (now : Int) (archives : Bool)
  | new (channel agentId newId : String) (now : Int)
  | markMigrating (id : String)
  | archive (id : String)
  | purge (id : String)
  | restart

namespace SessionManager

def sweep (sm : SessionManager Msg) (id : String) (among : List SessionStatus) (status : SessionStatus) :
    SessionManager Msg :=
  match sm.store.lookup id with
  | some cp => if cp.status ∈ among then sm.setStatus id cp status else sm
  | none => sm

def purge (sm : SessionManager Msg) (id : String) : SessionManager Msg :=
  match sm.store.lookup id with
  | some cp => if cp.status = .archived then { sm with store := sm.store.erase id } else sm
  | none => sm

end SessionManager

def step (Q : RowChoice) (sm : SessionManager Msg) : Event → SessionManager Msg
  | .message m newId now archives => (sm.resolve Q m newId now archives).2
  | .new channel agentId newId now => sm.forceNewForChannel channel agentId newId now
  | .markMigrating id => sm.sweep id [.active] .migrating
  | .archive id => sm.sweep id [.active, .migrating] .archived
  | .purge id => sm.purge id
  | .restart => sm.restart

/-! ## The paths in normal form

Every path ends with the checkpoint of the session it returns in the cache and in the
store. -/

namespace SessionManager

variable {sm : SessionManager Msg} {id : String} {cp : Checkpoint Msg} {m : Message}

def adopt (sm : SessionManager Msg) (id : String) (cp : Checkpoint Msg) (m : Message) : SessionManager Msg :=
  (((sm.rebuildSession id cp).ensureSession id m).register m.key id).saveDirect id (cp.touch m)

def known (sm : SessionManager Msg) (id : String) : Option (Checkpoint Msg) :=
  (sm.localCache.lookup id).or (sm.store.lookup id)

theorem updateCheckpointFields_of_known (h : sm.known id = some cp) :
    sm.updateCheckpointFields id m = sm.saveDirect id (cp.touch m) := by
  unfold known at h
  unfold updateCheckpointFields load
  cases hc : sm.localCache.lookup id with
  | some =>
    rw [hc] at h
    cases h
    rfl
  | none =>
    rw [hc] at h
    rw [show sm.store.lookup id = some cp from h]
    simp [saveDirect]

@[simp] theorem known_saveDirect (sm : SessionManager Msg) (id : String) (cp : Checkpoint Msg) :
    (sm.saveDirect id cp).known id = some cp := by
  simp [known, saveDirect]

theorem settle_of_known (h : sm.known id = some cp) :
    sm.settle id m = (sm.register m.key id).saveDirect id (cp.touch m) :=
  updateCheckpointFields_of_known h

variable (cp' : Checkpoint Msg) {key : Key}

theorem saveDirect_saveDirect : (sm.saveDirect id cp').saveDirect id cp = sm.saveDirect id cp := by
  simp [saveDirect]

theorem register_saveDirect (key : Key) (id' : String) :
    (sm.saveDirect id cp).register key id' = (sm.register key id').saveDirect id cp := rfl

theorem settle_reopen : (sm.reopen id cp m).settle id m = sm.adopt id cp m := by
  have hk : (sm.reopen id cp m).known id = some (cp.touch m) := known_saveDirect _ _ _
  rw [settle_of_known hk, reopen, register_saveDirect, saveDirect_saveDirect]
  rfl

theorem settle_reloadAndRebuild (h : sm.store.lookup id = some cp) :
    (sm.reloadAndRebuild id m).settle id m = sm.adopt id cp m := by
  have hr : sm.reloadAndRebuild id m = ((sm.rebuildSession id cp).ensureSession id m).saveDirect id cp := by
    unfold reloadAndRebuild
    rw [h]
    rfl
  rw [hr, settle_of_known (known_saveDirect _ _ _), register_saveDirect, saveDirect_saveDirect]
  rfl

theorem adopt_setStatus (status : SessionStatus) : (sm.setStatus id cp' status).adopt id cp m = sm.adopt id cp m := by
  simp [adopt, setStatus, saveDirect, register, ensureSession, rebuildSession]

theorem adopt_load : ({ sm with localCache := sm.localCache.insert id cp } : SessionManager Msg).adopt id cp m =
    sm.adopt id cp m := by
  simp [adopt, saveDirect, register, ensureSession, rebuildSession]

theorem tryRestoreArchivedSession_eq_some {sm' : SessionManager Msg} (h : sm.tryRestoreArchivedSession id = some sm') :
    ∃ cp, sm.store.lookup id = some cp ∧ cp.status = .archived ∧ sm' = sm.setStatus id cp .active := by
  unfold tryRestoreArchivedSession at h
  cases hcp : sm.store.lookup id with
  | none =>
    rw [hcp] at h
    cases h
  | some cp =>
    simp only [hcp, restoreCheckpoint] at h
    split at h
    · next ha =>
      have hne : cp.status ≠ .active := by simp [ha]
      rw [if_neg hne] at h
      exact ⟨cp, rfl, ha, (Option.some.inj h).symm⟩
    · cases h

theorem restoreMigratingOnTimeout_of_migrating (h : sm.store.lookup id = some cp) (hst : cp.status = .migrating) :
    sm.restoreMigratingOnTimeout id m = some (sm.adopt id { cp with status := .active } m) := by
  have hne : cp.status ≠ .active := by simp [hst]
  have hrow : (sm.setStatus id cp .active).store.lookup id = some { cp with status := .active } := by
    simp [setStatus]
  simp only [restoreMigratingOnTimeout, restoreCheckpoint, h, if_neg hne, Option.map_some,
    settle_reloadAndRebuild hrow, adopt_setStatus]

theorem waitForArchiveCompletion_of_migrating (h : sm.store.lookup id = some cp) (hst : cp.status = .migrating)
    (archives : Bool) :
    sm.waitForArchiveCompletion id archives =
      if archives then (true, sm.setStatus id cp .archived) else (false, sm) := by
  simp [waitForArchiveCompletion, h, hst]

theorem settle_reopenArchived (h : sm.store.lookup id = some cp) :
    (sm.reopenArchived id m).settle id m = sm.adopt id ((sm.localCache.lookup id).getD cp) m := by
  unfold reopenArchived load
  cases hc : sm.localCache.lookup id with
  | some => exact settle_reopen
  | none =>
    rw [h]
    exact settle_reopen.trans adopt_load

theorem live_eq_some (h : sm.live key = some id) :
    sm.keyRegistry.lookup key = some id ∧ ∃ s, sm.sessions.lookup id = some s := by
  obtain ⟨hk, hs⟩ := Option.filter_eq_some_iff.mp h
  exact ⟨hk, Option.isSome_iff_exists.mp (by simpa using hs)⟩

theorem live_of_lookup {s : Session} (hk : sm.keyRegistry.lookup key = some id) (hs : sm.sessions.lookup id = some s) :
    sm.live key = some id := by
  simp [live, hk, hs]

end SessionManager

open SessionManager

/-! ## A cache that is in order -/

structure Settled (sm : SessionManager Msg) : Prop where
  cached : ∀ id s, sm.sessions.lookup id = some s → ∃ cp, sm.localCache.lookup id = some cp
  active : ∀ id cp, sm.localCache.lookup id = some cp → cp.status = .active

inductive Swept (sm : SessionManager Msg) : SessionManager Msg → Prop
  | same : Swept sm sm
  | archived {id : String} {cp : Checkpoint Msg} (h : sm.store.lookup id = some cp) (hst : cp.status = .migrating) :
      Swept sm (sm.setStatus id cp .archived)

inductive Resolves (sm : SessionManager Msg) (m : Message) (newId : String) (now : Int) :
    String × SessionManager Msg → Prop
  | live {id : String} {s : Session} {cp : Checkpoint Msg} (hk : sm.keyRegistry.lookup m.key = some id)
      (hs : sm.sessions.lookup id = some s) (hc : sm.localCache.lookup id = some cp) :
      Resolves sm m newId now (id, sm.saveDirect id (cp.touch m))
  | inactive {id : String} {cp : Checkpoint Msg} (hk : sm.keyRegistry.lookup m.key = some id)
      (hs : sm.sessions.lookup id = none) (hcp : sm.store.lookup id = some cp) (hst : cp.status = .archived) :
      Resolves sm m newId now (id, sm.adopt id { cp with status := .active } m)
  | healed {id : String} {cp : Checkpoint Msg} (hl : sm.live m.key = none) (hcp : sm.store.lookup id = some cp)
      (hst : cp.status = .active) (hr : cp.RoutedBy m) : Resolves sm m newId now (id, sm.heal id m)
  | timedOut {id : String} {cp : Checkpoint Msg} (hl : sm.live m.key = none) (hcp : sm.store.lookup id = some cp)
      (hst : cp.status = .migrating) (hr : cp.RoutedBy m) :
      Resolves sm m newId now (id, sm.adopt id { cp with status := .active } m)
  | reopened {sm' : SessionManager Msg} {id : String} {cp : Checkpoint Msg} (hl : sm.live m.key = none)
      (hsw : Swept sm sm') (hcp : sm'.store.lookup id = some cp) (hst : cp.status = .archived) (hr : cp.RoutedBy m) :
      Resolves sm m newId now (id, sm'.adopt id ((sm'.localCache.lookup id).getD { cp with status := .active }) m)
  | created {sm' : SessionManager Msg} (hl : sm.live m.key = none)
      (hno : ∀ id cp, sm.store.lookup id = some cp → cp.status = .active → ¬ cp.RoutedBy m) (hsw : Swept sm sm') :
      Resolves sm m newId now (newId, sm'.create m newId now)

section Paths

variable {Q : RowChoice} {sm : SessionManager Msg} {m : Message} {newId : String} {now : Int} {archives : Bool}

variable {status : SessionStatus} {id : String}

theorem mem_rows {e : Sigma fun _ : String => Checkpoint Msg} (h : e ∈ sm.rows status m) :
    sm.store.lookup e.1 = some e.2 ∧ e.2.status = status ∧ e.2.RoutedBy m := by
  obtain ⟨he, hp⟩ := mem_filter.mp h
  simp only [decide_eq_true_eq] at hp
  exact ⟨mem_lookup_iff.mpr he, hp⟩

theorem row_of_findByRouting (h : sm.findByRouting Q status m = some id) :
    ∃ cp, sm.store.lookup id = some cp ∧ cp.status = status ∧ cp.RoutedBy m := by
  obtain ⟨e, he, rfl⟩ := mem_map.mp (Q.mem_of_pick _ _ h)
  exact ⟨e.2, mem_rows he⟩

theorem no_row_of_findByRouting (h : sm.findByRouting Q status m = none) {cp : Checkpoint Msg}
    (hcp : sm.store.lookup id = some cp) (hst : cp.status = status) : ¬ cp.RoutedBy m := by
  intro hr
  have hmem : ⟨id, cp⟩ ∈ sm.rows status m := mem_filter.mpr ⟨mem_lookup_iff.mp hcp, by simp [hst, hr]⟩
  have hsome := Q.isSome_pick ((sm.rows status m).map (·.1)) (fun e => by simp [map_eq_nil_iff.mp e] at hmem)
  rw [show Q.pick ((sm.rows status m).map (·.1)) = none from h] at hsome
  cases hsome

theorem row_of_findArchived (h : sm.findArchived Q m = some id) :
    ∃ cp, sm.store.lookup id = some cp ∧ cp.status = .archived ∧ cp.RoutedBy m := by
  obtain ⟨e, he, rfl⟩ := mem_map.mp (Q.mem_of_pick _ _ h)
  exact ⟨e.2, mem_rows (mem_of_mem_filter he)⟩

theorem resolveArchived_resolves {sm' : SessionManager Msg} (hl : sm.live m.key = none)
    (hno : ∀ id cp, sm.store.lookup id = some cp → cp.status = .active → ¬ cp.RoutedBy m) (hsw : Swept sm sm') :
    Resolves sm m newId now (sm'.resolveArchived Q m newId now) := by
  unfold resolveArchived
  split
  · next id hid =>
    obtain ⟨cp, hcp, hst, hr⟩ := row_of_findArchived hid
    split
    · next sm'' hsm'' =>
      obtain ⟨cp', hcp', -, rfl⟩ := tryRestoreArchivedSession_eq_some hsm''
      cases hcp.symm.trans hcp'
      have hrow : (sm'.setStatus id cp .active).store.lookup id = some { cp with status := .active } := by
        simp [setStatus]
      rw [settle_reopenArchived hrow, adopt_setStatus]
      exact .reopened hl hsw hcp hst hr
    · exact .created hl hno hsw
  · exact .created hl hno hsw

theorem resolveMigrating_resolves (hl : sm.live m.key = none)
    (hno : ∀ id cp, sm.store.lookup id = some cp → cp.status = .active → ¬ cp.RoutedBy m) :
    Resolves sm m newId now (sm.resolveMigrating Q m newId now archives) := by
  unfold resolveMigrating
  split
  · next id hid =>
    obtain ⟨cp, hcp, hst, hr⟩ := row_of_findByRouting hid
    rw [waitForArchiveCompletion_of_migrating hcp hst]
    cases archives with
    | true => exact resolveArchived_resolves hl hno (.archived hcp hst)
    | false =>
      simp only [Bool.false_eq_true, if_false, restoreMigratingOnTimeout_of_migrating hcp hst]
      exact .timedOut hl hcp hst hr
  · exact resolveArchived_resolves hl hno .same

theorem resolveMiss_resolves (hl : sm.live m.key = none) :
    Resolves sm m newId now (sm.resolveMiss Q m newId now archives) := by
  unfold resolveMiss
  rw [hl]
  simp only
  split
  · next id hid =>
    obtain ⟨cp, hcp, hst, hr⟩ := row_of_findByRouting hid
    exact .healed hl hcp hst hr
  · next hnone => exact resolveMigrating_resolves hl fun id cp hcp hst => no_row_of_findByRouting hnone hcp hst

theorem resolve_resolves (hs : Settled sm) : Resolves sm m newId now (sm.resolve Q m newId now archives) := by
  unfold resolve
  split
  · next hk => exact resolveMiss_resolves (by simp [live, hk])
  · next id hk =>
    split
    · next s hsess =>
      obtain ⟨cp, hc⟩ := hs.cached id s hsess
      have hknown : sm.known id = some cp := by simp [known, hc]
      have hload : sm.load id = (some cp, sm) := by simp [SessionManager.load, hc]
      simp only [resolveLive, hload, hs.active id cp hc, updateCheckpointFields_of_known hknown]
      exact .live hk hsess hc
    · next hsess =>
      unfold resolveInactive
      split
      · next sm' hsm' =>
        obtain ⟨cp, hcp, hst, rfl⟩ := tryRestoreArchivedSession_eq_some hsm'
        have hrow : (sm.setStatus id cp .active).store.lookup id = some { cp with status := .active } := by
          simp [setStatus]
        simp only [hrow, settle_reopen, adopt_setStatus]
        exact .inactive hk hsess hcp hst
      · exact resolveMiss_resolves (by simp [live, hk, hsess])

end Paths

/-! ## Every run keeps the cache in order -/

section Runs

variable {sm sm' : SessionManager Msg} {id x : String} {cp : Checkpoint Msg} {m : Message}

section Maps

variable {α β : Type} [DecidableEq α] {s : AList fun _ : α => β} {a k : α} {b v : β}

theorem lookup_insert_of (h : (s.insert a b).lookup k = some v) : k = a ∧ v = b ∨ k ≠ a ∧ s.lookup k = some v := by
  by_cases hk : k = a
  · subst hk
    rw [lookup_insert] at h
    exact .inl ⟨rfl, (Option.some.inj h).symm⟩
  · rw [lookup_insert_ne hk] at h
    exact .inr ⟨hk, h⟩

theorem lookup_insert_or (h : (s.insert a b).lookup k = some v) : k = a ∨ ∃ v', s.lookup k = some v' := by
  rcases lookup_insert_of h with ⟨rfl, -⟩ | ⟨-, h⟩
  · exact .inl rfl
  · exact .inr ⟨v, h⟩

theorem lookup_insert_kept (h : s.lookup k = some v) : ∃ v', (s.insert a b).lookup k = some v' := by
  by_cases hk : k = a
  · subst hk
    exact ⟨b, lookup_insert _⟩
  · exact ⟨v, by rw [lookup_insert_ne hk, h]⟩

end Maps

theorem withSession_lookup_of {sessions : AList fun _ : String => Session} {s : Session}
    (h : (withSession sessions id m).lookup x = some s) : x = id ∨ ∃ s', sessions.lookup x = some s' := by
  unfold withSession at h
  split at h
  · exact .inr ⟨s, h⟩
  · exact lookup_insert_or h

theorem withSession_lookup_self (sessions : AList fun _ : String => Session) (id : String) (m : Message) :
    ∃ s, (withSession sessions id m).lookup id = some s := by
  unfold withSession
  split
  · next s hs => exact ⟨s, hs⟩
  · exact ⟨_, lookup_insert _⟩

theorem lookup_withSession_kept {sessions : AList fun _ : String => Session} {s : Session}
    (h : sessions.lookup x = some s) : ∃ s', (withSession sessions id m).lookup x = some s' := by
  unfold withSession
  split
  · exact ⟨s, h⟩
  · exact lookup_insert_kept h

theorem Settled.save (hs : Settled sm) (hcache : sm'.localCache = sm.localCache)
    (hsess : ∀ x s, sm'.sessions.lookup x = some s → x = id ∨ ∃ s', sm.sessions.lookup x = some s')
    (hcp : cp.status = .active) : Settled (sm'.saveDirect id cp) := by
  constructor
  · intro x s hx
    by_cases hxi : x = id
    · subst hxi
      exact ⟨cp, lookup_insert _⟩
    · rcases hsess x s hx with h | ⟨s', h⟩
      · exact absurd h hxi
      · obtain ⟨c, hc⟩ := hs.cached x s' h
        exact ⟨c, by rw [saveDirect, lookup_insert_ne hxi, hcache, hc]⟩
  · intro x c hc
    rcases lookup_insert_of hc with ⟨-, rfl⟩ | ⟨-, hc⟩
    · exact hcp
    · exact hs.active x c (hcache ▸ hc)

theorem Swept.settled (h : Swept sm sm') (hs : Settled sm) : Settled sm' := by
  cases h with
  | same => exact hs
  | archived => exact ⟨hs.cached, hs.active⟩

theorem Settled.adopt (hs : Settled sm) (hcp : cp.status = .active) : Settled (sm.adopt id cp m) :=
  hs.save rfl (fun _ _ h => withSession_lookup_of h) hcp

theorem Settled.known_active (hs : Settled sm) (hcp : sm.store.lookup id = some cp) (hst : cp.status = .active) :
    ∃ c, sm.known id = some c ∧ c.status = .active := by
  unfold known
  cases hc : sm.localCache.lookup id with
  | some c => exact ⟨c, rfl, hs.active id c hc⟩
  | none => exact ⟨cp, by simpa using hcp, hst⟩

theorem heal_of_known {c : Checkpoint Msg} (h : sm.known id = some c) :
    sm.heal id m = ((sm.register m.key id).ensureSession id m).saveDirect id (c.touch m) :=
  updateCheckpointFields_of_known h

theorem getD_active (hs : Settled sm) (id : String) (cp : Checkpoint Msg) :
    ((sm.localCache.lookup id).getD { cp with status := .active }).status = .active := by
  cases hc : sm.localCache.lookup id with
  | some c => exact hs.active id c hc
  | none => rfl

theorem Resolves.settled {newId : String} {now : Int} {r : String × SessionManager Msg} (hs : Settled sm)
    (h : Resolves sm m newId now r) : Settled r.2 := by
  cases h with
  | live hk hsess hc =>
    have hact := hs.active _ _ hc
    exact hs.save rfl (fun x s h => .inr ⟨s, h⟩) hact
  | inactive | timedOut => exact hs.adopt rfl
  | healed hl hcp hst =>
    obtain ⟨c, hc, hact⟩ := hs.known_active hcp hst
    rw [heal_of_known hc]
    exact hs.save rfl (fun _ _ h => withSession_lookup_of h) hact
  | reopened hl hsw =>
    have hs' := hsw.settled hs
    exact hs'.adopt (getD_active hs' _ _)
  | created hl hno hsw => exact (hsw.settled hs).save rfl (fun _ _ h => lookup_insert_or h) rfl

theorem Settled.forceNew (hs : Settled sm) (channel agentId newId : String) (now : Int) :
    Settled (sm.forceNewForChannel channel agentId newId now) :=
  hs.save rfl (fun _ _ h => lookup_insert_or h) rfl

theorem sweep_eq (sm : SessionManager Msg) (id : String) (among : List SessionStatus) (status : SessionStatus) :
    ∃ store, sm.sweep id among status = { sm with store } := by
  unfold sweep
  split
  · split
    · exact ⟨_, rfl⟩
    · exact ⟨_, rfl⟩
  · exact ⟨_, rfl⟩

theorem purge_eq (sm : SessionManager Msg) (id : String) : ∃ store, sm.purge id = { sm with store } := by
  unfold purge
  split
  · split
    · exact ⟨_, rfl⟩
    · exact ⟨_, rfl⟩
  · exact ⟨_, rfl⟩

structure Started (store : AList fun _ : String => Checkpoint Msg) (sm : SessionManager Msg) : Prop where
  store : sm.store = store
  sessions : sm.sessions = ∅
  conversations : sm.conversations = ∅
  active : ∀ id cp, sm.localCache.lookup id = some cp → cp.status = .active

theorem Started.load {store : AList fun _ : String => Checkpoint Msg} (hs : Started store sm)
    (hcp : ∀ cp, store.lookup id = some cp → cp.status = .active) : Started store (sm.load id).2 := by
  unfold SessionManager.load
  split
  · exact hs
  · split
    · next cp hrow =>
      refine ⟨hs.store, hs.sessions, hs.conversations, fun x c hc => ?_⟩
      rcases lookup_insert_of hc with ⟨-, rfl⟩ | ⟨-, hc⟩
      · exact hcp _ (hs.store ▸ hrow)
      · exact hs.active x c hc
    · exact hs

theorem rebuildStep_fst (acc : SessionManager Msg × AList fun _ : Key => Int × String) (id : String) :
    (rebuildStep acc id).1 = (acc.1.load id).2 := by
  unfold rebuildStep
  split
  · next hl =>
    rw [hl]
    split <;> rfl
  · next hl => rw [hl]

theorem Started.rebuild {store : AList fun _ : String => Checkpoint Msg} {ids : List String}
    (hids : ∀ id ∈ ids, ∀ cp, store.lookup id = some cp → cp.status = .active)
    {acc : SessionManager Msg × AList fun _ : Key => Int × String} (hs : Started store acc.1) :
    Started store (ids.foldl rebuildStep acc).1 := by
  induction ids generalizing acc with
  | nil => exact hs
  | cons id ids ih =>
    refine ih (fun x hx => hids x (mem_cons_of_mem _ hx)) ?_
    rw [rebuildStep_fst]
    exact hs.load (hids id mem_cons_self)

theorem Started.register {store : AList fun _ : String => Checkpoint Msg} (hs : Started store sm)
    (best : List (Sigma fun _ : Key => Int × String)) :
    Started store (best.foldl (fun sm e => sm.register e.1 e.2.2) sm) := by
  induction best generalizing sm with
  | nil => exact hs
  | cons e best ih => exact ih ⟨hs.store, hs.sessions, hs.conversations, hs.active⟩

theorem active_of_mem_listActiveSessions (h : id ∈ sm.listActiveSessions) (hcp : sm.store.lookup id = some cp) :
    cp.status = .active := by
  obtain ⟨e, he, rfl⟩ := mem_map.mp h
  obtain ⟨hmem, hst⟩ := mem_filter.mp he
  have hrow : sm.store.lookup e.1 = some e.2 := mem_lookup_iff.mpr hmem
  cases hrow.symm.trans hcp
  simpa using hst

theorem started_restart (sm : SessionManager Msg) : Started sm.store sm.restart := by
  have hfresh : Started sm.store ({ store := sm.store } : SessionManager Msg) :=
    ⟨rfl, rfl, rfl, fun id cp h => by cases h⟩
  have hrebuilt : Started sm.store (sm.listActiveSessions.foldl rebuildStep ({ store := sm.store }, ∅)).1 :=
    Started.rebuild (fun id hid cp hcp => active_of_mem_listActiveSessions hid hcp) hfresh
  exact hrebuilt.register _

theorem Started.settled {store : AList fun _ : String => Checkpoint Msg} (hs : Started store sm) : Settled sm := by
  refine ⟨fun id s h => ?_, hs.active⟩
  rw [hs.sessions] at h
  cases h

theorem Settled.step {Q : RowChoice} (hs : Settled sm) (e : Event) : Settled (step Q sm e) := by
  cases e with
  | message => exact (resolve_resolves hs).settled hs
  | new channel agentId newId now => exact hs.forceNew channel agentId newId now
  | markMigrating id =>
    obtain ⟨store, h⟩ := sweep_eq sm id [.active] .migrating
    rw [Sessions.step, h]
    exact ⟨hs.cached, hs.active⟩
  | archive id =>
    obtain ⟨store, h⟩ := sweep_eq sm id [.active, .migrating] .archived
    rw [Sessions.step, h]
    exact ⟨hs.cached, hs.active⟩
  | purge id =>
    obtain ⟨store, h⟩ := purge_eq sm id
    rw [Sessions.step, h]
    exact ⟨hs.cached, hs.active⟩
  | restart => exact (started_restart sm).settled

theorem settled_run (Q : RowChoice) (store : AList fun _ : String => Checkpoint Msg) (events : List Event) :
    Settled (Trace.run (step Q) { store } events) := by
  refine Trace.invariant (fun sm e hs => hs.step e) ⟨?_, ?_⟩ events
  · intro id s h
    cases h
  · intro id cp h
    cases h

end Runs

end CloseClaw.Gateway.Sessions
