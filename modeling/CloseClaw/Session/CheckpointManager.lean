/- Saving, archiving and restoring (`checkpoint_manager.rs`). -/

import CloseClaw.Session.Storage

namespace CloseClaw.Session

open Lib

variable {Msg Rest : Type}

structure CheckpointManager (Msg Rest : Type) where
  disk : Disk Rest
  localCache : AList fun _ : String => SessionCheckpoint Msg Rest
  agentId : Option String
  role : Option AgentRole

namespace CheckpointManager

def updateLocalCache (m : CheckpointManager Msg Rest) (c : SessionCheckpoint Msg Rest) : CheckpointManager Msg Rest :=
  { m with localCache := m.localCache.insert c.sessionId c }

def injectIdentity (agentId : Option String) (role : Option AgentRole) (c : SessionCheckpoint Msg Rest) :
    SessionCheckpoint Msg Rest :=
  { c with agentId := agentId.or c.agentId, role := role.or c.role }

def setSlot (m : CheckpointManager Msg Rest) (id : String) (s : Slot Rest) : CheckpointManager Msg Rest :=
  { m with disk := m.disk.set id s }

def saveCheckpoint (C : StoreCodec Msg Rest) (now : Int) (m : CheckpointManager Msg Rest)
    (c : SessionCheckpoint Msg Rest) :
    CheckpointManager Msg Rest :=
  m.setSlot c.sessionId (saveCheckpointInner C now c (m.disk.slot c.sessionId))

def save (m : CheckpointManager Msg Rest) (c : SessionCheckpoint Msg Rest) :
    SessionCheckpoint Msg Rest × CheckpointManager Msg Rest :=
  let c := injectIdentity m.agentId m.role c
  (c, m.updateLocalCache c)

def saveNow (C : StoreCodec Msg Rest) (now : Int) (m : CheckpointManager Msg Rest) (c : SessionCheckpoint Msg Rest) :
    CheckpointManager Msg Rest :=
  let c := injectIdentity m.agentId m.role c
  (m.updateLocalCache c).saveCheckpoint C now c

def saveDirect (C : StoreCodec Msg Rest) (now : Int) (m : CheckpointManager Msg Rest) (c : SessionCheckpoint Msg Rest) :
    CheckpointManager Msg Rest :=
  (m.updateLocalCache c).saveCheckpoint C now c

def load (C : StoreCodec Msg Rest) (m : CheckpointManager Msg Rest) (id : String) :
    Except PersistenceError (Option (SessionCheckpoint Msg Rest)) × CheckpointManager Msg Rest :=
  match m.localCache.lookup id with
  | some c => (.ok (some c), m)
  | none =>
    match loadCheckpointInner C id (m.disk.slot id) with
    | .ok (some c) => (.ok (some c), m.updateLocalCache c)
    | r => (r, m)

def delete (m : CheckpointManager Msg Rest) (id : String) : CheckpointManager Msg Rest :=
  { m with localCache := m.localCache.erase id }.setSlot id (deleteCheckpoint (m.disk.slot id))

def archive (now : Int) (m : CheckpointManager Msg Rest) (c : SessionCheckpoint Msg Rest) :
    Except PersistenceError Unit × CheckpointManager Msg Rest :=
  match doArchive now (m.disk.slot c.sessionId) with
  | (.error e, s) => (.error e, m.setSlot c.sessionId s)
  | (.ok (), s) => (.ok (), (m.setSlot c.sessionId s).delete c.sessionId)

def restore (C : StoreCodec Msg Rest) (now : Int) (m : CheckpointManager Msg Rest) (id : String) :
    Except PersistenceError (Option (SessionCheckpoint Msg Rest)) × CheckpointManager Msg Rest :=
  match doRestore C id (m.disk.slot id) with
  | (.ok (some c), s) =>
    let m := (m.setSlot id s).saveCheckpoint C now c
    (.ok (some c), (m.setSlot id (doPurge (m.disk.slot id))).updateLocalCache c)
  | (r, s) => (r, m.setSlot id s)

def activeSessionIds (m : CheckpointManager Msg Rest) : List String := m.disk.listActiveSessions

def archivedSessionIds (m : CheckpointManager Msg Rest) : List String := m.disk.listArchivedSessions

@[simp] theorem slot_setSlot (m : CheckpointManager Msg Rest) (id : String) (s : Slot Rest) :
    (m.setSlot id s).disk.slot id = s := by simp [setSlot]

@[simp] theorem disk_updateLocalCache (m : CheckpointManager Msg Rest) (c : SessionCheckpoint Msg Rest) :
    (m.updateLocalCache c).disk = m.disk := rfl

end CheckpointManager

inductive SaveCall where
  | save
  | saveNow
  | saveDirect

def SaveCall.run (C : StoreCodec Msg Rest) (now : Int) (m : CheckpointManager Msg Rest)
    (c : SessionCheckpoint Msg Rest) :
    SaveCall → CheckpointManager Msg Rest
  | .save => (m.save c).2.saveCheckpoint C now (m.save c).1
  | .saveNow => m.saveNow C now c
  | .saveDirect => m.saveDirect C now c

variable (C : StoreCodec Msg Rest)

theorem doArchive_save (c : SessionCheckpoint Msg Rest) (now later : Int) (s : Slot Rest) :
    (doArchive later (saveCheckpointInner C now c s)).1 = .ok () := by
  obtain ⟨row, active, archived⟩ := s
  obtain ⟨id, status, at_, agent, role, ops, ms, rest⟩ := c
  cases status <;> cases archived <;> rfl

variable {C} {m m' : CheckpointManager Msg Rest} {c : SessionCheckpoint Msg Rest} {id : String} {now : Int}

open CheckpointManager

theorem archive_empties_the_slot (h : m.archive now c = (.ok (), m')) : m'.disk.slot c.sessionId = Slot.empty := by
  unfold archive at h
  split at h
  · cases h
  · cases h
    simp [delete, deleteCheckpoint]

theorem restore_of_empty (h : m.disk.slot id = Slot.empty) : (m.restore C now id).1 = .error (.notFound id) := by
  simp [restore, h, doRestore, Slot.status, Slot.empty]

theorem slot_run (call : SaveCall) (m : CheckpointManager Msg Rest) (c : SessionCheckpoint Msg Rest) (now : Int) :
    ∃ c' : SessionCheckpoint Msg Rest, (call.run C now m c).disk.slot c.sessionId =
      saveCheckpointInner C now c' (m.disk.slot c.sessionId) := by
  cases call with
  | save => exact ⟨injectIdentity m.agentId m.role c, by
      simp [SaveCall.run, save, saveCheckpoint, injectIdentity]⟩
  | saveNow => exact ⟨injectIdentity m.agentId m.role c, by
      simp [SaveCall.run, saveNow, saveCheckpoint, injectIdentity]⟩
  | saveDirect => exact ⟨c, by simp [SaveCall.run, saveDirect, saveCheckpoint]⟩

theorem archive_of_doArchive (h : (doArchive now (m.disk.slot c.sessionId)).1 = .ok ()) :
    ∃ m', m.archive now c = (.ok (), m') := by
  unfold archive
  split
  · next he => simp [he] at h
  · exact ⟨_, rfl⟩

def ArchiveKeepsSession (C : StoreCodec Msg Rest) (now later : Int) (m : CheckpointManager Msg Rest)
    (c : SessionCheckpoint Msg Rest) : Prop :=
  ∀ m', m.archive now c = (.ok (), m') →
    c.sessionId ∈ m'.archivedSessionIds ∧ c.sessionId ∉ m'.activeSessionIds ∧
      ∀ r m'', m'.restore C later c.sessionId = (.ok r, m'') →
        c.sessionId ∈ m''.activeSessionIds ∧
          ∃ c', (m''.load C c.sessionId).1 = .ok (some c') ∧ c'.pendingMessages = c.pendingMessages

theorem archived_session_is_never_restored (C : StoreCodec Msg Rest) (call : SaveCall) (m : CheckpointManager Msg Rest)
    (c : SessionCheckpoint Msg Rest) (saved now later : Int) :
    ¬ ArchiveKeepsSession C now later (call.run C saved m c) c ∧
      ∃ m', (call.run C saved m c).archive now c = (.ok (), m') ∧ c.sessionId ∉ m'.archivedSessionIds ∧
        (m'.restore C later c.sessionId).1 = .error (.notFound c.sessionId) := by
  obtain ⟨c', hslot⟩ := slot_run (C := C) call m c saved
  obtain ⟨m', hm⟩ := archive_of_doArchive (m := call.run C saved m c) (c := c)
    (by rw [hslot]; exact doArchive_save C c' saved now _)
  have hempty := archive_empties_the_slot hm
  have hlist : c.sessionId ∉ m'.archivedSessionIds := by
    simp [archivedSessionIds, Disk.mem_listArchivedSessions, hempty, Slot.status, Slot.empty]
  exact ⟨fun hk => hlist (hk m' hm).1, m', hm, hlist, restore_of_empty hempty⟩

def noteLines : LineCodec Bool where
  line b := if b then ['[', '1', ']'] else ['[', '0', ']']
  parse l := if l = ['[', '1', ']'] then some true else if l = ['[', '0', ']'] then some false else none
  parse_line := by decide
  newline_not_mem := by decide
  return_not_mem := by decide
  starts b := by cases b <;> exact ⟨_, _, rfl, by decide⟩
  parse_cut b p hp hne := by
    have hlen : p.length < 3 := by
      have hle := hp.length_le
      rcases Nat.lt_or_ge p.length 3 with h | h
      · exact h
      · exact absurd (hp.eq_of_length (by cases b <;> simp_all <;> omega)) hne
    have h1 : p ≠ ['[', '1', ']'] := fun e => by simp [e] at hlen
    have h0 : p ≠ ['[', '0', ']'] := fun e => by simp [e] at hlen
    simp [h1, h0]

def noteStore : StoreCodec Bool Unit where
  transcript := noteLines
  pieces ms := ms.map fun b => noteLines.line b ++ ['\n']
  pieces_flatten _ := rfl
  reload _ := ()

def notes (marks : List Bool) : SessionCheckpoint Bool Unit where
  sessionId := "s1"
  status := .active
  lastMessageAt := some 1
  agentId := none
  role := none
  pendingOperations := []
  pendingMessages := marks
  rest := ()

def freshManager : CheckpointManager Bool Unit := ⟨∅, ∅, none, none⟩

theorem an_archived_note_is_not_listed :
    ¬ ArchiveKeepsSession noteStore 2000 3000 (freshManager.saveNow noteStore 1000 (notes [true])) (notes [true]) := by
  intro h
  have hlisted := (h _ rfl).1
  revert hlisted
  decide

end CloseClaw.Session
