/- The SQLite session store (`storage/sqlite.rs`, `archive_support.rs`), each operation as a
   function and as its calls (`Pc.step`). -/

import Mathlib.Data.List.AList
import CloseClaw.Lib.LineFormat
import CloseClaw.Lib.Trace

namespace CloseClaw.Session

open Lib List

inductive SessionStatus where
  | active
  | migrating
  | archived
  deriving DecidableEq

inductive AgentRole where
  | mainAgent
  | subAgent
  deriving DecidableEq

inductive PersistenceError where
  | notFound (sessionId : String)
  | io
  | serialization
  deriving DecidableEq

structure SessionCheckpoint (Msg Rest : Type) where
  sessionId : String
  status : SessionStatus
  lastMessageAt : Option Int
  agentId : Option String
  role : Option AgentRole
  pendingOperations : List String
  pendingMessages : List Msg
  rest : Rest
  deriving DecidableEq

structure SessionRow (Rest : Type) where
  status : SessionStatus
  lastMessageAt : Int
  archivedAt : Option Int
  agentId : String
  role : AgentRole
  rest : Rest

structure TranscriptFile where
  text : List Char
  mtime : Int

structure Slot (Rest : Type) where
  row : Option (SessionRow Rest)
  active : Option TranscriptFile
  archived : Option TranscriptFile

def Slot.empty {Rest : Type} : Slot Rest := ⟨none, none, none⟩

structure StoreCodec (Msg Rest : Type) where
  transcript : LineCodec Msg
  pieces : List Msg → List (List Char)
  pieces_flatten : ∀ ms, (pieces ms).flatten = transcript.text ms
  reload : Rest → Rest

variable {Msg Rest : Type}

def Slot.status (s : Slot Rest) : Option SessionStatus := s.row.map (·.status)

def sessionRow (c : SessionCheckpoint Msg Rest) : SessionRow Rest where
  status := c.status
  lastMessageAt := c.lastMessageAt.getD 0
  archivedAt := none
  agentId := c.agentId.getD "unknown"
  role := c.role.getD .mainAgent
  rest := c.rest

def saveCheckpointInner (C : StoreCodec Msg Rest) (now : Int) (c : SessionCheckpoint Msg Rest) (s : Slot Rest) :
    Slot Rest :=
  { s with row := some (sessionRow c), active := some ⟨C.transcript.text c.pendingMessages, now / 1000⟩ }

def Slot.stampArchived (now : Int) (s : Slot Rest) : Slot Rest :=
  { s with row := s.row.map fun r => { r with status := .archived, archivedAt := some now } }

def Slot.markMigrating (s : Slot Rest) : Slot Rest :=
  { s with row := s.row.map fun r => { r with status := .migrating } }

def Slot.markActive (s : Slot Rest) : Slot Rest :=
  { s with row := s.row.map fun r => { r with status := .active, archivedAt := none } }

def finishArchive (now : Int) (s : Slot Rest) : Except PersistenceError Unit × Slot Rest :=
  match s.archived, s.active with
  | some _, _ => (.ok (), s.stampArchived now)
  | none, some f => (.ok (), { s with active := none, archived := some f }.stampArchived now)
  | none, none => (.error .io, s)

def doArchive (now : Int) (s : Slot Rest) : Except PersistenceError Unit × Slot Rest :=
  match s.status with
  | some .archived => (.ok (), s)
  | some .migrating => finishArchive now s
  | some .active => finishArchive now s.markMigrating
  | none => (.ok (), s)

def Slot.transcriptFile (s : Slot Rest) : SessionStatus → Option TranscriptFile
  | .active => s.active
  | .migrating => s.archived.or s.active
  | .archived => s.archived

def readTranscript (C : StoreCodec Msg Rest) (id : String) : Option TranscriptFile → Except PersistenceError (List Msg)
  | none => .error (.notFound id)
  | some f => match C.transcript.read f.text with
    | none => .error .serialization
    | some ms => .ok ms

def buildCheckpoint (C : StoreCodec Msg Rest) (id : String) (r : SessionRow Rest) (ms : List Msg) :
    SessionCheckpoint Msg Rest where
  sessionId := id
  status := r.status
  lastMessageAt := if r.lastMessageAt > 0 then some r.lastMessageAt else none
  agentId := if r.agentId.isEmpty then none else some r.agentId
  role := some r.role
  pendingOperations := []
  pendingMessages := ms
  rest := C.reload r.rest

def loadCheckpointInner (C : StoreCodec Msg Rest) (id : String) (s : Slot Rest) :
    Except PersistenceError (Option (SessionCheckpoint Msg Rest)) :=
  match s.row with
  | none => .ok none
  | some r => (readTranscript C id (s.transcriptFile r.status)).map fun ms => some (buildCheckpoint C id r ms)

def Slot.moveBack (s : Slot Rest) : Slot Rest :=
  match s.archived, s.active with
  | some f, none => { s with active := some f, archived := none }
  | _, _ => s

def doRestore (C : StoreCodec Msg Rest) (id : String) (s : Slot Rest) :
    Except PersistenceError (Option (SessionCheckpoint Msg Rest)) × Slot Rest :=
  match s.status with
  | none => (.error (.notFound id), s)
  | some .active => (.error (.notFound id), s)
  | some _ => (loadCheckpointInner C id s.moveBack.markActive, s.moveBack.markActive)

def doPurge (s : Slot Rest) : Slot Rest := { s with row := none, archived := none }

def deleteCheckpoint (_ : Slot Rest) : Slot Rest := Slot.empty

inductive Pc (Msg Rest : Type) where
  | insertRow (c : SessionCheckpoint Msg Rest)
  | createFile (pieces : List (List Char))
  | writeFile (offset : Nat) (piece : List Char) (pieces : List (List Char))
  | markMigrating
  | testArchived
  | moveToArchived
  | stampArchived
  | readStatus
  | testSource
  | testTarget
  | moveToActive
  | commitActive
  | deleteRow
  | removeActive
  | removeArchived
  | finished (result : Except PersistenceError Unit)

def TranscriptFile.writeAt (f : TranscriptFile) (offset : Nat) (piece : List Char) (now : Int) : TranscriptFile :=
  let before := f.text.take offset ++ List.replicate (offset - f.text.length) (Char.ofNat 0)
  ⟨before ++ piece ++ f.text.drop (offset + piece.length), now / 1000⟩

def Pc.writing (offset : Nat) : List (List Char) → Pc Msg Rest
  | [] => .finished (.ok ())
  | piece :: pieces => .writeFile offset piece pieces

open Pc

theorem Pc.writing_cons (offset : Nat) (piece : List Char) (pieces : List (List Char)) :
    (writing offset (piece :: pieces) : Pc Msg Rest) = .writeFile offset piece pieces := rfl

def Pc.step (C : StoreCodec Msg Rest) (id : String) (now : Int) : Pc Msg Rest → Slot Rest → Pc Msg Rest × Slot Rest
  | .insertRow c, s => (.createFile (C.pieces c.pendingMessages), { s with row := some (sessionRow c) })
  | .createFile pieces, s => (.writing 0 pieces, { s with active := some ⟨[], now / 1000⟩ })
  | .writeFile offset piece pieces, s =>
    (.writing (offset + piece.length) pieces, { s with active := s.active.map (·.writeAt offset piece now) })
  | .markMigrating, s =>
    match s.status with
    | some .archived => (.finished (.ok ()), s)
    | some .migrating => (.testArchived, s)
    | some .active => (.testArchived, s.markMigrating)
    | none => (.finished (.ok ()), s)
  | .testArchived, s => (if s.archived.isSome then .stampArchived else .moveToArchived, s)
  | .moveToArchived, s =>
    match s.active with
    | none => (.finished (.error .io), s)
    | some f => (.stampArchived, { s with active := none, archived := some f })
  | .stampArchived, s => (.finished (.ok ()), s.stampArchived now)
  | .readStatus, s =>
    match s.status with
    | none => (.finished (.error (.notFound id)), s)
    | some .active => (.finished (.error (.notFound id)), s)
    | some _ => (.testSource, s)
  | .testSource, s => (if s.archived.isSome then .testTarget else .commitActive, s)
  | .testTarget, s => (if s.active.isSome then .commitActive else .moveToActive, s)
  | .moveToActive, s =>
    match s.archived with
    | none => (.finished (.error .io), s)
    | some f => (.commitActive, { s with active := some f, archived := none })
  | .commitActive, s => (.finished (.ok ()), s.markActive)
  | .deleteRow, s => (.removeActive, { s with row := none })
  | .removeActive, s => (.removeArchived, { s with active := none })
  | .removeArchived, s => (.finished (.ok ()), { s with archived := none })
  | .finished result, s => (.finished result, s)

inductive WriteCall (Msg Rest : Type) where
  | save (c : SessionCheckpoint Msg Rest)
  | archive
  | restore

def WriteCall.start : WriteCall Msg Rest → Pc Msg Rest
  | .save c => .insertRow c
  | .archive => .markMigrating
  | .restore => .readStatus

def Pc.steps (C : StoreCodec Msg Rest) (id : String) (p : Pc Msg Rest × Slot Rest) (times : List Int) :
    Pc Msg Rest × Slot Rest :=
  Trace.run (fun p now => p.1.step C id now p.2) p times

variable (C : StoreCodec Msg Rest)

@[simp] theorem Pc.steps_nil (id : String) (p : Pc Msg Rest × Slot Rest) : steps C id p [] = p := rfl

@[simp] theorem Pc.steps_cons (id : String) (p : Pc Msg Rest × Slot Rest) (now : Int)
    (times : List Int) : steps C id p (now :: times) = steps C id (p.1.step C id now p.2) times := rfl

@[simp] theorem Pc.steps_finished (id : String) (r : Except PersistenceError Unit) (s : Slot Rest)
    (times : List Int) : steps C id (.finished r, s) times = (.finished r, s) := by
  induction times with
  | nil => rfl
  | cons now times ih => exact ih

@[simp] theorem TranscriptFile.writeAt_length (f : TranscriptFile) (piece : List Char) (now : Int) :
    f.writeAt f.text.length piece now = ⟨f.text ++ piece, now / 1000⟩ := by
  simp [writeAt]

variable (C : StoreCodec Msg Rest) (id : String) (now : Int)

theorem archive_steps (s : Slot Rest) :
    steps C id (.markMigrating, s) (List.replicate 4 now) = ((doArchive now s).map finished fun s' => s') := by
  obtain ⟨row, active, archived⟩ := s
  rcases row with _ | ⟨status, at_, archivedAt, agent, role, rest⟩
  · rfl
  · cases status <;> cases active <;> cases archived <;> rfl

theorem restore_steps (s : Slot Rest) :
    (steps C id (.readStatus, s) (List.replicate 5 now)).2 = (doRestore C id s).2 := by
  obtain ⟨row, active, archived⟩ := s
  rcases row with _ | ⟨status, at_, archivedAt, agent, role, rest⟩
  · rfl
  · cases status <;> cases active <;> cases archived <;> rfl

theorem delete_steps (s : Slot Rest) :
    steps C id (.deleteRow, s) (List.replicate 3 now) = (.finished (.ok ()), deleteCheckpoint s) := rfl

theorem doArchive_eq (now : Int) {s : Slot Rest} {r : SessionRow Rest} (hr : s.row = some r)
    (hst : r.status ≠ .archived) (hf : (s.archived.or s.active).isSome = true) :
    doArchive now s = (.ok (), ⟨some { r with status := .archived, archivedAt := some now },
      if s.archived.isSome then s.active else none, s.archived.or s.active⟩) := by
  obtain ⟨row, active, archived⟩ := s
  obtain ⟨status, at_, archivedAt, agent, role, rest⟩ := r
  obtain rfl : row = some _ := hr
  cases status with
  | archived => exact absurd rfl hst
  | _ => cases archived <;> cases active <;> first | rfl | cases hf

theorem newest_of_archived (active archived : Option TranscriptFile) :
    (if archived.isSome then active else none).or (archived.or active) = active.or archived := by
  cases active <;> cases archived <;> rfl

variable (Rest) in
abbrev Disk := AList fun _ : String => Slot Rest

namespace Disk

def slot (d : Disk Rest) (id : String) : Slot Rest := (d.lookup id).getD Slot.empty

def set (d : Disk Rest) (id : String) (s : Slot Rest) : Disk Rest := d.insert id s

def idsWhere (d : Disk Rest) (p : Slot Rest → Bool) : List String := d.keys.filter fun id => p (d.slot id)

def listActiveSessions (d : Disk Rest) : List String := d.idsWhere fun s => s.status == some .active

def listArchivedSessions (d : Disk Rest) : List String := d.idsWhere fun s => s.status == some .archived

def listMigratingSessions (d : Disk Rest) : List String := d.idsWhere fun s => s.status == some .migrating

variable {d : Disk Rest} {id j : String}

@[simp] theorem slot_empty : slot (∅ : Disk Rest) id = Slot.empty := rfl

theorem slot_set (s : Slot Rest) : (d.set id s).slot j = if j = id then s else d.slot j := by
  unfold slot set
  split
  · next h => rw [h, AList.lookup_insert]; rfl
  · next h => rw [AList.lookup_insert_ne h]

@[simp] theorem slot_set_self (s : Slot Rest) : (d.set id s).slot id = s := by simp [slot_set]

theorem slot_set_ne (s : Slot Rest) (h : j ≠ id) : (d.set id s).slot j = d.slot j := by simp [slot_set, h]

theorem nodup_idsWhere (p : Slot Rest → Bool) : (d.idsWhere p).Nodup := d.keys_nodup.filter _

theorem mem_idsWhere {p : Slot Rest → Bool} (hp : p Slot.empty = false) : id ∈ d.idsWhere p ↔ p (d.slot id) = true := by
  unfold idsWhere
  rw [mem_filter, and_iff_right_iff_imp]
  intro h
  by_contra hno
  have hlookup : d.lookup id = none := AList.lookup_eq_none.mpr hno
  simp [slot, hlookup, hp] at h

theorem mem_listActiveSessions : id ∈ d.listActiveSessions ↔ (d.slot id).status = some .active := by
  rw [listActiveSessions, mem_idsWhere rfl, beq_iff_eq]

theorem mem_listArchivedSessions : id ∈ d.listArchivedSessions ↔ (d.slot id).status = some .archived := by
  rw [listArchivedSessions, mem_idsWhere rfl, beq_iff_eq]

theorem mem_listMigratingSessions : id ∈ d.listMigratingSessions ↔ (d.slot id).status = some .migrating := by
  rw [listMigratingSessions, mem_idsWhere rfl, beq_iff_eq]

end Disk

end CloseClaw.Session
