/- SQLite against the file system (`consistency_check.rs`). -/

import CloseClaw.Lib.KeyedFold
import CloseClaw.Session.Storage

namespace CloseClaw.Session

open Lib Slot

variable {Msg Rest : Type}

inductive TranscriptDir where
  | sessions
  | archivedSessions
  deriving DecidableEq

namespace Slot

def file (s : Slot Rest) : TranscriptDir → Option TranscriptFile
  | .sessions => s.active
  | .archivedSessions => s.archived

def removeFile (s : Slot Rest) : TranscriptDir → Slot Rest
  | .sessions => { s with active := none }
  | .archivedSessions => { s with archived := none }

def listed (since : Int) (st : SessionStatus) (s : Slot Rest) : Bool :=
  match s.row with
  | none => false
  | some r => r.status == st && match st with
    | .archived => r.archivedAt.any fun t => decide (t > since)
    | _ => decide (r.lastMessageAt > since)

end Slot

def SessionStatus.dirs : SessionStatus → List TranscriptDir
  | .active => [.sessions]
  | .archived => [.archivedSessions]
  | .migrating => [.sessions, .archivedSessions]

def Slot.foundIn (dirs : List TranscriptDir) (s : Slot Rest) : Bool := dirs.any fun dir => (s.file dir).isSome

structure CheckState (Rest : Type) where
  disk : Disk Rest
  deletedOrphanedRecords : Nat
  deletedOrphanedFiles : Nat

namespace CheckState

def checkRecord (dirs : List TranscriptDir) (k : CheckState Rest) (id : String) : CheckState Rest :=
  if (k.disk.slot id).foundIn dirs then k
  else { k with
    disk := k.disk.set id { k.disk.slot id with row := none }
    deletedOrphanedRecords := k.deletedOrphanedRecords + 1 }

def checkRecords (since : Int) (st : SessionStatus) (k : CheckState Rest) : CheckState Rest :=
  (k.disk.idsWhere (listed since st)).foldl (checkRecord st.dirs) k

def checkFile (since : Int) (dir : TranscriptDir) (k : CheckState Rest) (id : String) : CheckState Rest :=
  match (k.disk.slot id).file dir with
  | none => k
  | some f =>
    if f.mtime ≤ since ∨ (k.disk.slot id).row.isSome then k
    else { k with
      disk := k.disk.set id ((k.disk.slot id).removeFile dir)
      deletedOrphanedFiles := k.deletedOrphanedFiles + 1 }

def scanDirForOrphans (since : Int) (dir : TranscriptDir) (k : CheckState Rest) : CheckState Rest :=
  (k.disk.idsWhere fun s => (s.file dir).isSome).foldl (checkFile since dir) k

def checkSqliteToFilesystemFiltered (since : Int) (k : CheckState Rest) : CheckState Rest :=
  ((k.checkRecords since .active).checkRecords since .archived).checkRecords since .migrating

def checkFilesystemToSqliteFiltered (since : Int) (k : CheckState Rest) : CheckState Rest :=
  (k.scanDirForOrphans since .sessions).scanDirForOrphans since .archivedSessions

end CheckState

def runIncrementalConsistencyCheck (since : Int) (d : Disk Rest) : CheckState Rest :=
  (CheckState.checkSqliteToFilesystemFiltered since ⟨d, 0, 0⟩).checkFilesystemToSqliteFiltered since

def runConsistencyCheck (d : Disk Rest) : CheckState Rest := runIncrementalConsistencyCheck 0 d

namespace Slot

def checkRecords (since : Int) (st : SessionStatus) (s : Slot Rest) : Slot Rest :=
  if s.listed since st = true ∧ s.foundIn st.dirs = false then { s with row := none } else s

def checkFile (since : Int) (dir : TranscriptDir) (s : Slot Rest) : Slot Rest :=
  match s.file dir with
  | none => s
  | some f => if f.mtime ≤ since ∨ s.row.isSome then s else s.removeFile dir

def check (since : Int) (s : Slot Rest) : Slot Rest :=
  ((((s.checkRecords since .active).checkRecords since .archived).checkRecords since .migrating).checkFile since
    .sessions).checkFile since .archivedSessions

end Slot

theorem localStep_checkRecord (dirs : List TranscriptDir) :
    LocalStep (fun k : CheckState Rest => k.disk.slot) (fun id : String => id) (CheckState.checkRecord dirs)
      (fun _ s => if s.foundIn dirs then s else { s with row := none }) where
  self k id := by
    unfold CheckState.checkRecord
    split <;> simp
  other k id j h := by
    unfold CheckState.checkRecord
    split
    · rfl
    · exact Disk.slot_set_ne _ h

variable (since : Int) (dir : TranscriptDir)

theorem localStep_checkFile :
    LocalStep (fun k : CheckState Rest => k.disk.slot) (fun id : String => id) (CheckState.checkFile since dir)
      (fun _ s => s.checkFile since dir) where
  self k id := by
    unfold CheckState.checkFile checkFile
    split
    · rfl
    · split <;> simp
  other k id j h := by
    unfold CheckState.checkFile
    split
    · rfl
    · split
      · rfl
      · exact Disk.slot_set_ne _ h

theorem slot_checkRecords (st : SessionStatus) (k : CheckState Rest) (id : String) :
    (k.checkRecords since st).disk.slot id = (k.disk.slot id).checkRecords since st := by
  have hmem : id ∈ k.disk.idsWhere (listed since st) ↔ (k.disk.slot id).listed since st = true := Disk.mem_idsWhere rfl
  have hnd : ((k.disk.idsWhere (listed since st)).map fun id => id).Nodup := by
    simpa using Disk.nodup_idsWhere _
  unfold CheckState.checkRecords checkRecords
  cases hl : (k.disk.slot id).listed since st with
  | true =>
    rw [(localStep_checkRecord st.dirs).foldl_of_mem hnd (hmem.mpr hl)]
    cases (k.disk.slot id).foundIn st.dirs <;> simp
  | false =>
    have hno : id ∉ (k.disk.idsWhere (listed since st)).map fun id => id := by simp [hmem, hl]
    rw [(localStep_checkRecord st.dirs).foldl_of_not_mem hno]
    simp

theorem slot_scanDirForOrphans (k : CheckState Rest) (id : String) :
    (k.scanDirForOrphans since dir).disk.slot id = (k.disk.slot id).checkFile since dir := by
  have hmem : id ∈ k.disk.idsWhere (fun s => (s.file dir).isSome) ↔ ((k.disk.slot id).file dir).isSome = true :=
    Disk.mem_idsWhere (by cases dir <;> rfl)
  have hnd : ((k.disk.idsWhere fun s => (s.file dir).isSome).map fun id => id).Nodup := by
    simpa using Disk.nodup_idsWhere _
  unfold CheckState.scanDirForOrphans
  cases hf : (k.disk.slot id).file dir with
  | some => exact (localStep_checkFile since dir).foldl_of_mem hnd (hmem.mpr (by simp [hf]))
  | none =>
    have hno : id ∉ (k.disk.idsWhere fun s => (s.file dir).isSome).map fun id => id := by simp [hmem, hf]
    rw [(localStep_checkFile since dir).foldl_of_not_mem hno]
    simp [checkFile, hf]

theorem slot_runIncrementalConsistencyCheck (d : Disk Rest) (id : String) :
    (runIncrementalConsistencyCheck since d).disk.slot id = (d.slot id).check since := by
  simp only [runIncrementalConsistencyCheck, CheckState.checkFilesystemToSqliteFiltered,
    CheckState.checkSqliteToFilesystemFiltered, slot_scanDirForOrphans, slot_checkRecords, check]

def Slot.Agrees (s : Slot Rest) : Prop :=
  match s.row with
  | none => s.active = none ∧ s.archived = none
  | some r => match r.status with
    | .active => s.active.isSome
    | .migrating => s.active.isSome ∨ s.archived.isSome
    | .archived => if r.archivedAt.isSome then s.archived.isSome else s.active.isSome

variable {s : Slot Rest}

theorem Slot.Agrees.foundIn (h : s.Agrees) {since : Int} {st : SessionStatus}
    (hl : s.listed since st = true) : s.foundIn st.dirs = true := by
  obtain ⟨row, active, archived⟩ := s
  rcases row with _ | ⟨status, at_, archivedAt, agent, role, rest⟩
  · cases hl
  obtain ⟨hst, hl⟩ := Bool.and_eq_true_iff.mp hl
  obtain rfl := beq_iff_eq.mp hst
  cases status with
  | active | migrating => simpa [Agrees, foundIn, SessionStatus.dirs, file] using h
  | archived =>
    cases archivedAt with
    | none => cases hl
    | some => simpa [Agrees, foundIn, SessionStatus.dirs, file] using h

theorem Slot.Agrees.row_isSome (h : s.Agrees) {dir : TranscriptDir} (hf : (s.file dir).isSome = true) :
    s.row.isSome = true := by
  obtain ⟨row, active, archived⟩ := s
  cases row with
  | some => rfl
  | none =>
    obtain ⟨rfl, rfl⟩ := h
    cases dir <;> cases hf

theorem checkRecords_of_found {since : Int} {st : SessionStatus}
    (h : s.listed since st = true → s.foundIn st.dirs = true) : s.checkRecords since st = s := by
  unfold checkRecords
  rw [if_neg]
  rintro ⟨hl, hf⟩
  rw [h hl] at hf
  cases hf

theorem checkFile_of_row {since : Int} {dir : TranscriptDir}
    (h : (s.file dir).isSome = true → s.row.isSome = true) : s.checkFile since dir = s := by
  unfold checkFile
  split
  · rfl
  · next f hf => rw [if_pos (.inr (h (by rw [hf]; rfl)))]

theorem check_of_found {since : Int} (hl : ∀ st, s.listed since st = true → s.foundIn st.dirs = true)
    (hf : ∀ dir, (s.file dir).isSome = true → s.row.isSome = true) : s.check since = s := by
  simp only [check, checkRecords_of_found (hl _), checkFile_of_row (hf _)]

theorem check_of_agrees (h : s.Agrees) (since : Int) : s.check since = s :=
  check_of_found (fun _ => h.foundIn) fun _ => h.row_isSome

structure Slot.Within (s' s : Slot Rest) : Prop where
  row : s'.row = none ∨ s'.row = s.row
  active : s'.active = none ∨ s'.active = s.active
  archived : s'.archived = none ∨ s'.archived = s.archived

theorem Slot.Within.trans {s' s'' : Slot Rest} (h : s''.Within s') (h' : s'.Within s) : s''.Within s where
  row := h.row.elim .inl fun e => h'.row.imp e.trans e.trans
  active := h.active.elim .inl fun e => h'.active.imp e.trans e.trans
  archived := h.archived.elim .inl fun e => h'.archived.imp e.trans e.trans

theorem checkRecords_within (st : SessionStatus) (s : Slot Rest) : (s.checkRecords since st).Within s := by
  unfold checkRecords
  split
  · exact ⟨.inl rfl, .inr rfl, .inr rfl⟩
  · exact ⟨.inr rfl, .inr rfl, .inr rfl⟩

theorem checkFile_within (s : Slot Rest) : (s.checkFile since dir).Within s := by
  unfold checkFile
  split
  · exact ⟨.inr rfl, .inr rfl, .inr rfl⟩
  · split
    · exact ⟨.inr rfl, .inr rfl, .inr rfl⟩
    · cases dir with
      | sessions => exact ⟨.inr rfl, .inl rfl, .inr rfl⟩
      | archivedSessions => exact ⟨.inr rfl, .inr rfl, .inl rfl⟩

theorem check_within (s : Slot Rest) : (s.check since).Within s :=
  (checkFile_within ..).trans <| (checkFile_within ..).trans <| (checkRecords_within ..).trans <|
    (checkRecords_within ..).trans (checkRecords_within ..)

end CloseClaw.Session
