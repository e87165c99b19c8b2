/- The restart of the daemon (`session/src/recovery.rs`). -/

import CloseClaw.Session.ConsistencyCheck

namespace CloseClaw.Session

open Lib Slot Disk

variable {Msg Rest : Type}

def loaded (C : StoreCodec Msg Rest) (id : String) (s : Slot Rest) : Option (SessionCheckpoint Msg Rest) :=
  match loadCheckpointInner C id s with
  | .ok (some c) => some c
  | _ => none

structure Recovery (Msg Rest : Type) where
  disk : Disk Rest
  recovered : List (SessionCheckpoint Msg Rest)

namespace Recovery

def contains (r : Recovery Msg Rest) (id : String) : Bool := r.recovered.any (·.sessionId == id)

def restoreDirty (C : StoreCodec Msg Rest) (r : Recovery Msg Rest) (id : String) : Recovery Msg Rest :=
  match doRestore C id (r.disk.slot id) with
  | (.error _, s) => { r with disk := r.disk.set id s }
  | (.ok _, s) => match loaded C id s with
    | none => { r with disk := r.disk.set id s }
    | some c => ⟨r.disk.set id s, r.recovered ++ [c]⟩

def scanArchived (C : StoreCodec Msg Rest) (r : Recovery Msg Rest) (id : String) : Recovery Msg Rest :=
  if r.contains id then r
  else match loaded C id (r.disk.slot id) with
    | none => r
    | some c => if c.pendingOperations.isEmpty then r else r.restoreDirty C id

def scanMigrating (C : StoreCodec Msg Rest) (now : Int) (r : Recovery Msg Rest) (id : String) : Recovery Msg Rest :=
  if r.contains id then r
  else match loaded C id (r.disk.slot id) with
    | none => r
    | some c =>
      if c.pendingOperations.isEmpty then { r with disk := r.disk.set id (doArchive now (r.disk.slot id)).2 }
      else r.restoreDirty C id

end Recovery

def storeCheckpoint (C : StoreCodec Msg Rest) (now : Int) (d : Disk Rest) (c : SessionCheckpoint Msg Rest) :
    Disk Rest :=
  d.set c.sessionId (saveCheckpointInner C now c (d.slot c.sessionId))

def recoverActive (C : StoreCodec Msg Rest) (d : Disk Rest) : List (SessionCheckpoint Msg Rest) :=
  d.listActiveSessions.filterMap fun id => loaded C id (d.slot id)

open Recovery

def recover (C : StoreCodec Msg Rest) (now : Int) (d : Disk Rest) : Disk Rest :=
  let r := d.listArchivedSessions.foldl (scanArchived C) ⟨d, recoverActive C d⟩
  let r := r.disk.listMigratingSessions.foldl (scanMigrating C now) r
  r.recovered.foldl (storeCheckpoint C now) r.disk

def restart (C : StoreCodec Msg Rest) (now : Int) (d : Disk Rest) : Disk Rest :=
  (runConsistencyCheck (recover C now d)).disk

/-! ## The startup, session by session -/

variable {C : StoreCodec Msg Rest} {id : String} {now : Int} {s : Slot Rest} {d : Disk Rest}

def contents (C : StoreCodec Msg Rest) (f : Option TranscriptFile) : Option (List Msg) :=
  f.bind fun f => C.transcript.read f.text

theorem loaded_eq : loaded C id s =
    s.row.bind fun r => (contents C (s.transcriptFile r.status)).map (buildCheckpoint C id r) := by
  unfold loaded loadCheckpointInner
  cases s.row with
  | none => rfl
  | some r =>
    simp only [Option.bind_some]
    cases s.transcriptFile r.status with
    | none => rfl
    | some f =>
      simp only [readTranscript, contents, Option.bind_some]
      cases C.transcript.read f.text <;> rfl

variable {c : SessionCheckpoint Msg Rest} {ts : List (List Msg)}

theorem loaded_sessionId (h : loaded C id s = some c) : c.sessionId = id ∧ c.pendingOperations = [] := by
  rw [loaded_eq] at h
  obtain ⟨r, -, h⟩ := Option.bind_eq_some_iff.mp h
  obtain ⟨ms, -, rfl⟩ := Option.map_eq_some_iff.mp h
  exact ⟨rfl, rfl⟩

theorem scanArchived_eq (r : Recovery Msg Rest) (id : String) : r.scanArchived C id = r := by
  unfold scanArchived
  split
  · rfl
  · split
    · rfl
    · next c hc => simp [(loaded_sessionId hc).2]

theorem foldl_scanArchived (ids : List String) (r : Recovery Msg Rest) : ids.foldl (scanArchived C) r = r := by
  induction ids with
  | nil => rfl
  | cons id ids ih => rw [List.foldl_cons, scanArchived_eq, ih]

theorem scanMigrating_eq (C : StoreCodec Msg Rest) (now : Int) (r : Recovery Msg Rest) (id : String) :
    r.scanMigrating C now id = ⟨if r.contains id || (loaded C id (r.disk.slot id)).isNone then r.disk
      else r.disk.set id (doArchive now (r.disk.slot id)).2, r.recovered⟩ := by
  unfold scanMigrating
  cases r.contains id with
  | true => rfl
  | false =>
    cases hl : loaded C id (r.disk.slot id) with
    | none => rfl
    | some => simp [(loaded_sessionId hl).2]

def migrateSlot (C : StoreCodec Msg Rest) (now : Int) (skip : Bool) (id : String) (s : Slot Rest) : Slot Rest :=
  if skip || (loaded C id s).isNone then s else (doArchive now s).2

def scanDisk (C : StoreCodec Msg Rest) (now : Int) (recovered : List (SessionCheckpoint Msg Rest)) (d : Disk Rest)
    (id : String) : Disk Rest :=
  (scanMigrating C now ⟨d, recovered⟩ id).disk

theorem foldl_scanMigrating (C : StoreCodec Msg Rest) (now : Int) (ids : List String) (r : Recovery Msg Rest) :
    ids.foldl (scanMigrating C now) r = ⟨ids.foldl (scanDisk C now r.recovered) r.disk, r.recovered⟩ := by
  induction ids generalizing r with
  | nil => rfl
  | cons id ids ih =>
    have hr : (r.scanMigrating C now id).recovered = r.recovered := by rw [scanMigrating_eq]
    rw [List.foldl_cons, ih, hr]
    rfl

theorem localStep_scanDisk (C : StoreCodec Msg Rest) (now : Int) (recovered : List (SessionCheckpoint Msg Rest)) :
    LocalStep slot (fun id : String => id) (scanDisk C now recovered)
      (fun id => migrateSlot C now (contains ⟨(∅ : Disk Rest), recovered⟩ id) id) where
  self d id := by
    rw [scanDisk, scanMigrating_eq, migrateSlot]
    split <;> simp_all [contains]
  other d id j h := by
    rw [scanDisk, scanMigrating_eq]
    dsimp only
    split
    · rfl
    · exact slot_set_ne _ h

theorem localStep_storeCheckpoint (C : StoreCodec Msg Rest) (now : Int) :
    LocalStep slot SessionCheckpoint.sessionId (storeCheckpoint C now) (saveCheckpointInner C now) where
  self _ _ := slot_set_self _
  other _ _ _ h := slot_set_ne _ h

theorem mem_recoverActive :
    c ∈ recoverActive C d ↔ (d.slot c.sessionId).status = some .active ∧
      loaded C c.sessionId (d.slot c.sessionId) = some c := by
  unfold recoverActive
  rw [List.mem_filterMap]
  constructor
  · rintro ⟨id, hid, hc⟩
    obtain rfl := (loaded_sessionId hc).1
    exact ⟨mem_listActiveSessions.mp hid, hc⟩
  · rintro ⟨hst, hc⟩
    exact ⟨_, mem_listActiveSessions.mpr hst, hc⟩

theorem nodup_recoverActive (C : StoreCodec Msg Rest) (d : Disk Rest) :
    ((recoverActive C d).map SessionCheckpoint.sessionId).Nodup := by
  refine List.Nodup.sublist ?_ (nodup_idsWhere (d := d) fun s => s.status == some .active)
  exact KeyedFold.map_filterMap_sublist (fun id c hc => (loaded_sessionId hc).1) _

def recoverSlot (C : StoreCodec Msg Rest) (now : Int) (id : String) (s : Slot Rest) : Slot Rest :=
  match loaded C id s, s.status with
  | some c, some .active => saveCheckpointInner C now c s
  | some _, some .migrating => (doArchive now s).2
  | _, _ => s

theorem mem_recovered_ids : id ∈ (recoverActive C d).map SessionCheckpoint.sessionId ↔
    (d.slot id).status = some .active ∧ (loaded C id (d.slot id)).isSome := by
  rw [List.mem_map]
  constructor
  · rintro ⟨c, hc, rfl⟩
    obtain ⟨hst, hl⟩ := mem_recoverActive.mp hc
    exact ⟨hst, by simp [hl]⟩
  · rintro ⟨hst, hl⟩
    obtain ⟨c, hc⟩ := Option.isSome_iff_exists.mp hl
    obtain rfl := (loaded_sessionId hc).1
    exact ⟨c, mem_recoverActive.mpr ⟨hst, hc⟩, rfl⟩

theorem slot_scanned (C : StoreCodec Msg Rest) (now : Int) (d : Disk Rest) (id : String) :
    (d.listMigratingSessions.foldl (scanDisk C now (recoverActive C d)) d).slot id =
      if (d.slot id).status = some .migrating ∧ (loaded C id (d.slot id)).isSome then (doArchive now (d.slot id)).2
      else d.slot id := by
  have hnd : (d.listMigratingSessions.map fun id => id).Nodup := by
    simpa [listMigratingSessions] using nodup_idsWhere (d := d) fun s => s.status == some .migrating
  by_cases hst : (d.slot id).status = some .migrating
  · have hmem := mem_listMigratingSessions.mpr hst
    rw [(localStep_scanDisk C now _).foldl_of_mem hnd hmem, migrateSlot]
    have hskip : contains ⟨(∅ : Disk Rest), recoverActive C d⟩ id = false := by
      have hno : id ∉ (recoverActive C d).map SessionCheckpoint.sessionId := by simp [mem_recovered_ids, hst]
      simpa [contains] using hno
    cases loaded C id (d.slot id) <;> simp [hskip, hst]
  · have hno : id ∉ d.listMigratingSessions.map fun id => id := by simpa [mem_listMigratingSessions] using hst
    rw [(localStep_scanDisk C now _).foldl_of_not_mem hno]
    simp [hst]

theorem slot_recover (C : StoreCodec Msg Rest) (now : Int) (d : Disk Rest) (id : String) :
    (recover C now d).slot id = recoverSlot C now id (d.slot id) := by
  simp only [recover, foldl_scanArchived, foldl_scanMigrating]
  have hscan := slot_scanned C now d id
  cases hl : loaded C id (d.slot id) with
  | none =>
    have hno : id ∉ (recoverActive C d).map SessionCheckpoint.sessionId := by simp [mem_recovered_ids, hl]
    rw [(localStep_storeCheckpoint C now).foldl_of_not_mem hno, hscan]
    simp [hl, recoverSlot]
  | some c =>
    obtain rfl := (loaded_sessionId hl).1
    by_cases hst : (d.slot c.sessionId).status = some .active
    · rw [(localStep_storeCheckpoint C now).foldl_of_mem (nodup_recoverActive C d) (mem_recoverActive.mpr ⟨hst, hl⟩),
        hscan]
      simp [hl, hst, recoverSlot]
    · have hno : c.sessionId ∉ (recoverActive C d).map SessionCheckpoint.sessionId := fun h =>
        hst (mem_recovered_ids.mp h).1
      rw [(localStep_storeCheckpoint C now).foldl_of_not_mem hno, hscan]
      rcases hs : (d.slot c.sessionId).status with _ | _ | _ | _ <;> simp_all [recoverSlot]

def restartSlot (C : StoreCodec Msg Rest) (now : Int) (id : String) (s : Slot Rest) : Slot Rest :=
  (recoverSlot C now id s).check 0

theorem slot_restart (C : StoreCodec Msg Rest) (now : Int) (d : Disk Rest) (id : String) :
    (restart C now d).slot id = restartSlot C now id (d.slot id) := by
  rw [restart, runConsistencyCheck, slot_runIncrementalConsistencyCheck, slot_recover, restartSlot]

/-! ## What is left of a session -/

def loadOrRestore (C : StoreCodec Msg Rest) (id : String) (s : Slot Rest) : Option (SessionCheckpoint Msg Rest) :=
  if s.status = some .archived then
    match (doRestore C id s).1 with
    | .ok c => c
    | .error _ => none
  else loaded C id s

def Survives (C : StoreCodec Msg Rest) (id : String) (s : Slot Rest) (transcripts : List (List Msg)) : Prop :=
  (s.status = some .active ∨ s.status = some .archived) ∧
    ∃ c, loadOrRestore C id s = some c ∧ c.pendingMessages ∈ transcripts

def ReadsAs (C : StoreCodec Msg Rest) (f : Option TranscriptFile) (transcripts : List (List Msg)) : Prop :=
  ∃ ms ∈ transcripts, contents C f = some ms

theorem moveBack_active (s : Slot Rest) : s.moveBack.active = s.active.or s.archived := by
  obtain ⟨row, active, archived⟩ := s
  cases active <;> cases archived <;> rfl

theorem moveBack_row (s : Slot Rest) : s.moveBack.row = s.row := by
  obtain ⟨row, active, archived⟩ := s
  cases active <;> cases archived <;> rfl

theorem survives_archived_iff (hst : s.status = some .archived) :
    Survives C id s ts ↔ ReadsAs C (s.active.or s.archived) ts := by
  obtain ⟨r, hr, hrs⟩ := Option.map_eq_some_iff.mp hst
  have hrow : s.moveBack.markActive.row = some { r with status := .active, archivedAt := none } := by
    simp [markActive, moveBack_row, hr]
  have hact : s.moveBack.markActive.active = s.active.or s.archived := by rw [markActive, moveBack_active]
  have hload : loadOrRestore C id s = loaded C id s.moveBack.markActive := by
    simp only [loadOrRestore, hst, doRestore, if_true, loaded]
    cases loadCheckpointInner C id s.moveBack.markActive with
    | error => rfl
    | ok c => cases c <;> rfl
  rw [Survives, hload, loaded_eq, hrow]
  simp [hst, transcriptFile, hact, ReadsAs, buildCheckpoint, and_comm]

theorem survives_active_iff (hst : s.status = some .active) : Survives C id s ts ↔ ReadsAs C s.active ts := by
  obtain ⟨r, hr, hrs⟩ := Option.map_eq_some_iff.mp hst
  rw [Survives, loadOrRestore, loaded_eq]
  simp [hst, hr, hrs, transcriptFile, ReadsAs, buildCheckpoint, and_comm]

theorem survives_of_check (h : Survives C id (s.check 0) ts) :
    (s.check 0).row = s.row ∧ (s.check 0).status = s.status := by
  have hw := check_within 0 s
  rcases hw.row with hr | hr
  · obtain ⟨hst | hst, -⟩ := h <;> simp [status, hr] at hst
  · exact ⟨hr, by rw [status, status, hr]⟩

theorem survives_restart_active_iff (hst : s.status = some .active) :
    Survives C id (restartSlot C now id s) ts ↔ ReadsAs C s.active ts := by
  obtain ⟨r, hr, hrs⟩ := Option.map_eq_some_iff.mp hst
  have hl : loaded C id s = (contents C s.active).map (buildCheckpoint C id r) := by
    rw [loaded_eq, hr, Option.bind_some, hrs, transcriptFile]
  rw [restartSlot, recoverSlot, hl, hst]
  cases hc : contents C s.active with
  | some ms =>
    -- The scan writes the transcript it has read.
    have hsave : (saveCheckpointInner C now (buildCheckpoint C id r ms) s).status = some .active := by
      simp [saveCheckpointInner, status, sessionRow, buildCheckpoint, hrs]
    have hagree : (saveCheckpointInner C now (buildCheckpoint C id r ms) s).Agrees := by
      simp [saveCheckpointInner, Agrees, sessionRow, buildCheckpoint, hrs]
    simp only [Option.map_some, check_of_agrees hagree]
    rw [survives_active_iff hsave]
    simp [ReadsAs, contents, saveCheckpointInner, buildCheckpoint, ← hc]
  | none =>
    simp only [Option.map_none]
    constructor
    · intro h
      have hst' := (survives_of_check h).2.trans hst
      obtain ⟨ms, hms, hread⟩ := (survives_active_iff hst').mp h
      rcases (check_within 0 s).active with ha | ha
      · simp [ha, contents] at hread
      · rw [ha, hc] at hread; cases hread
    · rintro ⟨ms, -, hread⟩
      rw [hc] at hread; cases hread

theorem survives_restart_migrating_iff (hst : s.status = some .migrating) :
    Survives C id (restartSlot C now id s) ts ↔
      (contents C (s.archived.or s.active)).isSome = true ∧ ReadsAs C (s.active.or s.archived) ts := by
  obtain ⟨r, hr, hrs⟩ := Option.map_eq_some_iff.mp hst
  have hl : loaded C id s = (contents C (s.archived.or s.active)).map (buildCheckpoint C id r) := by
    rw [loaded_eq, hr, Option.bind_some, hrs, transcriptFile]
  rw [restartSlot, recoverSlot, hl, hst]
  cases hc : contents C (s.archived.or s.active) with
  | some =>
    -- The scan completes the archive.
    have hf : (s.archived.or s.active).isSome = true := by
      cases hf : s.archived.or s.active with
      | none => simp [hf, contents] at hc
      | some => rfl
    have harch := doArchive_eq now hr (by simp [hrs]) hf
    have hagree : (doArchive now s).2.Agrees := by simpa [harch, Agrees] using hf
    simp only [Option.map_some, check_of_agrees hagree]
    rw [survives_archived_iff (by simp [harch, status]), harch, newest_of_archived]
    simp
  | none =>
    simp only [Option.map_none, Option.isSome_none, Bool.false_eq_true, false_and, iff_false]
    intro h
    have hst' := (survives_of_check h).2.trans hst
    obtain ⟨h | h, -⟩ := h <;> simp [hst'] at h

def Orphaned (s : Slot Rest) : Prop := ∃ r, s.row = some r ∧ s.archived = none ∧ ∃ t ∈ r.archivedAt, 0 < t

theorem listed_archived_iff (hst : s.status = some .archived) (st : SessionStatus) :
    s.listed 0 st = true ↔ st = .archived ∧ ∃ r, s.row = some r ∧ ∃ t ∈ r.archivedAt, 0 < t := by
  obtain ⟨r, hr, hrs⟩ := Option.map_eq_some_iff.mp hst
  cases st <;> simp [listed, hr, hrs, Option.any_eq_true]

theorem check_of_orphaned (ho : Orphaned s) (hst : s.status = some .archived) : (s.check 0).row = none := by
  obtain ⟨r, hr, hno, ht⟩ := ho
  have hl := listed_archived_iff hst
  have hactive : s.checkRecords 0 .active = s := checkRecords_of_found (by simp [hl])
  have harch : s.checkRecords 0 .archived = { s with row := none } := by
    rw [checkRecords, if_pos]
    exact ⟨(hl .archived).mpr ⟨rfl, r, hr, ht⟩, by simp [foundIn, SessionStatus.dirs, file, hno]⟩
  have hw : (s.check 0).Within { s with row := none } := by
    rw [check, hactive, harch]
    exact (checkFile_within ..).trans <| (checkFile_within ..).trans (checkRecords_within ..)
  exact hw.row.elim (fun e => e) fun e => e

theorem check_of_not_orphaned (ho : ¬ Orphaned s) (hst : s.status = some .archived) : s.check 0 = s := by
  obtain ⟨r, hr, -⟩ := Option.map_eq_some_iff.mp hst
  refine check_of_found ?_ (by simp [hr])
  intro st hl
  obtain ⟨rfl, r', hr', ht⟩ := (listed_archived_iff hst st).mp hl
  cases hf : s.archived with
  | none => exact absurd ⟨r', hr', hf, ht⟩ ho
  | some => simp [foundIn, SessionStatus.dirs, file, hf]

theorem survives_restart_archived_iff (hst : s.status = some .archived) :
    Survives C id (restartSlot C now id s) ts ↔ ¬ Orphaned s ∧ ReadsAs C (s.active.or s.archived) ts := by
  obtain ⟨r, hr, hrs⟩ := Option.map_eq_some_iff.mp hst
  have hrec : recoverSlot C now id s = s := by
    rw [recoverSlot, hst]
    cases loaded C id s <;> rfl
  rw [restartSlot, hrec]
  by_cases ho : Orphaned s
  · refine iff_of_false (fun h => ?_) fun h => h.1 ho
    have hrow := check_of_orphaned ho hst
    rw [(survives_of_check h).1, hr] at hrow
    cases hrow
  · rw [check_of_not_orphaned ho hst, survives_archived_iff hst]
    simp [ho]

end CloseClaw.Session
