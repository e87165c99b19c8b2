/- The consistency check, which takes no lock, while sessions are saved, archived and restored. -/

import CloseClaw.Session.CheckpointManager
import CloseClaw.Session.ConsistencyCheck

namespace CloseClaw.Session

open Lib List Slot CheckState

variable {Msg Rest : Type}

inductive CheckPhase where
  | list (st : SessionStatus)
  | seek (st : SessionStatus) (id : String) (dir : TranscriptDir) (dirs : List TranscriptDir) (ids : List String)
  | deleteRecord (st : SessionStatus) (id : String) (ids : List String)
  | readDir (dir : TranscriptDir)
  | stat (dir : TranscriptDir) (id : String) (ids : List String)
  | queryRow (dir : TranscriptDir) (id : String) (ids : List String)
  | deleteFile (dir : TranscriptDir) (id : String) (ids : List String)
  | finished (result : Except PersistenceError Unit)

namespace CheckPhase

def afterRecords : SessionStatus → CheckPhase
  | .active => .list .archived
  | .archived => .list .migrating
  | .migrating => .readDir .sessions

def afterFiles : TranscriptDir → CheckPhase
  | .sessions => .readDir .archivedSessions
  | .archivedSessions => .finished (.ok ())

def records (st : SessionStatus) : List String → CheckPhase
  | [] => afterRecords st
  | id :: ids => match st.dirs with
    | [] => .deleteRecord st id ids
    | dir :: dirs => .seek st id dir dirs ids

def files (dir : TranscriptDir) : List String → CheckPhase
  | [] => afterFiles dir
  | id :: ids => .stat dir id ids

end CheckPhase

inductive Deletion where
  | record (id : String)
  | file (dir : TranscriptDir) (id : String)
  deriving DecidableEq

def CheckPhase.step (since : Int) (d : Disk Rest) : CheckPhase → CheckPhase × Disk Rest × List Deletion
  | .list st => (.records st (d.idsWhere (listed since st)), d, [])
  | .seek st id dir dirs ids =>
    if ((d.slot id).file dir).isSome then (.records st ids, d, [])
    else match dirs with
      | [] => (.deleteRecord st id ids, d, [])
      | dir :: dirs => (.seek st id dir dirs ids, d, [])
  | .deleteRecord st id ids => (.records st ids, d.set id { d.slot id with row := none }, [.record id])
  | .readDir dir => (.files dir (d.idsWhere fun s => (s.file dir).isSome), d, [])
  | .stat dir id ids =>
    if (((d.slot id).file dir).map (·.mtime)).getD 0 ≤ since then (.files dir ids, d, [])
    else (.queryRow dir id ids, d, [])
  | .queryRow dir id ids => if (d.slot id).row.isSome then (.files dir ids, d, []) else (.deleteFile dir id ids, d, [])
  | .deleteFile dir id ids =>
    if ((d.slot id).file dir).isSome then (.files dir ids, d.set id ((d.slot id).removeFile dir), [.file dir id])
    else (.finished (.error .io), d, [])
  | .finished r => (.finished r, d, [])

def CheckPhase.holding : CheckPhase → List String
  | .list _ | .readDir _ | .finished _ => []
  | .seek _ id _ _ ids | .deleteRecord _ id ids | .stat _ id ids | .queryRow _ id ids | .deleteFile _ id ids =>
    id :: ids

/-! ## The check among writers -/

structure Writer (Msg Rest : Type) where
  id : String
  call : WriteCall Msg Rest
  pc : Pc Msg Rest

def Writer.busy (w : Writer Msg Rest) : Bool :=
  match w.pc with
  | .finished _ => false
  | _ => true

def Writer.returnedOk (w : Writer Msg Rest) : Bool :=
  match w.pc with
  | .finished (.ok ()) => true
  | _ => false

structure LiveStore (Msg Rest : Type) where
  disk : Disk Rest
  writers : List (Writer Msg Rest)
  check : CheckPhase
  deleted : List Deletion

inductive LiveEvent (Msg Rest : Type) where
  | begin (id : String) (call : WriteCall Msg Rest)
  | write (writer : Nat) (now : Int)
  | check

namespace LiveStore

def quiet (d : Disk Rest) : LiveStore Msg Rest := ⟨d, [], .list .active, []⟩

def step (C : StoreCodec Msg Rest) (since : Int) (s : LiveStore Msg Rest) : LiveEvent Msg Rest → LiveStore Msg Rest
  | .begin id call => { s with writers := s.writers ++ [⟨id, call, call.start⟩] }
  | .write i now =>
    match s.writers[i]? with
    | none => s
    | some w =>
      if w.busy then
        let (pc, slot) := w.pc.step C w.id now (s.disk.slot w.id)
        { s with disk := s.disk.set w.id slot, writers := s.writers.set i { w with pc := pc } }
      else s
  | .check =>
    let (check, disk, deleted) := s.check.step since s.disk
    { s with check := check, disk := disk, deleted := s.deleted ++ deleted }

/-- No two operations on a session are under way at once, and none on a session the check
    has in hand. -/
def Exclusive (s : LiveStore Msg Rest) : Prop :=
  s.writers.Pairwise (fun v w => v.busy = true → w.busy = true → v.id ≠ w.id) ∧
    ∀ w ∈ s.writers, w.busy = true → w.id ∉ s.check.holding

instance Exclusive.decidable (s : LiveStore Msg Rest) : Decidable s.Exclusive :=
  inferInstanceAs (Decidable (_ ∧ _))

def KeepsApart (C : StoreCodec Msg Rest) (since : Int) (s : LiveStore Msg Rest) (e : LiveEvent Msg Rest) : Prop :=
  (s.step C since e).Exclusive

instance KeepsApart.decidable (C : StoreCodec Msg Rest) (since : Int) (s : LiveStore Msg Rest)
    (e : LiveEvent Msg Rest) :
    Decidable (s.KeepsApart C since e) :=
  inferInstanceAs (Decidable (s.step C since e).Exclusive)

end LiveStore

/-! ## The check on its own -/

def CheckPhase.Next (since : Int) (p q : CheckPhase × Disk Rest) : Prop := ∃ gone, p.1.step since p.2 = (q.1, q.2, gone)

open CheckPhase

section alone

variable {since : Int}

variable (st : SessionStatus)

theorem seek_runs (id : String) (dir : TranscriptDir) (dirs : List TranscriptDir)
    (ids : List String) (k : CheckState Rest) : Relation.ReflTransGen (Next since) (.seek st id dir dirs ids, k.disk)
      (.records st ids, (k.checkRecord (dir :: dirs) id).disk) := by
  induction dirs generalizing dir with
  | nil =>
    cases hf : ((k.disk.slot id).file dir).isSome with
    | true => exact .single ⟨[], by simp [step, checkRecord, foundIn, hf]⟩
    | false =>
      have hmissing : Next since (.seek st id dir [] ids, k.disk) (.deleteRecord st id ids, k.disk) :=
        ⟨[], by simp [step, hf]⟩
      exact .head hmissing (.single ⟨[.record id], by simp [step, checkRecord, foundIn, hf]⟩)
  | cons next dirs ih =>
    cases hf : ((k.disk.slot id).file dir).isSome with
    | true => exact .single ⟨[], by simp [step, checkRecord, foundIn, hf]⟩
    | false =>
      have hrec : k.checkRecord (dir :: next :: dirs) id = k.checkRecord (next :: dirs) id := by
        simp [checkRecord, foundIn, hf]
      have hmissing : Next since (.seek st id dir (next :: dirs) ids, k.disk) (.seek st id next dirs ids, k.disk) :=
        ⟨[], by simp [step, hf]⟩
      rw [hrec]
      exact .head hmissing (ih next)

theorem records_run (ids : List String) (k : CheckState Rest) :
    Relation.ReflTransGen (Next since) (.records st ids, k.disk)
      (.afterRecords st, (ids.foldl (checkRecord st.dirs) k).disk) := by
  induction ids generalizing k with
  | nil => exact .refl
  | cons id ids ih =>
    refine Relation.ReflTransGen.trans ?_ (ih _)
    cases st <;> exact seek_runs _ id _ _ ids k

theorem checkRecords_run (k : CheckState Rest) : Relation.ReflTransGen (Next since) (.list st, k.disk)
      (.afterRecords st, (k.checkRecords since st).disk) :=
  .head ⟨[], rfl⟩ (records_run st _ k)

variable (dir : TranscriptDir)

theorem stat_runs (id : String) (ids : List String) (k : CheckState Rest)
    (hf : ((k.disk.slot id).file dir).isSome = true) : Relation.ReflTransGen (Next since) (.stat dir id ids, k.disk)
      (.files dir ids, (k.checkFile since dir id).disk) := by
  obtain ⟨f, hf⟩ := Option.isSome_iff_exists.mp hf
  by_cases hm : f.mtime ≤ since
  · exact .single ⟨[], by simp [step, CheckState.checkFile, hf, hm]⟩
  have hnew : Next since (.stat dir id ids, k.disk) (.queryRow dir id ids, k.disk) := ⟨[], by simp [step, hf, hm]⟩
  refine .head hnew ?_
  cases hr : (k.disk.slot id).row.isSome with
  | true => exact .single ⟨[], by simp [step, CheckState.checkFile, hf, hr]⟩
  | false =>
    have horphan : Next since (.queryRow dir id ids, k.disk) (.deleteFile dir id ids, k.disk) :=
      ⟨[], by simp [step, hr]⟩
    exact .head horphan (.single ⟨[.file dir id], by simp [step, CheckState.checkFile, hf, hm, hr]⟩)

theorem files_run (ids : List String) (k : CheckState Rest) (hnd : ids.Nodup)
    (hf : ∀ id ∈ ids, ((k.disk.slot id).file dir).isSome = true) :
    Relation.ReflTransGen (Next since) (.files dir ids, k.disk)
      (.afterFiles dir, (ids.foldl (CheckState.checkFile since dir) k).disk) := by
  induction ids generalizing k with
  | nil => exact .refl
  | cons id ids ih =>
    obtain ⟨hid, hnd⟩ := nodup_cons.mp hnd
    refine (stat_runs dir id ids k (hf id (by simp))).trans (ih _ hnd ?_)
    intro j hj
    have hne : j ≠ id := fun e => hid (e ▸ hj)
    have hsame : (k.checkFile since dir id).disk.slot j = k.disk.slot j :=
      (localStep_checkFile since dir).other k id j hne
    rw [hsame]
    exact hf j (by simp [hj])

theorem scanDirForOrphans_runs (k : CheckState Rest) : Relation.ReflTransGen (Next since) (.readDir dir, k.disk)
      (.afterFiles dir, (k.scanDirForOrphans since dir).disk) := by
  refine .head ⟨[], rfl⟩ (files_run dir _ k (Disk.nodup_idsWhere _) ?_)
  intro id hid
  exact (Disk.mem_idsWhere (by cases dir <;> rfl)).mp hid

theorem check_runs_to_its_end (since : Int) (d : Disk Rest) : Relation.ReflTransGen (Next since) (.list .active, d)
      (.finished (.ok ()), (runIncrementalConsistencyCheck since d).disk) :=
  (checkRecords_run .active ⟨d, 0, 0⟩).trans <| (checkRecords_run .archived _).trans <|
    (checkRecords_run .migrating _).trans <| (scanDirForOrphans_runs .sessions _).trans
      (scanDirForOrphans_runs .archivedSessions _)

end alone

/-! ## What an operation keeps -/

variable {C : StoreCodec Msg Rest} {id : String} {now since : Int}

def Slot.AgreesAt (s : Slot Rest) : Pc Msg Rest → Prop
  | .insertRow _ | .markMigrating | .readStatus | .finished _ => s.Agrees
  | .createFile _ => ∃ r, s.row = some r ∧ r.archivedAt = none
  | .writeFile _ _ _ => s.active.isSome = true ∧ ∃ r, s.row = some r ∧ r.archivedAt = none
  | .testArchived => s.status = some .migrating ∧ s.Agrees
  | .moveToArchived => s.status = some .migrating ∧ s.active.isSome = true
  | .stampArchived => s.status = some .migrating ∧ s.archived.isSome = true
  | .testSource | .testTarget => s.row.isSome = true ∧ (s.active.isSome = true ∨ s.archived.isSome = true)
  | .moveToActive => s.row.isSome = true ∧ s.archived.isSome = true
  | .commitActive => s.row.isSome = true ∧ s.active.isSome = true
  | .deleteRow | .removeActive | .removeArchived => False

theorem Slot.agrees_of_active {s : Slot Rest} {r : SessionRow Rest} (hr : s.row = some r) (ht : r.archivedAt = none)
    (ha : s.active.isSome = true) : s.Agrees := by
  cases hst : r.status <;> simp [Agrees, hr, hst, ht, ha]

theorem agreesAt_start {s : Slot Rest} (h : s.Agrees) (call : WriteCall Msg Rest) : s.AgreesAt call.start := by
  cases call <;> exact h

theorem agreesAt_writing {s : Slot Rest} {r : SessionRow Rest} (hr : s.row = some r) (ht : r.archivedAt = none)
    (ha : s.active.isSome = true) (offset : Nat) (pieces : List (List Char)) :
    s.AgreesAt (Pc.writing offset pieces : Pc Msg Rest) := by
  cases pieces with
  | nil => exact agrees_of_active hr ht ha
  | cons => exact ⟨ha, r, hr, ht⟩

theorem Slot.Agrees.file_isSome {s : Slot Rest} (h : s.Agrees) (hr : s.row.isSome = true) :
    s.active.isSome = true ∨ s.archived.isSome = true := by
  obtain ⟨row, active, archived⟩ := s
  rcases row with _ | ⟨status, at_, archivedAt, agent, role, rest⟩
  · cases hr
  · cases status with
    | active => exact .inl h
    | migrating => exact h
    | archived => cases archivedAt <;> simp_all [Agrees]

theorem Slot.agrees_of_migrating {s : Slot Rest} (hst : s.status = some .migrating)
    (hf : s.active.isSome = true ∨ s.archived.isSome = true) : s.Agrees := by
  obtain ⟨r, hr, hrs⟩ := Option.map_eq_some_iff.mp hst
  simpa [Agrees, hr, hrs] using hf

theorem Slot.row_of_status {s : Slot Rest} {st : SessionStatus} (hst : s.status = some st) : s.row.isSome = true := by
  obtain ⟨r, hr, -⟩ := Option.map_eq_some_iff.mp hst
  simp [hr]

variable {pc : Pc Msg Rest}

theorem agreesAt_step_archive {s : Slot Rest} (h : s.AgreesAt pc)
    (hpc : pc = .markMigrating ∨ pc = .testArchived ∨ pc = .moveToArchived ∨ pc = .stampArchived) :
    (pc.step C id now s).2.AgreesAt (pc.step C id now s).1 := by
  rcases hpc with rfl | rfl | rfl | rfl
  · simp only [Pc.step]
    split
    · exact h
    · next hst => exact ⟨hst, h⟩
    · next hst =>
      have hst' : s.markMigrating.status = some .migrating := by
        obtain ⟨r, hr, -⟩ := Option.map_eq_some_iff.mp hst
        simp [markMigrating, status, hr]
      have hf : s.active.isSome = true ∨ s.archived.isSome = true := Agrees.file_isSome h (row_of_status hst)
      exact ⟨hst', agrees_of_migrating hst' hf⟩
    · exact h
  · obtain ⟨hst, h⟩ := h
    have hf := h.file_isSome (row_of_status hst)
    cases hx : s.archived with
    | none => simpa [Pc.step, hx, AgreesAt, hst] using hf
    | some => simp [Pc.step, hx, AgreesAt, hst]
  · obtain ⟨hst, ha⟩ := h
    obtain ⟨f, hf⟩ := Option.isSome_iff_exists.mp ha
    simp only [Pc.step, hf]
    exact ⟨hst, rfl⟩
  · obtain ⟨hst, hx⟩ := h
    obtain ⟨r, hr, -⟩ := Option.map_eq_some_iff.mp hst
    simpa [Pc.step, AgreesAt, stampArchived, Agrees, hr] using hx

theorem agreesAt_step_restore {s : Slot Rest} (h : s.AgreesAt pc)
    (hpc : pc = .readStatus ∨ pc = .testSource ∨ pc = .testTarget ∨ pc = .moveToActive ∨ pc = .commitActive) :
    (pc.step C id now s).2.AgreesAt (pc.step C id now s).1 := by
  rcases hpc with rfl | rfl | rfl | rfl | rfl
  · simp only [Pc.step]
    split
    · exact h
    · exact h
    · next hst =>
      have hr : s.row.isSome = true := row_of_status hst
      exact ⟨hr, Agrees.file_isSome h hr⟩
  · obtain ⟨hr, hf⟩ := h
    cases hx : s.archived with
    | none => simpa [Pc.step, hx, AgreesAt, hr] using hf
    | some => simp [Pc.step, hx, AgreesAt, hr]
  · obtain ⟨hr, hf⟩ := h
    cases ha : s.active with
    | none => simpa [Pc.step, ha, AgreesAt, hr] using hf
    | some => simp [Pc.step, ha, AgreesAt, hr]
  · obtain ⟨hr, hx⟩ := h
    obtain ⟨f, hf⟩ := Option.isSome_iff_exists.mp hx
    simp only [Pc.step, hf]
    exact ⟨hr, rfl⟩
  · obtain ⟨hr, ha⟩ := h
    obtain ⟨r, hr⟩ := Option.isSome_iff_exists.mp hr
    simpa [Pc.step, AgreesAt, markActive, Agrees, hr] using ha

theorem agreesAt_step {s : Slot Rest} (h : s.AgreesAt pc) : (pc.step C id now s).2.AgreesAt (pc.step C id now s).1 := by
  cases pc with
  | insertRow c => exact ⟨sessionRow c, rfl, rfl⟩
  | createFile pieces =>
    obtain ⟨r, hr, ht⟩ := h
    exact agreesAt_writing (s := { s with active := some ⟨[], now / 1000⟩ }) hr ht rfl 0 pieces
  | writeFile offset piece pieces =>
    obtain ⟨ha, r, hr, ht⟩ := h
    exact agreesAt_writing (s := { s with active := s.active.map (·.writeAt offset piece now) }) hr ht
      (by simpa using ha) _ pieces
  | markMigrating | testArchived | moveToArchived | stampArchived => exact agreesAt_step_archive h (by simp)
  | readStatus | testSource | testTarget | moveToActive | commitActive => exact agreesAt_step_restore h (by simp)
  | finished => exact h
  | deleteRow | removeActive | removeArchived => exact h.elim

/-! ## What the check finds -/

def CheckPhase.Finds (d : Disk Rest) : CheckPhase → Prop
  | .list _ | .readDir _ | .finished _ => True
  | .seek st id dir dirs ids =>
    (d.slot id).foundIn (dir :: dirs) = true ∧ ∀ j ∈ ids, (d.slot j).foundIn st.dirs = true
  | .stat _ id ids | .queryRow _ id ids => ∀ j ∈ id :: ids, (d.slot j).row.isSome = true
  | .deleteRecord _ _ _ | .deleteFile _ _ _ => False

variable {d : Disk Rest}

variable {p : CheckPhase} {ids : List String}

theorem finds_records {st : SessionStatus} (h : ∀ j ∈ ids, (d.slot j).foundIn st.dirs = true) :
    (records st ids).Finds d := by
  cases ids with
  | nil => cases st <;> trivial
  | cons id ids =>
    have hid := h id (by simp)
    have hids : ∀ j ∈ ids, (d.slot j).foundIn st.dirs = true := fun j hj => h j (by simp [hj])
    cases st <;> exact ⟨hid, hids⟩

theorem finds_files {dir : TranscriptDir} (h : ∀ j ∈ ids, (d.slot j).row.isSome = true) : (files dir ids).Finds d := by
  cases ids with
  | nil => cases dir <;> trivial
  | cons => exact h

theorem holding_records (st : SessionStatus) (ids : List String) : (records st ids).holding = ids := by
  cases ids with
  | nil | cons => cases st <;> rfl

theorem holding_files (dir : TranscriptDir) (ids : List String) : (files dir ids).holding = ids := by
  cases ids with
  | nil => cases dir <;> rfl
  | cons => rfl

theorem finds_step (h : p.Finds d) (hagree : ∀ j ∈ (p.step since d).1.holding, (d.slot j).Agrees) :
    (p.step since d).2 = (d, []) ∧ (p.step since d).1.Finds d := by
  cases p with
  | list st =>
    refine ⟨rfl, finds_records ?_⟩
    intro j hj
    have hl : (d.slot j).listed since st = true := (Disk.mem_idsWhere rfl).mp hj
    exact (hagree j (by simpa [step, holding_records] using hj)).foundIn hl
  | readDir dir =>
    refine ⟨rfl, finds_files ?_⟩
    intro j hj
    have hf : ((d.slot j).file dir).isSome = true := (Disk.mem_idsWhere (by cases dir <;> rfl)).mp hj
    exact (hagree j (by simpa [step, holding_files] using hj)).row_isSome hf
  | seek st id dir dirs ids =>
    obtain ⟨hid, hids⟩ := h
    cases hf : ((d.slot id).file dir).isSome with
    | true => simpa [step, hf] using finds_records hids
    | false =>
      cases dirs with
      | nil => simp [foundIn, hf] at hid
      | cons next dirs =>
        have hnext : (d.slot id).foundIn (next :: dirs) = true := by simpa [foundIn, hf] using hid
        simpa [step, hf] using (show Finds d (.seek st id next dirs ids) from ⟨hnext, hids⟩)
  | stat =>
    simp only [step]
    split
    · exact ⟨rfl, finds_files fun j hj => h j (by simp [hj])⟩
    · exact ⟨rfl, h⟩
  | queryRow dir id ids =>
    have hid : (d.slot id).row.isSome = true := h id (by simp)
    have hids : (files dir ids).Finds d := finds_files fun j hj => h j (by simp [hj])
    simpa [step, hid] using hids
  | deleteRecord | deleteFile => exact h.elim
  | finished => exact ⟨rfl, trivial⟩

theorem finds_congr {d' : Disk Rest} (h : p.Finds d) (hsame : ∀ j ∈ p.holding, d'.slot j = d.slot j) : p.Finds d' := by
  cases p with
  | list | readDir | finished => trivial
  | seek st id =>
    refine ⟨by rw [hsame id (by simp [holding])]; exact h.1, ?_⟩
    intro j hj
    rw [hsame j (by simp [holding, hj])]
    exact h.2 j hj
  | stat dir id ids | queryRow dir id ids =>
    intro j hj
    rw [hsame j hj]
    exact h j hj
  | deleteRecord | deleteFile => exact h.elim

/-! ## Every exclusive run -/

def LiveStore.Free (s : LiveStore Msg Rest) (id : String) : Prop := ∀ w ∈ s.writers, w.busy = true → w.id ≠ id

structure LiveInv (s : LiveStore Msg Rest) : Prop where
  exclusive : s.Exclusive
  free : ∀ id, s.Free id → (s.disk.slot id).Agrees
  busy : ∀ w ∈ s.writers, w.busy = true → (s.disk.slot w.id).AgreesAt w.pc
  finds : s.check.Finds s.disk
  deleted : s.deleted = []

theorem busy_start (id : String) (call : WriteCall Msg Rest) :
    (⟨id, call, call.start⟩ : Writer Msg Rest).busy = true := by
  cases call <;> rfl

theorem agrees_of_agreesAt {s : Slot Rest} {w : Writer Msg Rest} (h : s.AgreesAt w.pc) (hw : w.busy = false) :
    s.Agrees := by
  obtain ⟨id, call, pc⟩ := w
  cases pc <;> first | exact h | cases hw

variable {s : LiveStore Msg Rest}

variable {i : Nat} {w : Writer Msg Rest}

theorem LiveStore.Exclusive.ids_ne (h : s.Exclusive) {j : Nat} {v : Writer Msg Rest} (hij : i ≠ j)
    (hv : s.writers[i]? = some v) (hw : s.writers[j]? = some w) (hvb : v.busy = true) (hwb : w.busy = true) :
    v.id ≠ w.id := by
  obtain ⟨hi, rfl⟩ := List.getElem?_eq_some_iff.mp hv
  obtain ⟨hj, rfl⟩ := List.getElem?_eq_some_iff.mp hw
  have hp := pairwise_iff_getElem.mp h.1
  rcases Nat.lt_or_gt_of_ne hij with hlt | hlt
  · exact hp i j hi hj hlt hvb hwb
  · exact fun e => hp j i hj hi hlt hwb hvb e.symm

theorem liveInv_begin (h : LiveInv s) (call : WriteCall Msg Rest)
    (he : (s.step C since (.begin id call)).Exclusive) : LiveInv (s.step C since (.begin id call)) := by
  have hfree : s.Free id := by
    intro w hw hb
    exact (pairwise_append.mp he.1).2.2 w hw _ (by simp) hb (busy_start id call)
  refine ⟨he, ?_, ?_, h.finds, h.deleted⟩
  · intro j hj
    exact h.free j fun w hw => hj w (mem_append_left _ hw)
  · intro w hw hb
    rcases mem_append.mp hw with hw | hw
    · exact h.busy w hw hb
    · obtain rfl := mem_singleton.mp hw
      exact agreesAt_start (h.free id hfree) call

theorem liveInv_call (h : LiveInv s) (hw : s.writers[i]? = some w) (hb : w.busy = true) {slot : Slot Rest}
    (hat : slot.AgreesAt pc) {s' : LiveStore Msg Rest}
    (hs' : s' = { s with disk := s.disk.set w.id slot, writers := s.writers.set i { w with pc := pc } })
    (he : s'.Exclusive) : LiveInv s' := by
  subst hs'
  have hmem : w ∈ s.writers := List.mem_of_getElem? hw
  refine ⟨he, ?_, ?_, ?_, h.deleted⟩
  · intro j hfree
    by_cases hj : j = w.id
    · -- The writer itself is no longer under way.
      subst hj
      rw [Disk.slot_set_self]
      have hlen : i < s.writers.length := (List.getElem?_eq_some_iff.mp hw).1
      have hnew : ({ w with pc := pc } : Writer Msg Rest) ∈ s.writers.set i { w with pc := pc } := mem_set hlen _
      cases hbn : ({ w with pc := pc } : Writer Msg Rest).busy with
      | false => exact agrees_of_agreesAt (w := { w with pc := pc }) hat hbn
      | true => exact absurd rfl (hfree { w with pc := pc } hnew hbn)
    · rw [Disk.slot_set_ne _ hj]
      refine h.free j fun v hv hvb => ?_
      obtain ⟨k, hk⟩ := List.mem_iff_getElem?.mp hv
      by_cases hki : k = i
      · rw [hki, hw] at hk
        obtain rfl := Option.some.inj hk
        exact fun e => hj e.symm
      · refine hfree v (List.mem_iff_getElem?.mpr ⟨k, ?_⟩) hvb
        rw [List.getElem?_set_ne (Ne.symm hki)]
        exact hk
  · intro v hv hvb
    obtain ⟨k, hk⟩ := List.mem_iff_getElem?.mp hv
    by_cases hki : i = k
    · subst hki
      have hlen : i < s.writers.length := (List.getElem?_eq_some_iff.mp hw).1
      rw [List.getElem?_set_self hlen] at hk
      obtain rfl := Option.some.inj hk
      simpa using hat
    · rw [List.getElem?_set_ne hki] at hk
      have hne := h.exclusive.ids_ne hki hw hk hb hvb
      rw [Disk.slot_set_ne _ (Ne.symm hne)]
      exact h.busy v (List.mem_of_getElem? hk) hvb
  · refine finds_congr h.finds fun j hj => ?_
    have hne : j ≠ w.id := fun e => h.exclusive.2 w hmem hb (e ▸ hj)
    exact Disk.slot_set_ne _ hne

open LiveStore

theorem liveInv_write (h : LiveInv s) (he : (s.step C since (.write i now)).Exclusive) :
    LiveInv (s.step C since (.write i now)) := by
  cases hw : s.writers[i]? with
  | none => simpa only [LiveStore.step, hw] using h
  | some w =>
    cases hb : w.busy with
    | false => simpa [LiveStore.step, hw, hb] using h
    | true =>
      have hs' : s.step C since (.write i now) = { s with
          disk := s.disk.set w.id (w.pc.step C w.id now (s.disk.slot w.id)).2
          writers := s.writers.set i { w with pc := (w.pc.step C w.id now (s.disk.slot w.id)).1 } } := by
        simp [LiveStore.step, hw, hb]
      exact liveInv_call h hw hb (agreesAt_step (h.busy w (List.mem_of_getElem? hw) hb)) hs' he

theorem liveInv_check (h : LiveInv s) (he : (s.step C since .check).Exclusive) : LiveInv (s.step C since .check) := by
  have hagree : ∀ j ∈ (s.check.step since s.disk).1.holding, (s.disk.slot j).Agrees := by
    intro j hj
    exact h.free j fun w hw hb e => he.2 w hw hb (e ▸ hj)
  obtain ⟨hsame, hfinds⟩ := finds_step h.finds hagree
  have hs' : s.step C since .check = { s with check := (s.check.step since s.disk).1 } := by
    simp only [LiveStore.step, hsame, append_nil]
  rw [hs'] at he ⊢
  exact ⟨he, h.free, h.busy, hfinds, h.deleted⟩

theorem liveInv_step {e : LiveEvent Msg Rest} (h : LiveInv s) (he : s.KeepsApart C since e) :
    LiveInv (s.step C since e) := by
  cases e with
  | begin id call => exact liveInv_begin h call he
  | write => exact liveInv_write h he
  | check => exact liveInv_check h he

theorem liveInv_quiet (h : ∀ id, (d.slot id).Agrees) : LiveInv (quiet d : LiveStore Msg Rest) :=
  ⟨⟨.nil, by simp [quiet]⟩, fun id _ => h id, by simp [quiet], trivial, rfl⟩

theorem exclusive_check_deletes_nothing (C : StoreCodec Msg Rest) (since : Int) (d : Disk Rest)
    (hd : ∀ id, (d.slot id).Agrees) (events : List (LiveEvent Msg Rest))
    (h : Trace.Along (LiveStore.step C since) (KeepsApart C since) (quiet d) events) :
    (Trace.run (LiveStore.step C since) (quiet d) events).deleted = [] :=
  (Trace.invariant_along (fun _ _ => liveInv_step) (liveInv_quiet hd) h).deleted

def savedCheckedArchived : List (LiveEvent Bool Unit) :=
  [.begin "s1" (.save (notes [true])), .write 0 1000, .write 0 1000, .write 0 1000, .check, .check, .check,
    .begin "s1" .archive, .write 1 2000, .write 1 2000, .write 1 2000, .write 1 2000, .check]

theorem savedCheckedArchived_deletes_nothing : Trace.Along (LiveStore.step noteStore 0) (KeepsApart noteStore 0)
      (quiet ∅) savedCheckedArchived ∧
      (Trace.run (LiveStore.step noteStore 0) (quiet ∅) savedCheckedArchived).deleted = [] :=
  ⟨by decide, exclusive_check_deletes_nothing noteStore 0 ∅ (fun _ => ⟨rfl, rfl⟩) savedCheckedArchived (by decide)⟩

def archivedUnderCheck : List (LiveEvent Bool Unit) :=
  [.begin "s1" (.save (notes [true])), .write 0 1000, .write 0 1000, .write 0 1000, .check, .begin "s1" .archive,
    .write 1 2000, .write 1 2000, .write 1 2000, .check, .check, .write 1 2000, .check, .check, .check, .check, .check,
    .check, .check]

/-- Both the save and the archive return `Ok`. -/
theorem a_check_deletes_an_archived_session :
    let s := Trace.run (LiveStore.step noteStore 0) (quiet ∅) archivedUnderCheck
    s.writers.map Writer.returnedOk = [true, true] ∧
      s.deleted = [.record "s1", .file .archivedSessions "s1"] := by
  decide

end CloseClaw.Session
