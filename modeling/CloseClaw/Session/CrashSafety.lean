/- A stop of the process inside archive, restore or save. -/

import CloseClaw.Session.CheckpointManager
import CloseClaw.Session.Startup

namespace CloseClaw.Session

open Lib List Slot WriteCall

variable {Msg Rest : Type}

inductive StoreCall (Msg Rest : Type) where
  | save (c : SessionCheckpoint Msg Rest)
  | archive (id : String)
  | restore (id : String)
  | delete (id : String)
  | purge (id : String)

namespace StoreCall

def sessionId : StoreCall Msg Rest → String
  | .save c => c.sessionId
  | .archive id | .restore id | .delete id | .purge id => id

def run (C : StoreCodec Msg Rest) (now : Int) (s : Slot Rest) : StoreCall Msg Rest → Slot Rest
  | .save c => saveCheckpointInner C now c s
  | .archive _ => (doArchive now s).2
  | .restore id => (doRestore C id s).2
  | .delete _ => deleteCheckpoint s
  | .purge _ => doPurge s

def saved (before : Option (List Msg)) : StoreCall Msg Rest → Option (List Msg)
  | .save c => some c.pendingMessages
  | .archive _ | .restore _ => before
  | .delete _ | .purge _ => none

end StoreCall

structure StoreRun (Msg Rest : Type) where
  disk : Disk Rest
  saved : String → Option (List Msg)

def StoreRun.init : StoreRun Msg Rest := ⟨∅, fun _ => none⟩

def StoreRun.step (C : StoreCodec Msg Rest) (r : StoreRun Msg Rest) (e : StoreCall Msg Rest × Int) :
    StoreRun Msg Rest :=
  let id := e.1.sessionId
  ⟨r.disk.set id (e.1.run C e.2 (r.disk.slot id)), fun j => if j = id then e.1.saved (r.saved id) else r.saved j⟩

variable {C : StoreCodec Msg Rest} {id : String} {now : Int} {s : Slot Rest} {ts : List Msg}

structure HoldsTranscript (C : StoreCodec Msg Rest) (s : Slot Rest) (ts : List Msg) : Prop where
  row : s.row.isSome = true
  agrees : s.Agrees
  newest : contents C (s.active.or s.archived) = some ts

def ArchiveReads (C : StoreCodec Msg Rest) (s : Slot Rest) : Prop :=
  s.archived = none ∨ (contents C s.archived).isSome = true

def SlotInv (C : StoreCodec Msg Rest) (s : Slot Rest) : Option (List Msg) → Prop
  | none => ArchiveReads C s ∧ s.row = none
  | some ts => ArchiveReads C s ∧ HoldsTranscript C s ts

theorem holds_save (c : SessionCheckpoint Msg Rest) (s : Slot Rest) :
    HoldsTranscript C (saveCheckpointInner C now c s) c.pendingMessages where
  row := rfl
  agrees := by
    obtain ⟨id, status, at_, agent, role, ops, ms, rest⟩ := c
    cases status <;> simp [saveCheckpointInner, Agrees, sessionRow]
  newest := by simp [saveCheckpointInner, contents]

theorem HoldsTranscript.file (h : HoldsTranscript C s ts) : (s.archived.or s.active).isSome = true := by
  have hn := h.newest
  cases ha : s.active <;> cases hx : s.archived <;> simp_all [contents]

theorem holds_archive (h : HoldsTranscript C s ts) : HoldsTranscript C (doArchive now s).2 ts := by
  obtain ⟨r, hr⟩ := Option.isSome_iff_exists.mp h.row
  by_cases hst : r.status = .archived
  · have hsame : doArchive now s = (.ok (), s) := by simp [doArchive, status, hr, hst]
    rwa [hsame]
  · rw [doArchive_eq now hr hst h.file]
    refine ⟨rfl, ?_, ?_⟩
    · simpa [Agrees] using h.file
    · simpa only [newest_of_archived] using h.newest

theorem archiveReads_archive (ha : ArchiveReads C s) (h : HoldsTranscript C s ts) :
    ArchiveReads C (doArchive now s).2 := by
  obtain ⟨r, hr⟩ := Option.isSome_iff_exists.mp h.row
  by_cases hst : r.status = .archived
  · have hsame : doArchive now s = (.ok (), s) := by simp [doArchive, status, hr, hst]
    rwa [hsame]
  · rw [doArchive_eq now hr hst h.file]
    have hn := h.newest
    rcases ha with ha | ha
    · exact .inr (by simp_all)
    · cases hx : s.archived <;> simp_all [ArchiveReads]

theorem doRestore_slot (C : StoreCodec Msg Rest) (id : String) (s : Slot Rest) : (doRestore C id s).2 =
    if s.status = some .archived ∨ s.status = some .migrating then s.moveBack.markActive else s := by
  unfold doRestore
  rcases s.status with _ | _ | _ | _ <;> rfl

theorem archiveReads_moveBack (ha : ArchiveReads C s) : ArchiveReads C s.moveBack.markActive := by
  obtain ⟨row, active, archived⟩ := s
  cases active <;> cases archived <;> first | exact ha | exact .inl rfl

theorem holds_moveBack (h : HoldsTranscript C s ts) : HoldsTranscript C s.moveBack.markActive ts := by
  have hsome : (s.active.or s.archived).isSome = true := by
    have hn := h.newest
    cases hf : s.active.or s.archived with
    | none => simp [hf, contents] at hn
    | some => rfl
  obtain ⟨r, hr⟩ := Option.isSome_iff_exists.mp h.row
  refine ⟨?_, ?_, ?_⟩
  · simp [markActive, moveBack_row, hr]
  · simpa [Agrees, markActive, moveBack_row, hr, moveBack_active] using hsome
  · have hactive : s.moveBack.markActive.active = s.active.or s.archived := moveBack_active s
    rw [hactive]
    obtain ⟨f, hf⟩ := Option.isSome_iff_exists.mp hsome
    simpa [hf] using h.newest

theorem slotInv_run {before : Option (List Msg)} (h : SlotInv C s before) (call : StoreCall Msg Rest) :
    SlotInv C (call.run C now s) (call.saved before) := by
  cases call with
  | save c => cases before <;> exact ⟨h.1, holds_save c s⟩
  | archive =>
    cases before with
    | none =>
      have hsame : doArchive now s = (.ok (), s) := by simp [doArchive, status, h.2]
      rw [StoreCall.run, hsame]
      exact h
    | some => exact ⟨archiveReads_archive h.1 h.2, holds_archive h.2⟩
  | restore =>
    rw [StoreCall.run, doRestore_slot]
    split
    · next hst =>
      cases before with
      | none => simp [status, h.2] at hst
      | some => exact ⟨archiveReads_moveBack h.1, holds_moveBack h.2⟩
    · exact h
  | delete | purge => exact ⟨.inl rfl, rfl⟩

open StoreRun

theorem slotInv_step {r : StoreRun Msg Rest} (h : ∀ id, SlotInv C (r.disk.slot id) (r.saved id))
    (e : StoreCall Msg Rest × Int) (id : String) : SlotInv C ((r.step C e).disk.slot id) ((r.step C e).saved id) := by
  simp only [step, Disk.slot_set]
  split
  · exact slotInv_run (h _) e.1
  · exact h id

theorem slotInv_of_run (C : StoreCodec Msg Rest) (calls : List (StoreCall Msg Rest × Int)) (id : String) :
    SlotInv C ((Trace.run (step C) init calls).disk.slot id)
      ((Trace.run (step C) init calls).saved id) := by
  refine Trace.invariant (I := fun r : StoreRun Msg Rest => ∀ id, SlotInv C (r.disk.slot id) (r.saved id)) ?_ ?_ calls id
  · intro r e h
    exact slotInv_step h e
  · intro id
    exact (⟨.inl rfl, rfl⟩ : SlotInv C empty none)

/-! ## A call that stops -/

def WriteCall.after (ts : List Msg) : WriteCall Msg Rest → List Msg
  | .save c => c.pendingMessages
  | .archive | .restore => ts

def WriteCall.stop (C : StoreCodec Msg Rest) (id : String) (s : Slot Rest) (times : List Int)
    (call : WriteCall Msg Rest) :
    Slot Rest :=
  (Pc.steps C id (call.start, s) times).2

def WriteCall.Harmless (C : StoreCodec Msg Rest) (s : Slot Rest) (ts : List Msg) (n : Nat) : WriteCall Msg Rest → Prop
  | .archive => True
  | .restore => ¬ (n = 4 ∧ s.status = some .archived ∧ s.active = none ∧
    ∃ r, s.row = some r ∧ ∃ t ∈ r.archivedAt, 0 < t)
  | .save c => n = 0 ∨ (n = 1 ∧ (c.status = .active → s.active.isSome = true)) ∨
      (2 ≤ n ∧ ∃ m, C.transcript.CutAt c.pendingMessages m ((C.pieces c.pendingMessages).take (n - 2)).flatten ∧
        (c.pendingMessages.take m = ts ∨ c.pendingMessages.take m = c.pendingMessages))

/-! ### Inside archive -/

structure Recoverable (C : StoreCodec Msg Rest) (s : Slot Rest) (ts : List Msg) : Prop where
  row : s.row.isSome = true
  newest : contents C (s.active.or s.archived) = some ts
  archived : ArchiveReads C s
  active : s.status = some .active → s.active.isSome = true
  filed : s.status = some .archived → ¬ Orphaned s

variable {pc : Pc Msg Rest} {f : TranscriptFile} {allowed : List (List Msg)}

theorem Recoverable.survives (h : Recoverable C s ts) (hts : ts ∈ allowed) :
    Survives C id (restartSlot C now id s) allowed := by
  have hread : ReadsAs C (s.active.or s.archived) allowed := ⟨ts, hts, h.newest⟩
  cases hst : s.status with
  | none =>
    have := h.row
    simp [status] at hst
    simp [hst] at this
  | some st =>
    cases st with
    | active =>
      obtain ⟨f, hf⟩ := Option.isSome_iff_exists.mp (h.active hst)
      rw [survives_restart_active_iff hst]
      simpa [hf] using hread
    | migrating =>
      refine (survives_restart_migrating_iff hst).mpr ⟨?_, hread⟩
      rcases h.archived with hx | hx
      · have hn := h.newest
        simp_all
      · cases hf : s.archived with
        | none => simp [hf, contents] at hx
        | some => simpa [hf] using hx
    | archived => exact (survives_restart_archived_iff hst).mpr ⟨h.filed hst, hread⟩

theorem HoldsTranscript.recoverable (h : HoldsTranscript C s ts) (ha : ArchiveReads C s) : Recoverable C s ts := by
  obtain ⟨r, hr⟩ := Option.isSome_iff_exists.mp h.row
  refine ⟨h.row, h.newest, ha, ?_, ?_⟩
  · intro hst
    have hagree := h.agrees
    simp_all [Agrees, status]
  · rintro hst ⟨r', hr', hx, t, ht, -⟩
    have hagree := h.agrees
    simp_all [Agrees, status]

def ArchivePoint (C : StoreCodec Msg Rest) (ts : List Msg) (s : Slot Rest) : Pc Msg Rest → Prop
  | .markMigrating | .finished _ => Recoverable C s ts
  | .testArchived => Recoverable C s ts ∧ s.status = some .migrating
  | .moveToArchived => Recoverable C s ts ∧ s.status = some .migrating ∧ s.archived = none
  | .stampArchived => Recoverable C s ts ∧ s.status = some .migrating ∧ s.archived.isSome = true
  | _ => False

theorem ArchivePoint.recoverable (h : ArchivePoint C ts s pc) : Recoverable C s ts := by
  cases pc with
  | markMigrating | finished => exact h
  | testArchived | moveToArchived | stampArchived => exact h.1
  | _ => exact h.elim

theorem status_markMigrating (h : s.row.isSome = true) : s.markMigrating.status = some .migrating := by
  obtain ⟨r, hr⟩ := Option.isSome_iff_exists.mp h
  simp [markMigrating, status, hr]

theorem Recoverable.of_migrating {s' : Slot Rest} (hst : s'.status = some .migrating)
    (hn : contents C (s'.active.or s'.archived) = some ts) (ha : ArchiveReads C s') : Recoverable C s' ts where
  row := by
    obtain ⟨r, hr, -⟩ := Option.map_eq_some_iff.mp hst
    simp [hr]
  newest := hn
  archived := ha
  active h := by rw [hst] at h; cases h
  filed h := by rw [hst] at h; cases h

theorem archivePoint_step (h : ArchivePoint C ts s pc) :
    ArchivePoint C ts (pc.step C id now s).2 (pc.step C id now s).1 := by
  cases pc with
  | markMigrating =>
    have h : Recoverable C s ts := h
    simp only [Pc.step]
    split
    · exact h
    · next hst => exact ⟨h, hst⟩
    · have hst := status_markMigrating h.row
      exact ⟨.of_migrating hst h.newest h.archived, hst⟩
    · exact h
  | testArchived =>
    cases hx : s.archived with
    | none | some => simpa [Pc.step, hx, ArchivePoint] using h
  | moveToArchived =>
    obtain ⟨h, hst, hx⟩ := h
    have hn := h.newest
    cases ha : s.active with
    | none => simpa [Pc.step, ha, ArchivePoint] using h
    | some f =>
      have hst' : ({ s with active := none, archived := some f } : Slot Rest).status = some .migrating := hst
      have hread : contents C (some f) = some ts := by simpa [ha, hx] using hn
      have hrec : Recoverable C { s with active := none, archived := some f } ts :=
        .of_migrating hst' hread (.inr (by simp [hread]))
      simpa [Pc.step, ha, ArchivePoint] using ⟨hrec, hst'⟩
  | stampArchived =>
    obtain ⟨h, hst, hx⟩ := h
    obtain ⟨r, hr, -⟩ := Option.map_eq_some_iff.mp hst
    refine ⟨?_, h.newest, h.archived, ?_, ?_⟩
    · simp [Pc.step, stampArchived, hr]
    · intro hst'
      simp [Pc.step, stampArchived, status, hr] at hst'
    · rintro - ⟨r', -, hno, -⟩
      have hno' : s.archived = none := hno
      simp [hno'] at hx
  | finished => exact h
  | _ => exact h.elim

theorem archivePoint_steps (h : ArchivePoint C ts s pc) (times : List Int) :
    ArchivePoint C ts (Pc.steps C id (pc, s) times).2 (Pc.steps C id (pc, s) times).1 :=
  Trace.invariant (I := fun p : Pc Msg Rest × Slot Rest => ArchivePoint C ts p.2 p.1) (fun _ _ h => archivePoint_step h)
    (s := (pc, s)) h times

/-! ### Inside restore -/

theorem restore_stop_moving (hst : s.status = some .archived ∨ s.status = some .migrating) (ha : s.active = none)
    (hx : s.archived = some f) (times : List Int) :
    restore.stop C id s times =
      if times.length ≤ 3 then s else if times.length = 4 then s.moveBack else s.moveBack.markActive := by
  obtain ⟨row, active, archived⟩ := s
  obtain rfl : active = none := ha
  obtain rfl : archived = some f := hx
  rcases times with _ | ⟨a, _ | ⟨b, _ | ⟨c, _ | ⟨d, _ | ⟨e, rest⟩⟩⟩⟩⟩ <;> rcases hst with hst | hst <;>
    simp [stop, start, Pc.step, hst, moveBack]

theorem restore_stop_staying (hst : s.status = some .archived ∨ s.status = some .migrating)
    (h : s.active.isSome = true ∨ s.archived = none) (times : List Int) :
    restore.stop C id s times = s ∨ restore.stop C id s times = s.moveBack.markActive := by
  obtain ⟨row, active, archived⟩ := s
  cases active <;> cases archived <;> simp only [Option.isSome_none, reduceCtorEq, Bool.false_eq_true, or_self] at h <;>
    rcases times with _ | ⟨a, _ | ⟨b, _ | ⟨c, _ | ⟨d, _ | ⟨e, rest⟩⟩⟩⟩⟩ <;> rcases hst with hst | hst <;>
      simp [stop, start, Pc.step, hst, moveBack]

theorem restore_stop_refused (hst : ¬ (s.status = some .archived ∨ s.status = some .migrating)) (times : List Int) :
    restore.stop C id s times = s := by
  cases times with
  | nil => rfl
  | cons =>
    rcases h : s.status with _ | _ | _ | _ <;> simp_all [stop, start, Pc.step]

/-! ### Inside save -/

theorem writing_stop (pieces : List (List Char)) (text : List Char) (t : Int) (times : List Int) : ∃ t',
    (Pc.steps C id (.writing text.length pieces, { s with active := some ⟨text, t⟩ }) times).2 =
      { s with active := some ⟨text ++ (pieces.take times.length).flatten, t'⟩ } := by
  induction times generalizing pieces text t with
  | nil => exact ⟨t, by simp⟩
  | cons now times ih =>
    cases pieces with
    | nil => exact ⟨t, by simp [Pc.writing, Pc.step]⟩
    | cons piece pieces =>
      have hw := TranscriptFile.writeAt_length ⟨text, t⟩ piece now
      obtain ⟨t', h⟩ := ih pieces (text ++ piece) (now / 1000)
      refine ⟨t', ?_⟩
      simp only [Pc.writing_cons, Pc.steps_cons, Pc.step, Option.map_some, hw]
      simpa only [length_append, length_cons, take_succ_cons, flatten_cons,
        append_assoc] using h

theorem save_stop (C : StoreCodec Msg Rest) (id : String) (s : Slot Rest) (c : SessionCheckpoint Msg Rest) (t₁ t₂ : Int)
    (times : List Int) : ∃ t,
    (save c).stop C id s (t₁ :: t₂ :: times) = { s with
      row := some (sessionRow c)
      active := some ⟨((C.pieces c.pendingMessages).take times.length).flatten, t⟩ } := by
  obtain ⟨t, h⟩ := writing_stop (C := C) (s := { s with row := some (sessionRow c) }) (C.pieces c.pendingMessages) []
    (t₂ / 1000) times
  exact ⟨t, by simpa [stop, start, Pc.step] using h⟩

/-! ## When a stop loses the transcript -/

theorem survives_stopped_archive (h : HoldsTranscript C s ts) (ha : ArchiveReads C s) (hts : ts ∈ allowed)
    (times : List Int) :
    Survives C id (restartSlot C now id (archive.stop C id s times)) allowed :=
  have hpoint : ArchivePoint C ts s .markMigrating := h.recoverable ha
  (archivePoint_steps hpoint times).recoverable.survives hts

theorem survives_moved_iff (h : HoldsTranscript C s ts) (hst : s.status = some .archived) (hact : s.active = none)
    (hx : s.archived = some f) (hts : ts ∈ allowed) :
    Survives C id (restartSlot C now id s.moveBack) allowed ↔ ¬ ∃ r, s.row = some r ∧ ∃ t ∈ r.archivedAt, 0 < t := by
  have hst' : s.moveBack.status = some .archived := by rwa [status, moveBack_row]
  have hgone : s.moveBack.archived = none := by simp [moveBack, hact, hx]
  have hactive : s.moveBack.active.or s.moveBack.archived = s.active.or s.archived := by
    simp [moveBack_active, hgone]
  have hread : ReadsAs C (s.active.or s.archived) allowed := ⟨ts, hts, h.newest⟩
  rw [survives_restart_archived_iff hst', hactive, and_iff_left hread]
  simp [Orphaned, moveBack_row, hgone]

theorem survives_stopped_restore_iff (h : HoldsTranscript C s ts) (ha : ArchiveReads C s) (hts : ts ∈ allowed)
    (times : List Int) :
    Survives C id (restartSlot C now id (restore.stop C id s times)) allowed ↔
      restore.Harmless C s ts times.length := by
  have hsame : Survives C id (restartSlot C now id s) allowed := (h.recoverable ha).survives hts
  have hdone : Survives C id (restartSlot C now id s.moveBack.markActive) allowed :=
    ((holds_moveBack h).recoverable (archiveReads_moveBack ha)).survives hts
  by_cases hst : s.status = some .archived ∨ s.status = some .migrating
  swap
  · rw [restore_stop_refused hst]
    exact iff_of_true hsame fun hn => hst (.inl hn.2.1)
  cases hact : s.active with
  | some =>
    refine iff_of_true ?_ fun hn => by simp [hact] at hn
    rcases restore_stop_staying (C := C) hst (.inl (by simp [hact])) times with he | he <;> rwa [he]
  | none =>
    obtain ⟨f, hx⟩ : ∃ f, s.archived = some f := by
      have hf := h.file
      rwa [hact, Option.or_none, Option.isSome_iff_exists] at hf
    rw [restore_stop_moving hst hact hx]
    split
    · next hn => exact iff_of_true hsame fun hh => by omega
    · split
      · next hn =>
        rcases hst with hst | hst
        · rw [survives_moved_iff h hst hact hx hts]
          simp [Harmless, hn, hst, hact]
        · refine iff_of_true ?_ fun hh => by simp [hst] at hh
          have hst' : s.moveBack.status = some .migrating := by rwa [status, moveBack_row]
          have hgone : s.moveBack.archived = none := by simp [moveBack, hact, hx]
          have hn : contents C (s.moveBack.active.or s.moveBack.archived) = some ts := by
            simpa [hgone, moveBack_active] using h.newest
          exact (Recoverable.of_migrating hst' hn (.inl hgone)).survives hts
      · next hn => exact iff_of_true hdone fun hh => hn hh.1

theorem survives_inserted_iff (h : HoldsTranscript C s ts) (ha : ArchiveReads C s) (c : SessionCheckpoint Msg Rest)
    (hts : ts ∈ allowed) :
    Survives C id (restartSlot C now id { s with row := some (sessionRow c) }) allowed ↔
      (c.status = .active → s.active.isSome = true) := by
  have hread : ReadsAs C (s.active.or s.archived) allowed := ⟨ts, hts, h.newest⟩
  cases hc : c.status with
  | active =>
    rw [survives_restart_active_iff (by simp [status, sessionRow, hc])]
    cases hact : s.active with
    | none => simp [ReadsAs, contents]
    | some =>
      rw [hact] at hread
      simpa using hread
  | migrating =>
    refine iff_of_true ?_ fun hh => by cases hh
    have hrec : Recoverable C { s with row := some (sessionRow c) } ts :=
      .of_migrating (by simp [status, sessionRow, hc]) h.newest ha
    exact hrec.survives hts
  | archived =>
    refine iff_of_true ?_ fun hh => by cases hh
    rw [survives_restart_archived_iff (by simp [status, sessionRow, hc])]
    refine ⟨?_, hread⟩
    rintro ⟨r, hr, -, t, ht, -⟩
    obtain rfl : sessionRow c = r := by simpa using hr
    cases ht

theorem survives_written_iff (ha : ArchiveReads C s) (c : SessionCheckpoint Msg Rest) (f : TranscriptFile)
    {allowed : List (List Msg)} :
    Survives C id (restartSlot C now id { s with row := some (sessionRow c), active := some f }) allowed ↔
      ReadsAs C (some f) allowed := by
  cases hc : c.status with
  | active => rw [survives_restart_active_iff (by simp [status, sessionRow, hc])]
  | migrating =>
    rw [survives_restart_migrating_iff (by simp [status, sessionRow, hc])]
    simp only [Option.some_or, and_iff_right_iff_imp]
    rintro ⟨ms, -, hread⟩
    rcases ha with hx | hx
    · simp [hx, hread]
    · cases hf : s.archived with
      | none => simp [hf, contents] at hx
      | some => simpa [hf] using hx
  | archived =>
    rw [survives_restart_archived_iff (by simp [status, sessionRow, hc])]
    simp only [Option.some_or, and_iff_right_iff_imp]
    rintro - ⟨r, hr, -, t, ht, -⟩
    obtain rfl : sessionRow c = r := by simpa using hr
    cases ht

theorem survives_stopped_save_iff (h : HoldsTranscript C s ts) (ha : ArchiveReads C s) (c : SessionCheckpoint Msg Rest)
    (times : List Int) :
    Survives C id (restartSlot C now id ((save c).stop C id s times)) [ts, c.pendingMessages] ↔
      (save c).Harmless C s ts times.length := by
  rcases times with _ | ⟨t₁, _ | ⟨t₂, times⟩⟩
  · exact iff_of_true ((h.recoverable ha).survives (by simp)) (.inl rfl)
  · have hins : Survives C id (restartSlot C now id { s with row := some (sessionRow c) }) [ts, c.pendingMessages] ↔
        (c.status = .active → s.active.isSome = true) := survives_inserted_iff h ha c (by simp)
    simpa [stop, start, Pc.step, Harmless] using hins
  · obtain ⟨t, hstop⟩ := save_stop C id s c t₁ t₂ times
    have hcut : ((C.pieces c.pendingMessages).take times.length).flatten <+: C.transcript.text c.pendingMessages := by
      rw [← C.pieces_flatten]
      exact (List.take_prefix _ _).flatten
    rw [hstop, survives_written_iff ha]
    simp only [ReadsAs, contents, Option.bind_some, C.transcript.read_cut_iff hcut]
    constructor
    · rintro ⟨ms, hms, n, hn, rfl⟩
      exact .inr (.inr ⟨by simp, n, by simpa using hn, by simpa using hms⟩)
    · rintro (h0 | ⟨h1, -⟩ | ⟨-, n, hn, hms⟩)
      · simp at h0
      · simp at h1
      · exact ⟨_, by simpa using hms, n, by simpa using hn, rfl⟩

/-- After completed calls, one that stops half-way and a restart, the session has the transcript
before or after exactly when the stop is harmless. -/
theorem stopped_call_keeps_the_transcript_iff (C : StoreCodec Msg Rest) (calls : List (StoreCall Msg Rest × Int))
    (id : String)
    (ts : List Msg) (hts : (Trace.run (step C) init calls).saved id = some ts)
    (call : WriteCall Msg Rest) (times : List Int) (now : Int) :
    let d := (Trace.run (step C) init calls).disk
    Survives C id ((restart C now (d.set id (call.stop C id (d.slot id) times))).slot id) [ts, call.after ts] ↔
      call.Harmless C (d.slot id) ts times.length := by
  intro d
  have hinv := slotInv_of_run C calls id
  rw [hts] at hinv
  obtain ⟨ha, h⟩ := hinv
  rw [slot_restart, Disk.slot_set_self]
  cases call with
  | save c => exact survives_stopped_save_iff h ha c times
  | archive => exact iff_of_true (survives_stopped_archive h ha (by simp) times) trivial
  | restore => exact survives_stopped_restore_iff h ha (by simp) times

def savedNote : List (StoreCall Bool Unit × Int) := [(.save (notes [true]), 1000)]

def archivedNote : List (StoreCall Bool Unit × Int) := savedNote ++ [(.archive "s1", 2000)]

def noteDisk (calls : List (StoreCall Bool Unit × Int)) : Disk Unit :=
  (Trace.run (step noteStore) init calls).disk

theorem a_stopped_archive_keeps_the_note :
    (Trace.run (step noteStore) init savedNote).saved "s1" = some [true] ∧
      Survives noteStore "s1" ((restart noteStore 3000 ((noteDisk savedNote).set "s1"
        (archive.stop noteStore "s1" ((noteDisk savedNote).slot "s1") [2000, 2000, 2000]))).slot "s1")
          [[true], [true]] :=
  ⟨rfl, (stopped_call_keeps_the_transcript_iff noteStore savedNote "s1" [true] rfl .archive
    [2000, 2000, 2000] 3000).mpr trivial⟩

theorem a_stopped_restore_or_save_loses_the_note :
    ¬ Survives noteStore "s1" ((restart noteStore 4000 ((noteDisk archivedNote).set "s1"
        (restore.stop noteStore "s1" ((noteDisk archivedNote).slot "s1")
          [3000, 3000, 3000, 3000]))).slot "s1")
        [[true], [true]] ∧
      ¬ Survives noteStore "s1" ((restart noteStore 4000 ((noteDisk savedNote).set "s1"
        ((save (notes [true, false])).stop noteStore "s1" ((noteDisk savedNote).slot "s1")
          [3000, 3000]))).slot "s1")
        [[true], [true, false]] := by
  constructor
  · rintro ⟨hst | hst, -⟩ <;> revert hst <;> decide
  · rintro ⟨-, c, hc, hm⟩
    have hempty : c.pendingMessages = [] := by
      have := congrArg (Option.map SessionCheckpoint.pendingMessages) hc
      exact (Option.some.inj this).symm
    simp [hempty] at hm

end CloseClaw.Session
