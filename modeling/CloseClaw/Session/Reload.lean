/- What a load finds after completed saves, archives and restores. -/

import CloseClaw.Session.CrashSafety

namespace CloseClaw.Session

open Lib Slot StoreRun

variable {Msg Rest : Type}

def Slot.reopened (C : StoreCodec Msg Rest) (id : String) (s : Slot Rest) : Slot Rest :=
  if s.status = some .archived then (doRestore C id s).2 else s

def ReloadsLastSave (C : StoreCodec Msg Rest) (r : StoreRun Msg Rest) : Prop :=
  ∀ id ts, r.saved id = some ts → ∃ c,
    loadCheckpointInner C id ((r.disk.slot id).reopened C id) = .ok (some c) ∧ c.pendingMessages = ts

/-- No older copy in `archived_sessions/` would be read before the transcript of this call. -/
def Unshadowed (C : StoreCodec Msg Rest) (r : StoreRun Msg Rest) (e : StoreCall Msg Rest × Int) : Prop :=
  match e.1 with
  | .save c => c.status = .migrating →
    (r.disk.slot c.sessionId).archived = none ∨
      contents C (r.disk.slot c.sessionId).archived = some c.pendingMessages
  | _ => True

variable {C : StoreCodec Msg Rest} {id : String} {now : Int} {s : Slot Rest} {ts : List Msg}

theorem load_iff {r : SessionRow Rest} (hr : s.row = some r) :
    (∃ c, loadCheckpointInner C id s = .ok (some c) ∧ c.pendingMessages = ts) ↔
      contents C (s.transcriptFile r.status) = some ts := by
  rw [loadCheckpointInner, hr]
  show (∃ c, (readTranscript C id (s.transcriptFile r.status)).map _ = .ok (some c) ∧ _) ↔ _
  cases s.transcriptFile r.status with
  | none => simp [readTranscript, contents, Except.map]
  | some f =>
    cases hread : C.transcript.read f.text with
    | none => simp [readTranscript, contents, hread, Except.map]
    | some => simp [readTranscript, contents, hread, Except.map, buildCheckpoint]

def MigratingCurrent (C : StoreCodec Msg Rest) (s : Slot Rest) (ts : List Msg) : Prop :=
  s.status = some .migrating → contents C (s.archived.or s.active) = some ts

theorem load_current_iff (h : HoldsTranscript C s ts) :
    (∃ c, loadCheckpointInner C id (s.reopened C id) = .ok (some c) ∧ c.pendingMessages = ts) ↔
      MigratingCurrent C s ts := by
  obtain ⟨r, hr⟩ := Option.isSome_iff_exists.mp h.row
  have hstatus : s.status = some r.status := by simp [status, hr]
  cases hst : r.status with
  | active =>
    have hsome : s.active.isSome = true := by simpa [Agrees, hr, hst] using h.agrees
    obtain ⟨f, hf⟩ := Option.isSome_iff_exists.mp hsome
    have hopen : s.reopened C id = s := by simp [reopened, hstatus, hst]
    rw [hopen, load_iff hr, hst]
    refine iff_of_true ?_ ?_
    · have hn := h.newest
      simpa [transcriptFile, hf] using hn
    · intro hm
      simp [hstatus, hst] at hm
  | migrating =>
    have hopen : s.reopened C id = s := by simp [reopened, hstatus, hst]
    rw [hopen, load_iff hr, hst]
    exact ⟨fun hload _ => hload, fun hcur => hcur (by rw [hstatus, hst])⟩
  | archived =>
    have hopen : s.reopened C id = s.moveBack.markActive := by
      rw [reopened, if_pos (by rw [hstatus, hst]), doRestore_slot, if_pos (.inl (by rw [hstatus, hst]))]
    refine iff_of_true ?_ ?_
    · have hback := holds_moveBack h
      obtain ⟨r', hr'⟩ := Option.isSome_iff_exists.mp hback.row
      have hactive : r'.status = .active := by
        simp only [markActive, moveBack_row, hr, Option.map_some, Option.some.injEq] at hr'
        rw [← hr']
      rw [hopen, load_iff hr', hactive]
      have hsome : s.moveBack.markActive.active.isSome = true := by
        simpa [Agrees, hr', hactive] using hback.agrees
      obtain ⟨f, hf⟩ := Option.isSome_iff_exists.mp hsome
      have hn := hback.newest
      simpa [transcriptFile, hf] using hn
    · intro hm
      simp [hstatus, hst] at hm

theorem migratingCurrent_run {before : Option (List Msg)} (hs : SlotInv C s before)
    (hc : ∀ ts, before = some ts → MigratingCurrent C s ts) (call : StoreCall Msg Rest)
    (hcall : ∀ c, call ≠ .save c) (hts : call.saved before = some ts) : MigratingCurrent C (call.run C now s) ts := by
  cases call with
  | save c => exact absurd rfl (hcall c)
  | archive =>
    obtain rfl : before = some ts := hts
    obtain ⟨r, hr⟩ := Option.isSome_iff_exists.mp hs.2.row
    rw [StoreCall.run]
    by_cases hst : r.status = .archived
    · have hsame : doArchive now s = (.ok (), s) := by simp [doArchive, status, hr, hst]
      rw [hsame]
      exact hc ts rfl
    · rw [doArchive_eq now hr hst hs.2.file]
      intro hm
      simp [status] at hm
  | restore =>
    obtain rfl : before = some ts := hts
    rw [StoreCall.run, doRestore_slot]
    split
    · next hst =>
      intro hm
      cases hr : s.row <;> simp [status, markActive, moveBack_row, hr] at hm
    · exact hc ts rfl
  | delete | purge => cases hts

theorem migratingCurrent_save_iff (c : SessionCheckpoint Msg Rest) :
    MigratingCurrent C (saveCheckpointInner C now c s) c.pendingMessages ↔
      (c.status = .migrating → s.archived = none ∨ contents C s.archived = some c.pendingMessages) := by
  have hstatus : (saveCheckpointInner C now c s).status = some c.status := rfl
  rw [MigratingCurrent, hstatus, Option.some.injEq]
  refine imp_congr_right fun _ => ?_
  cases hx : s.archived with
  | none => simp [saveCheckpointInner, hx, contents]
  | some => simp [saveCheckpointInner, hx]

theorem reloadsLastSave_iff {r : StoreRun Msg Rest} (h : ∀ id, SlotInv C (r.disk.slot id) (r.saved id)) :
    ReloadsLastSave C r ↔ ∀ id ts, r.saved id = some ts → MigratingCurrent C (r.disk.slot id) ts := by
  refine forall_congr' fun id => forall_congr' fun ts => imp_congr_right fun hts => ?_
  have hslot := h id
  rw [hts] at hslot
  exact load_current_iff hslot.2

theorem reloadsLastSave_step_iff {r : StoreRun Msg Rest} (h : ∀ id, SlotInv C (r.disk.slot id) (r.saved id))
    (hr : ReloadsLastSave C r) (e : StoreCall Msg Rest × Int) : ReloadsLastSave C (r.step C e) ↔ Unshadowed C r e := by
  obtain ⟨call, now⟩ := e
  rw [reloadsLastSave_iff (slotInv_step h _)]
  rw [reloadsLastSave_iff h] at hr
  -- the other sessions are where they were
  have hself : (∀ id ts, (r.step C (call, now)).saved id = some ts →
      MigratingCurrent C ((r.step C (call, now)).disk.slot id) ts) ↔
      ∀ ts, call.saved (r.saved call.sessionId) = some ts →
        MigratingCurrent C (call.run C now (r.disk.slot call.sessionId)) ts := by
    simp only [step, Disk.slot_set]
    constructor
    · intro hall ts hts
      simpa using hall call.sessionId ts (by simpa using hts)
    · intro hall id ts hts
      split at hts
      · next hid => rw [if_pos hid]; exact hall ts hts
      · next hid => rw [if_neg hid]; exact hr id ts hts
  rw [hself]
  cases call with
  | save c =>
    show (∀ ts, some c.pendingMessages = some ts → _) ↔ _
    simp only [Option.some.injEq, forall_eq']
    exact migratingCurrent_save_iff c
  | archive id | restore id | delete id | purge id =>
    refine iff_of_true ?_ trivial
    intro ts hts
    exact migratingCurrent_run (h _) (hr _) _ (fun c hsave => by cases hsave) hts

/-- A load always finds the transcript saved last, exactly if no step saves as migrating while
another one is archived. -/
theorem reload_yields_the_last_save_iff (C : StoreCodec Msg Rest) (calls : List (StoreCall Msg Rest × Int)) :
    (∀ before, before <+: calls → ReloadsLastSave C (Trace.run (step C) init before)) ↔
      Trace.Along (step C) (Unshadowed C) init calls := by
  refine Trace.always_iff_along (I := fun r : StoreRun Msg Rest => ∀ id, SlotInv C (r.disk.slot id) (r.saved id))
    ?_ ?_ ?_ ?_
  · intro r e h
    exact slotInv_step h e
  · intro r e h hr
    exact reloadsLastSave_step_iff h hr e
  · intro id
    exact (⟨.inl rfl, rfl⟩ : SlotInv C empty none)
  · intro id ts hts
    cases hts

def resavedNote : List (StoreCall Bool Unit × Int) :=
  archivedNote ++ [(.save { notes [true, false] with status := .migrating }, 3000)]

theorem a_save_as_migrating_is_shadowed : (doArchive 2000 ((noteDisk savedNote).slot "s1")).1 = .ok () ∧
      (Trace.run (step noteStore) init resavedNote).saved "s1" = some [true, false] ∧
      loadCheckpointInner noteStore "s1" (((noteDisk resavedNote).slot "s1").reopened noteStore "s1") =
        .ok (some { notes [true] with status := .migrating, agentId := some "unknown", role := some .mainAgent }) ∧
      ¬ ReloadsLastSave noteStore (Trace.run (step noteStore) init resavedNote) := by
  have hload : loadCheckpointInner noteStore "s1" (((noteDisk resavedNote).slot "s1").reopened noteStore "s1") =
      .ok (some { notes [true] with status := .migrating, agentId := some "unknown", role := some .mainAgent }) := by
    decide
  refine ⟨rfl, rfl, hload, ?_⟩
  intro h
  obtain ⟨c, hc, hts⟩ := h "s1" [true, false] rfl
  have hsame := hload.symm.trans hc
  injection hsame with hsame
  injection hsame with hsame
  rw [← hsame] at hts
  simp [notes] at hts

end CloseClaw.Session
