/- Runs of the snapshot manager, and the metadata it stores (`snapshot_manager.rs`,
   `snapshot_meta_support.rs`). -/

import CloseClaw.Lib.Trace
import CloseClaw.Session.Transcript

namespace CloseClaw.Session.RuntimeSnapshotManager

open Lib List

def createIncrementalSnapshot (snapshots : List Snapshot) (messages : List SessionMessage)
    (reason leafEntryId id : String) : List Snapshot :=
  push snapshots ⟨id, reason, messages, .append, .incremental leafEntryId, .pending, false⟩

inductive SnapshotCall where
  | create (messages : List SessionMessage) (op : TranscriptOp) (reason id : String)
  | createIncremental (messages : List SessionMessage) (reason leafEntryId id : String)
  | markComplete (id : String)
  | rollback (current : List SessionMessage) (id : String)

structure SnapshotRun where
  snapshots : List Snapshot
  pushed : List (List SessionMessage × SnapshotKind)

def savesCurrent (snapshots : List Snapshot) : Bool := !snapshots.dropLast.getLast?.any (·.isPreRollback)

def step (s : SnapshotRun) : SnapshotCall → SnapshotRun
  | .create messages op reason id =>
    ⟨createSnapshot s.snapshots messages op reason id,
      if op.requiresSnapshot then s.pushed ++ [(messages, .fullRewrite)] else s.pushed⟩
  | .createIncremental messages reason leafEntryId id =>
    ⟨createIncrementalSnapshot s.snapshots messages reason leafEntryId id,
      s.pushed ++ [(messages, .incremental leafEntryId)]⟩
  | .markComplete id => { s with snapshots := markComplete id s.snapshots }
  | .rollback current id =>
    match rollback s.snapshots current id with
    | none => s
    | some (_, snapshots) =>
      ⟨snapshots,
        if savesCurrent s.snapshots then s.pushed.dropLast ++ [(current, .fullRewrite)] else s.pushed.dropLast⟩

/-- The snapshot below the last one is not of a rollback, or has just these messages. -/
def Undoable (snapshots : List Snapshot) (current : List SessionMessage) : Prop :=
  savesCurrent snapshots = true ∨
    snapshots.dropLast.getLast?.map Snapshot.content = some (current, .fullRewrite)

structure Kept (s : SnapshotRun) : Prop where
  bound : s.snapshots.length ≤ maxSnapshots
  recent : s.snapshots.map Snapshot.content <:+ s.pushed

variable {stored : List SnapshotMeta} {snapshots : List Snapshot}

theorem push_eq (h : snapshots.length ≤ maxSnapshots) (snap : Snapshot) :
    ∃ kept, kept <:+ snapshots ∧ kept.length < maxSnapshots ∧ push snapshots snap = kept ++ [snap] := by
  unfold push
  split_ifs with hfull
  · refine ⟨snapshots.tail, tail_suffix _, ?_, rfl⟩
    rw [length_tail]
    unfold maxSnapshots at *
    omega
  · exact ⟨snapshots, suffix_rfl, Nat.lt_of_not_le hfull, rfl⟩

theorem Kept.push {pushed : List (List SessionMessage × SnapshotKind)} (h : Kept ⟨snapshots, pushed⟩)
    (snap : Snapshot) : Kept ⟨push snapshots snap, pushed ++ [snap.content]⟩ := by
  obtain ⟨kept, hkept, hlength, heq⟩ := push_eq h.bound snap
  obtain ⟨older, holder⟩ := (hkept.map Snapshot.content).trans h.recent
  rw [heq]
  refine ⟨by simpa using Nat.succ_le_of_lt hlength, older, ?_⟩
  rw [map_append, ← append_assoc, holder]
  rfl

theorem Kept.pop {s : SnapshotRun} (h : Kept s) {init : List Snapshot} {snap : Snapshot}
    (hs : s.snapshots = init ++ [snap]) : Kept ⟨init, s.pushed.dropLast⟩ ∧ s.pushed.getLast? = some snap.content := by
  have hbound := h.bound
  obtain ⟨older, holder⟩ := h.recent
  rw [hs, map_append, ← append_assoc] at holder
  rw [hs, length_append] at hbound
  refine ⟨⟨Nat.le_of_add_right_le hbound, older, ?_⟩, ?_⟩
  · rw [← holder]
    exact dropLast_concat.symm
  · rw [← holder]
    exact List.getLast?_concat

theorem rollback_concat (init : List Snapshot) (snap : Snapshot) (current : List SessionMessage) (id : String) :
    rollback (init ++ [snap]) current id = some (snap.content, preRollback init current id) := by
  simp [rollback]

theorem rollback_content (snapshots : List Snapshot) (current : List SessionMessage) (id : String) :
    (rollback snapshots current id).map Prod.fst = snapshots.getLast?.map Snapshot.content := by
  simp [rollback, Function.comp_def]

theorem Kept.step {s : SnapshotRun} (h : Kept s) (call : SnapshotCall) : Kept (step s call) := by
  cases call with
  | create =>
    simp only [RuntimeSnapshotManager.step, createSnapshot]
    split_ifs
    · exact h.push _
    · exact h
  | createIncremental => exact h.push _
  | markComplete id =>
    have hsame := map_markComplete (f := Snapshot.content) (fun _ => rfl) id s.snapshots
    have hlength : (markComplete id s.snapshots).length = s.snapshots.length := by
      simpa using congrArg List.length hsame
    exact ⟨hlength.trans_le h.bound, hsame ▸ h.recent⟩
  | rollback current id =>
    rcases eq_nil_or_concat' s.snapshots with hnil | ⟨init, snap, hs⟩
    · simp only [RuntimeSnapshotManager.step, hnil, rollback, List.getLast?_nil, Option.map_none]
      exact h
    · have hpop := (h.pop hs).1
      simp only [RuntimeSnapshotManager.step, hs, rollback_concat, savesCurrent, preRollback, dropLast_concat]
      by_cases hpre : init.getLast?.any (·.isPreRollback) = true
      · simpa [hpre] using hpop
      · simpa [hpre, Snapshot.content] using hpop.push ⟨id, "pre-rollback", current, .rewrite, .fullRewrite, .pending, true⟩

/-- A second rollback restores what the first one found exactly when the stack is undoable. -/
theorem rollback_undone_iff (calls : List SnapshotCall) (current later : List SessionMessage) (id id' : String) :
    let s := Trace.run step ⟨[], []⟩ calls
    s.snapshots.length ≤ maxSnapshots ∧ s.snapshots.map Snapshot.content <:+ s.pushed ∧
    ∀ content snapshots, rollback s.snapshots current id = some (content, snapshots) →
      s.pushed.getLast? = some content ∧
      ((rollback snapshots later id').map Prod.fst = some (current, .fullRewrite) ↔ Undoable s.snapshots current) := by
  intro s
  have h : Kept s := Trace.invariant (I := Kept) (fun _ call h => h.step call) ⟨Nat.zero_le _, suffix_rfl⟩ calls
  refine ⟨h.bound, h.recent, ?_⟩
  intro content snapshots hroll
  rcases eq_nil_or_concat' s.snapshots with hnil | ⟨init, snap, hs⟩
  · rw [hnil] at hroll
    cases hroll
  · rw [hs, rollback_concat] at hroll
    cases hroll
    refine ⟨(h.pop hs).2, ?_⟩
    rw [hs, Undoable, savesCurrent, dropLast_concat, rollback_content]
    unfold preRollback
    split_ifs with hpre
    · simp [hpre]
    · simp [hpre, getLast_push, Snapshot.content]

def said (text : String) : List SessionMessage := [⟨"user", [.text text]⟩]

theorem an_undo_restores_an_older_state :
    let s := Trace.run step ⟨[], []⟩ [.create (said "a") .rewrite "" "1", .rollback (said "b") "2",
      .create (said "c") .rewrite "" "3", .rollback (said "d") "4"]
    (rollback s.snapshots (said "c") "5").map Prod.fst = some (said "b", .fullRewrite) ∧ said "b" ≠ said "d" := by
  decide +kernel

/-! ## Metadata on disk -/

structure SnapshotMeta where
  id : String
  reason : String
  status : SnapshotStatus

def insertMetas (rows : List SnapshotMeta) : Option Nat → List SnapshotMeta → Bool × List SnapshotMeta
  | _, [] => (true, rows)
  | refused, m :: metas =>
    if refused = some 0 ∨ m.id ∈ rows.map (·.id) then (false, rows)
    else insertMetas (rows ++ [m]) (refused.map Nat.pred) metas

def saveSnapshotMetas (refused : Option Nat) (stored metas : List SnapshotMeta) : Bool × List SnapshotMeta :=
  if refused = some 0 then (false, stored) else insertMetas [] (refused.map Nat.pred) metas

def saveMeta (refused : Option Nat) (stored : List SnapshotMeta) (m : SnapshotMeta) : Bool × List SnapshotMeta :=
  saveSnapshotMetas refused stored (stored ++ [m])

def persisted (snapshots : List Snapshot) : SnapshotCall → Option SnapshotMeta
  | .create _ op reason id => if op.requiresSnapshot then some ⟨id, reason, .pending⟩ else none
  | .createIncremental _ reason _ id => some ⟨id, reason, .pending⟩
  | .markComplete id => (snapshots.find? (·.id = id)).map fun snap => ⟨snap.id, snap.reason, .complete⟩
  | .rollback _ id =>
    if snapshots ≠ [] ∧ savesCurrent snapshots = true then some ⟨id, "pre-rollback", .pending⟩ else none

structure StoredRun where
  snapshots : List Snapshot
  stored : List SnapshotMeta

def storedStep (s : StoredRun) (call : SnapshotCall) : StoredRun :=
  ⟨(step ⟨s.snapshots, []⟩ call).snapshots,
    (persisted s.snapshots call).elim s.stored fun m => (saveMeta none s.stored m).2⟩

def Fresh (s : StoredRun) : SnapshotCall → Prop
  | .create _ _ _ id | .createIncremental _ _ _ id | .rollback _ id => id ∉ s.stored.map (·.id)
  | .markComplete _ => True

def upTo (refused : Option Nat) (metas : List SnapshotMeta) : List SnapshotMeta := refused.elim metas metas.take

theorem insertMetas_eq (rows : List SnapshotMeta) {metas : List SnapshotMeta} (h : ((rows ++ metas).map (·.id)).Nodup)
    (refused : Option Nat) (m : SnapshotMeta) :
    (insertMetas rows refused (metas ++ [m])).2 =
      rows ++ upTo refused (if m.id ∈ (rows ++ metas).map (·.id) then metas else metas ++ [m]) := by
  induction metas generalizing rows refused with
  | nil =>
    simp only [nil_append, append_nil, insertMetas]
    by_cases hm : m.id ∈ rows.map (·.id)
    · rw [if_pos (.inr hm), if_pos hm]
      cases refused <;> simp [upTo]
    · simp only [hm, or_false, if_false]
      rcases refused with _ | _ | k <;> simp [upTo]
  | cons m' metas ih =>
    have hassoc : rows ++ m' :: metas = rows ++ [m'] ++ metas := append_cons ..
    have hnew : m'.id ∉ rows.map (·.id) := by
      rw [map_append] at h
      exact fun hmem => (nodup_append.mp h).2.2 _ hmem _ mem_cons_self rfl
    rw [cons_append, insertMetas, hassoc]
    rcases refused with _ | _ | k
    · rw [if_neg (not_or.mpr ⟨nofun, hnew⟩), ih _ (hassoc ▸ h)]
      split_ifs <;> simp [upTo]
    · simp [upTo]
    · rw [if_neg (not_or.mpr ⟨nofun, hnew⟩), ih _ (hassoc ▸ h)]
      split_ifs <;> simp [upTo]

theorem saveMeta_eq (h : (stored.map (·.id)).Nodup) (m : SnapshotMeta) :
    (saveMeta none stored m).2 = if m.id ∈ stored.map (·.id) then stored else stored ++ [m] :=
  insertMetas_eq [] h none m

structure Tracks (s : StoredRun) : Prop where
  ids : (s.snapshots.map (·.id)).Sublist (s.stored.map (·.id))
  nodup : (s.stored.map (·.id)).Nodup
  pending : ∀ m ∈ s.stored, m.status = .pending

theorem push_sublist (snapshots : List Snapshot) (snap : Snapshot) :
    (push snapshots snap).Sublist (snapshots ++ [snap]) := by
  unfold push
  split_ifs
  · exact (tail_sublist _).append_right _
  · exact List.Sublist.refl _

theorem Tracks.stores {s : StoredRun} (h : Tracks s) {m : SnapshotMeta} (hpending : m.status = .pending)
    (hnew : m.id ∉ s.stored.map (·.id)) (hids : (snapshots.map (·.id)).Sublist (s.snapshots.map (·.id) ++ [m.id])) :
    Tracks ⟨snapshots, (saveMeta none s.stored m).2⟩ := by
  rw [saveMeta_eq h.nodup, if_neg hnew]
  refine ⟨?_, ?_, ?_⟩
  · rw [map_append]
    exact hids.trans (h.ids.append_right _)
  · rw [map_append]
    exact nodup_append.mpr ⟨h.nodup, by simp, by simpa using hnew⟩
  · intro m' hm'
    rcases mem_append.mp hm' with hm' | hm'
    · exact h.pending m' hm'
    · rw [mem_singleton.mp hm']
      exact hpending

theorem Tracks.step {s : StoredRun} (h : Tracks s) {call : SnapshotCall} (hfresh : Fresh s call) :
    Tracks (storedStep s call) := by
  have hpush : ∀ snapshots : List Snapshot, snapshots.Sublist s.snapshots → ∀ snap : Snapshot,
      ((push snapshots snap).map (·.id)).Sublist (s.snapshots.map (·.id) ++ [snap.id]) := by
    intro snapshots hsub snap
    simpa using ((push_sublist snapshots snap).trans (hsub.append_right [snap])).map (·.id)
  cases call with
  | create =>
    simp only [storedStep, RuntimeSnapshotManager.step, createSnapshot, persisted]
    split_ifs
    · exact h.stores rfl hfresh (hpush _ (List.Sublist.refl _) _)
    · exact h
  | createIncremental => exact h.stores rfl hfresh (hpush _ (List.Sublist.refl _) _)
  | markComplete id =>
    have hids : ((markComplete id s.snapshots).map (·.id)).Sublist (s.stored.map (·.id)) := by
      rw [map_markComplete fun _ => rfl]
      exact h.ids
    have hstored : (storedStep s (.markComplete id)).stored = s.stored := by
      simp only [storedStep, persisted]
      cases hfind : s.snapshots.find? (·.id = id) with
      | none => rfl
      | some snap =>
        have hmem : snap.id ∈ s.stored.map (·.id) :=
          h.ids.subset (mem_map.mpr ⟨snap, List.mem_of_find?_eq_some hfind, rfl⟩)
        rw [Option.map_some, Option.elim_some, saveMeta_eq h.nodup, if_pos hmem]
    exact ⟨hstored ▸ hids, hstored ▸ h.nodup, hstored ▸ h.pending⟩
  | rollback current id =>
    rcases eq_nil_or_concat' s.snapshots with hnil | ⟨init, snap, hs⟩
    · simp only [storedStep, RuntimeSnapshotManager.step, persisted, hnil, rollback, List.getLast?_nil, Option.map_none,
        ne_eq, not_true, false_and, if_false, Option.elim_none]
      exact ⟨nil_sublist _, h.nodup, h.pending⟩
    · have hinit : init.Sublist s.snapshots := hs ▸ sublist_append_left _ _
      simp only [storedStep, RuntimeSnapshotManager.step, persisted, hs, rollback_concat, savesCurrent, preRollback,
        dropLast_concat]
      by_cases hpre : init.getLast?.any (·.isPreRollback) = true
      · simp only [hpre, if_true, Bool.not_true, Bool.false_eq_true, and_false, if_false, Option.elim_none]
        exact ⟨(hinit.map _).trans h.ids, h.nodup, h.pending⟩
      · have hsaved := h.stores (m := ⟨id, "pre-rollback", .pending⟩) rfl hfresh (hpush init hinit
          ⟨id, "pre-rollback", current, .rewrite, .fullRewrite, .pending, true⟩)
        simpa [hpre] using hsaved

end CloseClaw.Session.RuntimeSnapshotManager
