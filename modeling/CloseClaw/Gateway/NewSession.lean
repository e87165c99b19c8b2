/- What `/new` does to the next message. -/

import CloseClaw.Gateway.Resolve

namespace CloseClaw.Gateway.Sessions

open Lib List AList SessionManager
open CloseClaw.Session (SessionStatus)

variable {Msg : Type}

def SessionManager.newSession (sm : SessionManager Msg) (sessionId channel newId : String) (now : Int) :
    SessionManager Msg :=
  sm.forceNewForChannel channel (((sm.sessions.lookup sessionId).map (·.agentId)).getD "") newId now

structure Unused (sm : SessionManager Msg) (id : String) : Prop where
  session : sm.sessions.lookup id = none
  row : sm.store.lookup id = none
  key : ∀ e ∈ sm.keyRegistry.entries, e.2 ≠ id

instance Unused.decidable (sm : SessionManager Msg) (id : String) : Decidable (Unused sm id) :=
  decidable_of_iff ((sm.sessions.lookup id).isNone = true ∧ (sm.store.lookup id).isNone = true ∧
      ∀ e ∈ sm.keyRegistry.entries, e.2 ≠ id)
    ⟨fun h => ⟨Option.isNone_iff_eq_none.mp h.1, Option.isNone_iff_eq_none.mp h.2.1, h.2.2⟩,
      fun h => ⟨Option.isNone_iff_eq_none.mpr h.session, Option.isNone_iff_eq_none.mpr h.row, h.key⟩⟩

theorem Unused.key_ne {sm : SessionManager Msg} {id id' : String} {key : Key} (hu : Unused sm id)
    (h : sm.keyRegistry.lookup key = some id') : id' ≠ id :=
  hu.key ⟨key, id'⟩ (mem_lookup_iff.mp h)

def Placeholder (channel agentId : String) (m : Message) : Prop :=
  m.channel = channel ∧ m.sender = agentId ∧ m.agentId = agentId ∧ m.accountId = none

section Steps

variable {Q : RowChoice} {sm sm' : SessionManager Msg} {m : Message} {id newId channel agentId : String} {now : Int}
  {archives : Bool}

theorem resolve_of_live (hs : Settled sm) (hl : sm.live m.key = some id) :
    (sm.resolve Q m newId now archives).1 = id := by
  obtain ⟨hk, s, hsess⟩ := live_eq_some hl
  obtain ⟨cp, hc⟩ := hs.cached id s hsess
  simp [resolve, resolveLive, load, hk, hsess, hc, hs.active id cp hc]

theorem Resolves.live_after {r : String × SessionManager Msg} (hs : Settled sm) (h : Resolves sm m newId now r) :
    r.2.live m.key = some r.1 := by
  cases h with
  | live hk hsess => exact live_of_lookup hk hsess
  | inactive =>
    obtain ⟨s, h⟩ := withSession_lookup_self sm.sessions _ m
    exact live_of_lookup (lookup_insert _) h
  | @healed id cp hl hcp hst hr =>
    obtain ⟨c, hc, -⟩ := hs.known_active hcp hst
    obtain ⟨s, h⟩ := withSession_lookup_self sm.sessions id m
    rw [heal_of_known hc]
    exact live_of_lookup (lookup_insert _) h
  | timedOut =>
    obtain ⟨s, h⟩ := withSession_lookup_self sm.sessions _ m
    exact live_of_lookup (lookup_insert _) h
  | @reopened sm' id cp hl hsw hcp hst hr =>
    obtain ⟨s, h⟩ := withSession_lookup_self sm'.sessions id m
    exact live_of_lookup (lookup_insert _) h
  | created => exact live_of_lookup (lookup_insert _) (lookup_insert _)

structure SameView (m : Message) (sm sm' : SessionManager Msg) : Prop where
  rows : ∀ status, sm'.rows status m = sm.rows status m
  row : ∀ id cp, sm.store.lookup id = some cp → sm'.store.lookup id = some cp

theorem filter_kerase {p : (Sigma fun _ : String => Checkpoint Msg) → Bool} :
    ∀ {l : List (Sigma fun _ : String => Checkpoint Msg)}, l.NodupKeys →
      (l.kerase id).filter p = (l.filter p).filter (·.1 ≠ id)
  | [], _ => rfl
  | e :: l, hn => by
    obtain ⟨hnot, hn⟩ := nodupKeys_cons.mp hn
    by_cases he : id = e.1
    · have hrest : ∀ e' ∈ l.filter p, decide (e'.1 ≠ id) = true := fun e' he' =>
        decide_eq_true fun h => hnot (he ▸ h ▸ mem_keys_of_mem (mem_of_mem_filter he'))
      have hdrop : (l.filter p).filter (·.1 ≠ id) = l.filter p := filter_eq_self.mpr hrest
      rw [kerase_cons_eq he, filter_cons]
      split
      · rw [filter_cons_of_neg (by simp [he]), hdrop]
      · exact hdrop.symm
    · rw [kerase_cons_ne he, filter_cons, filter_cons, filter_kerase hn]
      split
      · rw [filter_cons_of_pos (by simp [Ne.symm he])]
      · rfl

theorem rows_setStatus (cp : Checkpoint Msg) (st status : SessionStatus) : (sm.setStatus id cp st).rows status m =
      [⟨id, { cp with status := st }⟩].filter (fun e => e.2.status = status ∧ e.2.RoutedBy m) ++
        (sm.rows status m).filter (·.1 ≠ id) := by
  rw [rows, rows, ← filter_kerase sm.store.nodupKeys, ← filter_append]
  rfl

theorem resolveArchived_fst : (sm.resolveArchived Q m newId now).1 = (sm.findArchived Q m).getD newId := by
  unfold resolveArchived
  cases hf : sm.findArchived Q m with
  | none => rfl
  | some =>
    obtain ⟨cp, hcp, hst, -⟩ := row_of_findArchived hf
    simp [tryRestoreArchivedSession, restoreCheckpoint, hcp, hst]

namespace SameView

theorem setStatus (h : SameView m sm sm') (cp : Checkpoint Msg) (st : SessionStatus) :
    SameView m (sm.setStatus id cp st) (sm'.setStatus id cp st) where
  rows status := by rw [rows_setStatus, rows_setStatus, h.rows]
  row id' cp' h' := by
    by_cases e : id' = id
    · subst e
      simpa [SessionManager.setStatus] using h'
    · rw [SessionManager.setStatus, lookup_insert_ne e] at h' ⊢
      exact h.row id' cp' h'

theorem findByRouting (h : SameView m sm sm') (status : SessionStatus) :
    sm'.findByRouting Q status m = sm.findByRouting Q status m := by
  rw [SessionManager.findByRouting, h.rows, SessionManager.findByRouting]

theorem findArchived (h : SameView m sm sm') : sm'.findArchived Q m = sm.findArchived Q m := by
  rw [SessionManager.findArchived, h.rows, SessionManager.findArchived]


theorem resolveArchived (h : SameView m sm sm') :
    (sm'.resolveArchived Q m newId now).1 = (sm.resolveArchived Q m newId now).1 := by
  rw [resolveArchived_fst, resolveArchived_fst, h.findArchived]

theorem resolveMigrating (h : SameView m sm sm') :
    (sm'.resolveMigrating Q m newId now archives).1 = (sm.resolveMigrating Q m newId now archives).1 := by
  unfold SessionManager.resolveMigrating
  rw [h.findByRouting]
  cases hf : sm.findByRouting Q .migrating m with
  | none => exact h.resolveArchived
  | some id =>
    obtain ⟨cp, hcp, hst, -⟩ := row_of_findByRouting hf
    have hcp' := h.row id cp hcp
    simp only [waitForArchiveCompletion_of_migrating hcp hst, waitForArchiveCompletion_of_migrating hcp' hst]
    cases archives with
    | true => exact (h.setStatus cp .archived).resolveArchived
    | false =>
      simp [restoreMigratingOnTimeout_of_migrating hcp hst, restoreMigratingOnTimeout_of_migrating hcp' hst]

theorem resolveMiss (h : SameView m sm sm') (hl : sm.live m.key = none) (hl' : sm'.live m.key = none) :
    (sm'.resolveMiss Q m newId now archives).1 = (sm.resolveMiss Q m newId now archives).1 := by
  simp only [SessionManager.resolveMiss, hl, hl', h.findByRouting]
  cases sm.findByRouting Q .active m with
  | none => exact h.resolveMigrating
  | some => rfl

end SameView

theorem resolveInactive_congr (hrow : sm'.store.lookup id = sm.store.lookup id)
    (hmiss : (sm'.resolveMiss Q m newId now archives).1 = (sm.resolveMiss Q m newId now archives).1) :
    (sm'.resolveInactive Q id m newId now archives).1 = (sm.resolveInactive Q id m newId now archives).1 := by
  simp only [resolveInactive, tryRestoreArchivedSession, restoreCheckpoint, hrow]
  cases sm.store.lookup id with
  | none => exact hmiss
  | some cp =>
    by_cases hst : cp.status = .archived
    · simp [hst, SessionManager.setStatus]
    · simpa [hst] using hmiss

theorem lookup_key_forceNew (m : Message) :
    (sm.forceNewForChannel channel agentId newId now).keyRegistry.lookup m.key = sm.keyRegistry.lookup m.key :=
  lookup_insert_ne (fun e => Key.noConfusion e)

theorem sessions_forceNew :
    (sm.forceNewForChannel channel agentId newId now).sessions = sm.sessions.insert newId ⟨agentId, channel⟩ :=
  rfl

theorem store_forceNew : (sm.forceNewForChannel channel agentId newId now).store =
      sm.store.insert newId (newCheckpoint channel agentId agentId none none now) :=
  rfl

theorem live_forceNew (h : sm.live m.key = some id) :
    (sm.forceNewForChannel channel agentId newId now).live m.key = some id := by
  obtain ⟨hk, s, hs⟩ := live_eq_some h
  obtain ⟨s', hs'⟩ := lookup_insert_kept hs
  exact live_of_lookup ((lookup_key_forceNew m).trans hk) hs'

theorem live_forceNew_none (hu : Unused sm newId) (h : sm.live m.key = none) :
    (sm.forceNewForChannel channel agentId newId now).live m.key = none := by
  rw [live, lookup_key_forceNew, sessions_forceNew]
  cases hk : sm.keyRegistry.lookup m.key with
  | none => rfl
  | some =>
    rw [live, hk] at h
    simpa [hu.key_ne hk] using h

theorem sameView_forceNew (hu : Unused sm newId) (hp : ¬ Placeholder channel agentId m) :
    SameView m sm (sm.forceNewForChannel channel agentId newId now) where
  rows status := by
    have hnot : ¬ (newCheckpoint channel agentId agentId none none now : Checkpoint Msg).RoutedBy m := by
      rintro ⟨hc, hs, ha, hn⟩
      exact hp ⟨(Option.some.inj hc).symm, (Option.some.inj hs).symm, (Option.some.inj ha).symm, hn.symm⟩
    rw [rows, store_forceNew, entries_insert_of_notMem (lookup_eq_none.mp hu.row), filter_cons_of_neg (by simp [hnot])]
    rfl
  row id cp h := by
    have hne : id ≠ newId := fun e => by
      rw [e, hu.row] at h
      cases h
    exact (lookup_insert_ne hne).trans h

theorem resolve_forceNew (hs : Settled sm) (hu : Unused sm newId) (hp : ¬ Placeholder channel agentId m)
    {callId : String} {later : Int} :
    ((sm.forceNewForChannel channel agentId newId now).resolve Q m callId later archives).1 =
      (sm.resolve Q m callId later archives).1 := by
  have hs' := hs.forceNew channel agentId newId now
  have hv : SameView m sm (sm.forceNewForChannel channel agentId newId now) := sameView_forceNew hu hp
  cases hl : sm.live m.key with
  | some => rw [resolve_of_live hs hl, resolve_of_live hs' (live_forceNew hl)]
  | none =>
    have hmiss := @SameView.resolveMiss _ Q _ _ m callId later archives hv hl (live_forceNew_none hu hl)
    unfold resolve
    rw [lookup_key_forceNew]
    cases hk : sm.keyRegistry.lookup m.key with
    | none => exact hmiss
    | some id =>
      have hne : id ≠ newId := hu.key_ne hk
      have hsess : sm.sessions.lookup id = none := by simpa [live, hk] using hl
      simp only [sessions_forceNew, lookup_insert_ne hne, hsess]
      exact resolveInactive_congr (by rw [store_forceNew, lookup_insert_ne hne]) hmiss

end Steps

/-- After `/new` the next message is still resolved to the old session. -/
theorem new_session_not_resolved (Q : RowChoice) (store : AList fun _ : String => Checkpoint Msg) (events : List Event)
    (m : Message) (callId : String) (now : Int) (archives : Bool) {s : String} {sm : SessionManager Msg}
    (hr : (Trace.run (step Q) { store } events).resolve Q m callId now archives = (s, sm)) {newId : String}
    (hnew : Unused sm newId) (later : Int) :
    s ≠ newId ∧
      (∀ callId now archives, ((sm.newSession s m.channel newId later).resolve Q m callId now archives).1 = s) ∧
      ∀ m' callId now archives,
        ¬ Placeholder m.channel (((sm.sessions.lookup s).map (·.agentId)).getD "") m' →
          ((sm.newSession s m.channel newId later).resolve Q m' callId now archives).1 =
            (sm.resolve Q m' callId now archives).1 := by
  have hs := settled_run Q store events
  have hres : Resolves _ m callId now (s, sm) := hr ▸ resolve_resolves hs
  have hsm : Settled sm := hres.settled hs
  have hl : sm.live m.key = some s := hres.live_after hs
  refine ⟨hnew.key_ne (live_eq_some hl).1, ?_, ?_⟩
  · intro callId now archives
    exact resolve_of_live (hsm.forceNew ..) (live_forceNew hl)
  · intro m' callId now archives hp
    exact resolve_forceNew hsm hnew hp

def fromAlice : Message := { channel := "im", sender := "alice", agentId := "helper" }

def afterFirst : SessionManager Bool := (({} : SessionManager Bool).resolve firstRow fromAlice "a" 0 false).2

theorem new_session_not_resolved_first : Unused afterFirst "n" ∧
      ((afterFirst.newSession "a" "im" "n" 1).resolve firstRow fromAlice "b" 2 false).1 = "a" := by
  have hnew : Unused afterFirst "n" := by decide +kernel
  exact ⟨hnew, (new_session_not_resolved firstRow ∅ [] fromAlice "a" 0 false rfl hnew 1).2.1 "b" 2 false⟩

theorem new_session_never_used : ((afterFirst.newSession "a" "im" "n" 1).sessions.lookup "n").isSome = true ∧
      ((afterFirst.newSession "a" "im" "n" 1).resolve firstRow fromAlice "b" 2 false).1 ≠ "n" ∧
      ((afterFirst.newSession "a" "im" "n" 1).restart.resolve firstRow fromAlice "b" 2 false).1 ≠ "n" := by
  decide +kernel

end CloseClaw.Gateway.Sessions
