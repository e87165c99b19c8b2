/- What a message finds in the session it is resolved to. -/

import CloseClaw.Gateway.Resolve

namespace CloseClaw.Gateway.Sessions

open Lib AList SessionManager Trace

variable {Msg : Type}

structure Usable (sm : SessionManager Msg) (key : Key) (id : String) : Prop where
  session : ∃ s, sm.sessions.lookup id = some s
  registered : sm.keyRegistry.lookup key = some id
  stored : ∃ cp, sm.store.lookup id = some cp ∧ cp.status = .active ∧
    sm.conversations.lookup id = some cp.pendingMessages

def Loaded (sm : SessionManager Msg) : Event → Prop
  | .message m _ _ _ => ∀ e ∈ sm.rows .active m, (sm.conversations.lookup e.1).isSome = true
  | _ => True

instance Loaded.decidable (sm : SessionManager Msg) : (e : Event) → Decidable (Loaded sm e)
  | .message m _ _ _ =>
    inferInstanceAs (Decidable (∀ e ∈ sm.rows .active m, (sm.conversations.lookup e.1).isSome = true))
  | .new _ _ _ _ => isTrue trivial
  | .markMigrating _ => isTrue trivial
  | .archive _ => isTrue trivial
  | .purge _ => isTrue trivial
  | .restart => isTrue trivial

/-! ## Sessions in memory are open -/

structure Open (sm : SessionManager Msg) : Prop where
  settled : Settled sm
  opened : ∀ id s, sm.sessions.lookup id = some s → ∃ t, sm.conversations.lookup id = some t
  session : ∀ id t, sm.conversations.lookup id = some t → ∃ s, sm.sessions.lookup id = some s
  cached : ∀ id t, sm.conversations.lookup id = some t →
    ∃ cp, sm.localCache.lookup id = some cp ∧ cp.pendingMessages = t
  stored : ∀ id t, sm.conversations.lookup id = some t →
    ∀ cp, sm.store.lookup id = some cp → cp.pendingMessages = t

structure Takes (sm sm' : SessionManager Msg) (key : Key) (id : String) (cp : Checkpoint Msg) : Prop where
  active : cp.status = .active
  registered : sm'.keyRegistry.lookup key = some id
  session : ∃ s, sm'.sessions.lookup id = some s
  sessions_of : ∀ x s, sm'.sessions.lookup x = some s → x = id ∨ ∃ s', sm.sessions.lookup x = some s'
  sessions_kept : ∀ x s, sm.sessions.lookup x = some s → ∃ s', sm'.sessions.lookup x = some s'
  transcript : sm'.conversations.lookup id = some cp.pendingMessages
  transcripts : ∀ x, x ≠ id → sm'.conversations.lookup x = sm.conversations.lookup x
  cache : sm'.localCache = sm.localCache.insert id cp
  row : sm'.store.lookup id = some cp
  rows : ∀ x, x ≠ id → ∀ c, sm'.store.lookup x = some c →
    ∃ c', sm.store.lookup x = some c' ∧ c'.pendingMessages = c.pendingMessages

section Steps

variable {sm sm' : SessionManager Msg} {key : Key} {id x : String} {cp : Checkpoint Msg} {m : Message}

theorem Takes.usable (h : Takes sm sm' key id cp) : Usable sm' key id :=
  ⟨h.session, h.registered, cp, h.row, h.active, h.transcript⟩

theorem Takes.open_ (h : Takes sm sm' key id cp) (ho : Open sm) : Open sm' := by
  refine ⟨⟨?_, ?_⟩, ?_, ?_, ?_, ?_⟩
  · intro x s hx
    by_cases hxi : x = id
    · subst hxi
      exact ⟨cp, by rw [h.cache, lookup_insert]⟩
    · rcases h.sessions_of x s hx with e | ⟨s', hs'⟩
      · exact absurd e hxi
      · obtain ⟨c, hc⟩ := ho.settled.cached x s' hs'
        exact ⟨c, by rw [h.cache, lookup_insert_ne hxi, hc]⟩
  · intro x c hc
    rw [h.cache] at hc
    rcases lookup_insert_of hc with ⟨-, rfl⟩ | ⟨-, hc⟩
    · exact h.active
    · exact ho.settled.active x c hc
  · intro x s hx
    by_cases hxi : x = id
    · subst hxi
      exact ⟨_, h.transcript⟩
    · rcases h.sessions_of x s hx with e | ⟨s', hs'⟩
      · exact absurd e hxi
      · obtain ⟨t, ht⟩ := ho.opened x s' hs'
        exact ⟨t, by rw [h.transcripts x hxi, ht]⟩
  · intro x t hx
    by_cases hxi : x = id
    · subst hxi
      exact h.session
    · rw [h.transcripts x hxi] at hx
      obtain ⟨s, hs⟩ := ho.session x t hx
      exact h.sessions_kept x s hs
  · intro x t hx
    by_cases hxi : x = id
    · subst hxi
      rw [h.transcript] at hx
      exact ⟨cp, by rw [h.cache, lookup_insert], Option.some.inj hx⟩
    · rw [h.transcripts x hxi] at hx
      obtain ⟨c, hc, ht⟩ := ho.cached x t hx
      exact ⟨c, by rw [h.cache, lookup_insert_ne hxi, hc], ht⟩
  · intro x t hx c hc
    by_cases hxi : x = id
    · subst hxi
      rw [h.row] at hc
      rw [h.transcript] at hx
      rw [← Option.some.inj hc, ← Option.some.inj hx]
    · rw [h.transcripts x hxi] at hx
      obtain ⟨c', hc', ht⟩ := h.rows x hxi c hc
      rw [← ht]
      exact ho.stored x t hx c' hc'

/-! ## What each path leaves behind -/

theorem lookup_withTranscript_self {conversations : AList fun _ : String => List Msg} {ms : List Msg}
    (h : ∀ t, conversations.lookup id = some t → t = ms) :
    (withTranscript conversations id ms).lookup id = some ms := by
  unfold withTranscript
  split
  · next he =>
    have hnil : ms = [] := List.isEmpty_iff.mp he
    split
    · next t ht => rw [ht, h t ht]
    · rw [lookup_insert, hnil]
  · exact lookup_insert _

theorem lookup_withTranscript_ne (conversations : AList fun _ : String => List Msg) (ms : List Msg) (h : x ≠ id) :
    (withTranscript conversations id ms).lookup x = conversations.lookup x := by
  unfold withTranscript
  split
  · split
    · rfl
    · exact lookup_insert_ne h
  · exact lookup_insert_ne h

theorem Swept.rows (h : Swept sm sm') {c : Checkpoint Msg} (hc : sm'.store.lookup x = some c) :
    ∃ c', sm.store.lookup x = some c' ∧ c'.pendingMessages = c.pendingMessages := by
  cases h with
  | same => exact ⟨c, hc, rfl⟩
  | archived hrow =>
    rcases lookup_insert_of hc with ⟨rfl, rfl⟩ | ⟨-, hc⟩
    · exact ⟨_, hrow, rfl⟩
    · exact ⟨c, hc, rfl⟩

theorem Swept.memory (h : Swept sm sm') : sm'.sessions = sm.sessions ∧ sm'.conversations = sm.conversations ∧
    sm'.localCache = sm.localCache ∧ sm'.keyRegistry = sm.keyRegistry := by
  cases h with
  | same | archived => exact ⟨rfl, rfl, rfl, rfl⟩

theorem takes_save {sm₁ : SessionManager Msg} (hsw : Swept sm sm') (hcache : sm₁.localCache = sm'.localCache)
    (hstore : sm₁.store = sm'.store) (hact : cp.status = .active) (hreg : sm₁.keyRegistry.lookup key = some id)
    (hsess : ∃ s, sm₁.sessions.lookup id = some s)
    (hof : ∀ x s, sm₁.sessions.lookup x = some s → x = id ∨ ∃ s', sm'.sessions.lookup x = some s')
    (hkept : ∀ x s, sm'.sessions.lookup x = some s → ∃ s', sm₁.sessions.lookup x = some s')
    (ht : sm₁.conversations.lookup id = some cp.pendingMessages)
    (hts : ∀ x, x ≠ id → sm₁.conversations.lookup x = sm'.conversations.lookup x) :
    Takes sm (sm₁.saveDirect id cp) key id cp := by
  obtain ⟨hs, hconv, hc, -⟩ := hsw.memory
  refine ⟨hact, hreg, hsess, hs ▸ hof, hs ▸ hkept, ht, hconv ▸ hts, ?_, lookup_insert _, fun x hx c hcx => ?_⟩
  · rw [saveDirect, hcache, hc]
  · rw [saveDirect, lookup_insert_ne hx, hstore] at hcx
    exact hsw.rows hcx

theorem takes_adopt (hsw : Swept sm sm') (hact : cp.status = .active)
    (ht : ∀ t, sm.conversations.lookup id = some t → t = cp.pendingMessages) :
    Takes sm (sm'.adopt id cp m) m.key id (cp.touch m) := by
  obtain ⟨-, hconv, -, -⟩ := hsw.memory
  exact takes_save hsw rfl rfl hact (lookup_insert _) (withSession_lookup_self _ _ _) (fun _ _ => withSession_lookup_of)
    (fun _ _ => lookup_withSession_kept) (lookup_withTranscript_self (hconv ▸ ht))
    fun _ hx => lookup_withTranscript_ne _ _ hx

theorem not_open_of_not_in_sessions (ho : Open sm) (h : sm.sessions.lookup id = none) {t : List Msg} :
    sm.conversations.lookup id ≠ some t := by
  intro ht
  obtain ⟨s, hs⟩ := ho.session id t ht
  rw [h] at hs
  cases hs

theorem Resolves.takes {newId : String} {now : Int} {archives : Bool} {r : String × SessionManager Msg} (ho : Open sm)
    (hload : Loaded sm (.message m newId now archives)) (h : Resolves sm m newId now r) :
    ∃ cp, Takes sm r.2 m.key r.1 cp := by
  cases h with
  | @live id s cp hk hs hc =>
    obtain ⟨t, ht⟩ := ho.opened id s hs
    obtain ⟨cp', hc', hcp'⟩ := ho.cached id t ht
    cases hc.symm.trans hc'
    exact ⟨cp.touch m, takes_save .same rfl rfl (ho.settled.active id cp hc) hk ⟨s, hs⟩ (fun _ s' hx => .inr ⟨s', hx⟩)
      (fun _ s' hx => ⟨s', hx⟩) (ht.trans (congrArg some hcp'.symm)) fun _ _ => rfl⟩
  | inactive hk hs =>
    exact ⟨_, takes_adopt .same rfl fun t ht => absurd ht (not_open_of_not_in_sessions ho hs)⟩
  | @healed id cp hl hcp hst hr =>
    -- The conversation session is there because the run never finds an active row without one.
    have hrow : ⟨id, cp⟩ ∈ sm.rows .active m := List.mem_filter.mpr ⟨mem_lookup_iff.mp hcp, by simp [hst, hr]⟩
    obtain ⟨t, ht⟩ := Option.isSome_iff_exists.mp (hload _ hrow)
    obtain ⟨s, hs⟩ := ho.session id t ht
    obtain ⟨c, hc, hct⟩ := ho.cached id t ht
    have hknown : sm.known id = some c := by simp [known, hc]
    rw [heal_of_known hknown]
    exact ⟨c.touch m, takes_save .same rfl rfl (ho.settled.active id c hc) (lookup_insert _)
      (withSession_lookup_self _ _ _) (fun _ _ => withSession_lookup_of) (fun _ _ => lookup_withSession_kept)
      (ht.trans (congrArg some hct.symm)) fun _ _ => rfl⟩
  | timedOut hl hcp =>
    exact ⟨_, takes_adopt .same rfl fun t ht => (ho.stored _ t ht _ hcp).symm⟩
  | @reopened sm' id cp hl hsw hcp hst hr =>
    obtain ⟨-, -, hcache, -⟩ := hsw.memory
    refine ⟨_, takes_adopt hsw (getD_active (hsw.settled ho.settled) id cp) fun t ht => ?_⟩
    obtain ⟨c, hc, hct⟩ := ho.cached id t ht
    rw [hcache, hc]
    exact hct.symm
  | created hl hno hsw =>
    exact ⟨_, takes_save hsw rfl rfl rfl (lookup_insert _) ⟨_, lookup_insert _⟩ (fun _ _ => lookup_insert_or)
      (fun _ _ => lookup_insert_kept) (lookup_insert _) fun _ => lookup_insert_ne⟩

theorem takes_forceNew (sm : SessionManager Msg) (channel agentId newId : String) (now : Int) :
    Takes sm (sm.forceNewForChannel channel agentId newId now) (.plain (channel ++ ":" ++ agentId ++ ":" ++ agentId))
      newId (newCheckpoint channel agentId agentId none none now) :=
  takes_save .same rfl rfl rfl (lookup_insert _) ⟨_, lookup_insert _⟩ (fun _ _ => lookup_insert_or)
    (fun _ _ => lookup_insert_kept) (lookup_insert _) fun _ => lookup_insert_ne

theorem Open.with_store (ho : Open sm) {store : AList fun _ : String => Checkpoint Msg}
    (h : ∀ x c, store.lookup x = some c → ∃ c', sm.store.lookup x = some c' ∧ c'.pendingMessages = c.pendingMessages) :
    Open { sm with store } :=
  { ho with
    settled := ⟨ho.settled.cached, ho.settled.active⟩
    stored := fun x t hx c hc => by
      obtain ⟨c', hc', ht⟩ := h x c hc
      rw [← ht]
      exact ho.stored x t hx c' hc' }

theorem Open.sweep (ho : Open sm) (id : String) (among : List Session.SessionStatus) (status : Session.SessionStatus) :
    Open (sm.sweep id among status) := by
  unfold SessionManager.sweep
  split
  · next cp hcp =>
    split
    · refine ho.with_store fun x c hc => ?_
      rcases lookup_insert_of hc with ⟨rfl, rfl⟩ | ⟨-, hc⟩
      · exact ⟨cp, hcp, rfl⟩
      · exact ⟨c, hc, rfl⟩
    · exact ho
  · exact ho

theorem Open.purge (ho : Open sm) (id : String) : Open (sm.purge id) := by
  unfold SessionManager.purge
  split
  · split
    · refine ho.with_store fun x c hc => ?_
      by_cases hx : x = id
      · subst hx
        rw [lookup_erase] at hc
        cases hc
      · exact ⟨c, by rwa [lookup_erase_ne hx] at hc, rfl⟩
    · exact ho
  · exact ho

theorem Started.open_ {store : AList fun _ : String => Checkpoint Msg} (hs : Started store sm) : Open sm := by
  refine ⟨hs.settled, ?_, ?_, ?_, ?_⟩
  · intro id s h
    rw [hs.sessions] at h
    cases h
  all_goals
    intro id t h
    rw [hs.conversations] at h
    cases h

theorem Open.step {Q : RowChoice} (ho : Open sm) {e : Event} (hload : Loaded sm e) : Open (Sessions.step Q sm e) := by
  cases e with
  | message m newId now archives =>
    have hr : Resolves sm m newId now (sm.resolve Q m newId now archives) := resolve_resolves ho.settled
    obtain ⟨cp, h⟩ := hr.takes ho hload
    exact h.open_ ho
  | new channel agentId newId now => exact (takes_forceNew sm channel agentId newId now).open_ ho
  | markMigrating id => exact ho.sweep id _ _
  | archive id => exact ho.sweep id _ _
  | purge id => exact ho.purge id
  | restart => exact (started_restart sm).open_

end Steps

theorem open_run {Q : RowChoice} {store : AList fun _ : String => Checkpoint Msg} {events : List Event}
    (h : Along (step Q) Loaded { store } events) : Open (run (step Q) { store } events) := by
  have hstart : Open ({ store } : SessionManager Msg) := Started.open_ ⟨rfl, rfl, rfl, fun id cp h => by cases h⟩
  exact invariant_along (fun _ _ ho he => Open.step ho he) hstart h

theorem resolved_session_usable (Q : RowChoice) (store : AList fun _ : String => Checkpoint Msg) (events : List Event)
    (m : Message) (newId : String) (now : Int) (archives : Bool)
    (h : Along (step Q) Loaded { store } (events ++ [Event.message m newId now archives])) :
    Usable ((run (step Q) { store } events).resolve Q m newId now archives).2 m.key
      ((run (step Q) { store } events).resolve Q m newId now archives).1 := by
  obtain ⟨hrun, hlast, -⟩ := along_append.mp h
  have ho := open_run hrun
  generalize run (step Q) { store } events = sm at *
  have hr : Resolves sm m newId now (sm.resolve Q m newId now archives) := resolve_resolves ho.settled
  obtain ⟨cp, htakes⟩ := hr.takes ho hlast
  exact htakes.usable

def hello : Message := { channel := "im", sender := "alice", agentId := "helper" }

def oneSession (status : Session.SessionStatus) : AList fun _ : String => Checkpoint Bool :=
  let cp : Checkpoint Bool := newCheckpoint "im" "alice" "helper" none none 0
  AList.singleton "s" { cp with status, pendingMessages := [true, false] }

def restoredAndSwept : List Event := [.restart, .message hello "a" 1 false, .archive "s"]

theorem resolved_session_usable_swept :
    ((run (step firstRow) { store := oneSession .archived } restoredAndSwept).resolve firstRow hello "b" 2
        false).1 = "s" ∧
    Usable ((run (step firstRow) { store := oneSession .archived } restoredAndSwept).resolve firstRow hello "b" 2
        false).2 hello.key
      ((run (step firstRow) { store := oneSession .archived } restoredAndSwept).resolve firstRow hello "b" 2 false).1 :=
  ⟨by decide +kernel,
    resolved_session_usable firstRow (oneSession .archived) restoredAndSwept hello "b" 2 false (by decide +kernel)⟩

theorem restarted_session_not_usable : ((run (step firstRow) { store := oneSession .active }
      [.restart]).resolve firstRow hello "a" 1 false).1 = "s" ∧
    ((run (step firstRow) { store := oneSession .active } [.restart]).resolve firstRow hello "a" 1
      false).2.conversations.lookup "s" = none := by
  decide +kernel

end CloseClaw.Gateway.Sessions
