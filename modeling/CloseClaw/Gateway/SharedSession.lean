/- Which messages share a session (`resolve_session.rs`). -/

import CloseClaw.Gateway.Resolve

namespace CloseClaw.Gateway.Sessions

open Lib AList Trace SessionManager

variable {Msg : Type}

structure Inbound where
  platform : String
  senderId : String
  peerId : String
  accountId : Option String := none
  agentId : Option String := none
  threadId : Option String := none
  replyRef : Option String := none

def resolveAgentId (bindings : String → Option String) (peerId : String) : String := (bindings peerId).getD peerId

def selectAgentId (agentId : Option String) (bindings : String → Option String) (peerId : String) : String :=
  match agentId.filter (· ≠ "") with
  | some explicit => explicit
  | none => resolveAgentId bindings peerId

def Inbound.message (i : Inbound) (bindings : String → Option String) : Message where
  channel := i.platform
  sender := i.senderId
  agentId := selectAgentId i.agentId bindings i.peerId
  accountId := i.accountId
  threadId := i.threadId
  replyRef := i.replyRef

def Inbound.routing (i : Inbound) : String × String × String × String :=
  (i.platform, i.senderId, i.peerId, i.accountId.getD "default")

/-! ## Runs of messages and `/new` -/

def Chats (sm : SessionManager Msg) : Event → Prop
  | .message _ newId _ _ => (sm.store.lookup newId).isNone = true
  | .new _ _ newId _ => (sm.store.lookup newId).isNone = true
  | _ => False

instance Chats.decidable (sm : SessionManager Msg) : (e : Event) → Decidable (Chats sm e)
  | .message _ newId _ _ => inferInstanceAs (Decidable ((sm.store.lookup newId).isNone = true))
  | .new _ _ newId _ => inferInstanceAs (Decidable ((sm.store.lookup newId).isNone = true))
  | .markMigrating _ => isFalse id
  | .archive _ => isFalse id
  | .purge _ => isFalse id
  | .restart => isFalse id

structure Owned (sm : SessionManager Msg) : Prop where
  settled : Settled sm
  active : ∀ id cp, sm.store.lookup id = some cp → cp.status = .active
  cached : ∀ id cp, sm.localCache.lookup id = some cp → sm.store.lookup id = some cp
  session : ∀ text id, sm.keyRegistry.lookup (.sha256 text) = some id → ∃ s, sm.sessions.lookup id = some s
  row : ∀ text id, sm.keyRegistry.lookup (.sha256 text) = some id →
    ∃ cp, sm.store.lookup id = some cp ∧ cp.rebuiltText = some text

structure Keeps (sm sm' : SessionManager Msg) : Prop where
  rows : ∀ id cp, sm.store.lookup id = some cp →
    ∃ cp', sm'.store.lookup id = some cp' ∧ cp'.rebuiltText = cp.rebuiltText
  registered : ∀ text id, sm.keyRegistry.lookup (.sha256 text) = some id →
    sm'.keyRegistry.lookup (.sha256 text) = some id

structure Owns (sm : SessionManager Msg) (text id : String) : Prop where
  registered : sm.keyRegistry.lookup (.sha256 text) = some id
  row : ∃ cp, sm.store.lookup id = some cp ∧ cp.rebuiltText = some text

section Steps

variable {sm sm' : SessionManager Msg} {m : Message} {id newId text : String} {cp : Checkpoint Msg} {now : Int}

theorem Keeps.refl (sm : SessionManager Msg) : Keeps sm sm := ⟨fun _ cp h => ⟨cp, h, rfl⟩, fun _ _ h => h⟩

theorem Keeps.trans {sm'' : SessionManager Msg} (h : Keeps sm sm') (h' : Keeps sm' sm'') : Keeps sm sm'' := by
  constructor
  · intro id cp hcp
    obtain ⟨cp', hcp', ht⟩ := h.rows id cp hcp
    obtain ⟨cp'', hcp'', ht'⟩ := h'.rows id cp' hcp'
    exact ⟨cp'', hcp'', ht'.trans ht⟩
  · intro text id hk
    exact h'.registered text id (h.registered text id hk)

theorem Owns.keep (h : Owns sm text id) (hk : Keeps sm sm') : Owns sm' text id := by
  obtain ⟨cp, hcp, ht⟩ := h.row
  obtain ⟨cp', hcp', ht'⟩ := hk.rows id cp hcp
  exact ⟨hk.registered text id h.registered, cp', hcp', ht'.trans ht⟩

theorem rebuiltText_of_routedBy (h : cp.RoutedBy m) : cp.rebuiltText = some m.routingText := by
  obtain ⟨hp, hs, hpeer, ha⟩ := h
  simp [Checkpoint.rebuiltText, Message.routingText, hp, hs, hpeer, ha]

structure Extends (sm sm' : SessionManager Msg) (id : String) (c : Checkpoint Msg) : Prop where
  cache : sm'.localCache = sm.localCache
  store : sm'.store = sm.store
  session : ∃ s, sm'.sessions.lookup id = some s
  sessions_of : ∀ x s, sm'.sessions.lookup x = some s → x = id ∨ ∃ s', sm.sessions.lookup x = some s'
  sessions_kept : ∀ x s, sm.sessions.lookup x = some s → ∃ s', sm'.sessions.lookup x = some s'
  registered_of : ∀ t x, sm'.keyRegistry.lookup (.sha256 t) = some x →
    sm.keyRegistry.lookup (.sha256 t) = some x ∨ x = id ∧ c.rebuiltText = some t
  registered : ∀ t x, sm.keyRegistry.lookup (.sha256 t) = some x → sm'.keyRegistry.lookup (.sha256 t) = some x

theorem text_of_fresh (h : sm.store.lookup id = none) (c cp : Checkpoint Msg) (hcp : sm.store.lookup id = some cp) :
    c.rebuiltText = cp.rebuiltText := by
  rw [h] at hcp
  cases hcp

theorem Extends.keeps {c : Checkpoint Msg} (h : Extends sm sm' id c)
    (htext : ∀ cp, sm.store.lookup id = some cp → c.rebuiltText = cp.rebuiltText) : Keeps sm (sm'.saveDirect id c) := by
  refine ⟨fun x cp hcp => ?_, h.registered⟩
  by_cases hx : x = id
  · subst hx
    exact ⟨c, lookup_insert _, htext cp hcp⟩
  · exact ⟨cp, by rw [saveDirect, lookup_insert_ne hx, h.store, hcp], rfl⟩

theorem Extends.owned {c : Checkpoint Msg} (h : Extends sm sm' id c) (ho : Owned sm) (hact : c.status = .active)
    (htext : ∀ cp, sm.store.lookup id = some cp → c.rebuiltText = cp.rebuiltText) : Owned (sm'.saveDirect id c) := by
  have hkeeps := h.keeps htext
  refine ⟨ho.settled.save h.cache h.sessions_of hact, ?_, ?_, ?_, ?_⟩
  · intro x cp hcp
    rcases lookup_insert_of hcp with ⟨-, rfl⟩ | ⟨-, hcp⟩
    · exact hact
    · exact ho.active x cp (h.store ▸ hcp)
  · intro x cp hcp
    rcases lookup_insert_of hcp with ⟨rfl, rfl⟩ | ⟨hx, hcp⟩
    · exact lookup_insert _
    · rw [saveDirect, lookup_insert_ne hx, h.store]
      exact ho.cached x cp (h.cache ▸ hcp)
  · intro t x hx
    rcases h.registered_of t x hx with hx | ⟨rfl, -⟩
    · obtain ⟨s, hs⟩ := ho.session t x hx
      exact h.sessions_kept x s hs
    · exact h.session
  · intro t x hx
    rcases h.registered_of t x hx with hx | ⟨rfl, ht⟩
    · obtain ⟨cp, hcp, ht⟩ := ho.row t x hx
      obtain ⟨cp', hcp', ht'⟩ := hkeeps.rows x cp hcp
      exact ⟨cp', hcp', ht'.trans ht⟩
    · exact ⟨c, lookup_insert _, ht⟩

theorem registered_none (hsession : ∀ text id, sm.keyRegistry.lookup (.sha256 text) = some id →
    ∃ s, sm.sessions.lookup id = some s) (hl : sm.live m.key = none) : sm.keyRegistry.lookup m.key = none := by
  cases hk : sm.keyRegistry.lookup m.key with
  | none => rfl
  | some id =>
    obtain ⟨s, hs⟩ := hsession _ id hk
    rw [live_of_lookup hk hs] at hl
    cases hl

theorem registered_insert (hk : sm.keyRegistry.lookup m.key = none) (t x : String)
    (h : sm.keyRegistry.lookup (.sha256 t) = some x) :
    (sm.keyRegistry.insert m.key id).lookup (.sha256 t) = some x := by
  have hne : Key.sha256 t ≠ m.key := by
    intro e
    rw [e, hk] at h
    cases h
  rw [lookup_insert_ne hne, h]

theorem registered_of_insert {t x : String} (h : (sm.keyRegistry.insert m.key id).lookup (.sha256 t) = some x) :
    sm.keyRegistry.lookup (.sha256 t) = some x ∨ x = id ∧ t = m.routingText := by
  rcases lookup_insert_of h with ⟨hk, hx⟩ | ⟨-, h⟩
  · exact .inr ⟨hx, Key.sha256.inj hk⟩
  · exact .inl h

theorem Extends.refl {s : Session} (hs : sm.sessions.lookup id = some s) : Extends sm sm id cp :=
  ⟨rfl, rfl, ⟨s, hs⟩, fun _ s h => .inr ⟨s, h⟩, fun _ s h => ⟨s, h⟩, fun _ _ h => .inl h, fun _ _ h => h⟩

theorem extends_enter (hk : sm.keyRegistry.lookup m.key = none) (newId : String) (now : Int) :
    Extends sm (sm.enter m.key newId ⟨m.agentId, m.channel⟩) newId
      (newCheckpoint m.channel m.sender m.agentId m.accountId m.threadId now) :=
  ⟨rfl, rfl, ⟨_, lookup_insert _⟩, fun _ _ h => lookup_insert_or h, fun _ _ h => lookup_insert_kept h,
    fun _ _ h => (registered_of_insert h).imp_right fun e => ⟨e.1, by rw [e.2]; rfl⟩, registered_insert hk⟩

/-! ## Resolving -/

theorem Owned.no_sweep (ho : Owned sm) (h : Swept sm sm') : sm' = sm := by
  cases h with
  | same => rfl
  | archived hcp hst =>
    rw [ho.active _ _ hcp] at hst
    cases hst

theorem Resolves.owned {r : String × SessionManager Msg} (ho : Owned sm) (hfresh : sm.store.lookup newId = none)
    (h : Resolves sm m newId now r) : Owned r.2 ∧ Keeps sm r.2 ∧ Owns r.2 m.routingText r.1 := by
  cases h with
  | @live id s cp hk hs hc =>
    obtain ⟨cp', hcp', ht⟩ := ho.row m.routingText id hk
    cases (ho.cached id cp hc).symm.trans hcp'
    have hext : Extends sm sm id (cp.touch m) := .refl hs
    have htext : ∀ c, sm.store.lookup id = some c → (cp.touch m).rebuiltText = c.rebuiltText := by
      intro c hcc
      cases hcp'.symm.trans hcc
      rfl
    exact ⟨hext.owned ho (ho.active id cp hcp') htext, hext.keeps htext, hk, _, lookup_insert _, ht⟩
  | inactive hk hs hcp hst =>
    rw [ho.active _ _ hcp] at hst
    cases hst
  | @healed id cp hl hcp hst hr =>
    obtain ⟨c, hknown, hact⟩ := ho.settled.known_active hcp hst
    have hc : c = cp := by
      unfold known at hknown
      cases hcache : sm.localCache.lookup id with
      | some =>
        rw [hcache] at hknown
        cases hknown
        exact Option.some.inj ((ho.cached id c hcache).symm.trans hcp)
      | none =>
        rw [hcache] at hknown
        exact Option.some.inj (hknown.symm.trans hcp)
    subst hc
    rw [heal_of_known hknown]
    have ht := rebuiltText_of_routedBy hr
    have hext : Extends sm ((sm.register m.key id).ensureSession id m) id (c.touch m) :=
      ⟨rfl, rfl, withSession_lookup_self _ _ _, fun x s h => withSession_lookup_of h,
        fun x s h => lookup_withSession_kept h,
        fun t x h => (registered_of_insert h).imp_right fun e => ⟨e.1, by rw [e.2]; exact ht⟩,
        registered_insert (registered_none ho.session hl)⟩
    have htext : ∀ c', sm.store.lookup id = some c' → (c.touch m).rebuiltText = c'.rebuiltText := by
      intro c' hcc
      cases hcp.symm.trans hcc
      rfl
    exact ⟨hext.owned ho hact htext, hext.keeps htext, lookup_insert _, _, lookup_insert _, ht⟩
  | timedOut hl hcp hst =>
    rw [ho.active _ _ hcp] at hst
    cases hst
  | reopened hl hsw hcp hst =>
    rw [ho.no_sweep hsw] at hcp
    rw [ho.active _ _ hcp] at hst
    cases hst
  | created hl hno hsw =>
    obtain rfl := ho.no_sweep hsw
    rename_i sm
    have hext := extends_enter (registered_none ho.session hl) newId now
    have htext := text_of_fresh hfresh
    exact ⟨hext.owned ho rfl (htext _), hext.keeps (htext _), lookup_insert _, _, lookup_insert _, rfl⟩

theorem Owned.forceNew (ho : Owned sm) (channel agentId : String) (hfresh : sm.store.lookup newId = none) :
    Owned (sm.forceNewForChannel channel agentId newId now) ∧
      Keeps sm (sm.forceNewForChannel channel agentId newId now) := by
  -- The text itself is no digest, so nothing is registered that a message asks for.
  have hne : ∀ t, Key.sha256 t ≠ .plain (channel ++ ":" ++ agentId ++ ":" ++ agentId) := fun t => nofun
  have hext : Extends sm { sm.enter (.plain (channel ++ ":" ++ agentId ++ ":" ++ agentId)) newId ⟨agentId, channel⟩ with
      channelActive := sm.channelActive.insert channel newId } newId
      (newCheckpoint channel agentId agentId none none now) :=
    ⟨rfl, rfl, ⟨_, lookup_insert _⟩, fun x s h => lookup_insert_or h, fun x s h => lookup_insert_kept h,
      fun t x h => .inl ((lookup_insert_ne (hne t)).symm.trans h),
      fun t x h => (lookup_insert_ne (hne t)).trans h⟩
  have htext := text_of_fresh hfresh
  exact ⟨hext.owned ho rfl (htext _), hext.keeps (htext _)⟩

theorem owned_step {Q : RowChoice} (ho : Owned sm) {e : Event} (h : Chats sm e) :
    Owned (step Q sm e) ∧ Keeps sm (step Q sm e) := by
  cases e with
  | message m newId now archives =>
    have hr : Resolves sm m newId now (sm.resolve Q m newId now archives) := resolve_resolves ho.settled
    obtain ⟨howned, hkeeps, -⟩ := hr.owned ho (Option.isNone_iff_eq_none.mp h)
    exact ⟨howned, hkeeps⟩
  | new channel agentId => exact ho.forceNew channel agentId (Option.isNone_iff_eq_none.mp h)
  | markMigrating | archive | purge | restart => exact h.elim

theorem Owned.start : Owned ({} : SessionManager Msg) := by
  refine ⟨⟨?_, ?_⟩, ?_, ?_, ?_, ?_⟩
  all_goals
    intro x y h
    cases h

theorem owned_run {Q : RowChoice} {events : List Event} (ho : Owned sm) (h : Along (step Q) Chats sm events) :
    Owned (run (step Q) sm events) ∧ Keeps sm (run (step Q) sm events) := by
  induction events generalizing sm with
  | nil => exact ⟨ho, .refl sm⟩
  | cons e events ih =>
    obtain ⟨howned, hkeeps⟩ := owned_step (Q := Q) ho h.1
    obtain ⟨hrun, hrest⟩ := ih howned h.2
    exact ⟨hrun, hkeeps.trans hrest⟩

theorem Owns.eq_iff {id' text' : String} (h : Owns sm text id) (h' : Owns sm text' id') : id = id' ↔ text = text' := by
  constructor
  · rintro rfl
    obtain ⟨cp, hcp, ht⟩ := h.row
    obtain ⟨cp', hcp', ht'⟩ := h'.row
    cases hcp.symm.trans hcp'
    exact Option.some.inj (ht.symm.trans ht')
  · rintro rfl
    exact Option.some.inj (h.registered.symm.trans h'.registered)

end Steps

/-! ## Two messages of a run -/

variable (Q : RowChoice)

def between (pre : List Event) (m : Message) (newId : String) (now : Int) (archives : Bool) (mid : List Event) :
    SessionManager Msg :=
  run (step Q) {} (pre ++ .message m newId now archives :: mid)

theorem between_eq (pre : List Event) (m : Message) (newId : String) (now : Int) (archives : Bool) (mid : List Event) :
    (between Q pre m newId now archives mid : SessionManager Msg) =
      run (step Q) ((run (step Q) {} pre).resolve Q m newId now archives).2 mid := by
  rw [between, run_append, run_cons]
  rfl

theorem resolved_eq_iff (pre mid : List Event) (m₁ m₂ : Message) (id₁ id₂ : String) (t₁ t₂ : Int) (a₁ a₂ : Bool)
    (h : Along (step Q) Chats ({} : SessionManager Msg)
      ((pre ++ Event.message m₁ id₁ t₁ a₁ :: mid) ++ [Event.message m₂ id₂ t₂ a₂])) :
    ((run (step Q) ({} : SessionManager Msg) pre).resolve Q m₁ id₁ t₁ a₁).1 =
        ((between Q pre m₁ id₁ t₁ a₁ mid : SessionManager Msg).resolve Q m₂ id₂ t₂ a₂).1 ↔
      m₁.routingText = m₂.routingText := by
  obtain ⟨hrun, hlast, -⟩ := along_append.mp h
  obtain ⟨hpre, hfirst, hmid⟩ := along_append.mp hrun
  obtain ⟨hbefore, -⟩ := owned_run Owned.start hpre
  have hlast' : Chats (between Q pre m₁ id₁ t₁ a₁ mid : SessionManager Msg) (.message m₂ id₂ t₂ a₂) := hlast
  rw [between_eq] at hlast' ⊢
  generalize run (step Q) ({} : SessionManager Msg) pre = sm at *
  -- What the first message gets is still registered and still in the store after the second.
  have hr₁ : Resolves sm m₁ id₁ t₁ (sm.resolve Q m₁ id₁ t₁ a₁) := resolve_resolves hbefore.settled
  obtain ⟨howned₁, -, howns₁⟩ := hr₁.owned hbefore (Option.isNone_iff_eq_none.mp hfirst)
  obtain ⟨howned, hkeeps⟩ := owned_run howned₁ hmid
  generalize run (step Q) (sm.resolve Q m₁ id₁ t₁ a₁).2 mid = sm' at *
  have hr₂ : Resolves sm' m₂ id₂ t₂ (sm'.resolve Q m₂ id₂ t₂ a₂) := resolve_resolves howned.settled
  obtain ⟨-, hkeeps₂, howns₂⟩ := hr₂.owned howned (Option.isNone_iff_eq_none.mp hlast')
  exact ((howns₁.keep hkeeps).keep hkeeps₂).eq_iff howns₂

/-- Two messages with different routing fields get different sessions exactly when the texts of
their keys differ. -/
theorem peers_apart_iff (bindings : String → Option String) (pre mid : List Event) (i₁ i₂ : Inbound)
    (id₁ id₂ : String) (t₁ t₂ : Int) (a₁ a₂ : Bool) (h : Along (step Q) Chats ({} : SessionManager Msg)
      ((pre ++ Event.message (i₁.message bindings) id₁ t₁ a₁ :: mid) ++ [Event.message (i₂.message bindings) id₂ t₂ a₂])) :
    (((run (step Q) ({} : SessionManager Msg) pre).resolve Q (i₁.message bindings) id₁ t₁ a₁).1 =
        ((between Q pre (i₁.message bindings) id₁ t₁ a₁ mid : SessionManager Msg).resolve Q (i₂.message bindings)
          id₂ t₂ a₂).1 →
      i₁.routing = i₂.routing) ↔
    (i₁.routing = i₂.routing ∨ (i₁.message bindings).routingText ≠ (i₂.message bindings).routingText) := by
  rw [resolved_eq_iff Q pre mid _ _ id₁ id₂ t₁ t₂ a₁ a₂ h]
  exact imp_iff_or_not

def fromRoom (peerId : String) : Inbound := { platform := "im", senderId := "alice", peerId }

def newInRoom : List Event := [.new "im" "room1" "n" 1]

theorem peers_apart_iff_two_rooms : (((run (step firstRow) ({} : SessionManager Bool) []).resolve firstRow
          ((fromRoom "room1").message fun _ => none) "a" 0 false).1 =
        ((between firstRow [] ((fromRoom "room1").message fun _ => none) "a" 0 false newInRoom :
            SessionManager Bool).resolve firstRow ((fromRoom "room2").message fun _ => none) "b" 2 false).1 →
      (fromRoom "room1").routing = (fromRoom "room2").routing) ↔
    ((fromRoom "room1").routing = (fromRoom "room2").routing ∨
      ((fromRoom "room1").message fun _ => none).routingText ≠
        ((fromRoom "room2").message fun _ => none).routingText) :=
  peers_apart_iff firstRow (fun _ => none) [] newInRoom (fromRoom "room1") (fromRoom "room2") "a" "b" 0 2 false false
    (by decide +kernel)

def helperInBoth (peerId : String) : Option String :=
  if peerId = "room1" ∨ peerId = "room2" then some "helper" else none

def SharesSession (bindings : String → Option String) (i₁ i₂ : Inbound) : Prop :=
  ((({} : SessionManager Bool).resolve firstRow (i₁.message bindings) "a" 0 false).2.resolve firstRow
      (i₂.message bindings) "b" 1 false).1 =
    (({} : SessionManager Bool).resolve firstRow (i₁.message bindings) "a" 0 false).1

theorem peers_share_session : (SharesSession helperInBoth (fromRoom "room1") (fromRoom "room2") ∧
      (fromRoom "room1").routing ≠ (fromRoom "room2").routing) ∧
    (SharesSession (fun _ => none) { platform := "im", senderId := "alice:bob", peerId := "helper" }
        { platform := "im", senderId := "alice", peerId := "bob:helper" } ∧
      ({ platform := "im", senderId := "alice:bob", peerId := "helper" } : Inbound).routing ≠
        ({ platform := "im", senderId := "alice", peerId := "bob:helper" } : Inbound).routing) := by
  unfold SharesSession
  decide +kernel

end CloseClaw.Gateway.Sessions
