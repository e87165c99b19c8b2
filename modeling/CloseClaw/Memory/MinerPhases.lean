/- What the phases of an attempt do to the database. -/

import CloseClaw.Memory.Miner

namespace CloseClaw.Memory.Miner

open Lib List Program Table
open Lib.Program (Within Returns Succeeds StopsAt)

structure Prepares (db db' : MemoryDb) : Prop where
  events : db'.events = db.events
  entities : db'.entities = db.entities
  eventEntities : db'.eventEntities = db.eventEntities
  sessions : db'.sessions = db.sessions
  schema : db.schema = .ready → db'.schema = .ready

theorem Prepares.refl (db : MemoryDb) : Prepares db db := ⟨rfl, rfl, rfl, rfl, id⟩

theorem Prepares.trans {a b c : MemoryDb} (hab : Prepares a b) (hbc : Prepares b c) : Prepares a c :=
  ⟨hbc.events.trans hab.events, hbc.entities.trans hab.entities, hbc.eventEntities.trans hab.eventEntities,
    hbc.sessions.trans hab.sessions, fun h => hbc.schema (hab.schema h)⟩

variable {db db' : MemoryDb}

theorem Prepares.eq (h : Prepares db db') (hready : db.schema = .ready) : db' = db := by
  obtain ⟨schema, events, entities, eventEntities, sessions⟩ := db
  obtain ⟨schema', events', entities', eventEntities', sessions'⟩ := db'
  obtain ⟨rfl, rfl, rfl, rfl, hschema⟩ := h
  obtain rfl : schema = .ready := hready
  obtain rfl : schema' = .ready := hschema rfl
  rfl

open Prepares

theorem within_select {α : Type} (read : MemoryDb → α) : Within Prepares (select read) := by
  refine within_statement refl ?_
  intro db a db' h
  obtain ⟨-, rfl⟩ := Prod.mk.inj (Except.ok.inj h)
  exact refl db

theorem within_setSchema {f : MemoryDb → Schema} (h : ∀ db, db.schema = .ready → f db = .ready) :
    Within Prepares (statement fun db => .ok ((), { db with schema := f db }) : Sql Unit) := by
  refine within_statement refl ?_
  intro db a db' hdb
  obtain ⟨-, rfl⟩ := Prod.mk.inj (Except.ok.inj hdb)
  exact ⟨rfl, rfl, rfl, rfl, h db⟩

theorem within_initSchema : Within Prepares initSchema := by
  refine Within.bind trans (within_setSchema ?_) fun _ => Within.bind trans (within_setSchema ?_)
    fun _ => within_setSchema ?_
  all_goals
    intro db hready
    rw [hready]
    rfl

theorem within_readDbData (agentId : String) : Within Prepares (readDbData agentId) := by
  refine Within.bind trans within_initSchema fun _ => ?_
  refine Within.bind trans (within_select _) fun _ => ?_
  refine Within.bind trans (within_select _) fun _ => ?_
  refine Within.bind trans (within_select _) fun _ => ?_
  exact Within.bind trans (within_select _) fun _ => within_select _

theorem within_loadExisting (agentId : String) : Within Prepares (loadExistingEntitiesForAgent agentId) :=
  Within.bind trans within_initSchema fun _ => within_select _

def IsOfAgent (agentId : String) (db : MemoryDb) (rows : List (Int × EntityRow)) : Prop := rows = ofAgent agentId db

variable {agentId : String}

theorem IsOfAgent.of_prepares {rows : List (Int × EntityRow)} (h : Prepares db db')
    (hrows : IsOfAgent agentId db' rows) : IsOfAgent agentId db rows := by
  rw [IsOfAgent, hrows, ofAgent, ofAgent, h.entities]

theorem returns_select (agentId : String) : Returns (IsOfAgent agentId) (select (ofAgent agentId)) := by
  refine returns_statement ?_
  intro db rows db' h
  exact (Prod.mk.inj (Except.ok.inj h)).1.symm

open IsOfAgent

theorem returns_readDbData (agentId : String) : Returns (IsOfAgent agentId) (readDbData agentId) := by
  refine Returns.bind_within within_initSchema (fun _ => ?_) of_prepares
  refine Returns.bind_within (within_select _) (fun _ => ?_) of_prepares
  refine Returns.bind_within (within_select _) (fun _ => ?_) of_prepares
  refine Returns.bind_within (within_select _) (fun _ => ?_) of_prepares
  exact Returns.bind_within (within_select _) (fun _ => returns_select agentId) of_prepares

theorem returns_loadExisting (agentId : String) : Returns (IsOfAgent agentId) (loadExistingEntitiesForAgent agentId) :=
  Returns.bind_within within_initSchema (fun _ => returns_select agentId) of_prepares

/-! ## The phase that writes -/

def EventRow.lasting (row : EventRow) : EventRow := { row with expiresAt := 0 }

structure Grows (db db' : MemoryDb) : Prop where
  events : ∀ p ∈ db.events.rows, ∃ row, (p.1, row) ∈ db'.events.rows ∧ row.lasting = p.2.lasting
  entities : ∀ p ∈ db.entities.rows, p ∈ db'.entities.rows
  eventEntities : ∀ p ∈ db.eventEntities.rows, p ∈ db'.eventEntities.rows

theorem Grows.refl (db : MemoryDb) : Grows db db := ⟨fun p hp => ⟨p.2, hp, rfl⟩, fun _ hp => hp, fun _ hp => hp⟩

theorem Grows.trans {a b c : MemoryDb} (hab : Grows a b) (hbc : Grows b c) : Grows a c where
  events := by
    intro p hp
    obtain ⟨row, hrow, hlasting⟩ := hab.events p hp
    obtain ⟨row', hrow', hlasting'⟩ := hbc.events _ hrow
    exact ⟨row', hrow', hlasting'.trans hlasting⟩
  entities := fun p hp => hbc.entities p (hab.entities p hp)
  eventEntities := fun p hp => hbc.eventEntities p (hab.eventEntities p hp)

variable {id : Int}

theorem Grows.has_event (h : Grows db db') (hid : db.events.has id = true) : db'.events.has id = true := by
  obtain ⟨row, hrow⟩ := has_iff.mp hid
  obtain ⟨row', hrow', -⟩ := h.events _ hrow
  exact has_iff.mpr ⟨row', hrow'⟩

theorem Grows.has_entity (h : Grows db db') (hid : db.entities.has id = true) : db'.entities.has id = true := by
  obtain ⟨row, hrow⟩ := has_iff.mp hid
  exact has_iff.mpr ⟨row, h.entities _ hrow⟩

def StoredAt (db : MemoryDb) (id : Int) (row : EventRow) : Prop :=
  ∃ stored, (id, stored) ∈ db.events.rows ∧ stored.lasting = row.lasting

theorem StoredAt.grows {row : EventRow} (h : StoredAt db id row) (hgrows : Grows db db') : StoredAt db' id row := by
  obtain ⟨stored, hstored, hlasting⟩ := h
  obtain ⟨stored', hstored', hlasting'⟩ := hgrows.events _ hstored
  exact ⟨stored', hstored', hlasting'.trans hlasting⟩

variable (lowercase : String → String)

def IsRowOf (agentId : String) (entity : MiningEntity) (entityId : Int) (row : EntityRow) : Prop :=
  entity.existingId = some entityId
    ∨ entity.existingId = none ∧ row.sameKey (newEntityRow lowercase agentId entity) = true

def Linked (db : MemoryDb) (agentId : String) (eventId : Int) (entity : MiningEntity) : Prop :=
  ∃ entityId row, (entityId, row) ∈ db.entities.rows ∧ IsRowOf lowercase agentId entity entityId row
    ∧ ∃ k, (k, ⟨eventId, entityId⟩) ∈ db.eventEntities.rows

def Kept (cfg : WriteConfig) (db : MemoryDb) (id : Int) (event : MiningEvent) (entities : List MiningEntity) : Prop :=
  StoredAt db id (newEventRow cfg event) ∧ ∀ entity ∈ entities, Linked lowercase db cfg.agentId id entity

def newEventId (seq : Int) (events : List MiningEvent) (i : Nat) : Int :=
  seq + 1 + ((events.take i).countP MiningEvent.isNew : Nat)

structure Written (cfg : WriteConfig) (db db' : MemoryDb) (events : List MiningEvent)
    (entities : List (List MiningEntity)) : Prop where
  kept : ∀ (i : Nat) event list, events[i]? = some event → event.isNew = true → entities[i]? = some list →
    Kept lowercase cfg db' (newEventId db.events.seq events i) event list
  session : db'.sessions.lookup cfg.sessionId = some ⟨true, some cfg.now⟩

variable {lowercase}

variable {entity : MiningEntity}

theorem Linked.grows {eventId : Int} (h : Linked lowercase db agentId eventId entity) (hgrows : Grows db db') :
    Linked lowercase db' agentId eventId entity := by
  obtain ⟨entityId, row, hrow, hof, k, hk⟩ := h
  exact ⟨entityId, row, hgrows.entities _ hrow, hof, k, hgrows.eventEntities _ hk⟩

theorem EntityRow.sameKey_refl (row : EntityRow) : row.sameKey row = true := by
  simp [EntityRow.sameKey]

theorem insertEntity_succeeds (agentId : String) (entity : MiningEntity) (db : MemoryDb) :
    Succeeds (insertEntity lowercase agentId entity) db fun _ db' =>
      Grows db db' ∧ db'.events = db.events
        ∧ ∃ p ∈ db'.entities.rows, p.2.sameKey (newEntityRow lowercase agentId entity) = true := by
  by_cases h : db.entities.rows.any (·.2.sameKey (newEntityRow lowercase agentId entity)) = true
  · refine succeeds_statement (if_pos h) ⟨Grows.refl db, rfl, ?_⟩
    exact any_eq_true.mp h
  · refine succeeds_statement (if_neg h) ⟨⟨?_, ?_, ?_⟩, rfl, ?_⟩
    · exact (Grows.refl db).events
    · exact fun p hp => mem_insert_of_mem hp
    · exact (Grows.refl db).eventEntities
    · exact ⟨_, mem_insert_self, EntityRow.sameKey_refl _⟩

theorem selectEntity_succeeds {p : Int × EntityRow} {Q : Int → MemoryDb → Prop}
    (hp : db.entities.rows.find? (·.2.sameKey (newEntityRow lowercase agentId entity)) = some p) (h : Q p.1 db) :
    Succeeds (selectEntity lowercase agentId entity) db Q := by
  refine succeeds_statement ?_ h
  simp only [hp, Option.elim_some]

theorem entityIdOf_succeeds (hexisting : ∀ id, entity.existingId = some id → db.entities.has id = true) :
    Succeeds (entityIdOf lowercase agentId entity) db fun id db' =>
      Grows db db' ∧ db'.events = db.events
        ∧ ∃ row, (id, row) ∈ db'.entities.rows ∧ IsRowOf lowercase agentId entity id row := by
  unfold entityIdOf
  cases hid : entity.existingId with
  | some id =>
    obtain ⟨row, hrow⟩ := has_iff.mp (hexisting id hid)
    exact succeeds_pure ⟨Grows.refl db, rfl, row, hrow, .inl hid⟩
  | none =>
    refine Succeeds.bind ((insertEntity_succeeds agentId entity db).mono ?_)
    intro _ db' h
    obtain ⟨hgrows, hevents, p, hp, hkey⟩ := h
    have hfound : (db'.entities.rows.find? (·.2.sameKey (newEntityRow lowercase agentId entity))).isSome = true :=
      List.find?_isSome.mpr ⟨p, hp, hkey⟩
    obtain ⟨q, hq⟩ := Option.isSome_iff_exists.mp hfound
    have hkey : q.2.sameKey (newEntityRow lowercase agentId entity) = true := by
      simpa using List.find?_some hq
    exact selectEntity_succeeds hq ⟨hgrows, hevents, q.2, List.mem_of_find?_eq_some hq, .inr ⟨hid, hkey⟩⟩

theorem linkEntity_succeeds {eventId entityId : Int} (hevent : db.events.has eventId = true)
    (hentity : db.entities.has entityId = true) :
    Succeeds (linkEntity eventId entityId) db fun _ db' =>
      Grows db db' ∧ db'.events = db.events ∧ ∃ k, (k, ⟨eventId, entityId⟩) ∈ db'.eventEntities.rows := by
  refine succeeds_statement (if_pos (by rw [hevent, hentity]; rfl)) ⟨⟨?_, ?_, ?_⟩, rfl, ?_⟩
  · exact (Grows.refl db).events
  · exact (Grows.refl db).entities
  · exact fun p hp => mem_insert_of_mem hp
  · exact ⟨_, mem_insert_self⟩

def KnownEntities (db : MemoryDb) (entities : List MiningEntity) : Prop :=
  ∀ entity ∈ entities, ∀ id, entity.existingId = some id → db.entities.has id = true

variable {entities : List MiningEntity}

theorem KnownEntities.grows (h : KnownEntities db entities) (hgrows : Grows db db') : KnownEntities db' entities :=
  fun entity hentity id hid => hgrows.has_entity (h entity hentity id hid)

theorem assignEntities_succeeds {eventId : Int} (hevent : db.events.has eventId = true)
    (hknown : KnownEntities db entities) :
    Succeeds (assignEntitiesToEvent lowercase agentId eventId entities) db fun _ db' =>
      Grows db db' ∧ db'.events = db.events ∧ ∀ entity ∈ entities, Linked lowercase db' agentId eventId entity := by
  induction entities generalizing db with
  | nil => exact succeeds_pure ⟨Grows.refl db, rfl, fun _ h => absurd h not_mem_nil⟩
  | cons entity entities ih =>
    refine Succeeds.bind ((entityIdOf_succeeds (hknown entity mem_cons_self)).mono ?_)
    intro id db₁ h₁
    obtain ⟨hgrows₁, hevents₁, row, hrow, hof⟩ := h₁
    have hevent₁ : db₁.events.has eventId = true := hgrows₁.has_event hevent
    refine Succeeds.bind ((linkEntity_succeeds hevent₁ (has_iff.mpr ⟨row, hrow⟩)).mono ?_)
    intro _ db₂ h₂
    obtain ⟨hgrows₂, hevents₂, k, hk⟩ := h₂
    have hknown₂ : KnownEntities db₂ entities :=
      KnownEntities.grows (fun e he => hknown e (mem_cons_of_mem _ he)) (hgrows₁.trans hgrows₂)
    refine (ih (hgrows₂.has_event hevent₁) hknown₂).mono ?_
    intro _ db₃ h₃
    obtain ⟨hgrows₃, hevents₃, hlinked⟩ := h₃
    refine ⟨(hgrows₁.trans hgrows₂).trans hgrows₃, hevents₃.trans (hevents₂.trans hevents₁), ?_⟩
    intro e he
    rcases mem_cons.mp he with rfl | he
    · have hlinked₂ : Linked lowercase db₂ agentId eventId e := ⟨id, row, hgrows₂.entities _ hrow, hof, k, hk⟩
      exact hlinked₂.grows hgrows₃
    · exact hlinked e he

/-! ## One event, and all of them -/

theorem newEventId_cons (seq : Int) (event : MiningEvent) (events : List MiningEvent) (i : Nat) :
    newEventId seq (event :: events) (i + 1) = newEventId (if event.isNew then seq + 1 else seq) events i := by
  rw [newEventId, newEventId, take_succ_cons, countP_cons]
  split <;> push_cast <;> omega

variable {cfg : WriteConfig} {event : MiningEvent}

theorem Kept.grows (h : Kept lowercase cfg db id event entities) (hgrows : Grows db db') :
    Kept lowercase cfg db' id event entities :=
  ⟨h.1.grows hgrows, fun entity hentity => (h.2 entity hentity).grows hgrows⟩

theorem grows_extend (cfg : WriteConfig) (db : MemoryDb) (id : Int) :
    Grows db { db with events := db.events.modify id (EventRow.extend cfg) } where
  events := by
    intro p hp
    refine ⟨_, mem_modify hp, ?_⟩
    split <;> rfl
  entities := fun _ hp => hp
  eventEntities := fun _ hp => hp

theorem grows_insertEvent (cfg : WriteConfig) (db : MemoryDb) (event : MiningEvent) :
    Grows db { db with events := db.events.insert (newEventRow cfg event) } where
  events := fun p hp => ⟨p.2, mem_insert_of_mem hp, rfl⟩
  entities := fun _ hp => hp
  eventEntities := fun _ hp => hp

theorem writeEvent_succeeds (hreid : ∀ id, event.reidentifiedEventId = some id → db.events.has id = true)
    (hknown : KnownEntities db entities) :
    Succeeds (writeEvent lowercase cfg event entities) db fun _ db' =>
      Grows db db' ∧ db'.events.seq = (if event.isNew then db.events.seq + 1 else db.events.seq)
        ∧ (event.isNew = true → Kept lowercase cfg db' (db.events.seq + 1) event entities) := by
  unfold writeEvent
  cases hid : event.reidentifiedEventId with
  | some id =>
    have hnew : event.isNew = false := by simp [MiningEvent.isNew, hid]
    refine succeeds_statement (if_pos (hreid id hid)) ⟨grows_extend cfg db id, ?_, ?_⟩
    · simp [hnew]
    · simp [hnew]
  | none =>
    have hnew : event.isNew = true := by simp [MiningEvent.isNew, hid]
    refine Succeeds.bind (succeeds_statement rfl ?_)
    have hgrows := grows_insertEvent cfg db event
    refine (assignEntities_succeeds has_insert_self (hknown.grows hgrows)).mono ?_
    intro _ db' h
    obtain ⟨hgrows', hevents, hlinked⟩ := h
    refine ⟨hgrows.trans hgrows', by rw [hevents, if_pos hnew]; rfl, fun _ => ⟨?_, hlinked⟩⟩
    rw [StoredAt, hevents]
    exact ⟨_, mem_insert_self, rfl⟩

theorem writeEvents_succeeds {pairs : List (MiningEvent × List MiningEntity)}
    (hreid : ∀ p ∈ pairs, ∀ id, p.1.reidentifiedEventId = some id → db.events.has id = true)
    (hknown : ∀ p ∈ pairs, KnownEntities db p.2) :
    Succeeds (writeEvents lowercase cfg pairs) db fun _ db' =>
      Grows db db' ∧ ∀ (i : Nat) p, pairs[i]? = some p → p.1.isNew = true →
        Kept lowercase cfg db' (newEventId db.events.seq (pairs.map Prod.fst) i) p.1 p.2 := by
  induction pairs generalizing db with
  | nil => exact succeeds_pure ⟨Grows.refl db, fun i p hp => by simp at hp⟩
  | cons pair pairs ih =>
    have hself : pair ∈ pair :: pairs := mem_cons_self
    refine Succeeds.bind ((writeEvent_succeeds (hreid pair hself) (hknown pair hself)).mono ?_)
    intro _ db₁ h₁
    obtain ⟨hgrows₁, hseq, hkept₁⟩ := h₁
    have hreid₁ : ∀ p ∈ pairs, ∀ id, p.1.reidentifiedEventId = some id → db₁.events.has id = true :=
      fun p hp id hid => hgrows₁.has_event (hreid p (mem_cons_of_mem _ hp) id hid)
    have hknown₁ : ∀ p ∈ pairs, KnownEntities db₁ p.2 := fun p hp => (hknown p (mem_cons_of_mem _ hp)).grows hgrows₁
    refine (ih hreid₁ hknown₁).mono ?_
    intro _ db₂ h₂
    obtain ⟨hgrows₂, hkept₂⟩ := h₂
    refine ⟨hgrows₁.trans hgrows₂, ?_⟩
    intro i p hp hnew
    cases i with
    | zero =>
      obtain rfl : pair = p := Option.some.inj hp
      have hid : newEventId db.events.seq ((pair :: pairs).map Prod.fst) 0 = db.events.seq + 1 := by
        simp [newEventId]
      rw [hid]
      exact (hkept₁ hnew).grows hgrows₂
    | succ i =>
      rw [map_cons, newEventId_cons, ← hseq]
      exact hkept₂ i p hp hnew

/-! ## The whole write -/

variable {events : List MiningEvent}

theorem newEventId_zip {lists : List (List MiningEntity)} {i : Nat} (seq : Int)
    (h : i ≤ lists.length) : newEventId seq ((events.zip lists).map Prod.fst) i = newEventId seq events i := by
  have htake : ((events.zip lists).map Prod.fst).take i = events.take i := by
    rw [← map_take, List.zip, take_zipWith]
    exact map_fst_zip (by rw [length_take, length_take]; omega)
  rw [newEventId, newEventId, htake]

theorem writeToSqlite_succeeds {entities : List (List MiningEntity)}
    (hreid : ∀ p ∈ events.zip entities, ∀ id, p.1.reidentifiedEventId = some id → db.events.has id = true)
    (hknown : ∀ list ∈ entities, KnownEntities db list) :
    Succeeds (writeToSqlite lowercase cfg events entities) db fun _ db' =>
      Written lowercase cfg db db' events entities := by
  have hpairs : ∀ p ∈ events.zip entities, KnownEntities db p.2 := fun p hp => hknown p.2 (of_mem_zip hp).2
  refine Succeeds.bind ((writeEvents_succeeds hreid hpairs).mono ?_)
  intro _ db₁ h₁
  obtain ⟨-, hkept⟩ := h₁
  refine succeeds_statement rfl ⟨?_, AList.lookup_insert _⟩
  intro i event list hevent hnew hlist
  have hpair : (events.zip entities)[i]? = some (event, list) := List.getElem?_zip_eq_some.mpr ⟨hevent, hlist⟩
  have hlength : i ≤ entities.length := (List.getElem?_eq_some_iff.mp hlist).1.le
  rw [← newEventId_zip db.events.seq hlength]
  exact hkept i (event, list) hpair hnew

variable {refuses : Nat → Option MinerError} {n : Nat}

theorem writeEvent_stopsAt
    (h : refuses n ≠ none ∨ ∃ id, event.reidentifiedEventId = some id ∧ db.events.has id = false) :
    StopsAt (writeEvent lowercase cfg event entities) refuses n db := by
  unfold writeEvent
  cases hid : event.reidentifiedEventId with
  | some id =>
    rcases h with h | ⟨id', hid', hmissing⟩
    · exact stopsAt_of_refused _ h
    · obtain rfl : id = id' := Option.some.inj (hid.symm.trans hid')
      exact stopsAt_of_error (if_neg (by simp [hmissing]))
  | none =>
    rcases h with h | ⟨id', hid', -⟩
    · exact (stopsAt_of_refused _ h).bind _
    · rw [hid] at hid'
      cases hid'

theorem writeToSqlite_stopsAt {entities : List (List MiningEntity)}
    (h : refuses n ≠ none ∨ ∃ event id, events.head? = some event ∧ entities ≠ [] ∧
      event.reidentifiedEventId = some id ∧ db.events.has id = false) :
    StopsAt (writeToSqlite lowercase cfg events entities) refuses n db := by
  unfold writeToSqlite
  cases hzip : events.zip entities with
  | nil =>
    rcases h with h | ⟨event, id, hhead, hentities, -, -⟩
    · rw [StopsAt, writeEvents, bind_of_ok rfl]
      exact stopsAt_of_refused _ h
    · rcases zip_eq_nil_iff.mp hzip with rfl | rfl
      · cases hhead
      · exact absurd rfl hentities
  | cons pair =>
    refine StopsAt.bind (StopsAt.bind (writeEvent_stopsAt ?_) _) _
    rcases h with h | ⟨event, id, hhead, -, hid, hmissing⟩
    · exact .inl h
    · cases events with
      | nil => cases hhead
      | cons first =>
        cases entities with
        | nil => cases hzip
        | cons list =>
          obtain rfl : first = event := Option.some.inj hhead
          obtain rfl : (first, list) = pair := (List.cons.inj hzip).1
          exact .inr ⟨id, hid, hmissing⟩

/-! ## Matched entities -/

theorem truncateEntityName_existingId (entity : MiningEntity) :
    (truncateEntityName entity).existingId = entity.existingId := by
  simp only [truncateEntityName]
  split <;> rfl

theorem mem_ofAgent_has {p : Int × EntityRow} (h : p ∈ ofAgent agentId db) : db.entities.has p.1 = true :=
  has_iff.mpr ⟨p.2, (mem_filter.mp h).1⟩

theorem matchByName_existingId {named : List (Int × EntityRow)}
    (h : (matchByName lowercase named entity).existingId = some id) :
    entity.existingId = some id ∨ ∃ p ∈ named, p.1 = id := by
  simp only [matchByName] at h
  cases hfound : named.find? fun p =>
      p.2.entityType = entity.entityType ∧ p.2.normalizedName = normalizeEntityName lowercase entity.name with
  | none =>
    rw [hfound] at h
    exact .inl h
  | some p =>
    rw [hfound] at h
    exact .inr ⟨p, List.mem_of_find?_eq_some hfound, Option.some.inj h⟩

variable {nearest : Nearest}

variable {byType : List (Int × EntityRow)}

theorem matchBySimilarity_existingId (h : (matchBySimilarity nearest byType entity).existingId = some id) :
    entity.existingId = some id ∨ ∃ p ∈ byType, p.1 = id := by
  simp only [matchBySimilarity] at h
  split at h
  · exact .inl h
  · cases hfound : (nearest entity (byType.filter (·.2.entityType = entity.entityType))).bind
        ((byType.filter (·.2.entityType = entity.entityType))[·]?) with
    | none =>
      rw [hfound] at h
      exact .inl h
    | some p =>
      rw [hfound] at h
      obtain ⟨k, -, hk⟩ := Option.bind_eq_some_iff.mp hfound
      exact .inr ⟨p, (mem_filter.mp (List.mem_of_getElem? hk)).1, Option.some.inj h⟩

theorem settle_existingId {named : List (Int × EntityRow)}
    (h : (matchBySimilarity nearest byType (matchByName lowercase named (truncateEntityName entity))).existingId = some id) :
    entity.existingId = some id ∨ (∃ p ∈ named, p.1 = id) ∨ ∃ p ∈ byType, p.1 = id := by
  rcases matchBySimilarity_existingId h with h | h
  · rcases matchByName_existingId h with h | h
    · rw [truncateEntityName_existingId] at h
      exact .inl h
    · exact .inr (.inl h)
  · exact .inr (.inr h)

theorem settleEntities_known {lists : List (List MiningEntity)} (h : ∀ list ∈ lists, KnownEntities db list) :
    ∀ list ∈ settleEntities lowercase nearest (ofAgent agentId db) (ofAgent agentId db) lists,
      KnownEntities db list := by
  intro list hlist entity hentity id hid
  obtain ⟨source, hsource, rfl⟩ := mem_map.mp hlist
  obtain ⟨e, he, rfl⟩ := mem_map.mp hentity
  rcases settle_existingId hid with hid | ⟨p, hp, rfl⟩ | ⟨p, hp, rfl⟩
  · exact h source hsource e he id hid
  · exact mem_ofAgent_has hp
  · exact mem_ofAgent_has hp

end CloseClaw.Memory.Miner
