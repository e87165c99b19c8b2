/- Mining one session (`memory/src/miner`), statement by statement. -/

import Mathlib.Data.List.AList
import CloseClaw.Lib.Statements
import CloseClaw.Lib.Text

namespace CloseClaw.Memory.Miner

open Lib Program

inductive MiningEventCategory where
  | error
  | anger
  | decision
  | insight
  deriving DecidableEq

def MiningEventCategory.display : MiningEventCategory → String
  | .error => "error"
  | .anger => "anger"
  | .decision => "decision"
  | .insight => "insight"

structure MiningEvent where
  title : String
  summary : String
  body : String
  category : MiningEventCategory
  lesson : Option String
  reidentifiedEventId : Option Int
  deriving DecidableEq

def MiningEvent.isNew (event : MiningEvent) : Bool := event.reidentifiedEventId.isNone

structure MiningEntity where
  entityType : String
  name : String
  description : String
  existingId : Option Int

structure MineResult where
  events : List MiningEvent
  entityNames : List (List String)
  deriving DecidableEq

def MineResult.nothing : MineResult := ⟨[], []⟩

inductive StorageError where
  | backend (message : String)
  | notFound (session : String)
  deriving DecidableEq

inductive MinerLlmError where
  | llm (message : String)
  | parse (message : String)
  deriving DecidableEq

inductive MinerError where
  | storage (e : StorageError)
  | transcriptParse (message : String)
  | llm (e : MinerLlmError)
  | sqlite (message : String)
  deriving DecidableEq

structure MinerConfig where
  enabled : Bool
  maxEventsPerSession : Nat
  initialTtlDays : Int
  reidentifyExtensionDays : Int

structure EventRow where
  title : String
  summary : String
  content : String
  category : String
  lesson : Option String
  sourceSessionId : String
  agentId : String
  timestamp : Int
  updatedAt : Int
  expiresAt : Int
  deriving DecidableEq

structure EntityRow where
  agentId : String
  entityType : String
  name : String
  normalizedName : String
  description : String

structure EventEntityRow where
  eventId : Int
  entityId : Int

structure SessionRow where
  mined : Bool
  minedAt : Option Int

structure Schema where
  tables : Bool
  entityTypes : Bool
  expiresAt : Bool

def Schema.ready : Schema := ⟨true, true, true⟩

structure MemoryDb where
  schema : Schema
  events : Table EventRow
  entities : Table EntityRow
  eventEntities : Table EventEntityRow
  sessions : AList fun _ : String => SessionRow

abbrev Sql := Program MemoryDb MinerError

def select {α : Type} (read : MemoryDb → α) : Sql α := statement fun db => .ok (read db, db)

def createTables : Sql Unit := statement fun db =>
  -- a new `events` table has the column already
  .ok ((), { db with schema := ⟨true, db.schema.entityTypes, db.schema.expiresAt || !db.schema.tables⟩ })

def seedEntityTypes : Sql Unit := statement fun db =>
  .ok ((), { db with schema := ⟨db.schema.tables, true, db.schema.expiresAt⟩ })

def migrateAddExpiresAt : Sql Unit := statement fun db =>
  .ok ((), { db with schema := ⟨db.schema.tables, db.schema.entityTypes, true⟩ })

def initSchema : Sql Unit := do
  createTables
  seedEntityTypes
  migrateAddExpiresAt

def ofAgent (agentId : String) (db : MemoryDb) : List (Int × EntityRow) :=
  db.entities.rows.filter (·.2.agentId = agentId)

def readDbData (agentId : String) : Sql (List (Int × EntityRow)) := do
  initSchema
  select fun _ => ()  -- load_recent_events
  select fun _ => ()  -- load_entity_catalog: the types
  select fun _ => ()  -- load_entity_catalog: the entities
  select fun _ => ()  -- load_entity_type_thresholds
  select (ofAgent agentId)

def loadExistingEntitiesForAgent (agentId : String) : Sql (List (Int × EntityRow)) := do
  initSchema
  select (ofAgent agentId)

-- `str::to_lowercase`
variable (lowercase : String → String)

def normalizeEntityName (name : String) : String :=
  String.ofList ((lowercase name).toList.map fun c => if c = ' ' then '_' else c)

def truncateEntityName (entity : MiningEntity) : MiningEntity :=
  let words := Text.splitWhitespace entity.name
  if 10 < words.length then { entity with name := " ".intercalate (words.take 10) } else entity

def matchByName (existing : List (Int × EntityRow)) (entity : MiningEntity) : MiningEntity :=
  let found := existing.find? fun p =>
    p.2.entityType = entity.entityType ∧ p.2.normalizedName = normalizeEntityName lowercase entity.name
  found.elim entity fun p => { entity with existingId := some p.1, description := p.2.description }

abbrev Nearest := MiningEntity → List (Int × EntityRow) → Option Nat

def matchBySimilarity (nearest : Nearest) (existing : List (Int × EntityRow)) (entity : MiningEntity) : MiningEntity :=
  if entity.existingId.isSome then entity
  else
    let sameType := existing.filter (·.2.entityType = entity.entityType)
    let found := (nearest entity sameType).bind (sameType[·]?)
    found.elim entity fun p =>
      { entity with existingId := some p.1, name := p.2.name, description := p.2.description }

def settleEntities (nearest : Nearest) (named byType : List (Int × EntityRow))
    (lists : List (List MiningEntity)) : List (List MiningEntity) :=
  lists.map fun entities => entities.map fun entity =>
    matchBySimilarity nearest byType (matchByName lowercase named (truncateEntityName entity))

structure WriteConfig where
  sessionId : String
  agentId : String
  initialTtlDays : Int
  reidentifyExtensionDays : Int
  now : Int

def EventRow.extend (cfg : WriteConfig) (row : EventRow) : EventRow :=
  { row with expiresAt := max row.expiresAt cfg.now + cfg.reidentifyExtensionDays * 86400 }

def extendReidentifiedEvent (cfg : WriteConfig) (id : Int) : Sql Unit := statement fun db =>
  if db.events.has id then .ok ((), { db with events := db.events.modify id (EventRow.extend cfg) })
  else .error (.sqlite ("re-identify UPDATE matched 0 rows for event id=" ++ toString id))

def newEventRow (cfg : WriteConfig) (event : MiningEvent) : EventRow where
  title := event.title
  summary := event.summary
  content := event.body
  category := event.category.display
  lesson := event.lesson
  sourceSessionId := cfg.sessionId
  agentId := cfg.agentId
  timestamp := cfg.now
  updatedAt := cfg.now
  expiresAt := cfg.now + cfg.initialTtlDays * 86400

def insertEvent (cfg : WriteConfig) (event : MiningEvent) : Sql Int := statement fun db =>
  .ok (db.events.seq + 1, { db with events := db.events.insert (newEventRow cfg event) })

def newEntityRow (agentId : String) (entity : MiningEntity) : EntityRow :=
  ⟨agentId, entity.entityType, entity.name, normalizeEntityName lowercase entity.name, entity.description⟩

def EntityRow.sameKey (a b : EntityRow) : Bool :=
  a.agentId = b.agentId ∧ a.entityType = b.entityType ∧ a.normalizedName = b.normalizedName

def insertEntity (agentId : String) (entity : MiningEntity) : Sql Unit := statement fun db =>
  let row := newEntityRow lowercase agentId entity
  if db.entities.rows.any (·.2.sameKey row) then .ok ((), db)
  else .ok ((), { db with entities := db.entities.insert row })

def selectEntity (agentId : String) (entity : MiningEntity) : Sql Int := statement fun db =>
  let row := newEntityRow lowercase agentId entity
  (db.entities.rows.find? (·.2.sameKey row)).elim (.error (.sqlite "Query returned no rows")) fun p => .ok (p.1, db)

def linkEntity (eventId entityId : Int) : Sql Unit := statement fun db =>
  if db.events.has eventId && db.entities.has entityId then
    .ok ((), { db with eventEntities := db.eventEntities.insert ⟨eventId, entityId⟩ })
  else .error (.sqlite "FOREIGN KEY constraint failed")

def entityIdOf (agentId : String) (entity : MiningEntity) : Sql Int :=
  match entity.existingId with
  | some id => pure id
  | none => do
    insertEntity lowercase agentId entity
    selectEntity lowercase agentId entity

def assignEntitiesToEvent (agentId : String) (eventId : Int) : List MiningEntity → Sql Unit
  | [] => pure ()
  | entity :: entities => do
    let entityId ← entityIdOf lowercase agentId entity
    linkEntity eventId entityId
    assignEntitiesToEvent agentId eventId entities

def writeEvent (cfg : WriteConfig) (event : MiningEvent) (entities : List MiningEntity) : Sql Unit :=
  match event.reidentifiedEventId with
  | some id => extendReidentifiedEvent cfg id
  | none => do
    let eventId ← insertEvent cfg event
    assignEntitiesToEvent lowercase cfg.agentId eventId entities

def writeEvents (cfg : WriteConfig) : List (MiningEvent × List MiningEntity) → Sql Unit
  | [] => pure ()
  | pair :: pairs => do
    writeEvent lowercase cfg pair.1 pair.2
    writeEvents cfg pairs

def upsertSession (cfg : WriteConfig) : Sql Unit := statement fun db =>
  .ok ((), { db with sessions := db.sessions.insert cfg.sessionId ⟨true, some cfg.now⟩ })

def writeToSqlite (cfg : WriteConfig) (events : List MiningEvent) (entities : List (List MiningEntity)) :
    Sql Unit := do
  writeEvents lowercase cfg (events.zip entities)
  upsertSession cfg

structure State where
  db : MemoryDb
  checkpoints : AList fun _ : String => Bool

structure Attempt where
  sessionId : String
  agentId : String
  cleaned : String
  preloaded : Option Bool
  loadFailure : Option StorageError
  readRefusals : Nat → Option String
  extracted : Except MinerLlmError (List MiningEvent)
  assigned : Except MinerLlmError (List (List MiningEntity))
  nearest : Nearest
  matchRefusals : Nat → Option String
  writeRefusals : Nat → Option String
  now : Int
  markFailure : Option StorageError

def sqliteErrors (refusals : Nat → Option String) : Nat → Option MinerError := fun n => (refusals n).map .sqlite

def Attempt.writeConfig (cfg : MinerConfig) (a : Attempt) : WriteConfig :=
  ⟨a.sessionId, a.agentId, cfg.initialTtlDays, cfg.reidentifyExtensionDays, a.now⟩

def markMined (checkpoints : AList fun _ : String => Bool) (sessionId : String) : AList fun _ : String => Bool :=
  if (checkpoints.lookup sessionId).isSome then checkpoints.insert sessionId true else checkpoints

def writeAndMark (cfg : MinerConfig) (a : Attempt) (events : List MiningEvent)
    (entities : List (List MiningEntity)) (st : State) : Except MinerError MineResult × State :=
  let written := writeToSqlite lowercase (a.writeConfig cfg) events entities (sqliteErrors a.writeRefusals) 0 st.db
  match written.outcome, a.markFailure with
  | .error e, _ => (.error e, { st with db := written.store })
  | .ok (), some e => (.error (.storage e), { st with db := written.store })
  | .ok (), none =>
    (.ok ⟨events, entities.map fun list => list.map (·.name)⟩,
      ⟨written.store, markMined st.checkpoints a.sessionId⟩)

def assignAndWrite (cfg : MinerConfig) (a : Attempt) (byType : List (Int × EntityRow))
    (events : List MiningEvent) (st : State) : Except MinerError MineResult × State :=
  match a.assigned with
  | .error e => (.error (.llm e), st)
  | .ok lists =>
    let named := loadExistingEntitiesForAgent a.agentId (sqliteErrors a.matchRefusals) 0 st.db
    match named.outcome with
    | .error e => (.error e, { st with db := named.store })
    | .ok existing =>
      let entities := settleEntities lowercase a.nearest existing byType lists
      writeAndMark lowercase cfg a events entities { st with db := named.store }

def mineSessionInner (cfg : MinerConfig) (a : Attempt) (st : State) :
    Except MinerError MineResult × State :=
  if a.cleaned.isEmpty then (.ok .nothing, st)
  else
    let read := readDbData a.agentId (sqliteErrors a.readRefusals) 0 st.db
    match read.outcome, a.extracted with
    | .error e, _ => (.error e, { st with db := read.store })
    | .ok _, .error e => (.error (.llm e), { st with db := read.store })
    | .ok byType, .ok extracted =>
      assignAndWrite lowercase cfg a byType (extracted.take cfg.maxEventsPerSession) { st with db := read.store }

def mineUnmined (cfg : MinerConfig) (a : Attempt) (mined : Bool) (st : State) :
    Except MinerError MineResult × State :=
  if mined then (.ok .nothing, st) else mineSessionInner lowercase cfg a st

def mineSession (cfg : MinerConfig) (a : Attempt) (st : State) : Except MinerError MineResult × State :=
  match a.loadFailure, st.checkpoints.lookup a.sessionId with
  | some e, _ => (.error (.storage e), st)
  | none, none => (.error (.transcriptParse ("session " ++ a.sessionId ++ " not found")), st)
  | none, some mined => mineUnmined lowercase cfg a mined st

def mine (cfg : MinerConfig) (st : State) (a : Attempt) : Except MinerError MineResult × State :=
  if cfg.enabled then
    match a.preloaded with
    | some mined => mineUnmined lowercase cfg a mined st
    | none => mineSession lowercase cfg a st
  else (.ok .nothing, st)

end CloseClaw.Memory.Miner
