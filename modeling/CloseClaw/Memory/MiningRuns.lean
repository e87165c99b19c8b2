/- What a run of mining attempts leaves. -/

import CloseClaw.Lib.Trace
import CloseClaw.Memory.MinerPhases

namespace CloseClaw.Memory.Miner

open Lib List Program Succeeds
open Lib.Program (Succeeds StopsAt)

variable (lowercase : String → String) (cfg : MinerConfig)

def settledEntities (st : State) (a : Attempt) (lists : List (List MiningEntity)) : List (List MiningEntity) :=
  settleEntities lowercase a.nearest (ofAgent a.agentId st.db) (ofAgent a.agentId st.db) lists

structure StoredAndMarked (st : State) (a : Attempt) (after : State) (r : MineResult) : Prop where
  stored : ∀ (i : Nat) event, r.events[i]? = some event → event.isNew = true →
    ∃ lists list, a.assigned = .ok lists ∧ (settledEntities lowercase st a lists)[i]? = some list
      ∧ r.entityNames[i]? = some (list.map (·.name))
      ∧ Kept lowercase (a.writeConfig cfg) after.db (newEventId st.db.events.seq r.events i) event list
  session : after.db.sessions.lookup a.sessionId = some ⟨true, some a.now⟩
  checkpoint : after.checkpoints.lookup a.sessionId = some true

structure AllOrNothing (st : State) (a : Attempt) : Prop where
  nothing : ∀ e, (mine lowercase cfg st a).1 = .error e → (mine lowercase cfg st a).2.db = st.db
  all : ∀ r, (mine lowercase cfg st a).1 = .ok r → r.events ≠ [] →
    StoredAndMarked lowercase cfg st a (mine lowercase cfg st a).2 r

def step (st : State) (a : Attempt) : State := (mine lowercase cfg st a).2

def AddsEvents (st : State) (a : Attempt) : Prop :=
  ∃ p ∈ (step lowercase cfg st a).db.events.rows, st.db.events.has p.1 = false

def OncePerSession (st : State) (attempts : List Attempt) : Prop :=
  ∀ before a between b after, attempts = before ++ a :: (between ++ b :: after) → a.sessionId = b.sessionId →
    AddsEvents lowercase cfg (Trace.run (step lowercase cfg) st before) a →
      ¬ AddsEvents lowercase cfg (Trace.run (step lowercase cfg) st (before ++ a :: between)) b

/-! ## Attempts that are not cut short -/

def FailsAtStart (db : MemoryDb) (a : Attempt) (events : List MiningEvent) (lists : List (List MiningEntity)) : Prop :=
  a.writeRefusals 0 ≠ none ∨ ∃ event id, events.head? = some event ∧ lists ≠ []
    ∧ event.reidentifiedEventId = some id ∧ db.events.has id = false

/-- Nothing fails from the first write to the mark, every new event has a list of entities,
    and the events and entities that are referred to exist. -/
structure WritesWhole (db : MemoryDb) (a : Attempt) (events : List MiningEvent)
    (lists : List (List MiningEntity)) : Prop where
  unrefused : ∀ n, a.writeRefusals n = none
  marked : a.markFailure = none
  paired : ∀ (i : Nat) event, events[i]? = some event → event.isNew = true → i < lists.length
  reidentified : ∀ p ∈ events.zip lists, ∀ id, p.1.reidentifiedEventId = some id → db.events.has id = true
  existing : ∀ list ∈ lists, KnownEntities db list

/-- Nothing fails before the first write, or with it. -/
structure Undisturbed (db : MemoryDb) (a : Attempt) : Prop where
  read : ∀ n, a.readRefusals n = none
  extracts : ∃ events, a.extracted = .ok events
  assigns : ∃ lists, a.assigned = .ok lists
  matched : ∀ n, a.matchRefusals n = none
  starts : ∀ events lists, a.extracted = .ok events → a.assigned = .ok lists →
    ¬ FailsAtStart db a (events.take cfg.maxEventsPerSession) lists

structure Careful (st : State) (a : Attempt) : Prop where
  current : ∀ mined, a.preloaded = some mined → st.checkpoints.lookup a.sessionId = some mined
  prepared : st.db.schema = .ready ∨ Undisturbed cfg st.db a
  whole : ∀ events lists, a.extracted = .ok events → a.assigned = .ok lists →
    FailsAtStart st.db a (events.take cfg.maxEventsPerSession) lists
      ∨ WritesWhole st.db a (events.take cfg.maxEventsPerSession) lists

/-! ## How an attempt ends -/

def Stopped (st : State) (a : Attempt) (out : Except MinerError MineResult × State) : Prop :=
  ∃ e db, out = (.error e, { st with db := db }) ∧ Prepares st.db db ∧ ¬ Undisturbed cfg st.db a

def Done (st : State) (a : Attempt) (out : Except MinerError MineResult × State) : Prop :=
  ∃ events lists db entities, a.assigned = .ok lists ∧ entities = settledEntities lowercase st a lists
    ∧ out = (.ok ⟨events, entities.map fun list => list.map (·.name)⟩, ⟨db, markMined st.checkpoints a.sessionId⟩)
    ∧ Written lowercase (a.writeConfig cfg) st.db db events entities
    ∧ ∀ (i : Nat) event, events[i]? = some event → event.isNew = true → i < lists.length

variable {lowercase cfg}

theorem sqliteErrors_quiet {refusals : Nat → Option String} (h : ∀ n, refusals n = none) :
    sqliteErrors refusals = quiet := by
  funext n
  rw [sqliteErrors, h n]
  rfl

variable (agentId : String) (db : MemoryDb)

theorem initSchema_succeeds : Succeeds initSchema db fun _ _ => True :=
  bind (succeeds_statement rfl (bind (succeeds_statement rfl
    (succeeds_statement rfl trivial))))

theorem loadExisting_succeeds :
    Succeeds (loadExistingEntitiesForAgent agentId) db fun _ _ => True :=
  bind ((initSchema_succeeds db).mono fun _ _ _ => succeeds_statement rfl trivial)

theorem readDbData_succeeds : Succeeds (readDbData agentId) db fun _ _ => True := by
  refine bind ((initSchema_succeeds db).mono fun _ _ _ => ?_)
  refine bind (succeeds_statement rfl ?_)
  refine bind (succeeds_statement rfl ?_)
  refine bind (succeeds_statement rfl ?_)
  exact bind (succeeds_statement rfl (succeeds_statement rfl trivial))

variable {st : State} {a : Attempt} {events : List MiningEvent} {entities : List (List MiningEntity)}

theorem writeAndMark_failsAtStart (h : FailsAtStart st.db a events entities) :
    ∃ e, writeAndMark lowercase cfg a events entities st = (.error e, st) := by
  have hstops : StopsAt (writeToSqlite lowercase (a.writeConfig cfg) events entities) (sqliteErrors a.writeRefusals) 0
      st.db := by
    refine writeToSqlite_stopsAt (h.imp_left fun hrefused => ?_)
    simpa [sqliteErrors] using hrefused
  obtain ⟨e, he⟩ := hstops
  refine ⟨e, ?_⟩
  simp only [writeAndMark, he]

theorem writeAndMark_whole (hunrefused : ∀ n, a.writeRefusals n = none) (hmarked : a.markFailure = none)
    (hreid : ∀ p ∈ events.zip entities, ∀ id, p.1.reidentifiedEventId = some id → st.db.events.has id = true)
    (hknown : ∀ list ∈ entities, KnownEntities st.db list) :
    ∃ db, writeAndMark lowercase cfg a events entities st
        = (.ok ⟨events, entities.map fun list => list.map (·.name)⟩, ⟨db, markMined st.checkpoints a.sessionId⟩)
      ∧ Written lowercase (a.writeConfig cfg) st.db db events entities := by
  obtain ⟨u, hok, hwritten⟩ := writeToSqlite_succeeds hreid hknown 0
  refine ⟨_, ?_, hwritten⟩
  simp only [writeAndMark, sqliteErrors_quiet hunrefused, hok, hmarked]

theorem Written.of_prepares {wcfg : WriteConfig} {db db₁ db' : MemoryDb}
    (h : Written lowercase wcfg db₁ db' events entities) (hprep : Prepares db db₁) :
    Written lowercase wcfg db db' events entities := by
  refine ⟨?_, h.session⟩
  rw [← hprep.events]
  exact h.kept

theorem length_settledEntities (st : State) (a : Attempt) (lists : List (List MiningEntity)) :
    (settledEntities lowercase st a lists).length = lists.length := by
  rw [settledEntities, settleEntities, length_map]

variable {lists : List (List MiningEntity)}

theorem FailsAtStart.settled {db : MemoryDb} (h : FailsAtStart st.db a events lists) (hprep : Prepares st.db db) :
    FailsAtStart db a events (settledEntities lowercase st a lists) := by
  refine h.imp_right fun hunknown => ?_
  obtain ⟨event, id, hhead, hlists, hid, hmissing⟩ := hunknown
  refine ⟨event, id, hhead, ?_, hid, by rw [hprep.events]; exact hmissing⟩
  rw [← length_pos_iff, length_settledEntities]
  exact length_pos_iff.mpr hlists

theorem mem_zip_settled {p : MiningEvent × List MiningEntity}
    (h : p ∈ events.zip (settledEntities lowercase st a lists)) : ∃ list, (p.1, list) ∈ events.zip lists := by
  obtain ⟨i, hi⟩ := List.mem_iff_getElem?.mp h
  obtain ⟨hevent, hlist⟩ := List.getElem?_zip_eq_some.mp hi
  have hlength : i < lists.length := by
    rw [← length_settledEntities st a lists]
    exact (List.getElem?_eq_some_iff.mp hlist).1
  exact ⟨lists[i], List.mem_of_getElem? (List.getElem?_zip_eq_some.mpr ⟨hevent, List.getElem?_eq_getElem hlength⟩)⟩

theorem writeAndMark_done {db : MemoryDb} (hassigned : a.assigned = .ok lists)
    (hprep : Prepares st.db db) (h : WritesWhole st.db a events lists) :
    Done lowercase cfg st a
      (writeAndMark lowercase cfg a events (settledEntities lowercase st a lists) { st with db := db }) := by
  have hreid : ∀ p ∈ events.zip (settledEntities lowercase st a lists), ∀ id, p.1.reidentifiedEventId = some id →
      ({ st with db := db } : State).db.events.has id = true := by
    intro p hp id hid
    obtain ⟨list, hlist⟩ := mem_zip_settled hp
    rw [hprep.events]
    exact h.reidentified (p.1, list) hlist id hid
  have hknown : ∀ list ∈ settledEntities lowercase st a lists,
      KnownEntities ({ st with db := db } : State).db list := by
    intro list hlist entity hentity id hid
    rw [hprep.entities]
    exact settleEntities_known h.existing list hlist entity hentity id hid
  obtain ⟨db', hout, hwritten⟩ := writeAndMark_whole h.unrefused h.marked hreid hknown
  exact ⟨events, lists, db', _, hassigned, rfl, hout, hwritten.of_prepares hprep, h.paired⟩

theorem assignAndWrite_ends {db : MemoryDb} (hcareful : Careful cfg st a)
    (hprep : Prepares st.db db) (hextracted : a.extracted = .ok events) :
    Stopped cfg st a (assignAndWrite lowercase cfg a (ofAgent a.agentId st.db) (events.take cfg.maxEventsPerSession)
        { st with db := db }) ∨ Done lowercase cfg st a (assignAndWrite lowercase cfg a (ofAgent a.agentId st.db)
        (events.take cfg.maxEventsPerSession) { st with db := db }) := by
  unfold assignAndWrite
  cases hassigned : a.assigned with
  | error e =>
    refine .inl ⟨.llm e, db, rfl, hprep, fun h => ?_⟩
    obtain ⟨lists, hlists⟩ := h.assigns
    rw [hassigned] at hlists
    cases hlists
  | ok lists =>
    have hprep' := hprep.trans (within_loadExisting a.agentId (sqliteErrors a.matchRefusals) 0 db)
    cases hload : (loadExistingEntitiesForAgent a.agentId (sqliteErrors a.matchRefusals) 0 db).outcome with
    | error e =>
      refine .inl ⟨e, _, by simp only [hload], hprep', fun h => ?_⟩
      obtain ⟨rows, hrows, -⟩ := loadExisting_succeeds a.agentId db 0
      rw [sqliteErrors_quiet h.matched, hrows] at hload
      cases hload
    | ok existing =>
      have hexisting : existing = ofAgent a.agentId st.db :=
        IsOfAgent.of_prepares hprep (returns_loadExisting a.agentId _ 0 db existing hload)
      obtain rfl := hexisting
      simp only [hload]
      generalize (loadExistingEntitiesForAgent a.agentId (sqliteErrors a.matchRefusals) 0 db).store = db' at hprep'
      rcases hcareful.whole events lists hextracted hassigned with hfails | hwhole
      · have hstart : FailsAtStart ({ st with db := db' } : State).db a (events.take cfg.maxEventsPerSession)
            (settledEntities lowercase st a lists) := hfails.settled hprep'
        obtain ⟨e, he⟩ := writeAndMark_failsAtStart hstart
        refine .inl ⟨e, db', he, hprep', fun h => ?_⟩
        exact h.starts events lists hextracted hassigned hfails
      · exact .inr (writeAndMark_done hassigned hprep' hwhole)

theorem mineSessionInner_ends (hcareful : Careful cfg st a) : mineSessionInner lowercase cfg a st = (.ok .nothing, st)
      ∨ Stopped cfg st a (mineSessionInner lowercase cfg a st)
      ∨ Done lowercase cfg st a (mineSessionInner lowercase cfg a st) := by
  unfold mineSessionInner
  split
  · exact .inl rfl
  · refine .inr ?_
    have hprep := within_readDbData a.agentId (sqliteErrors a.readRefusals) 0 st.db
    cases hread : (readDbData a.agentId (sqliteErrors a.readRefusals) 0 st.db).outcome with
    | error e =>
      refine .inl ⟨e, _, by simp only [hread], hprep, fun h => ?_⟩
      obtain ⟨rows, hrows, -⟩ := readDbData_succeeds a.agentId st.db 0
      rw [sqliteErrors_quiet h.read, hrows] at hread
      cases hread
    | ok byType =>
      have hbyType : byType = ofAgent a.agentId st.db := returns_readDbData a.agentId _ 0 st.db byType hread
      obtain rfl := hbyType
      cases hextracted : a.extracted with
      | error e =>
        refine .inl ⟨.llm e, _, by simp only [hread], hprep, fun h => ?_⟩
        obtain ⟨events, hevents⟩ := h.extracts
        rw [hextracted] at hevents
        cases hevents
      | ok =>
        simp only [hread]
        exact assignAndWrite_ends hcareful hprep hextracted

theorem mine_ends (lowercase : String → String) (hcareful : Careful cfg st a) :
    (mine lowercase cfg st a = (.ok .nothing, st) ∨ ∃ e, mine lowercase cfg st a = (.error e, st))
      ∨ Stopped cfg st a (mine lowercase cfg st a)
      ∨ Done lowercase cfg st a (mine lowercase cfg st a) ∧ st.checkpoints.lookup a.sessionId = some false := by
  have hunmined : ∀ mined, st.checkpoints.lookup a.sessionId = some mined →
      mineUnmined lowercase cfg a mined st = (.ok .nothing, st)
        ∨ Stopped cfg st a (mineUnmined lowercase cfg a mined st)
        ∨ Done lowercase cfg st a (mineUnmined lowercase cfg a mined st)
          ∧ st.checkpoints.lookup a.sessionId = some false := by
    intro mined hlookup
    cases mined with
    | true => exact .inl rfl
    | false =>
      rcases mineSessionInner_ends hcareful with h | h | h
      · exact .inl h
      · exact .inr (.inl h)
      · exact .inr (.inr ⟨h, hlookup⟩)
  unfold mine
  split
  · cases hpreloaded : a.preloaded with
    | some mined => exact (hunmined mined (hcareful.current mined hpreloaded)).imp_left .inl
    | none =>
      unfold mineSession
      cases a.loadFailure with
      | some => exact .inl (.inr ⟨_, rfl⟩)
      | none =>
        cases hlookup : st.checkpoints.lookup a.sessionId with
        | none => exact .inl (.inr ⟨_, rfl⟩)
        | some mined =>
          rw [hlookup] at hunmined
          exact (hunmined mined rfl).imp_left .inl
  · exact .inl (.inl rfl)

/-! ## One attempt -/

variable {sessionId : String}

theorem markMined_self {checkpoints : AList fun _ : String => Bool}
    (h : (checkpoints.lookup sessionId).isSome = true) :
    (markMined checkpoints sessionId).lookup sessionId = some true := by
  rw [markMined, if_pos h]
  exact AList.lookup_insert _

theorem markMined_keeps {checkpoints : AList fun _ : String => Bool} {other : String}
    (h : checkpoints.lookup other = some true) : (markMined checkpoints sessionId).lookup other = some true := by
  unfold markMined
  split
  · by_cases heq : other = sessionId
    · rw [heq]
      exact AList.lookup_insert _
    · rw [AList.lookup_insert_ne heq]
      exact h
  · exact h

theorem Careful.allOrNothing (h : Careful cfg st a) : AllOrNothing lowercase cfg st a := by
  rcases mine_ends lowercase h with (hout | ⟨e, hout⟩) | ⟨e, db, hout, hprep, hdisturbed⟩ | ⟨hdone, hlookup⟩
  · constructor
    · intro e he
      rw [hout]
    · intro r hr hne
      rw [hout] at hr
      exact absurd (congrArg MineResult.events (Except.ok.inj hr)).symm hne
  · constructor
    · intro e he
      rw [hout]
    · intro r hr
      rw [hout] at hr
      cases hr
  · constructor
    · intro e' he'
      rw [hout]
      exact hprep.eq (h.prepared.resolve_right hdisturbed)
    · intro r hr
      rw [hout] at hr
      cases hr
  · obtain ⟨events, lists, db, entities, hassigned, rfl, hout, hwritten, hpaired⟩ := hdone
    constructor
    · intro e he
      rw [hout] at he
      cases he
    · intro r hr _
      rw [hout] at hr ⊢
      obtain rfl := Except.ok.inj hr
      refine ⟨?_, hwritten.session, markMined_self (by rw [hlookup]; rfl)⟩
      intro i event hevent hnew
      have hi : i < (settledEntities lowercase st a lists).length := by
        rw [length_settledEntities]
        exact hpaired i event hevent hnew
      refine ⟨lists, (settledEntities lowercase st a lists)[i], hassigned, List.getElem?_eq_getElem hi, ?_, ?_⟩
      · rw [List.getElem?_map, List.getElem?_eq_getElem hi]
        rfl
      · exact hwritten.kept i event _ hevent hnew (List.getElem?_eq_getElem hi)

theorem not_addsEvents (h : (step lowercase cfg st a).db.events = st.db.events) : ¬ AddsEvents lowercase cfg st a := by
  intro hadds
  obtain ⟨p, hp, hmissing⟩ := hadds
  rw [h] at hp
  have hhas : st.db.events.has p.1 = true := Table.has_iff.mpr ⟨p.2, hp⟩
  rw [hmissing] at hhas
  cases hhas

theorem Careful.done_of_addsEvents (h : Careful cfg st a) (hadds : AddsEvents lowercase cfg st a) :
    Done lowercase cfg st a (mine lowercase cfg st a) ∧ st.checkpoints.lookup a.sessionId = some false := by
  rcases mine_ends lowercase h with (hout | ⟨e, hout⟩) | ⟨e, db, hout, hprep, -⟩ | hdone
  · exact absurd hadds (not_addsEvents (by rw [step, hout]))
  · exact absurd hadds (not_addsEvents (by rw [step, hout]))
  · exact absurd hadds (not_addsEvents (by rw [step, hout]; exact hprep.events))
  · exact hdone

theorem Careful.keeps_mined (h : Careful cfg st a) (hmined : st.checkpoints.lookup sessionId = some true) :
    (step lowercase cfg st a).checkpoints.lookup sessionId = some true := by
  rcases mine_ends lowercase h with (hout | ⟨e, hout⟩) | ⟨e, db, hout, -, -⟩ | ⟨hdone, -⟩
  · rw [step, hout]
    exact hmined
  · rw [step, hout]
    exact hmined
  · rw [step, hout]
    exact hmined
  · obtain ⟨events, lists, db, entities, -, -, hout, -, -⟩ := hdone
    rw [step, hout]
    exact markMined_keeps hmined

theorem Careful.marks (h : Careful cfg st a) (hadds : AddsEvents lowercase cfg st a) :
    (step lowercase cfg st a).checkpoints.lookup a.sessionId = some true := by
  obtain ⟨⟨events, lists, db, entities, -, -, hout, -, -⟩, hlookup⟩ := h.done_of_addsEvents hadds
  rw [step, hout]
  exact markMined_self (by rw [hlookup]; rfl)

/-! ## Runs -/

variable (lowercase cfg)

theorem mining_run_all_or_nothing (st : State) (attempts : List Attempt)
    (h : Trace.Along (step lowercase cfg) (Careful cfg) st attempts) :
    Trace.Along (step lowercase cfg) (AllOrNothing lowercase cfg) st attempts
      ∧ OncePerSession lowercase cfg st attempts := by
  refine ⟨h.mono fun _ _ hcareful => hcareful.allOrNothing, ?_⟩
  intro before a between b after hattempts hsession hadds hagain
  rw [hattempts, Trace.along_append] at h
  obtain ⟨-, ha, hrest⟩ := h
  rw [Trace.along_append] at hrest
  obtain ⟨hbetween, hb, -⟩ := hrest
  rw [Trace.run_append, Trace.run_cons] at hagain
  -- the mark of the first attempt is still there at the second
  have hmined := Trace.invariant_along (I := fun st => st.checkpoints.lookup a.sessionId = some true)
    (fun _ _ hmined hcareful => hcareful.keeps_mined hmined) (ha.marks hadds) hbetween
  have hunmined := (hb.done_of_addsEvents hagain).2
  rw [← hsession, hmined] at hunmined
  cases hunmined

def exampleConfig : MinerConfig := ⟨true, 10, 90, 90⟩

def lessonLearned (title : String) : MiningEvent := ⟨title, "", "", .error, none, none⟩

def archived (schema : Schema) : State :=
  ⟨⟨schema, .empty, .empty, .empty, ∅⟩, AList.insert "s1" false ∅⟩

def plainAttempt : Attempt where
  sessionId := "s1"
  agentId := "a1"
  cleaned := "user: hello"
  preloaded := none
  loadFailure := none
  readRefusals := fun _ => none
  extracted := .ok [lessonLearned "timeout"]
  assigned := .ok [[⟨"tool", "database", "", none⟩]]
  nearest := fun _ _ => none
  matchRefusals := fun _ => none
  writeRefusals := fun _ => none
  now := 0
  markFailure := none

theorem careful_plainAttempt (st : State) : Careful exampleConfig st plainAttempt where
  current := fun mined h => by cases h
  prepared := by
    refine .inr ⟨fun _ => rfl, ⟨_, rfl⟩, ⟨_, rfl⟩, fun _ => rfl, ?_⟩
    intro events lists hevents _ hfails
    obtain rfl := Except.ok.inj hevents
    rcases hfails with hrefused | ⟨event, id, hhead, -, hid, -⟩
    · exact hrefused rfl
    · obtain rfl := Option.some.inj hhead
      cases hid
  whole := by
    intro events lists hevents hlists
    obtain rfl := Except.ok.inj hevents
    obtain rfl := Except.ok.inj hlists
    refine .inr ⟨fun _ => rfl, rfl, ?_, ?_, ?_⟩
    · intro i event hevent _
      exact (List.getElem?_eq_some_iff.mp hevent).1
    · intro p hp id hid
      obtain rfl := mem_singleton.mp hp
      cases hid
    · intro list hlist entity hentity id hid
      obtain rfl := mem_singleton.mp hlist
      obtain rfl := mem_singleton.mp hentity
      cases hid

theorem mining_run_all_or_nothing_twice : (Trace.run (step id exampleConfig) (archived ⟨false, false, false⟩)
        [plainAttempt, plainAttempt]).db.events.rows.length = 1
      ∧ Trace.Along (step id exampleConfig) (AllOrNothing id exampleConfig) (archived ⟨false, false, false⟩)
        [plainAttempt, plainAttempt]
      ∧ OncePerSession id exampleConfig (archived ⟨false, false, false⟩) [plainAttempt, plainAttempt] :=
  ⟨by decide +kernel, mining_run_all_or_nothing id exampleConfig _ _
    ⟨careful_plainAttempt _, careful_plainAttempt _, trivial⟩⟩

def refusedAttempt : Attempt :=
  { plainAttempt with
    extracted := .ok [lessonLearned "timeout", lessonLearned "retry"]
    assigned := .ok [[], []]
    writeRefusals := fun n => if n = 1 then some "database is locked" else none }

def shortAttempt : Attempt :=
  { plainAttempt with extracted := .ok [lessonLearned "timeout", lessonLearned "retry"] }

def unmarkedAttempt : Attempt := { plainAttempt with markFailure := some (.backend "disk full") }

theorem an_attempt_leaves_half_its_events : ¬ AllOrNothing id exampleConfig (archived .ready) refusedAttempt
      ∧ ¬ AllOrNothing id exampleConfig (archived .ready) shortAttempt
      ∧ ¬ AllOrNothing id exampleConfig (archived .ready) unmarkedAttempt
      ∧ ¬ OncePerSession id exampleConfig (archived .ready) [unmarkedAttempt, plainAttempt] := by
  refine ⟨?_, ?_, ?_, ?_⟩
  · intro h
    have hdb := h.nothing (.sqlite "database is locked") (by decide +kernel)
    have hrows := congrArg (fun db : MemoryDb => db.events.rows.length) hdb
    exact absurd hrows (by decide +kernel)
  · intro h
    have hstored := h.all ⟨[lessonLearned "timeout", lessonLearned "retry"], [["database"]]⟩ (by decide +kernel)
      (cons_ne_nil _ _)
    obtain ⟨lists, list, hlists, hlist, -, -⟩ := hstored.stored 1 (lessonLearned "retry") rfl rfl
    obtain rfl := Except.ok.inj hlists
    cases hlist
  · intro h
    have hdb := h.nothing (.storage (.backend "disk full")) (by decide +kernel)
    have hrows := congrArg (fun db : MemoryDb => db.events.rows.length) hdb
    exact absurd hrows (by decide +kernel)
  · intro h
    refine h [] unmarkedAttempt [] plainAttempt [] rfl rfl ?_ ?_
    · exact ⟨(1, newEventRow (plainAttempt.writeConfig exampleConfig) (lessonLearned "timeout")),
        by decide +kernel, by decide +kernel⟩
    · exact ⟨(2, newEventRow (plainAttempt.writeConfig exampleConfig) (lessonLearned "timeout")),
        by decide +kernel, by decide +kernel⟩

end CloseClaw.Memory.Miner
