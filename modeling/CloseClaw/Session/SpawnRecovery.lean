/- The recovery of the stored sessions and of the spawn tree (`session/src/recovery.rs`). -/

import CloseClaw.Session.Startup

namespace CloseClaw.Session

open Lib List

structure SpawnFields (Rest : Type) where
  parentSessionId : Option String
  depth : Nat
  effectiveMaxSpawnDepth : Option Nat
  other : Rest

abbrev TreeCheckpoint (Msg Rest : Type) := SessionCheckpoint Msg (SpawnFields Rest)

variable {Msg Rest S : Type}

namespace TreeCheckpoint

def parent (c : TreeCheckpoint Msg Rest) : Option String := c.rest.parentSessionId

def depth (c : TreeCheckpoint Msg Rest) : Nat := c.rest.depth

def demote (c : TreeCheckpoint Msg Rest) : TreeCheckpoint Msg Rest :=
  { c with rest := { c.rest with depth := 0, effectiveMaxSpawnDepth := none } }

@[simp] theorem demote_demote (c : TreeCheckpoint Msg Rest) : c.demote.demote = c.demote := rfl

end TreeCheckpoint

/-! ## The tree -/

structure RecoveredTree where
  children : String → List String
  roots : List String

structure TreeBuild (Msg Rest : Type) where
  tree : RecoveredTree
  demoted : List String
  checkpoints : String → Option (TreeCheckpoint Msg Rest)

open TreeCheckpoint

namespace TreeBuild

def addChild (b : TreeBuild Msg Rest) (p id : String) : TreeBuild Msg Rest :=
  { b with tree := { b.tree with children := fun q => if q = p then b.tree.children q ++ [id] else b.tree.children q } }

def addRoot (b : TreeBuild Msg Rest) (id : String) : TreeBuild Msg Rest :=
  { b with tree := { b.tree with roots := b.tree.roots ++ [id] } }

def demote (b : TreeBuild Msg Rest) (id : String) : TreeBuild Msg Rest :=
  { b with
    demoted := b.demoted ++ [id]
    checkpoints := fun i => if i = id then (b.checkpoints i).map TreeCheckpoint.demote else b.checkpoints i }

def place (recovered : List String) (b : TreeBuild Msg Rest) (id : String) : TreeBuild Msg Rest :=
  match b.checkpoints id with
  | none => b
  | some c =>
    match c.parent with
    | some p => if p ∈ recovered then b.addChild p id else (b.demote id).addRoot id
    | none => b.addRoot id

end TreeBuild

def buildSpawnTree (checkpoints : String → Option (TreeCheckpoint Msg Rest)) (recovered : List String) :
    TreeBuild Msg Rest :=
  recovered.foldl (TreeBuild.place recovered) ⟨⟨fun _ => [], []⟩, [], checkpoints⟩

/-! ### Where a session is placed -/

def linkedParent (recovered : List String) (checkpoints : String → Option (TreeCheckpoint Msg Rest)) (id : String) :
    Option String :=
  ((checkpoints id).bind parent).filter (· ∈ recovered)

def isDemoted (recovered : List String) (c : TreeCheckpoint Msg Rest) : Bool :=
  c.parent.any fun p => decide (p ∉ recovered)

def settled (recovered : List String) (c : TreeCheckpoint Msg Rest) : TreeCheckpoint Msg Rest :=
  if isDemoted recovered c then c.demote else c

theorem parent_settled (recovered : List String) (c : TreeCheckpoint Msg Rest) :
    (settled recovered c).parent = c.parent := by
  unfold settled
  split <;> rfl

theorem settled_settled (recovered : List String) (c : TreeCheckpoint Msg Rest) :
    settled recovered (settled recovered c) = settled recovered c := by
  by_cases h : isDemoted recovered c = true
  · have h' : isDemoted recovered c.demote = true := h
    simp [settled, h, h']
  · simp [settled, h]

namespace TreeBuild

variable {recovered : List String} {b : TreeBuild Msg Rest} {id : String}

theorem roots_place : (place recovered b id).tree.roots = b.tree.roots ++
    if (b.checkpoints id).isSome ∧ linkedParent recovered b.checkpoints id = none then [id] else [] := by
  unfold place linkedParent
  cases b.checkpoints id with
  | none => simp
  | some c =>
    cases hp : c.parent with
    | none => simp [hp, addRoot]
    | some p => by_cases hmem : p ∈ recovered <;> simp [hp, hmem, addChild, addRoot, demote]

theorem children_place (q : String) : (place recovered b id).tree.children q = b.tree.children q ++
    if linkedParent recovered b.checkpoints id = some q then [id] else [] := by
  unfold place linkedParent
  cases b.checkpoints id with
  | none => simp
  | some c =>
    cases hp : c.parent with
    | none => simp [hp, addRoot]
    | some p =>
      by_cases hmem : p ∈ recovered
      · by_cases hq : q = p
        · simp [hp, hmem, addChild, hq]
        · simp [hp, hmem, addChild, hq, Ne.symm hq]
      · have hne : p = q → q ∉ recovered := by
          rintro rfl
          exact hmem
        simpa [hp, hmem, addRoot, demote] using hne

theorem checkpoints_place (i : String) : (place recovered b id).checkpoints i =
    if i = id then (b.checkpoints i).map (settled recovered) else b.checkpoints i := by
  unfold place
  by_cases hi : i = id <;> cases hc : b.checkpoints id with
  | none => simp [hi, hc]
  | some c =>
    cases hp : c.parent with
    | none => simp [hi, hc, hp, addRoot, settled, isDemoted]
    | some p => by_cases hmem : p ∈ recovered <;> simp [hi, hc, hp, hmem, addChild, addRoot, demote, settled, isDemoted]

theorem linkedParent_place (i : String) :
    linkedParent recovered (place recovered b id).checkpoints i = linkedParent recovered b.checkpoints i := by
  unfold linkedParent
  rw [checkpoints_place]
  split
  · cases b.checkpoints i with
    | none => rfl
    | some => simp [parent_settled]
  · rfl

theorem isSome_place (i : String) : ((place recovered b id).checkpoints i).isSome = (b.checkpoints i).isSome := by
  rw [checkpoints_place]
  split <;> simp

variable (recovered b)

variable (l : List String)

theorem roots_foldl : (l.foldl (place recovered) b).tree.roots = b.tree.roots ++
    l.filter fun i => (b.checkpoints i).isSome ∧ linkedParent recovered b.checkpoints i = none := by
  induction l generalizing b with
  | nil => simp
  | cons id l ih =>
    rw [foldl_cons, ih, roots_place, append_assoc]
    simp only [linkedParent_place, isSome_place, filter_cons]
    congr 1
    split <;> simp_all

theorem children_foldl (q : String) : (l.foldl (place recovered) b).tree.children q =
    b.tree.children q ++ l.filter fun i => linkedParent recovered b.checkpoints i = some q := by
  induction l generalizing b with
  | nil => simp
  | cons id l ih =>
    rw [foldl_cons, ih, children_place, append_assoc]
    simp only [linkedParent_place, filter_cons]
    congr 1
    split <;> simp_all

theorem checkpoints_foldl (i : String) : (l.foldl (place recovered) b).checkpoints i =
    if i ∈ l then (b.checkpoints i).map (settled recovered) else b.checkpoints i := by
  induction l generalizing b with
  | nil => simp
  | cons id l ih =>
    rw [foldl_cons, ih, checkpoints_place]
    by_cases hi : i = id
    · subst hi
      by_cases hl : i ∈ l
      · simp [hl, Function.comp_def, settled_settled]
      · simp [hl]
    · by_cases hl : i ∈ l <;> simp [hi, hl]

end TreeBuild

/-! ## The recovery scan -/

structure PersistenceService (S Msg Rest : Type) where
  isActive : S → Bool
  isArchived : S → Bool
  isMigrating : S → Bool
  loadCheckpoint : String → S → Except PersistenceError (Option (TreeCheckpoint Msg Rest))
  loadArchivedCheckpoint : String → S → Except PersistenceError (Option (TreeCheckpoint Msg Rest))
  restoreCheckpoint : String → S → Except PersistenceError Unit × S
  archiveCheckpoint : TreeCheckpoint Msg Rest → S → Except PersistenceError Unit × S
  saveCheckpoint : TreeCheckpoint Msg Rest → S → S

structure SessionStore (S : Type) where
  ids : List String
  nodup : ids.Nodup
  slot : String → S

def SessionStore.set (d : SessionStore S) (id : String) (s : S) : SessionStore S :=
  { d with slot := fun i => if i = id then s else d.slot i }

def SessionStore.list (d : SessionStore S) (listed : S → Bool) :
    List String := d.ids.filter fun id => listed (d.slot id)

theorem SessionStore.nodup_list (d : SessionStore S) (listed : S → Bool) : (d.list listed).Nodup := d.nodup.filter _

abbrev RestoreFn (Msg Rest : Type) := String → TreeCheckpoint Msg Rest → Except PersistenceError Unit

structure Attempt (S Msg Rest : Type) where
  slot : S
  recovered : Option (TreeCheckpoint Msg Rest)
  failed : Bool
  migrated : Bool

namespace PersistenceService

variable (P : PersistenceService S Msg Rest)

def attemptActive (restoreFn : RestoreFn Msg Rest) (id : String) (s : S) : Attempt S Msg Rest :=
  match P.loadCheckpoint id s with
  | .ok (some c) =>
    match restoreFn id c with
    | .ok () => ⟨s, some c, false, false⟩
    | .error _ => ⟨s, none, true, false⟩
  | _ => ⟨s, none, true, false⟩

def restoreDirty (id : String) (s : S) : Attempt S Msg Rest :=
  match P.restoreCheckpoint id s with
  | (.error _, s) => ⟨s, none, true, false⟩
  | (.ok (), s) =>
    match P.loadCheckpoint id s with
    | .ok (some c) => ⟨s, some c, false, false⟩
    | _ => ⟨s, none, true, false⟩

def attemptArchived (id : String) (s : S) : Attempt S Msg Rest :=
  match P.loadArchivedCheckpoint id s with
  | .ok (some c) => if c.pendingOperations.isEmpty then ⟨s, none, false, false⟩ else P.restoreDirty id s
  | _ => ⟨s, none, true, false⟩

def attemptMigrating (id : String) (s : S) : Attempt S Msg Rest :=
  match P.loadCheckpoint id s with
  | .ok (some c) =>
    if c.pendingOperations.isEmpty then
      match P.archiveCheckpoint c s with
      | (.error _, s) => ⟨s, none, true, false⟩
      | (.ok (), s) => ⟨s, none, false, false⟩
    else
      let a := P.restoreDirty id s
      { a with recovered := a.recovered.map fun c => { c with status := .active }, migrated := a.recovered.isSome }
  | _ => ⟨s, none, true, false⟩

end PersistenceService

structure RecoveryScan (S Msg Rest : Type) where
  store : SessionStore S
  recovered : List String
  failed : List String
  migrated : List String
  checkpoints : String → Option (TreeCheckpoint Msg Rest)

namespace RecoveryScan

def record (r : RecoveryScan S Msg Rest) (id : String) (a : Attempt S Msg Rest) : RecoveryScan S Msg Rest where
  store := r.store.set id a.slot
  recovered := if a.recovered.isSome then r.recovered ++ [id] else r.recovered
  failed := if a.failed then r.failed ++ [id] else r.failed
  migrated := if a.migrated then r.migrated ++ [id] else r.migrated
  checkpoints := fun i => if i = id then a.recovered.or (r.checkpoints i) else r.checkpoints i

def start (d : SessionStore S) : RecoveryScan S Msg Rest := ⟨d, [], [], [], fun _ => none⟩

def scanActive (attempt : String → S → Attempt S Msg Rest) (r : RecoveryScan S Msg Rest) (id : String) :
    RecoveryScan S Msg Rest :=
  r.record id (attempt id (r.store.slot id))

def scan (attempt : String → S → Attempt S Msg Rest) (r : RecoveryScan S Msg Rest) (id : String) :
    RecoveryScan S Msg Rest :=
  if id ∈ r.recovered then r else r.record id (attempt id (r.store.slot id))

def pass (listed : S → Bool) (attempt : String → S → Attempt S Msg Rest) (r : RecoveryScan S Msg Rest) :
    RecoveryScan S Msg Rest :=
  (r.store.list listed).foldl (scan attempt) r

end RecoveryScan

open RecoveryScan

def collectSessions (P : PersistenceService S Msg Rest) (restoreFn : RestoreFn Msg Rest) (d : SessionStore S) :
    RecoveryScan S Msg Rest :=
  let r := (d.list P.isActive).foldl (scanActive (P.attemptActive restoreFn)) (start d)
  (r.pass P.isArchived P.attemptArchived).pass P.isMigrating P.attemptMigrating

structure RecoveryReport where
  recovered : List String
  failed : List String
  spawnTree : RecoveredTree
  dirtySessions : List String
  migratedSessions : List String

structure RecoveryResult (S Msg Rest : Type) where
  report : RecoveryReport
  checkpoints : String → Option (TreeCheckpoint Msg Rest)
  store : SessionStore S

abbrev Injection (Msg Rest : Type) := String → TreeCheckpoint Msg Rest → Rest

def Injection.apply (inject : Injection Msg Rest) (id : String) (c : TreeCheckpoint Msg Rest) :
    TreeCheckpoint Msg Rest :=
  { c with rest := { c.rest with other := inject id c } }

def saveAll (P : PersistenceService S Msg Rest) (checkpoints : String → Option (TreeCheckpoint Msg Rest))
    (ids : List String) (d : SessionStore S) : SessionStore S :=
  ids.foldl (fun d id => match checkpoints id with
    | some c => d.set id (P.saveCheckpoint c (d.slot id))
    | none => d) d

def recoverSessions (P : PersistenceService S Msg Rest) (restoreFn : RestoreFn Msg Rest) (inject : Injection Msg Rest)
    (d : SessionStore S) : RecoveryResult S Msg Rest :=
  let r := collectSessions P restoreFn d
  let dirty := r.recovered.filter fun id => (r.checkpoints id).any fun c => !c.pendingOperations.isEmpty
  let injected := fun id => (r.checkpoints id).map (inject.apply id)
  let store := saveAll P injected r.recovered r.store
  let b := buildSpawnTree injected r.recovered
  ⟨⟨r.recovered, r.failed, b.tree, dirty, r.migrated⟩, b.checkpoints, saveAll P b.checkpoints b.demoted store⟩

/-! ### What one session comes to -/

namespace RecoveryScan

def stage (listed : S → Bool) (attempt : String → S → Attempt S Msg Rest) (id : String)
    (x : S × Bool × Option (TreeCheckpoint Msg Rest)) : S × Bool × Option (TreeCheckpoint Msg Rest) :=
  if x.2.1 || !listed x.1 then x
  else
    let a := attempt id x.1
    (a.slot, a.recovered.isSome, a.recovered.or x.2.2)

def view (r : RecoveryScan S Msg Rest) (id : String) : S × Bool × Option (TreeCheckpoint Msg Rest) :=
  (r.store.slot id, decide (id ∈ r.recovered), r.checkpoints id)

variable {attempt : String → S → Attempt S Msg Rest} {listed : S → Bool} {r : RecoveryScan S Msg Rest} {id : String}

theorem localStep_scan (attempt : String → S → Attempt S Msg Rest) :
    LocalStep view (fun id : String => id) (scan attempt) (stage (fun _ => true) attempt) where
  self r id := by
    unfold scan view stage
    by_cases h : id ∈ r.recovered
    · simp [h]
    · cases hc : (attempt id (r.store.slot id)).recovered <;> simp [h, record, SessionStore.set, hc]
  other r id j h := by
    unfold scan
    split
    · rfl
    · unfold view record SessionStore.set
      cases (attempt id (r.store.slot id)).recovered <;> simp [h]

theorem ids_pass (r : RecoveryScan S Msg Rest) : (r.pass listed attempt).store.ids = r.store.ids := by
  unfold pass
  generalize r.store.list listed = ids
  induction ids generalizing r with
  | nil => rfl
  | cons id ids ih =>
    rw [foldl_cons, ih]
    unfold scan
    split <;> rfl

theorem nodup_pass (h : r.recovered.Nodup) : (r.pass listed attempt).recovered.Nodup := by
  unfold pass
  generalize r.store.list listed = ids
  induction ids generalizing r with
  | nil => exact h
  | cons id ids ih =>
    refine ih ?_
    unfold scan
    by_cases hid : id ∈ r.recovered
    · simpa [hid] using h
    · simp only [hid, if_false, record]
      split
      · exact nodup_append.mpr ⟨h, nodup_singleton id, fun a ha b hb => by
          rintro rfl
          exact hid (mem_singleton.mp hb ▸ ha)⟩
      · exact h

theorem view_pass (listed : S → Bool) (r : RecoveryScan S Msg Rest) (id : String) :
    (r.pass listed attempt).view id = if id ∈ r.store.ids then stage listed attempt id (r.view id) else r.view id := by
  unfold pass
  have hnd : ((r.store.list listed).map fun id => id).Nodup := by simpa using r.store.nodup_list listed
  by_cases hmem : id ∈ r.store.list listed
  · rw [(localStep_scan attempt).foldl_of_mem hnd hmem]
    obtain ⟨hids, hl⟩ := mem_filter.mp hmem
    have hl' : listed (r.view id).1 = true := hl
    simp [hids, stage, hl']
  · rw [(localStep_scan attempt).foldl_of_not_mem (by simpa using hmem)]
    by_cases hids : id ∈ r.store.ids
    · have hl : listed (r.view id).1 = false := by
        cases hl : listed (r.view id).1 with
        | false => rfl
        | true => exact absurd (mem_filter.mpr ⟨hids, hl⟩) hmem
      simp [hids, stage, hl]
    · simp [hids]

theorem foldl_scanActive {ids : List String} (hnd : ids.Nodup) (hnew : ∀ id ∈ ids, id ∉ r.recovered) :
    ids.foldl (scanActive attempt) r = ids.foldl (scan attempt) r := by
  induction ids generalizing r with
  | nil => rfl
  | cons id ids ih =>
    obtain ⟨hid, hnd⟩ := nodup_cons.mp hnd
    have hstep : scanActive attempt r id = scan attempt r id := by
      simp [scan, scanActive, hnew id mem_cons_self]
    rw [foldl_cons, foldl_cons, hstep]
    refine ih hnd ?_
    intro j hj hjr
    have hne : j ≠ id := by
      rintro rfl
      exact hid hj
    have hview := congrArg (fun x => x.2.1) ((localStep_scan attempt).other r id j hne)
    have hold : j ∈ r.recovered := by simpa [view, hjr] using hview
    exact hnew j (mem_cons_of_mem _ hj) hold

theorem stage_isSome {x : S × Bool × Option (TreeCheckpoint Msg Rest)} (h : x.2.1 = x.2.2.isSome) :
    (stage listed attempt id x).2.1 = (stage listed attempt id x).2.2.isSome := by
  unfold stage
  split
  · exact h
  · next hx =>
    have hnone : x.2.2 = none := by
      cases hx2 : x.2.2 with
      | none => rfl
      | some => simp [h, hx2] at hx
    simp [hnone]

end RecoveryScan

def recoverOne (P : PersistenceService S Msg Rest) (restoreFn : RestoreFn Msg Rest) (id : String) (s : S) :
    Option (TreeCheckpoint Msg Rest) :=
  let x := stage P.isActive (P.attemptActive restoreFn) id (s, false, none)
  let x := stage P.isArchived P.attemptArchived id x
  (stage P.isMigrating P.attemptMigrating id x).2.2

def recoverable (P : PersistenceService S Msg Rest) (restoreFn : RestoreFn Msg Rest) (d : SessionStore S)
    (id : String) : Option (TreeCheckpoint Msg Rest) :=
  if id ∈ d.ids then recoverOne P restoreFn id (d.slot id) else none

section Collect

variable (P : PersistenceService S Msg Rest) (restoreFn : RestoreFn Msg Rest) (d : SessionStore S)

theorem collectSessions_eq : collectSessions P restoreFn d =
    (((start d).pass P.isActive (P.attemptActive restoreFn)).pass P.isArchived P.attemptArchived).pass
      P.isMigrating P.attemptMigrating := by
  unfold collectSessions
  rw [foldl_scanActive (d.nodup_list P.isActive) (fun _ _ h => by cases h)]
  rfl

theorem nodup_collect : (collectSessions P restoreFn d).recovered.Nodup := by
  rw [collectSessions_eq]
  exact nodup_pass (nodup_pass (nodup_pass nodup_nil))

theorem view_collect (id : String) : (collectSessions P restoreFn d).view id = if id ∈ d.ids then
    stage P.isMigrating P.attemptMigrating id (stage P.isArchived P.attemptArchived id
      (stage P.isActive (P.attemptActive restoreFn) id (d.slot id, false, none))) else (d.slot id, false, none) := by
  have hstart : (start d : RecoveryScan S Msg Rest).view id = (d.slot id, false, none) := rfl
  have hids : (start d : RecoveryScan S Msg Rest).store.ids = d.ids := rfl
  rw [collectSessions_eq]
  simp only [view_pass, ids_pass, hstart, hids]
  by_cases h : id ∈ d.ids <;> simp [h]

theorem checkpoints_collect : (collectSessions P restoreFn d).checkpoints = recoverable P restoreFn d := by
  funext id
  have hview := congrArg (fun x => x.2.2) (view_collect P restoreFn d id)
  have hc : ((collectSessions P restoreFn d).view id).2.2 = (collectSessions P restoreFn d).checkpoints id := rfl
  rw [← hc, hview, recoverable, recoverOne]
  split <;> rfl

theorem mem_collect_iff (id : String) :
    id ∈ (collectSessions P restoreFn d).recovered ↔ (recoverable P restoreFn d id).isSome := by
  have hflag :
      ((collectSessions P restoreFn d).view id).2.1 = ((collectSessions P restoreFn d).view id).2.2.isSome := by
    rw [view_collect]
    split
    · exact stage_isSome (stage_isSome (stage_isSome rfl))
    · rfl
  rw [← checkpoints_collect]
  have hdec : decide (id ∈ (collectSessions P restoreFn d).recovered) =
      ((collectSessions P restoreFn d).checkpoints id).isSome := hflag
  rw [← hdec, decide_eq_true_eq]

end Collect

/-! ## The rebuilt tree -/

def RecoveryResult.depth (res : RecoveryResult S Msg Rest) (id : String) : Option Nat :=
  (res.checkpoints id).map TreeCheckpoint.depth

structure RecoveryResult.WellFormed (res : RecoveryResult S Msg Rest) (isRecoverable : String → Prop) : Prop where
  nodup : res.report.recovered.Nodup
  all : ∀ id, id ∈ res.report.recovered ↔ isRecoverable id
  once : (res.report.spawnTree.roots ++ res.report.recovered.flatMap res.report.spawnTree.children).Perm
    res.report.recovered
  linked : ∀ p id, id ∈ res.report.spawnTree.children p →
    p ∈ res.report.recovered ∧ (res.checkpoints id).bind parent = some p
  root_depth : ∀ id ∈ res.report.recovered, (∀ p, id ∉ res.report.spawnTree.children p) → res.depth id = some 0
  child_depth : ∀ p id, id ∈ res.report.spawnTree.children p → res.depth id = (res.depth p).map (· + 1)

/-- The stored depths fit the tree that is rebuilt: 0 without a parent, and one more than a
    recoverable parent's, where a parent that is itself demoted counts as 0. -/
structure DepthsFit (stored : String → Option (TreeCheckpoint Msg Rest)) : Prop where
  root : ∀ id c, stored id = some c → c.parent = none → c.depth = 0
  child : ∀ id c p cp, stored id = some c → c.parent = some p → stored p = some cp →
    c.depth = (if cp.parent.any fun q => (stored q).isNone then 0 else cp.depth) + 1

section Tree

variable {P : PersistenceService S Msg Rest} {restoreFn : RestoreFn Msg Rest} {inject : Injection Msg Rest}
  {d : SessionStore S} {id p : String} {c : TreeCheckpoint Msg Rest}

theorem mem_recovered_iff : id ∈ (recoverSessions P restoreFn inject d).report.recovered ↔
    (recoverable P restoreFn d id).isSome :=
  mem_collect_iff P restoreFn d id

def injectedCheckpoints (P : PersistenceService S Msg Rest) (restoreFn : RestoreFn Msg Rest)
    (inject : Injection Msg Rest) (d : SessionStore S) (id : String) : Option (TreeCheckpoint Msg Rest) :=
  (recoverable P restoreFn d id).map (inject.apply id)

def recoverableParent (P : PersistenceService S Msg Rest) (restoreFn : RestoreFn Msg Rest) (d : SessionStore S)
    (id : String) : Option String :=
  ((recoverable P restoreFn d id).bind parent).filter fun p => (recoverable P restoreFn d p).isSome

theorem linkedParent_injected (inject : Injection Msg Rest) (id : String) :
    linkedParent (collectSessions P restoreFn d).recovered (injectedCheckpoints P restoreFn inject d) id =
      recoverableParent P restoreFn d id := by
  have hparent : (injectedCheckpoints P restoreFn inject d id).bind parent =
      (recoverable P restoreFn d id).bind parent := by
    unfold injectedCheckpoints
    cases recoverable P restoreFn d id <;> rfl
  unfold linkedParent recoverableParent
  rw [hparent]
  congr 1
  funext p
  simp [mem_collect_iff]

theorem children_recover (p : String) : (recoverSessions P restoreFn inject d).report.spawnTree.children p =
    (collectSessions P restoreFn d).recovered.filter fun i => recoverableParent P restoreFn d i = some p := by
  simp only [recoverSessions, buildSpawnTree, TreeBuild.children_foldl, nil_append, checkpoints_collect]
  simp only [← linkedParent_injected inject]
  rfl

theorem roots_recover : (recoverSessions P restoreFn inject d).report.spawnTree.roots =
    (collectSessions P restoreFn d).recovered.filter fun i =>
      (recoverable P restoreFn d i).isSome ∧ recoverableParent P restoreFn d i = none := by
  simp only [recoverSessions, buildSpawnTree, TreeBuild.roots_foldl, nil_append, checkpoints_collect, Option.isSome_map]
  simp only [← linkedParent_injected inject]
  rfl

theorem mem_children_iff : id ∈ (recoverSessions P restoreFn inject d).report.spawnTree.children p ↔
    ∃ c, recoverable P restoreFn d id = some c ∧ c.parent = some p ∧ (recoverable P restoreFn d p).isSome := by
  rw [children_recover, mem_filter, mem_collect_iff, recoverableParent]
  cases recoverable P restoreFn d id with
  | none => simp
  | some => simp [Option.filter_eq_some_iff]

theorem mem_roots_iff : id ∈ (recoverSessions P restoreFn inject d).report.spawnTree.roots ↔
    (recoverable P restoreFn d id).isSome ∧
      ∀ p, id ∉ (recoverSessions P restoreFn inject d).report.spawnTree.children p := by
  simp only [mem_children_iff]
  rw [roots_recover, mem_filter, mem_collect_iff, recoverableParent]
  cases recoverable P restoreFn d id with
  | none => simp
  | some => simp [Option.filter_eq_none_iff]

theorem perm_tree : ((recoverSessions P restoreFn inject d).report.spawnTree.roots ++
    (recoverSessions P restoreFn inject d).report.recovered.flatMap
      (recoverSessions P restoreFn inject d).report.spawnTree.children).Perm
    (recoverSessions P restoreFn inject d).report.recovered := by
  have hnd : (recoverSessions P restoreFn inject d).report.recovered.Nodup := nodup_collect P restoreFn d
  refine (perm_ext_iff_of_nodup ?_ hnd).mpr fun id => ?_
  · refine nodup_append.mpr ⟨?_, nodup_flatMap.mpr ⟨?_, ?_⟩, ?_⟩
    · rw [roots_recover]
      exact (nodup_collect P restoreFn d).filter _
    · intro p _
      rw [children_recover]
      exact (nodup_collect P restoreFn d).filter _
    · -- A session names one parent only.
      refine hnd.imp ?_
      intro p q hne id hp hq
      obtain ⟨c, hc, hcp, -⟩ := mem_children_iff.mp hp
      obtain ⟨c', hc', hcq, -⟩ := mem_children_iff.mp hq
      rw [hc] at hc'
      obtain rfl := Option.some.inj hc'
      rw [hcp] at hcq
      exact hne (Option.some.inj hcq)
    · rintro a ha b hb rfl
      obtain ⟨p, -, hp⟩ := mem_flatMap.mp hb
      exact (mem_roots_iff.mp ha).2 p hp
  · rw [mem_append, mem_flatMap, mem_roots_iff, mem_recovered_iff]
    constructor
    · rintro (⟨hid, -⟩ | ⟨p, -, hp⟩)
      · exact hid
      · obtain ⟨c, hc, -⟩ := mem_children_iff.mp hp
        simp [hc]
    · intro hid
      by_cases hchild : ∃ p, id ∈ (recoverSessions P restoreFn inject d).report.spawnTree.children p
      · obtain ⟨p, hp⟩ := hchild
        obtain ⟨c, -, -, hpr⟩ := mem_children_iff.mp hp
        exact .inr ⟨p, mem_recovered_iff.mpr hpr, hp⟩
      · exact .inl ⟨hid, fun p hp => hchild ⟨p, hp⟩⟩

theorem checkpoints_recover (h : recoverable P restoreFn d id = some c) :
    ((recoverSessions P restoreFn inject d).checkpoints id).bind parent = c.parent ∧
      (recoverSessions P restoreFn inject d).depth id =
        some (if c.parent.any fun q => (recoverable P restoreFn d q).isNone then 0 else c.depth) := by
  have hmem : id ∈ (collectSessions P restoreFn d).recovered := by simp [mem_collect_iff, h]
  have hdem : isDemoted (collectSessions P restoreFn d).recovered (inject.apply id c) =
      c.parent.any fun q => (recoverable P restoreFn d q).isNone := by
    show (c.parent.any fun p => decide (p ∉ (collectSessions P restoreFn d).recovered)) = _
    congr 1
    funext q
    cases hq : recoverable P restoreFn d q <;> simp [mem_collect_iff, hq]
  simp only [RecoveryResult.depth, recoverSessions, buildSpawnTree, TreeBuild.checkpoints_foldl, checkpoints_collect, h,
    hmem, if_true, Option.map_some, settled, hdem]
  constructor
  · split <;> rfl
  · split <;> rfl

/-- Recovery builds a tree, with the right depths exactly if the stored depths fit it already. -/
theorem recover_wellFormed_iff (P : PersistenceService S Msg Rest) (restoreFn : RestoreFn Msg Rest)
    (inject : Injection Msg Rest) (d : SessionStore S) :
    (recoverSessions P restoreFn inject d).WellFormed (fun id => (recoverable P restoreFn d id).isSome) ↔
      DepthsFit (recoverable P restoreFn d) := by
  constructor
  · intro hwf
    refine ⟨fun id c hc hroot => ?_, fun id c p cp hc hp hcp => ?_⟩
    · have hmem : id ∈ (recoverSessions P restoreFn inject d).report.recovered := mem_recovered_iff.mpr (by simp [hc])
      have hno : ∀ p, id ∉ (recoverSessions P restoreFn inject d).report.spawnTree.children p := by
        intro p hp
        obtain ⟨c', hc', hcp, -⟩ := mem_children_iff.mp hp
        rw [hc] at hc'
        obtain rfl := Option.some.inj hc'
        rw [hroot] at hcp
        cases hcp
      have hdepth := hwf.root_depth id hmem hno
      rw [(checkpoints_recover hc).2, hroot] at hdepth
      exact Option.some.inj hdepth
    · have hdepth := hwf.child_depth p id (mem_children_iff.mpr ⟨c, hc, hp, by simp [hcp]⟩)
      rw [(checkpoints_recover hc).2, (checkpoints_recover hcp).2, hp] at hdepth
      simpa [hcp] using hdepth
  · intro hfit
    refine ⟨nodup_collect P restoreFn d, fun _ => mem_recovered_iff, perm_tree, ?_, ?_, ?_⟩
    · intro p id hid
      obtain ⟨c, hc, hp, hpr⟩ := mem_children_iff.mp hid
      exact ⟨mem_recovered_iff.mpr hpr, (checkpoints_recover hc).1.trans hp⟩
    · intro id hid hno
      obtain ⟨c, hc⟩ := Option.isSome_iff_exists.mp (mem_recovered_iff.mp hid)
      rw [(checkpoints_recover hc).2]
      cases hp : c.parent with
      | none => simp [hfit.root id c hc hp]
      | some p =>
        -- The parent it names was not recovered, so it is demoted.
        have hpr : recoverable P restoreFn d p = none := by
          cases hpr : recoverable P restoreFn d p with
          | none => rfl
          | some => exact absurd (mem_children_iff.mpr ⟨c, hc, hp, by simp [hpr]⟩) (hno p)
        simp [hpr]
    · intro p id hid
      obtain ⟨c, hc, hp, hpr⟩ := mem_children_iff.mp hid
      obtain ⟨cp, hcp⟩ := Option.isSome_iff_exists.mp hpr
      rw [(checkpoints_recover hc).2, (checkpoints_recover hcp).2, hp]
      simp [hcp, hfit.child id c p cp hc hp hcp]

end Tree

/-! ## The storages -/

structure MemorySlot (Msg Rest : Type) where
  active : Option (TreeCheckpoint Msg Rest)
  archived : Option (TreeCheckpoint Msg Rest)
  migrating : Option (TreeCheckpoint Msg Rest)

def memoryStorage : PersistenceService (MemorySlot Msg Rest) Msg Rest where
  isActive s := s.active.isSome
  isArchived s := s.archived.isSome
  isMigrating s := s.migrating.isSome
  loadCheckpoint _ s := .ok (s.active.or s.migrating)
  loadArchivedCheckpoint _ s := .ok s.archived
  restoreCheckpoint _ s :=
    match s.archived, s.migrating with
    | some c, _ => (.ok (), { s with archived := none, active := some c })
    | none, some c => (.ok (), { s with migrating := none, active := some c })
    | none, none => (.ok (), s)
  archiveCheckpoint c s := (.ok (), { s with migrating := none, archived := some c })
  saveCheckpoint c s :=
    match c.status with
    | .archived => { s with archived := some c }
    | .migrating => { s with migrating := some c }
    | .active => { s with active := some c }

def archivedParent : SessionStore (MemorySlot Unit Unit) where
  ids := ["a", "b", "c"]
  nodup := by decide
  slot id :=
    let stored (status : SessionStatus) (parent : Option String) (depth : Nat) : TreeCheckpoint Unit Unit :=
      ⟨id, status, none, none, none, [], [], ⟨parent, depth, none, ()⟩⟩
    if id = "a" then ⟨none, some (stored .archived none 0), none⟩
    else if id = "b" then ⟨some (stored .active (some "a") 1), none, none⟩
    else ⟨some (stored .active (some "b") 2), none, none⟩

theorem archived_parent_leaves_stale_depth :
    ¬ (recoverSessions memoryStorage (fun _ _ => .ok ()) (fun _ _ => ()) archivedParent).WellFormed
      (fun id => (recoverable memoryStorage (fun _ _ => .ok ()) archivedParent id).isSome) := by
  intro h
  have hdepth := h.child_depth "b" "c" (by decide)
  revert hdepth
  decide

def sqliteStorage (C : StoreCodec Msg (SpawnFields Rest)) (now : Int) :
    PersistenceService (Slot (SpawnFields Rest)) Msg Rest where
  isActive s := s.status == some .active
  isArchived s := s.status == some .archived
  isMigrating s := s.status == some .migrating
  loadCheckpoint := loadCheckpointInner C
  loadArchivedCheckpoint := loadCheckpointInner C
  restoreCheckpoint id s := ((doRestore C id s).1.map fun _ => (), (doRestore C id s).2)
  archiveCheckpoint _ s := doArchive now s
  saveCheckpoint c s := saveCheckpointInner C now c s

section Sqlite

variable (C : StoreCodec Msg (SpawnFields Rest)) (now : Int) (id : String) (s : Slot (SpawnFields Rest))

theorem attemptActive_sqlite : ((sqliteStorage C now).attemptActive (fun _ _ => .ok ()) id s).slot = s ∧
      ((sqliteStorage C now).attemptActive (fun _ _ => .ok ()) id s).recovered = loaded C id s := by
  unfold PersistenceService.attemptActive loaded
  dsimp only [sqliteStorage]
  split <;> simp_all

theorem attemptArchived_sqlite : ((sqliteStorage C now).attemptArchived id s).recovered = none ∧
    ((sqliteStorage C now).attemptArchived id s).slot = s := by
  unfold PersistenceService.attemptArchived
  dsimp only [sqliteStorage]
  split
  · next c hc =>
    have hl : loaded C id s = some c := by rw [loaded, hc]
    simp [(loaded_sessionId hl).2]
  · exact ⟨rfl, rfl⟩

theorem attemptMigrating_sqlite : ((sqliteStorage C now).attemptMigrating id s).recovered = none := by
  unfold PersistenceService.attemptMigrating
  dsimp only [sqliteStorage]
  split
  · next c hc =>
    have hl : loaded C id s = some c := by rw [loaded, hc]
    simp only [(loaded_sessionId hl).2, isEmpty_nil, if_true]
    split <;> rfl
  · rfl

theorem recoverOne_sqlite : recoverOne (sqliteStorage C now) (fun _ _ => .ok ()) id s =
    if s.status = some .active then loaded C id s else none := by
  have hact := attemptActive_sqlite C now id s
  have harch := attemptArchived_sqlite C now id s
  have hmig := attemptMigrating_sqlite C now id s
  unfold recoverOne stage
  rcases hst : s.status with _ | _ | _ | _ <;> simp_all [sqliteStorage]

/-- On SQLite the scans of the archived and the migrating sessions recover none. -/
theorem sqlite_recovers_active_sessions (inject : Injection Msg Rest) (d : SessionStore (Slot (SpawnFields Rest))) :
    id ∈ (recoverSessions (sqliteStorage C now) (fun _ _ => .ok ()) inject d).report.recovered ↔
      id ∈ d.ids ∧ (d.slot id).status = some .active ∧ (loaded C id (d.slot id)).isSome := by
  rw [mem_recovered_iff, recoverable, recoverOne_sqlite]
  split_ifs <;> simp [*]

end Sqlite

end CloseClaw.Session
