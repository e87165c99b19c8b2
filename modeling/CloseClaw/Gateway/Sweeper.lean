/- One pass of the archive sweeper (`gateway/src/sweeper.rs`), during which sessions do not move. -/

import CloseClaw.Gateway.ForcefulStop
import CloseClaw.Lib.LevelOrder
import CloseClaw.Session.CheckpointRow
import Mathlib.Data.String.Basic

namespace CloseClaw.Gateway.Sweeper

open Lib Lib.AncestorWalk Session List Disk LevelOrder
open Gateway.ForcefulStop (ConversationSession)

variable {Msg Out Item Level : Type}

structure SessionActivityDimensions where
  llmActive : Bool
  foregroundToolActive : Bool
  backgroundToolActive : Bool
  childActive : Bool

def SessionActivityDimensions.default : SessionActivityDimensions := ⟨false, false, false, false⟩

def SessionActivityDimensions.anyActive (a : SessionActivityDimensions) : Bool :=
  a.llmActive || a.foregroundToolActive || a.backgroundToolActive || a.childActive

def dimensionsOf (s : ConversationSession Item Level) : SessionActivityDimensions where
  llmActive := s.llmState == .requesting || s.llmState == .receiving
  foregroundToolActive := s.toolStates.any fun t => t.state == .pending || t.state == .runningForeground
  backgroundToolActive := s.toolStates.any fun t => t.state == .runningBackground
  childActive := s.childStates.any fun c => c.state == .running

def activityDimensions (sessions : String → Option (ConversationSession Item Level)) (id : String) :
    SessionActivityDimensions :=
  match sessions id with
  | some s => dimensionsOf s
  | none => .default

/-! ## Queries -/

def parentColumn (s : RowSlot Out) : Option String := s.row.bind (·.rest.parentSessionId)

def parentOf (d : RowDisk Out) (id : String) : Option String := parentColumn (d.slot id)

def listChildrenSessions (d : RowDisk Out) (parentSessionId : String) : List String :=
  d.idsWhere fun s => parentColumn s == some parentSessionId

def isExpired (now : Int) (agentId : String) (role : AgentRole) (minutes : Int) (s : RowSlot Out) : Bool :=
  s.row.any fun r => r.agentId == agentId && r.role == role && r.status == .archived &&
    r.archivedAt.any fun t => decide (t < idleCutoff now minutes)

def listExpiredArchivedSessionsForAgent (d : RowDisk Out) (now : Int) (agentId : String) (role : AgentRole)
    (minutes : Int) : List String :=
  if minutes = 0 then [] else d.idsWhere (isExpired now agentId role minutes)

/-! ## The sweeper -/

inductive ArchiveSweeperError where
  | storage (e : PersistenceError)
  | config (message : String)

inductive Removal where
  | deleted (id : String)
  | archived (id : String)
  | purged (id : String)
  deriving DecidableEq

def Removal.id : Removal → String
  | deleted id | archived id | purged id => id

structure Swept (Out : Type) where
  disk : RowDisk Out
  removed : List Removal

structure PerAgentSessionConfig where
  idleMinutes : Int
  purgeAfterMinutes : Int

structure ArchiveSweeper where
  listAgents : List String
  sessionConfigFor : String → AgentRole → PerAgentSessionConfig
  activeQuery : Option (String → SessionActivityDimensions)

def Swept.ids (s : Swept Out) : List String := s.removed.map Removal.id

def Swept.delete (s : Swept Out) (id : String) : Swept Out :=
  ⟨s.disk.set id (deleteCheckpoint (s.disk.slot id)), s.removed ++ [.deleted id]⟩

def descendants (d : RowDisk Out) (id : String) : Option (List String) :=
  (collect (listChildrenSessions d) (d.keys.length + 1) [(id, 0)] []).map fun all =>
    (deepestFirst all).map Prod.fst

def cascadeKillChildren (s : Swept Out) (parentSessionId : String) : Option (Swept Out) :=
  (descendants s.disk parentSessionId).map fun ids => ids.foldl Swept.delete s

def archiveAndInvalidate (C : RowCodec Msg Out) (now : Int) (s : Swept Out) (id : String) :
    Except ArchiveSweeperError Unit × Swept Out :=
  match loadCheckpointInner C id (s.disk.slot id) with
  | .error e => (.error (.storage e), s)
  | .ok none => (.error (.config ("session " ++ id ++ " not found for archive")), s)
  | .ok (some _) =>
    match doArchive now (s.disk.slot id) with
    | (.error e, slot) => (.error (.storage e), { s with disk := s.disk.set id slot })
    | (.ok (), slot) => (.ok (), ⟨s.disk.set id slot, s.removed ++ [.archived id]⟩)

def cascadeArchive (C : RowCodec Msg Out) (now : Int) (s : Swept Out) (id : String) :
    Option (Except ArchiveSweeperError Unit × Swept Out) :=
  (cascadeKillChildren s id).map fun s' => archiveAndInvalidate C now s' id

def purgeAndInvalidate (s : Swept Out) (id : String) : Swept Out :=
  ⟨s.disk.set id (doPurge (s.disk.slot id)), s.removed ++ [.purged id]⟩

namespace ArchiveSweeper

variable (sw : ArchiveSweeper) (C : RowCodec Msg Out) (now : Int) (d : RowDisk Out) (s : Swept Out)

def withActiveQuery (query : String → SessionActivityDimensions) : ArchiveSweeper := { sw with activeQuery := some query }

def archiveIdle (s : Swept Out) (id : String) : Option (Swept Out) :=
  if sw.activeQuery.any fun query => (query id).anyActive then some s
  else (cascadeArchive C now s id).map Prod.snd

def idleSessions (e : String × AgentRole) : List String :=
  d.listIdleSessionsForAgent now e.1 e.2 (sw.sessionConfigFor e.1 e.2).idleMinutes

def expiredSessions (e : String × AgentRole) : List String :=
  if 0 < (sw.sessionConfigFor e.1 e.2).purgeAfterMinutes then
    listExpiredArchivedSessionsForAgent d now e.1 e.2 (sw.sessionConfigFor e.1 e.2).purgeAfterMinutes
  else []

def archiveStage (e : String × AgentRole) : Option (Swept Out) :=
  (sw.idleSessions now s.disk e).foldlM (sw.archiveIdle C now) s

def purgeStage (e : String × AgentRole) : Swept Out := (sw.expiredSessions now s.disk e).foldl purgeAndInvalidate s

def sweepAgentRole (e : String × AgentRole) : Option (Swept Out) :=
  (sw.archiveStage C now s e).map fun s' => sw.purgeStage now s' e

def rounds : List (String × AgentRole) :=
  sw.listAgents.flatMap fun agentId => [(agentId, .mainAgent), (agentId, .subAgent)]

def runOnce (now : String × AgentRole → Int) : Option (Swept Out) :=
  sw.rounds.foldlM (fun s e => sw.sweepAgentRole C (now e) s e) ⟨d, []⟩

end ArchiveSweeper

/-! ## Forests of sessions -/

variable {d d' : RowDisk Out} {s s' : Swept Out} {id : String}

variable (Out) in
structure SpawnForest where
  disk : RowDisk Out
  ends : ∀ id, ∃ chain, Ancestors (parentOf disk) id chain

theorem mem_listChildrenSessions {p c : String} : c ∈ listChildrenSessions d p ↔ parentOf d c = some p := by
  rw [listChildrenSessions, mem_idsWhere rfl, beq_iff_eq]
  rfl

theorem mem_keys_of_parentOf {p c : String} (h : parentOf d c = some p) : c ∈ d.keys := by
  by_contra hno
  have hlookup : d.lookup c = none := AList.lookup_eq_none.mpr hno
  simp [parentOf, parentColumn, slot, hlookup, Slot.empty] at h

def SpawnForest.forest (F : SpawnForest Out) : Forest String where
  parent := parentOf F.disk
  children := listChildrenSessions F.disk
  nodes := F.disk.keys
  mem_children := mem_listChildrenSessions
  nodup_children _ := nodup_idsWhere _
  mem_nodes := mem_keys_of_parentOf
  ends := F.ends

/-! ## One cascade -/

structure InOrder (d : RowDisk Out) (id : String) (log : List String) : Prop where
  once : log.Nodup
  after : log.Pairwise fun x y => ∀ n, 0 < n → ¬ Below (parentOf d) x n y
  complete : ∀ n y, Below (parentOf d) id n y → 0 < n → y ∈ log
  sound : ∀ y ∈ log, ∃ n, Below (parentOf d) id n y

variable (F : SpawnForest Out)

theorem SpawnForest.descendants_in_order (id : String) :
    ∃ ids, descendants F.disk id = some ids ∧ InOrder F.disk id ids ∧ id ∉ ids := by
  obtain ⟨all, hall, hreached⟩ := F.forest.collect_total id
  have hperm := (perm_deepestFirst all).map Prod.fst
  refine ⟨(deepestFirst all).map Prod.fst, ?_, ⟨?_, deepestFirst_ordered hreached, ?_, ?_⟩, ?_⟩
  · show (collect F.forest.children (F.forest.nodes.length + 1) [(id, 0)] []).map _ = _
    rw [hall]
    rfl
  · exact hperm.nodup_iff.mpr (Forest.nodup_collect hreached)
  · intro n y hy hn
    exact hperm.mem_iff.mpr (mem_map_of_mem ((Forest.mem_collect_iff hreached).mpr ⟨hy, hn⟩))
  · intro y hy
    obtain ⟨⟨y', n⟩, hmem, rfl⟩ := mem_map.mp (hperm.mem_iff.mp hy)
    exact ⟨n, ((Forest.mem_collect_iff hreached).mp hmem).1⟩
  · intro hid
    exact (nodup_cons.mp hreached.nodup).1 (hperm.mem_iff.mp hid)

variable {log : List String} {slot : RowSlot Out}

theorem SpawnForest.in_order_concat (h : InOrder F.disk id log) (hid : id ∉ log) :
    InOrder F.disk id (log ++ [id]) where
  once := nodup_append.mpr ⟨h.once, nodup_singleton id, by
    rintro x hx y hy rfl
    rw [mem_singleton.mp hy] at hx
    exact hid hx⟩
  after := by
    refine pairwise_append.mpr ⟨h.after, pairwise_singleton _ _, ?_⟩
    rintro x hx y hy n hn hbelow
    rw [mem_singleton.mp hy] at hbelow
    obtain ⟨m, hm⟩ := h.sound x hx
    have := F.forest.level_unique (hm.trans hbelow) .self
    omega
  complete n y hy hn := mem_append_left _ (h.complete n y hy hn)
  sound y hy := by
    rcases mem_append.mp hy with hy | hy
    · exact h.sound y hy
    · rw [mem_singleton.mp hy]
      exact ⟨0, .self⟩

/-! ## What a pass leaves alone -/

structure From (d : RowDisk Out) (s : Swept Out) : Prop where
  same : ∀ id, id ∉ s.ids → s.disk.slot id = d.slot id
  links : ∀ c p, parentOf s.disk c = some p → parentOf d c = some p

theorem From.start (d : RowDisk Out) : From d ⟨d, []⟩ := ⟨fun _ _ => rfl, fun _ _ h => h⟩

theorem From.remove (h : From d s) {r : Removal} (hr : r.id = id)
    (hslot : ∀ p, parentColumn slot = some p → parentOf s.disk id = some p) :
    From d ⟨s.disk.set id slot, s.removed ++ [r]⟩ where
  same x hx := by
    rw [Swept.ids, map_append, mem_append, not_or] at hx
    have hne : x ≠ id := by
      rintro rfl
      exact hx.2 (by simp [hr])
    rw [slot_set_ne _ hne]
    exact h.same x hx.1
  links c p hc := by
    rw [parentOf, slot_set] at hc
    split at hc
    · next heq =>
      rw [heq]
      exact h.links id p (hslot p hc)
    · exact h.links c p hc

theorem From.delete (h : From d s) (id : String) : From d (s.delete id) := h.remove rfl (fun _ hp => nomatch hp)

theorem From.purge (h : From d s) (id : String) : From d (purgeAndInvalidate s id) := h.remove rfl (fun _ hp => nomatch hp)

theorem From.foldl_delete (h : From d s) (ids : List String) :
    From d (ids.foldl Swept.delete s) ∧ (ids.foldl Swept.delete s).ids = s.ids ++ ids := by
  induction ids generalizing s with
  | nil => exact ⟨h, (append_nil _).symm⟩
  | cons id ids ih =>
    obtain ⟨hfrom, hids⟩ := ih (h.delete id)
    refine ⟨hfrom, hids.trans ?_⟩
    simp [Swept.ids, Swept.delete, Removal.id]

def SpawnForest.later (F : SpawnForest Out) (h : From F.disk s) : SpawnForest Out where
  disk := s.disk
  ends id := by
    obtain ⟨chain, hchain⟩ := F.ends id
    exact hchain.of_sub h.links

theorem parentColumn_doArchive (now : Int) (slot : RowSlot Out) :
    parentColumn (doArchive now slot).2 = parentColumn slot := by
  obtain ⟨row, active, archived⟩ := slot
  cases row with
  | none => rfl
  | some r =>
    obtain ⟨status, _, _, _, _, _⟩ := r
    cases status <;> cases archived <;> cases active <;> rfl

theorem doArchive_of_load {C : RowCodec Msg Out} {c : RowCheckpoint Msg Out} (now : Int)
    (h : loadCheckpointInner C id slot = .ok (some c)) : (doArchive now slot).1 = .ok () := by
  obtain ⟨row, active, archived⟩ := slot
  cases row with
  | none => cases h
  | some r =>
    obtain ⟨status, _, _, _, _, _⟩ := r
    cases status <;> cases archived <;> cases active <;> first | rfl | cases h

theorem archiveAndInvalidate_cases (C : RowCodec Msg Out) (now : Int) (s : Swept Out) (id : String) :
    (∃ e, archiveAndInvalidate C now s id = (.error e, s)) ∨
    archiveAndInvalidate C now s id =
      (.ok (), ⟨s.disk.set id (doArchive now (s.disk.slot id)).2, s.removed ++ [.archived id]⟩) := by
  unfold archiveAndInvalidate
  split
  · next e _ => exact .inl ⟨.storage e, rfl⟩
  · exact .inl ⟨_, rfl⟩
  · next c hload =>
    have hok := doArchive_of_load now hload
    split
    · next e slot harchive =>
      rw [harchive] at hok
      cases hok
    · next slot harchive =>
      rw [harchive]
      exact .inr rfl

theorem cascade_in_order (C : RowCodec Msg Out) (now : Int) (h : From F.disk s) (id : String) :
    ∃ result s' log, cascadeArchive C now s id = some (result, s') ∧ From F.disk s' ∧ s'.ids = s.ids ++ log ∧
      InOrder s.disk id log := by
  obtain ⟨below, hbelow, horder, hid⟩ := (F.later h).descendants_in_order id
  obtain ⟨hfrom, hids⟩ := h.foldl_delete below
  have hcascade : cascadeArchive C now s id = some (archiveAndInvalidate C now (below.foldl Swept.delete s) id) := by
    have hbelow' : descendants s.disk id = some below := hbelow
    rw [cascadeArchive, cascadeKillChildren, hbelow']
    rfl
  rcases archiveAndInvalidate_cases C now (below.foldl Swept.delete s) id with ⟨e, herror⟩ | hok
  · exact ⟨_, _, below, by rw [hcascade, herror], hfrom, hids, horder⟩
  · refine ⟨_, _, below ++ [id], by rw [hcascade, hok], ?_, ?_, (F.later h).in_order_concat horder hid⟩
    · refine hfrom.remove rfl ?_
      intro p hp
      rw [parentColumn_doArchive] at hp
      exact hp
    · rw [Swept.ids, map_append, ← append_assoc, ← hids]
      rfl

/-! ## Whole passes -/

def Grows (s s' : Swept Out) : Prop := s.ids ⊆ s'.ids

instance : Std.Refl (@Grows Out) := ⟨fun s => List.Subset.refl s.ids⟩

instance : IsTrans (Swept Out) Grows := ⟨fun _ _ _ h h' => List.Subset.trans h h'⟩

theorem Grows.of_append (h : s'.ids = s.ids ++ log) : Grows s s' := by
  rw [Grows, h]
  exact subset_append_left _ _

structure Within (d : RowDisk Out) (G : String → Prop) (s : Swept Out) : Prop extends From d s where
  marked : ∀ id ∈ s.ids, G id

def Descends (d : RowDisk Out) (G : String → Prop) : Prop := ∀ id n x, Below (parentOf d) id n x → G id → G x

namespace ArchiveSweeper

variable {sw : ArchiveSweeper} {C : RowCodec Msg Out} {now : Int} {F : SpawnForest Out} {G : String → Prop}
  {e : String × AgentRole}

def Skips (sw : ArchiveSweeper) (id : String) : Prop := (sw.activeQuery.any fun query => (query id).anyActive) = true

structure Permits (sw : ArchiveSweeper) (d : RowDisk Out) (G : String → Prop) (now : Int) (e : String × AgentRole) :
    Prop where
  idle : ∀ id ∈ sw.idleSessions now d e, ¬ sw.Skips id → G id
  expired : ∀ id ∈ sw.expiredSessions now d e, G id

theorem mem_idleSessions_congr (h : d.slot id = d'.slot id) :
    id ∈ sw.idleSessions now d e ↔ id ∈ sw.idleSessions now d' e := by
  rw [idleSessions, idleSessions, listIdleSessionsForAgent, listIdleSessionsForAgent, mem_idsWhere rfl,
    mem_idsWhere rfl, h]

theorem mem_expiredSessions_congr (h : d.slot id = d'.slot id) :
    id ∈ sw.expiredSessions now d e ↔ id ∈ sw.expiredSessions now d' e := by
  unfold expiredSessions listExpiredArchivedSessionsForAgent
  split_ifs
  · exact Iff.rfl
  · rw [mem_idsWhere rfl, mem_idsWhere rfl, h]
  · exact Iff.rfl

theorem archiveIdle_in_order (C : RowCodec Msg Out) (now : Int) (h : From F.disk s) (hskip : ¬ sw.Skips id) :
    ∃ s' log, sw.archiveIdle C now s id = some s' ∧ From F.disk s' ∧ s'.ids = s.ids ++ log ∧ InOrder s.disk id log := by
  obtain ⟨result, s', log, hcascade, hfrom, hids, horder⟩ := cascade_in_order F C now h id
  refine ⟨s', log, ?_, hfrom, hids, horder⟩
  have hturn : sw.archiveIdle C now s id = (cascadeArchive C now s id).map Prod.snd := if_neg hskip
  rw [hturn, hcascade]
  rfl

theorem archiveIdle_within (hG : Descends F.disk G) (h : Within F.disk G s) (hid : ¬ sw.Skips id → G id) :
    ∃ s', sw.archiveIdle C now s id = some s' ∧ Within F.disk G s' ∧ Grows s s' := by
  by_cases hskip : sw.Skips id
  · exact ⟨s, if_pos hskip, h, List.Subset.refl _⟩
  · obtain ⟨s', log, hs', hfrom, hids, horder⟩ := archiveIdle_in_order C now h.toFrom hskip
    refine ⟨s', hs', ⟨hfrom, ?_⟩, .of_append hids⟩
    intro x hx
    rw [hids, mem_append] at hx
    rcases hx with hx | hx
    · exact h.marked x hx
    · obtain ⟨n, hbelow⟩ := horder.sound x hx
      exact hG id n x (hbelow.mono h.links) (hid hskip)

theorem Permits.idle_later (hp : sw.Permits F.disk G now e) (h : Within F.disk G s)
    (hid : id ∈ sw.idleSessions now s.disk e) (hskip : ¬ sw.Skips id) : G id := by
  by_cases hgone : id ∈ s.ids
  · exact h.marked id hgone
  · exact hp.idle id ((mem_idleSessions_congr (h.same id hgone)).mp hid) hskip

theorem archiveStage_within (hG : Descends F.disk G) (hp : sw.Permits F.disk G now e) (h : Within F.disk G s) :
    ∃ s', sw.archiveStage C now s e = some s' ∧ Within F.disk G s' ∧ Grows s s' :=
  Trace.foldlM_total (fun _ hs _ he => archiveIdle_within hG hs (hp.idle_later h he)) h

theorem foldl_purge_within {ids : List String} (h : Within F.disk G s) (hids : ∀ id ∈ ids, G id) :
    Within F.disk G (ids.foldl purgeAndInvalidate s) ∧ (ids.foldl purgeAndInvalidate s).ids = s.ids ++ ids := by
  induction ids generalizing s with
  | nil => exact ⟨h, (append_nil _).symm⟩
  | cons id ids ih =>
    have hstep : (purgeAndInvalidate s id).ids = s.ids ++ [id] := by
      rw [Swept.ids, purgeAndInvalidate, map_append]
      rfl
    have hwithin : Within F.disk G (purgeAndInvalidate s id) := by
      refine ⟨h.toFrom.purge id, ?_⟩
      intro x hx
      rw [hstep, mem_append, mem_singleton] at hx
      rcases hx with hx | rfl
      · exact h.marked x hx
      · exact hids x mem_cons_self
    obtain ⟨hrest, heq⟩ := ih hwithin (fun x hx => hids x (mem_cons_of_mem id hx))
    refine ⟨hrest, heq.trans ?_⟩
    rw [hstep, append_assoc]
    rfl

theorem purgeStage_within (hp : sw.Permits F.disk G now e) (h : Within F.disk G s) :
    Within F.disk G (sw.purgeStage now s e) ∧ (sw.purgeStage now s e).ids = s.ids ++ sw.expiredSessions now s.disk e := by
  refine foldl_purge_within h ?_
  intro id hid
  by_cases hgone : id ∈ s.ids
  · exact h.marked id hgone
  · exact hp.expired id ((mem_expiredSessions_congr (h.same id hgone)).mp hid)

theorem sweepAgentRole_within (hG : Descends F.disk G) (hp : sw.Permits F.disk G now e) (h : Within F.disk G s) :
    ∃ s', sw.sweepAgentRole C now s e = some s' ∧ Within F.disk G s' ∧ Grows s s' := by
  obtain ⟨t, ht, hwithin, hgrows⟩ := archiveStage_within (C := C) hG hp h
  obtain ⟨hwithin', hids⟩ := purgeStage_within hp hwithin
  refine ⟨_, ?_, hwithin', List.Subset.trans hgrows (Grows.of_append hids)⟩
  rw [sweepAgentRole, ht]
  rfl

theorem runOnce_within (sw : ArchiveSweeper) (C : RowCodec Msg Out) (now : String × AgentRole → Int)
    (hG : Descends F.disk G) (hp : ∀ e ∈ sw.rounds, sw.Permits F.disk G (now e) e) :
    ∃ s, sw.runOnce C F.disk now = some s ∧ Within F.disk G s := by
  have hstart : Within F.disk G ⟨F.disk, []⟩ := ⟨From.start F.disk, fun _ hx => nomatch hx⟩
  obtain ⟨s, hs, hwithin, -⟩ := Trace.foldlM_total (R := Grows)
    (fun _ hs e he => sweepAgentRole_within hG (hp e he) hs) hstart
  exact ⟨s, hs, hwithin⟩

theorem permits_all (sw : ArchiveSweeper) (d : RowDisk Out) (now : Int) (e : String × AgentRole) :
    sw.Permits d (fun _ => True) now e :=
  ⟨fun _ _ _ => trivial, fun _ _ => trivial⟩

end ArchiveSweeper

theorem descends_all (d : RowDisk Out) : Descends d fun _ => True := fun _ _ _ _ _ => trivial

theorem From.within (h : From d s) : Within d (fun _ => True) s := ⟨h, fun _ _ => trivial⟩

/-! ## Working sessions -/

open ArchiveSweeper

section Working

variable (d : RowDisk Out) (sessions : String → Option (ConversationSession Item Level))

def Executing (id : String) : Prop := (activityDimensions sessions id).anyActive = true

instance (id : String) : Decidable (Executing sessions id) := inferInstanceAs (Decidable (_ = true))

def ExecutingBelow (id : String) : Prop := ∃ n x, Below (parentOf d) id n x ∧ Executing sessions x

/-- Every idle session with an executing one below it is active itself, and no expired one has
    any. -/
def Shielded (sw : ArchiveSweeper) (now : String × AgentRole → Int) : Prop :=
  ∀ e ∈ sw.rounds,
    (∀ id ∈ sw.idleSessions (now e) d e, ExecutingBelow d sessions id → Executing sessions id) ∧
    ∀ id ∈ sw.expiredSessions (now e) d e, ¬ ExecutingBelow d sessions id

def Hit (s : Swept Out) : Prop := ∃ id ∈ s.ids, ExecutingBelow d sessions id

variable {d} {sessions} {sw : ArchiveSweeper} {C : RowCodec Msg Out} {F : SpawnForest Out} {e : String × AgentRole} {t : Int}

theorem Hit.mono (h : Hit d sessions s) (hgrows : Grows s s') : Hit d sessions s' := by
  obtain ⟨id, hid, hbelow⟩ := h
  exact ⟨id, hgrows hid, hbelow⟩

theorem descends_quiet (d : RowDisk Out) (sessions : String → Option (ConversationSession Item Level)) :
    Descends d fun id => ¬ ExecutingBelow d sessions id := by
  rintro id n x hbelow hquiet ⟨m, y, hy, hexec⟩
  exact hquiet ⟨n + m, y, hbelow.trans hy, hexec⟩

theorem below_of_not_hit {n : Nat} {x : String} (h : From d s) (hhit : ¬ Hit d sessions s)
    (hbelow : Below (parentOf d) id n x) (hx : ExecutingBelow d sessions x) : Below (parentOf s.disk) id n x := by
  induction hbelow with
  | self => exact .self
  | @child n p x _ hp ih =>
    have hkept : x ∉ s.ids := fun hmem => hhit ⟨x, hmem, hx⟩
    have hexec : ExecutingBelow d sessions p := by
      obtain ⟨m, y, hy, hexec⟩ := hx
      exact ⟨1 + m, y, (Below.child .self hp).trans hy, hexec⟩
    refine .child (ih hexec) ?_
    rw [parentOf, h.same x hkept]
    exact hp

theorem archiveIdle_hits (h : From F.disk s) (hskip : ¬ sw.Skips id) (hself : ¬ Executing sessions id)
    (hbelow : ExecutingBelow F.disk sessions id) (hs : sw.archiveIdle C t s id = some s') : Hit F.disk sessions s' := by
  obtain ⟨s₁, log, hs₁, -, hids, horder⟩ := archiveIdle_in_order C t h hskip
  obtain rfl := Option.some.inj (hs.symm.trans hs₁)
  by_cases hhit : Hit F.disk sessions s
  · exact hhit.mono (.of_append hids)
  · obtain ⟨n, x, hx, hexec⟩ := hbelow
    have hpos : 0 < n := by
      cases hx with
      | self => exact absurd hexec hself
      | child => omega
    have hlater := below_of_not_hit h hhit hx ⟨0, x, .self, hexec⟩
    refine ⟨x, ?_, 0, x, .self, hexec⟩
    rw [hids]
    exact mem_append_right _ (horder.complete n x hlater hpos)

theorem archiveStage_hits (h : From F.disk s) (hid : id ∈ sw.idleSessions t F.disk e) (hskip : ¬ sw.Skips id)
    (hself : ¬ Executing sessions id) (hbelow : ExecutingBelow F.disk sessions id)
    (hs : sw.archiveStage C t s e = some s') : Hit F.disk sessions s' := by
  have hp := sw.permits_all F.disk t e
  by_cases hhit : Hit F.disk sessions s
  · obtain ⟨s₁, hs₁, -, hgrows⟩ := archiveStage_within (C := C) (descends_all F.disk) hp h.within
    obtain rfl := Option.some.inj (hs.symm.trans hs₁)
    exact hhit.mono hgrows
  · have hkept : id ∉ s.ids := fun hmem => hhit ⟨id, hmem, hbelow⟩
    obtain ⟨s₁, s₂, s₃, h₁, hturn, hgrows, hs₃⟩ := Trace.foldlM_turn (R := Grows)
      (fun _ hs _ he => archiveIdle_within (C := C) (descends_all F.disk) hs (hp.idle_later h.within he))
      h.within ((mem_idleSessions_congr (h.same id hkept)).mpr hid)
    obtain rfl := Option.some.inj (hs.symm.trans hs₃)
    exact (archiveIdle_hits h₁.toFrom hskip hself hbelow hturn).mono hgrows

theorem purgeStage_hits (h : From F.disk s) (hid : id ∈ sw.expiredSessions t F.disk e)
    (hbelow : ExecutingBelow F.disk sessions id) : Hit F.disk sessions (sw.purgeStage t s e) := by
  have hids := (purgeStage_within (sw.permits_all F.disk t e) h.within).2
  by_cases hhit : Hit F.disk sessions s
  · exact hhit.mono (.of_append hids)
  · have hkept : id ∉ s.ids := fun hmem => hhit ⟨id, hmem, hbelow⟩
    refine ⟨id, ?_, hbelow⟩
    rw [hids]
    exact mem_append_right _ ((mem_expiredSessions_congr (h.same id hkept)).mpr hid)

theorem sweepAgentRole_hits (h : From F.disk s)
    (hbad : (∃ id ∈ sw.idleSessions t F.disk e, ExecutingBelow F.disk sessions id ∧ ¬ Executing sessions id ∧
        ¬ sw.Skips id) ∨ ∃ id ∈ sw.expiredSessions t F.disk e, ExecutingBelow F.disk sessions id)
    (hs : sw.sweepAgentRole C t s e = some s') : Hit F.disk sessions s' := by
  have hp := sw.permits_all F.disk t e
  obtain ⟨s₁, hs₁, h₁, -⟩ := archiveStage_within (C := C) (descends_all F.disk) hp h.within
  rw [sweepAgentRole, hs₁, Option.map_some] at hs
  obtain rfl := Option.some.inj hs
  rcases hbad with ⟨id, hid, hbelow, hself, hskip⟩ | ⟨id, hid, hbelow⟩
  · exact (archiveStage_hits h hid hskip hself hbelow hs₁).mono (.of_append (purgeStage_within hp h₁).2)
  · exact purgeStage_hits h₁.toFrom hid hbelow

variable {now : String × AgentRole → Int}

theorem permits_quiet (h : Shielded F.disk sessions sw now) (he : e ∈ sw.rounds) :
    (sw.withActiveQuery (activityDimensions sessions)).Permits F.disk (fun id => ¬ ExecutingBelow F.disk sessions id)
      (now e) e where
  idle id hid hskip hbelow := hskip ((h e he).1 id hid hbelow)
  expired := (h e he).2

theorem shielded_of_no_hit (hs : (sw.withActiveQuery (activityDimensions sessions)).runOnce C F.disk now = some s)
    (hhit : ¬ Hit F.disk sessions s) : Shielded F.disk sessions sw now := by
  intro e he
  by_contra hbad
  rw [not_and_or] at hbad
  refine hhit ?_
  -- the round of this agent and role, in whatever state it is reached
  obtain ⟨s₁, s₂, s₃, h₁, hturn, hgrows, hs₃⟩ := Trace.foldlM_turn (R := Grows)
    (fun _ hs e' _ => sweepAgentRole_within (C := C) (descends_all F.disk)
      ((sw.withActiveQuery (activityDimensions sessions)).permits_all F.disk (now e') e') hs)
    (From.start F.disk).within he
  obtain rfl := Option.some.inj (hs.symm.trans hs₃)
  refine (sweepAgentRole_hits h₁.toFrom ?_ hturn).mono hgrows
  push Not at hbad
  rcases hbad with ⟨id, hid, hbelow, hself⟩ | hexpired
  · exact .inl ⟨id, hid, hbelow, hself, hself⟩
  · exact .inr hexpired

end Working

/-- A cascade removes each session once, after all below it; none at work is removed exactly if
the forest is shielded. -/
theorem sweep_spares_working_sessions_iff (sw : ArchiveSweeper) (C : RowCodec Msg Out) (now : String × AgentRole → Int)
    (sessions : String → Option (ConversationSession Item Level)) (F : SpawnForest Out) :
    (∀ t id, ∃ result s, cascadeArchive C t ⟨F.disk, []⟩ id = some (result, s) ∧ InOrder F.disk id s.ids) ∧
    ∃ s, (sw.withActiveQuery (activityDimensions sessions)).runOnce C F.disk now = some s ∧
      (∀ id, id ∉ s.ids → s.disk.slot id = F.disk.slot id) ∧
      ((∀ id ∈ s.ids, ¬ ExecutingBelow F.disk sessions id) ↔ Shielded F.disk sessions sw now) := by
  constructor
  · intro t id
    obtain ⟨result, s, log, hs, -, hids, horder⟩ := cascade_in_order F C t (From.start F.disk) id
    refine ⟨result, s, hs, ?_⟩
    rw [hids]
    exact horder
  · obtain ⟨s, hs, hfrom⟩ := (sw.withActiveQuery (activityDimensions sessions)).runOnce_within C now
      (descends_all F.disk) fun e _ => permits_all _ F.disk (now e) e
    refine ⟨s, hs, hfrom.same, ?_, ?_⟩
    · intro hquiet
      refine shielded_of_no_hit hs ?_
      rintro ⟨id, hid, hbelow⟩
      exact hquiet id hid hbelow
    · intro hshield
      obtain ⟨s', hs', hwithin⟩ := (sw.withActiveQuery (activityDimensions sessions)).runOnce_within C now
        (descends_quiet F.disk sessions) fun e he => permits_quiet hshield he
      obtain rfl := Option.some.inj (hs.symm.trans hs')
      exact hwithin.marked

/-! ## A child that works on -/

def idleSlot (parentSessionId : Option String) (role : AgentRole) : RowSlot String where
  row := some
    { sessionRow anonymousNote with
      agentId := "a", role := role, rest := { anonymousNote.rest with parentSessionId := parentSessionId } }
  active := some ⟨[], 0⟩
  archived := none

def parentAndChild : RowDisk String :=
  (set ∅ "s" (idleSlot none .mainAgent)).set "c" (idleSlot (some "s") .subAgent)

def pair : SpawnForest String where
  disk := parentAndChild
  ends id := by
    have hs : parentOf parentAndChild "s" = none := by decide
    by_cases hc : id = "c"
    · subst hc
      exact ⟨["s"], .climb (by decide) (.root hs)⟩
    · refine ⟨[], .root ?_⟩
      rw [parentOf, parentAndChild, slot_set_ne _ hc, slot_set]
      split <;> rfl

def requesting : ConversationSession Bool Unit where
  stopped := false
  cancelled := false
  llmState := .requesting
  toolStates := []
  toolKeys := nodup_nil
  childStates := []
  childKeys := nodup_nil
  toolHandles := []
  childHandles := []
  queue := []
  userAppends := []
  verbosityLevel := ()

def childAtWork : String → Option (ConversationSession Bool Unit) := fun id => if id = "c" then some requesting else none

def sweptNotes : RowCodec Bool String := { noteStore with reload := fun f => f }

def dailySweeper : ArchiveSweeper := ⟨["a"], fun _ _ => ⟨30, 1440⟩, none⟩

theorem a_working_child_is_deleted :
    ((dailySweeper.withActiveQuery (activityDimensions childAtWork)).runOnce sweptNotes pair.disk
        fun _ => 1000000000000).map Swept.removed = some [.deleted "c", .archived "s"] ∧ Executing childAtWork "c" := by
  decide +kernel

end CloseClaw.Gateway.Sweeper
