/- From the tables of the memory database to the entity groups: light and REM stage (`dreaming.rs`). -/

import CloseClaw.Lib.FirstSeen
import CloseClaw.Memory.Dreaming

namespace CloseClaw.Memory.Dreaming

open Lib List

structure EventRecord where
  id : Int
  content : List Char
  category : String
  lesson : Option (List Char)
  updatedAt : Int
  sourceSessionId : String

structure Entity where
  id : Int
  entityType : String
  normalizedName : String

structure Tables where
  sessions : List (String × Bool)
  events : List EventRecord
  entities : List Entity
  eventEntities : List (Int × Int)

def entryCategory : String → Option EntryCategory
  | "error" => some .error
  | "anger" => some .anger
  | "decision" => some .decision
  | "insight" => some .insight
  | _ => none

def rowsOfSession (t : Tables) (sid : String) : List (EventRecord × Entity) :=
  (t.sessions.filter fun s => s.1 = sid ∧ s.2 = true).flatMap fun _ =>
    (t.events.filter (·.sourceSessionId = sid)).flatMap fun event =>
      (t.eventEntities.filter (·.1 = event.id)).flatMap fun link =>
        (t.entities.filter (·.id = link.2)).map (event, ·)

def rowEntry (row : EventRecord × Entity) : Option MemoryEntry :=
  (entryCategory row.1.category).map fun category =>
    { body := row.1.content
      lesson := row.1.lesson
      sourceSessionId := row.1.sourceSessionId
      eventId := row.1.id
      entityType := row.2.entityType
      entityName := row.2.normalizedName
      updatedAt := row.1.updatedAt
      category := category }

def MemoryEntry.dupKey (e : MemoryEntry) : EntryCategory × String × List Char := (e.category, e.sourceSessionId, e.body)

/-- `similar` is the overlap of the words of a body and a rule. -/
def deduplicate (similar : List Char → List Char → Bool) (rules : List (List Char)) (entries : List MemoryEntry) :
    List MemoryEntry :=
  if rules.isEmpty then FirstSeen.dedup MemoryEntry.dupKey [] entries
  else (FirstSeen.dedup MemoryEntry.dupKey [] entries).filter fun e => !rules.any (similar e.body)

def chunkByEntityType (types : List String) (entries : List MemoryEntry) : List (List MemoryEntry) :=
  types.map fun ty => entries.filter (·.entityType = ty)

def lightStage (similar : List Char → List Char → Bool) (md : Option (List Char)) (types : List String)
    (entries : List MemoryEntry) : List (List MemoryEntry) :=
  chunkByEntityType types (deduplicate similar (readExistingRules md) entries)

def collectEntries (rows : String → List (EventRecord × Entity)) (sids : List String) : List MemoryEntry :=
  sids.flatMap fun sid => (rows sid).filterMap rowEntry

/-- The orders in which rows and hash maps are read. -/
structure Reading (t : Tables) (sids : List String) (similar : List Char → List Char → Bool)
    (md : Option (List Char)) where
  rows : String → List (EventRecord × Entity)
  rows_perm : ∀ sid, (rows sid).Perm (rowsOfSession t sid)
  types : List String
  types_perm : types.Perm ((deduplicate similar (readExistingRules md) (collectEntries rows sids)).map
    MemoryEntry.entityType).dedup
  keys : List (String × String)
  keys_perm : keys.Perm ((lightStage similar md types (collectEntries rows sids)).flatten.map MemoryEntry.key).dedup

variable {t : Tables} {sids : List String} {similar : List Char → List Char → Bool} {md : Option (List Char)}

namespace Reading

def entries (r : Reading t sids similar md) : List MemoryEntry := collectEntries r.rows sids

def chunks (r : Reading t sids similar md) : List (List MemoryEntry) := lightStage similar md r.types r.entries

def groups (agents : String × String → Option Nat) (r : Reading t sids similar md) : List EntityGroup :=
  remStage agents r.keys r.chunks

end Reading

def Linked (t : Tables) (sids : List String) (e : MemoryEntry) : Prop :=
  ∃ sid ∈ sids, ∃ row ∈ rowsOfSession t sid, rowEntry row = some e

def Reading.KeepsLinks (r : Reading t sids similar md) : Prop :=
  ∀ e, Linked t sids e → ∃ x ∈ r.chunks.flatten, x.dupKey = e.dupKey ∧ x.key = e.key

structure GroupsExact (t : Tables) (sids : List String) (groups : List EntityGroup) : Prop where
  nodup : (groups.map EntityGroup.key).Nodup
  keys : ∀ key, key ∈ groups.map EntityGroup.key ↔ ∃ e, Linked t sids e ∧ e.key = key
  entries : ∀ g ∈ groups, (g.entries.map MemoryEntry.dupKey).Nodup ∧
    ∀ d, d ∈ g.entries.map MemoryEntry.dupKey ↔ ∃ e, Linked t sids e ∧ e.key = g.key ∧ e.dupKey = d
  frequency : ∀ g ∈ groups, ∃ sessions : List String, sessions.Nodup ∧ sessions.length = g.frequency ∧
    ∀ s, s ∈ sessions ↔ ∃ e, Linked t sids e ∧ e.key = g.key ∧ e.sourceSessionId = s

theorem flatten_chunks_perm {types : List String} (hnodup : types.Nodup) {es : List MemoryEntry}
    (hall : ∀ e ∈ es, e.entityType ∈ types) : (chunkByEntityType types es).flatten.Perm es := by
  induction types generalizing es with
  | nil => rw [eq_nil_iff_forall_not_mem.mpr fun e he => not_mem_nil (hall e he)]; rfl
  | cons ty types ih =>
    obtain ⟨hty, hnodup⟩ := nodup_cons.mp hnodup
    have hrest : chunkByEntityType types es = chunkByEntityType types (es.filter (¬ ·.entityType = ty)) := by
      refine map_congr_left fun ty' hty' => ?_
      rw [filter_filter]
      refine filter_congr fun e _ => ?_
      grind
    show (es.filter (·.entityType = ty) ++ (chunkByEntityType types es).flatten).Perm es
    rw [hrest]
    refine ((ih hnodup ?_).append_left _).trans ?_
    · grind
    · simpa using filter_append_perm (·.entityType = ty) es

section Groups

variable (hmd : readExistingRules md = []) (agents : String × String → Option Nat) (r : Reading t sids similar md)

theorem mem_entries {e : MemoryEntry} : e ∈ r.entries ↔ Linked t sids e := by
  simp only [Reading.entries, collectEntries, mem_flatMap, mem_filterMap, Linked, (r.rows_perm _).mem_iff]

theorem mem_group {g : EntityGroup} (hg : g ∈ r.groups agents) {x : MemoryEntry} :
    x ∈ g.entries ↔ x ∈ r.chunks.flatten ∧ x.key = g.key := by
  obtain ⟨key, -, rfl⟩ := mem_map.mp hg
  exact mem_filter.trans (and_congr_right' decide_eq_true_iff)

include hmd

theorem chunks_perm : r.chunks.flatten.Perm (FirstSeen.dedup MemoryEntry.dupKey [] r.entries) := by
  have hdedup : deduplicate similar (readExistingRules md) r.entries = FirstSeen.dedup MemoryEntry.dupKey [] r.entries := by
    rw [hmd]
    rfl
  have htypes : r.types.Perm ((FirstSeen.dedup MemoryEntry.dupKey [] r.entries).map MemoryEntry.entityType).dedup := hdedup ▸ r.types_perm
  rw [Reading.chunks, lightStage, hdedup]
  refine flatten_chunks_perm (htypes.nodup_iff.mpr (nodup_dedup _)) fun e he => ?_
  exact htypes.mem_iff.mpr (mem_dedup.mpr (mem_map_of_mem he))

theorem chunks_linked {x : MemoryEntry} (hx : x ∈ r.chunks.flatten) : Linked t sids x :=
  (mem_entries r).mp ((FirstSeen.dedup_sublist _ _).subset ((chunks_perm hmd r).mem_iff.mp hx))

theorem chunks_nodup : (r.chunks.flatten.map MemoryEntry.dupKey).Nodup :=
  ((chunks_perm hmd r).map _).nodup_iff.mpr (FirstSeen.nodup_dedup _ _)

theorem keepsLinks_iff : r.KeepsLinks ↔
    ∀ e₁ e₂, Linked t sids e₁ → Linked t sids e₂ → e₁.dupKey = e₂.dupKey → e₁.key = e₂.key := by
  constructor
  · intro h e₁ e₂ h₁ h₂ hdup
    obtain ⟨x, hx, hdx, hkx⟩ := h e₁ h₁
    obtain ⟨y, hy, hdy, hky⟩ := h e₂ h₂
    have hxy : x = y := inj_on_of_nodup_map (chunks_nodup hmd r) hx hy ((hdx.trans hdup).trans hdy.symm)
    rw [← hkx, ← hky, hxy]
  · intro h e he
    obtain ⟨x, hx, hd⟩ := FirstSeen.exists_mem_dedup MemoryEntry.dupKey ((mem_entries r).mpr he) not_mem_nil
    have hx := (chunks_perm hmd r).mem_iff.mpr hx
    exact ⟨x, hx, hd, h x e (chunks_linked hmd r hx) he hd⟩

theorem mem_kept (h : r.KeepsLinks) {β : Type} (f : MemoryEntry → β)
    (hf : ∀ x e, x.dupKey = e.dupKey → x.key = e.key → f x = f e) (b : β) (p : String × String → Prop) :
    (∃ x, (x ∈ r.chunks.flatten ∧ p x.key) ∧ f x = b) ↔ ∃ e, Linked t sids e ∧ p e.key ∧ f e = b := by
  constructor
  · rintro ⟨x, ⟨hx, hkey⟩, hb⟩
    exact ⟨x, chunks_linked hmd r hx, hkey, hb⟩
  · rintro ⟨e, he, hkey, hb⟩
    obtain ⟨x, hx, hd, hxkey⟩ := h e he
    exact ⟨x, ⟨hx, hxkey ▸ hkey⟩, (hf x e hd hxkey).trans hb⟩

theorem groupsExact_of_keepsLinks (h : r.KeepsLinks) : GroupsExact t sids (r.groups agents) where
  nodup := by
    rw [Reading.groups, remStage_keys]
    exact r.keys_perm.nodup_iff.mpr (nodup_dedup _)
  keys := by
    intro key
    have hkeys : r.keys.Perm (r.chunks.flatten.map MemoryEntry.key).dedup := r.keys_perm
    rw [Reading.groups, remStage_keys, hkeys.mem_iff, mem_dedup, mem_map]
    simpa only [and_true, true_and] using mem_kept hmd r h MemoryEntry.key (fun _ _ _ hkey => hkey) key fun _ => True
  entries := by
    intro g hg
    refine ⟨?_, fun d => ?_⟩
    · obtain ⟨key, -, rfl⟩ := mem_map.mp hg
      exact (filter_sublist.map _).nodup (chunks_nodup hmd r)
    · simp only [mem_map, mem_group agents r hg]
      exact mem_kept hmd r h MemoryEntry.dupKey (fun _ _ hd _ => hd) d (· = g.key)
  frequency := by
    intro g hg
    refine ⟨(g.entries.map MemoryEntry.sourceSessionId).dedup, nodup_dedup _, ?_, fun s => ?_⟩
    · obtain ⟨key, -, rfl⟩ := mem_map.mp hg
      rfl
    · simp only [mem_dedup, mem_map, mem_group agents r hg]
      exact mem_kept hmd r h MemoryEntry.sourceSessionId (fun _ _ hd _ => congrArg (·.2.1) hd) s (· = g.key)

omit hmd in
theorem GroupsExact.keepsLinks (h : GroupsExact t sids (r.groups agents)) : r.KeepsLinks := by
  intro e he
  obtain ⟨g, hg, hkey⟩ := mem_map.mp ((h.keys e.key).mpr ⟨e, he, rfl⟩)
  obtain ⟨x, hx, hd⟩ := mem_map.mp (((h.entries g hg).2 e.dupKey).mpr ⟨e, he, hkey.symm, rfl⟩)
  obtain ⟨hx, hxkey⟩ := (mem_group agents r hg).mp hx
  exact ⟨x, hx, hd, hxkey.trans hkey⟩

end Groups

/-- The groups are exact when no two linked rows that are duplicates for the light stage name different entities. -/
theorem groups_exact_iff (hmd : readExistingRules md = []) (agents : String × String → Option Nat)
    (r : Reading t sids similar md) :
    GroupsExact t sids (r.groups agents) ↔
      ∀ e₁ e₂, Linked t sids e₁ → Linked t sids e₂ → e₁.dupKey = e₂.dupKey → e₁.key = e₂.key :=
  ⟨fun h => (keepsLinks_iff hmd r).mp (h.keepsLinks agents r),
    fun h => groupsExact_of_keepsLinks hmd agents r ((keepsLinks_iff hmd r).mpr h)⟩

def twoEntities : Tables where
  sessions := [("s1", true)]
  events := [⟨1, "the backup was lost".toList, "error", none, 100, "s1"⟩]
  entities := [⟨1, "tool", "database"⟩, ⟨2, "tool", "backup"⟩]
  eventEntities := [(1, 1), (1, 2)]

def databaseFirst : Reading twoEntities ["s1"] (fun _ _ => false) none where
  rows := rowsOfSession twoEntities
  rows_perm := fun _ => .refl _
  types := ["tool"]
  types_perm := by decide +kernel
  keys := [("database", "tool")]
  keys_perm := by decide +kernel

theorem groups_exact_iff_databaseFirst : readExistingRules none = [] ∧
    (GroupsExact twoEntities ["s1"] (databaseFirst.groups fun _ => none) ↔
      ∀ e₁ e₂, Linked twoEntities ["s1"] e₁ → Linked twoEntities ["s1"] e₂ → e₁.dupKey = e₂.dupKey → e₁.key = e₂.key) :=
  ⟨rfl, groups_exact_iff rfl _ databaseFirst⟩

theorem an_event_counts_for_one_entity : ¬ GroupsExact twoEntities ["s1"] (databaseFirst.groups fun _ => none) := by
  intro h
  have hlinked : Linked twoEntities ["s1"] ⟨"the backup was lost".toList, none, "s1", 1, "tool", "backup", 100, .error⟩ :=
    ⟨"s1", mem_cons_self, (⟨1, "the backup was lost".toList, "error", none, 100, "s1"⟩, ⟨2, "tool", "backup"⟩),
      by simp [rowsOfSession, twoEntities], rfl⟩
  have hkey := (h.keys ("backup", "tool")).mpr ⟨_, hlinked, rfl⟩
  simp [Reading.groups, remStage_keys, databaseFirst] at hkey

end CloseClaw.Memory.Dreaming
