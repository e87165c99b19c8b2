/- One cycle of the dreaming pipeline (`memory/src/dreaming.rs`). Rules may carry the group they
   came from (`produced`). -/

import Mathlib.Data.List.Dedup
import Mathlib.Data.List.Sort
import CloseClaw.Lib.LineFormat
import CloseClaw.Lib.Provenance

namespace CloseClaw.Memory.Dreaming

open Lib List LineFormat
open Lib.Provenance (Output outputs SingleBefore)

inductive EntryCategory where
  | error | anger | decision | insight
  deriving DecidableEq

structure MemoryEntry where
  body : List Char
  lesson : Option (List Char)
  sourceSessionId : String
  eventId : Int
  entityType : String
  entityName : String
  updatedAt : Int
  category : EntryCategory

structure EntityGroup where
  entityName : String
  entityType : String
  entries : List MemoryEntry
  frequency : Nat
  crossAgentCount : Nat

def MemoryEntry.key (e : MemoryEntry) : String × String := (e.entityName, e.entityType)

def EntityGroup.key (g : EntityGroup) : String × String := (g.entityName, g.entityType)

/-! ## MEMORY.md -/

def ruleOfLine (line : List Char) : Option (List Char) :=
  if ['-', ' '] <+: line then some (line.drop 2) else none

def rulesOfText (text : List Char) : List (List Char) := (lines text).filterMap ruleOfLine

def readExistingRules (md : Option (List Char)) : List (List Char) := rulesOfText (md.getD [])

def ruleLine (rule : List Char) : List Char := '-' :: ' ' :: (rule ++ ['\n'])

def endLine (text : List Char) : List Char :=
  if text ≠ [] ∧ text.getLast? ≠ some '\n' then text ++ ['\n'] else text

def newRules {ρ : Type} (text : ρ → List Char) (md : Option (List Char)) (rules : List ρ) : List ρ :=
  rules.filter fun r => !(readExistingRules md).contains (text r)

def writeMemoryMd (md : Option (List Char)) (rules : List (List Char)) : Option (List Char) :=
  let appended := newRules id md rules
  if appended.isEmpty then md else some (endLine (md.getD []) ++ appended.flatMap ruleLine)

/-! ## REM and deep stage -/

def entityGroup (agents : String × String → Option Nat) (entries : List MemoryEntry) (key : String × String) :
    EntityGroup :=
  let own := entries.filter (·.key = key)
  { entityName := key.1
    entityType := key.2
    entries := own
    frequency := (own.map (·.sourceSessionId)).dedup.length
    crossAgentCount := (agents key).getD 1 }

def remStage (agents : String × String → Option Nat) (keys : List (String × String))
    (chunks : List (List MemoryEntry)) : List EntityGroup :=
  keys.map (entityGroup agents chunks.flatten)

structure Thresholds where
  absolute : Float
  relative : Float
  maxRules : Nat

def topScore (score : EntityGroup → Float) (groups : List EntityGroup) (entityType : String) : Float :=
  ((groups.filter (·.entityType = entityType)).map score).foldl max (-(1.0 / 0.0))

def applyRelativeFilter (score : EntityGroup → Float) (relative : Float) (groups : List EntityGroup) :
    List EntityGroup :=
  groups.filter fun g => score g ≥ topScore score groups g.entityType * relative

def deepStage (score : EntityGroup → Float) (thresholds : Thresholds) (md : Option (List Char))
    (groups : List EntityGroup) : List EntityGroup :=
  let scored := groups.mergeSort fun a b => !decide (score a < score b)
  let passed := scored.filter fun g => score g ≥ thresholds.absolute
  (applyRelativeFilter score thresholds.relative passed).take (thresholds.maxRules - (readExistingRules md).length)

open EntityGroup

structure Survivors (maxRules : Nat) (md : Option (List Char)) where
  groups : List EntityGroup
  keys : (groups.map key).Nodup
  nonempty : ∀ g ∈ groups, g.entries ≠ []
  capacity : groups.length ≤ maxRules - (readExistingRules md).length

/-! ## Consolidation -/

def rawLessons (group : EntityGroup) : List (List Char) := group.entries.map fun e => e.lesson.getD e.body

def rulesOf (outcome : Option (List Char)) (group : EntityGroup) : List (List Char) :=
  match outcome with
  | some rule => [rule]
  | none => rawLessons group

def consolidateFrom (llm : Nat → Option (List Char)) (k : Nat) : List EntityGroup → List (List Char)
  | [] => []
  | group :: groups => rulesOf (llm k) group ++ consolidateFrom llm (k + 1) groups

def consolidateLessons (llm : Nat → Option (List Char)) (groups : List EntityGroup) : List (List Char) :=
  consolidateFrom llm 0 groups

def cycleRules (llm : Option (Nat → Option (List Char))) (groups : List EntityGroup) : List (List Char) :=
  match llm with
  | some llm => consolidateLessons llm groups
  | none => groups.flatMap rawLessons

/-! ## Verification and promotion -/

structure EventRow where
  id : Int
  updatedAt : Int

abbrev EventsTable := Option (List EventRow)

def verifyEventIntegrity (events : EventsTable) (entry : MemoryEntry) : Bool :=
  match events with
  | none => false
  | some rows => rows.any fun row => row.id == entry.eventId && row.updatedAt == entry.updatedAt

def intact (events : EventsTable) (group : EntityGroup) : Bool := group.entries.all (verifyEventIntegrity events)

def verifyAndFilterRules {ρ : Type} (db : Option EventsTable) (rules : List ρ) (groups : List EntityGroup) : List ρ :=
  match db with
  | none => rules
  | some events => ((rules.zip groups).filter fun p => intact events p.2).map Prod.fst

structure PromotedGroupInfo (ρ : Type) where
  entityName : String
  entityType : String
  lessons : List ρ
  deriving DecidableEq

def PromotedGroupInfo.key {ρ : Type} (p : PromotedGroupInfo ρ) : String × String := (p.entityName, p.entityType)

def buildPromotedGroups {ρ : Type} (text : ρ → List Char) (groups : List EntityGroup) (rules verified : List ρ) :
    List (PromotedGroupInfo ρ) :=
  ((groups.zip rules).filter fun p => (verified.map text).contains (text p.2)).map
    fun p => ⟨p.1.entityName, p.1.entityType, [p.2]⟩

structure Dreamt where
  memoryMd : Option (List Char)
  promoted : List (PromotedGroupInfo (List Char))
  deriving DecidableEq

def dream (db : Option EventsTable) (llm : Option (Nat → Option (List Char))) (md : Option (List Char))
    (groups : List EntityGroup) : Dreamt :=
  let rules := cycleRules llm groups
  let verified := verifyAndFilterRules db rules groups
  { memoryMd := if verified.isEmpty then md else writeMemoryMd md verified
    promoted := buildPromotedGroups id groups rules verified }

/-! ## The survivors -/

theorem remStage_keys (agents : String × String → Option Nat) (keys : List (String × String))
    (chunks : List (List MemoryEntry)) : (remStage agents keys chunks).map key = keys := by
  rw [remStage, map_map]
  exact map_id' keys

theorem entityGroup_entries_ne_nil {agents : String × String → Option Nat} {entries : List MemoryEntry}
    {key : String × String} (h : key ∈ entries.map MemoryEntry.key) :
    (entityGroup agents entries key).entries ≠ [] := by
  obtain ⟨e, he, hkey⟩ := mem_map.mp h
  have hmem : e ∈ (entityGroup agents entries key).entries := mem_filter.mpr ⟨he, by simpa using hkey⟩
  exact ne_nil_of_mem hmem

theorem deepStage_subperm (score : EntityGroup → Float) (thresholds : Thresholds) (md : Option (List Char))
    (groups : List EntityGroup) : (deepStage score thresholds md groups).Subperm groups := by
  have hsorted := mergeSort_perm groups fun a b => !decide (score a < score b)
  refine List.Subperm.trans (List.Sublist.subperm ?_) hsorted.subperm
  exact ((take_sublist _ _).trans filter_sublist).trans filter_sublist

def deepSurvivors (score : EntityGroup → Float) (thresholds : Thresholds) (md : Option (List Char))
    (agents : String × String → Option Nat) (keys : List (String × String)) (chunks : List (List MemoryEntry))
    (hkeys : keys.Perm (chunks.flatten.map MemoryEntry.key).dedup) : Survivors thresholds.maxRules md where
  groups := deepStage score thresholds md (remStage agents keys chunks)
  keys := by
    obtain ⟨kept, hperm, hsub⟩ := deepStage_subperm score thresholds md (remStage agents keys chunks)
    have hkept := hsub.map key
    rw [remStage_keys] at hkept
    exact (hperm.map key).nodup (hkept.nodup (hkeys.nodup_iff.mpr (List.nodup_dedup _)))
  nonempty := by
    intro g hg
    have hrem : g ∈ remStage agents keys chunks := (deepStage_subperm _ _ _ _).subset hg
    obtain ⟨key, hkey, rfl⟩ := mem_map.mp hrem
    exact entityGroup_entries_ne_nil (mem_dedup.mp (hkeys.mem_iff.mp hkey))
  capacity := by
    rw [deepStage, length_take]
    exact Nat.min_le_left _ _

/-! ## Rules with their origin -/

def ruleBlocks (llm : Option (Nat → Option (List Char))) (groups : List EntityGroup) : List (List (List Char)) :=
  groups.mapIdx fun k group => rulesOf (llm.bind (· k)) group

def produced (llm : Option (Nat → Option (List Char))) (groups : List EntityGroup) : List (Output (List Char)) :=
  outputs (ruleBlocks llm groups)

theorem consolidateFrom_eq (llm : Nat → Option (List Char)) (k : Nat) (groups : List EntityGroup) :
    consolidateFrom llm k groups = (groups.mapIdx fun i group => rulesOf (llm (k + i)) group).flatten := by
  induction groups generalizing k with
  | nil => rfl
  | cons group groups ih =>
    rw [consolidateFrom, ih (k + 1), mapIdx_cons, flatten_cons]
    simp only [Nat.add_assoc, Nat.add_comm 1, Nat.add_zero]

variable (llm : Option (Nat → Option (List Char)))

theorem ruleBlocks_flatten (groups : List EntityGroup) : (ruleBlocks llm groups).flatten = cycleRules llm groups := by
  cases llm with
  | none =>
    have hraw : ruleBlocks none groups = groups.map rawLessons := by
      apply List.ext_getElem?
      intro i
      rw [ruleBlocks, List.getElem?_mapIdx, List.getElem?_map]
      rfl
    rw [hraw, cycleRules, flatMap_def]
  | some =>
    rw [cycleRules, consolidateLessons, consolidateFrom_eq]
    simp only [Nat.zero_add]
    rfl

theorem produced_value (groups : List EntityGroup) :
    (produced llm groups).map Output.value = cycleRules llm groups := by
  rw [produced, Provenance.outputs_value, ruleBlocks_flatten]

section Origin

variable {ρ : Type} (text : ρ → List Char)

theorem verifyAndFilterRules_map (db : Option EventsTable) (rules : List ρ) (groups : List EntityGroup) :
    (verifyAndFilterRules db rules groups).map text = verifyAndFilterRules db (rules.map text) groups := by
  cases db with
  | none => rfl
  | some =>
    simp only [verifyAndFilterRules, zip_map_left, filter_map, map_map]
    rfl

theorem newRules_map (md : Option (List Char)) (rules : List ρ) :
    (newRules text md rules).map text = newRules id md (rules.map text) := by
  rw [newRules, newRules, filter_map]
  rfl

end Origin

def promotedRules (events : EventsTable) (llm : Option (Nat → Option (List Char))) (groups : List EntityGroup) :
    List (Output (List Char)) :=
  verifyAndFilterRules (some events) (produced llm groups) groups

def diaryCredits (events : EventsTable) (llm : Option (Nat → Option (List Char))) (groups : List EntityGroup) :
    List (PromotedGroupInfo (Output (List Char))) :=
  buildPromotedGroups Output.value groups (produced llm groups) (promotedRules events llm groups)

def appendedRules (md : Option (List Char)) (events : EventsTable) (llm : Option (Nat → Option (List Char)))
    (groups : List EntityGroup) : List (Output (List Char)) :=
  newRules Output.value md (promotedRules events llm groups)

variable (events : EventsTable)

theorem promotedRules_value (llm : Option (Nat → Option (List Char))) (groups : List EntityGroup) :
    (promotedRules events llm groups).map Output.value
      = verifyAndFilterRules (some events) (cycleRules llm groups) groups := by
  rw [promotedRules, verifyAndFilterRules_map, produced_value]

theorem dream_memoryMd (llm : Option (Nat → Option (List Char))) (md : Option (List Char)) (groups : List EntityGroup) :
    (dream (some events) llm md groups).memoryMd
      = if (appendedRules md events llm groups).isEmpty then md
        else some (endLine (md.getD []) ++ (appendedRules md events llm groups).flatMap (ruleLine ·.value)) := by
  have happended : (appendedRules md events llm groups).map Output.value
      = newRules id md (verifyAndFilterRules (some events) (cycleRules llm groups) groups) := by
    rw [appendedRules, newRules_map, promotedRules_value]
  have hwritten : (appendedRules md events llm groups).flatMap (ruleLine ·.value)
      = ((appendedRules md events llm groups).map Output.value).flatMap ruleLine := by
    rw [flatMap_map]
  have hempty : (appendedRules md events llm groups).isEmpty
      = ((appendedRules md events llm groups).map Output.value).isEmpty := by
    rw [isEmpty_map]
  rw [hwritten, hempty, happended]
  simp only [dream, writeMemoryMd]
  split
  · rename_i hnone
    rw [List.isEmpty_iff.mp hnone]
    rfl
  · rfl

/-! ## The rules of a text -/

theorem endLine_of_whole {text : List Char} (h : Whole text) : endLine text = text := by
  refine if_neg ?_
  intro hopen
  rcases h with h | h
  · exact hopen.1 h
  · exact hopen.2 h

theorem endLine_of_not_whole {text : List Char} (h : ¬ Whole text) : endLine text = text ++ ['\n'] :=
  if_pos ⟨fun hnil => h (.inl hnil), fun hlast => h (.inr hlast)⟩

theorem whole_endLine (text : List Char) : Whole (endLine text) := by
  by_cases h : Whole text
  · rwa [endLine_of_whole h]
  · rw [endLine_of_not_whole h]
    exact whole_append_newline text

theorem whole_ruleLine (rule : List Char) : Whole (ruleLine rule) := by
  rw [ruleLine, ← cons_append, ← cons_append]
  exact whole_append_newline _

theorem rulesOfText_append {t : List Char} (h : Whole t) (u : List Char) :
    rulesOfText (t ++ u) = rulesOfText t ++ rulesOfText u := by
  rw [rulesOfText, lines_append h, filterMap_append]
  rfl

theorem ruleOfLine_stripReturn (l : List Char) : (ruleOfLine (stripReturn l)).isSome = (ruleOfLine l).isSome := by
  have hdash : ∀ m : List Char, (ruleOfLine m).isSome = decide (['-', ' '] <+: m) := by
    intro m
    unfold ruleOfLine
    split <;> simp_all
  rw [hdash, hdash, stripReturn]
  split
  · rename_i hlast
    obtain ⟨m, rfl⟩ := List.getLast?_eq_some_iff.mp hlast
    rw [dropLast_concat, decide_eq_decide]
    constructor
    · intro hm
      exact hm.trans (prefix_append m _)
    · intro hm
      rcases prefix_concat_iff.mp hm with heq | hm
      · have := congrArg List.getLast? heq
        simp at this
      · exact hm
  · rfl

theorem length_rulesOfText_endLine (text : List Char) :
    (rulesOfText (endLine text)).length = (rulesOfText text).length := by
  by_cases h : Whole text
  · rw [endLine_of_whole h]
  · obtain ⟨ls, l, hold, hnew⟩ := lines_end h
    have hlast : ([stripReturn l].filterMap ruleOfLine).length = ([l].filterMap ruleOfLine).length := by
      have hsome := ruleOfLine_stripReturn l
      cases hl : ruleOfLine l <;> cases hs : ruleOfLine (stripReturn l) <;>
        simp [hl, hs] at hsome ⊢
    rw [endLine_of_not_whole h, rulesOfText, rulesOfText, hold, hnew, filterMap_append, filterMap_append,
      length_append, length_append, hlast]

def ruleLines (rule : List Char) : List (List Char) := rulesOfText (ruleLine rule)

theorem rulesOfText_flatMap {ρ : Type} (text : ρ → List Char) (rules : List ρ) :
    rulesOfText (rules.flatMap (ruleLine <| text ·)) = rules.flatMap (ruleLines <| text ·) := by
  induction rules with
  | nil => rfl
  | cons r rules ih =>
    rw [flatMap_cons, rulesOfText_append (whole_ruleLine _), ih, flatMap_cons]
    rfl

theorem length_rules_after (llm : Option (Nat → Option (List Char))) (md : Option (List Char))
    (groups : List EntityGroup) :
    (readExistingRules (dream (some events) llm md groups).memoryMd).length
      = (readExistingRules md).length + ((appendedRules md events llm groups).flatMap (ruleLines ·.value)).length := by
  rw [dream_memoryMd]
  split
  · rename_i hnone
    rw [List.isEmpty_iff.mp hnone]
    rfl
  · rw [readExistingRules, Option.getD_some, rulesOfText_append (whole_endLine _), length_append,
      length_rulesOfText_endLine, rulesOfText_flatMap]
    rfl

end CloseClaw.Memory.Dreaming
