/- Which rules a dreaming cycle writes, and for whom. -/

import CloseClaw.Memory.Dreaming

namespace CloseClaw.Memory.Dreaming

open Lib List Provenance
open Lib.Provenance (Output outputs SingleBefore)

def FromIntact (events : EventsTable) (groups : List EntityGroup) (r : Output (List Char)) : Prop :=
  ∃ g, groups[r.source]? = some g ∧ intact events g = true

def Names (groups : List EntityGroup) (p : PromotedGroupInfo (Output (List Char))) (r : Output (List Char)) : Prop :=
  ∃ g, groups[r.source]? = some g ∧ p.key = g.key

structure LessonsKept (md : Option (List Char)) (maxRules : Nat) (events : EventsTable)
    (llm : Option (Nat → Option (List Char))) (groups : List EntityGroup) : Prop where
  sound : ∀ r ∈ appendedRules md events llm groups, FromIntact events groups r
  complete : ∀ r ∈ produced llm groups, FromIntact events groups r → r.value ∉ readExistingRules md →
    r ∈ appendedRules md events llm groups
  credited : ∀ r ∈ promotedRules events llm groups, ∃ p ∈ diaryCredits events llm groups,
    r ∈ p.lessons ∧ Names groups p r
  creditedOnly : ∀ p ∈ diaryCredits events llm groups, ∀ r ∈ p.lessons, Names groups p r
  capacity : (readExistingRules (dream (some events) llm md groups).memoryMd).length
    ≤ max (readExistingRules md).length maxRules

def firstRules (llm : Option (Nat → Option (List Char))) (groups : List EntityGroup) : List (List Char) :=
  (ruleBlocks llm groups).map (·.headD [])

def intactRules (events : EventsTable) (llm : Option (Nat → Option (List Char))) (groups : List EntityGroup) :
    List (List Char) :=
  verifyAndFilterRules (some events) (firstRules llm groups) groups

def Repeats (events : EventsTable) (llm : Option (Nat → Option (List Char))) (groups : List EntityGroup)
    (i : Nat) : Prop :=
  ∃ text, (cycleRules llm groups)[i]? = some text ∧ text ∈ intactRules events llm groups

structure InStep (md : Option (List Char)) (maxRules : Nat) (events : EventsTable)
    (llm : Option (Nat → Option (List Char))) (groups : List EntityGroup) : Prop where
  /-- The groups before an unmodified one, or before a position that repeats its rule, give
      one rule each. -/
  single : ∀ (i : Nat) g, groups[i]? = some g → intact events g = true ∨ Repeats events llm groups i →
    SingleBefore (ruleBlocks llm groups) i
  /-- An unmodified group gives no new rule but its first. -/
  listed : ∀ (i : Nat) g block, groups[i]? = some g → intact events g = true →
    (ruleBlocks llm groups)[i]? = some block → ∀ text ∈ block.tail, text ∈ readExistingRules md
  fits : (readExistingRules md).length + ((newRules id md (intactRules events llm groups)).flatMap ruleLines).length
    ≤ max (readExistingRules md).length maxRules

/-! ## Positions -/

variable {groups : List EntityGroup}

variable {ρ : Type} {rules : List ρ}

theorem mem_verifyAndFilterRules {events : EventsTable} {r : ρ} :
    r ∈ verifyAndFilterRules (some events) rules groups
      ↔ ∃ (i : Nat) (g : EntityGroup), rules[i]? = some r ∧ groups[i]? = some g ∧ intact events g = true := by
  constructor
  · intro h
    obtain ⟨p, hp, rfl⟩ := mem_map.mp h
    obtain ⟨hzip, hintact⟩ := mem_filter.mp hp
    obtain ⟨i, hi⟩ := List.mem_iff_getElem?.mp hzip
    obtain ⟨hr, hg⟩ := List.getElem?_zip_eq_some.mp hi
    exact ⟨i, p.2, hr, hg, hintact⟩
  · intro h
    obtain ⟨i, g, hr, hg, hintact⟩ := h
    have hzip : (r, g) ∈ rules.zip groups := List.mem_of_getElem? (List.getElem?_zip_eq_some.mpr ⟨hr, hg⟩)
    exact mem_map.mpr ⟨(r, g), mem_filter.mpr ⟨hzip, hintact⟩, rfl⟩

theorem verifyAndFilterRules_cons (events : EventsTable) (r : ρ) (rules : List ρ) (g : EntityGroup)
    (groups : List EntityGroup) : verifyAndFilterRules (some events) (r :: rules) (g :: groups)
      = (if intact events g then [r] else []) ++ verifyAndFilterRules (some events) rules groups := by
  by_cases h : intact events g = true
  · simp [verifyAndFilterRules, h]
  · simp [verifyAndFilterRules, h]

theorem verifyAndFilterRules_congr {events : EventsTable} {rules' : List ρ} (hlength : groups.length ≤ rules.length)
    (hlength' : groups.length ≤ rules'.length)
    (h : ∀ (i : Nat) g, groups[i]? = some g → intact events g = true → rules[i]? = rules'[i]?) :
    verifyAndFilterRules (some events) rules groups = verifyAndFilterRules (some events) rules' groups := by
  induction groups generalizing rules rules' with
  | nil => simp [verifyAndFilterRules]
  | cons g groups ih =>
    obtain ⟨r, rules, rfl⟩ := exists_cons_of_length_pos (Nat.lt_of_lt_of_le (Nat.succ_pos _) hlength)
    obtain ⟨r', rules', rfl⟩ := exists_cons_of_length_pos (Nat.lt_of_lt_of_le (Nat.succ_pos _) hlength')
    have hrest : verifyAndFilterRules (some events) rules groups = verifyAndFilterRules (some events) rules' groups :=
      ih (Nat.le_of_succ_le_succ hlength) (Nat.le_of_succ_le_succ hlength') fun i g hg => h (i + 1) g hg
    rw [verifyAndFilterRules_cons, verifyAndFilterRules_cons, hrest]
    congr 1
    by_cases hg : intact events g = true
    · obtain rfl : r = r' := Option.some.inj (h 0 g rfl hg)
      rfl
    · rw [if_neg hg, if_neg hg]

theorem mem_buildPromotedGroups {text : ρ → List Char} {verified : List ρ} {p : PromotedGroupInfo ρ} :
    p ∈ buildPromotedGroups text groups rules verified
      ↔ ∃ (i : Nat) (g : EntityGroup) (r : ρ), groups[i]? = some g ∧ rules[i]? = some r ∧ text r ∈ verified.map text
          ∧ p = ⟨g.entityName, g.entityType, [r]⟩ := by
  constructor
  · intro h
    obtain ⟨q, hq, rfl⟩ := mem_map.mp h
    obtain ⟨hzip, hverified⟩ := mem_filter.mp hq
    obtain ⟨i, hi⟩ := List.mem_iff_getElem?.mp hzip
    obtain ⟨hg, hr⟩ := List.getElem?_zip_eq_some.mp hi
    exact ⟨i, q.1, q.2, hg, hr, contains_iff_mem.mp hverified, rfl⟩
  · intro h
    obtain ⟨i, g, r, hg, hr, hverified, rfl⟩ := h
    have hzip : (g, r) ∈ groups.zip rules := List.mem_of_getElem? (List.getElem?_zip_eq_some.mpr ⟨hg, hr⟩)
    exact mem_map.mpr ⟨(g, r), mem_filter.mpr ⟨hzip, contains_iff_mem.mpr hverified⟩, rfl⟩

theorem ruleBlocks_get (llm : Option (Nat → Option (List Char))) (groups : List EntityGroup) (i : Nat) :
    (ruleBlocks llm groups)[i]? = groups[i]?.map (rulesOf (llm.bind (· i))) := by
  rw [ruleBlocks, List.getElem?_mapIdx]

theorem rulesOf_ne_nil {outcome : Option (List Char)} {g : EntityGroup} (h : g.entries ≠ []) :
    rulesOf outcome g ≠ [] := by
  cases outcome with
  | none => simpa [rulesOf, rawLessons] using h
  | some => exact cons_ne_nil _ _

section Cycle

variable {md : Option (List Char)} {maxRules : Nat} {events : EventsTable} {llm : Option (Nat → Option (List Char))}
variable (survivors : Survivors maxRules md)

theorem Survivors.ruleBlocks_ne_nil : ∀ block ∈ ruleBlocks llm survivors.groups, block ≠ [] := by
  intro block hblock
  obtain ⟨i, hi⟩ := List.mem_iff_getElem?.mp hblock
  rw [ruleBlocks_get, Option.map_eq_some_iff] at hi
  obtain ⟨g, hg, rfl⟩ := hi
  exact rulesOf_ne_nil (survivors.nonempty g (List.mem_of_getElem? hg))

theorem Survivors.length_le_produced : survivors.groups.length ≤ (produced llm survivors.groups).length := by
  have hne : ∀ block ∈ ruleBlocks llm survivors.groups, block ≠ [] := survivors.ruleBlocks_ne_nil
  have hle := length_outputs hne
  rwa [ruleBlocks, length_mapIdx] at hle

variable {g : EntityGroup} {r : Output (List Char)}

theorem Survivors.source_eq_iff {i : Nat} (hg : survivors.groups[i]? = some g)
    (hr : (produced llm survivors.groups)[i]? = some r) :
    r.source = i ↔ SingleBefore (ruleBlocks llm survivors.groups) i := by
  have hi : i < (ruleBlocks llm survivors.groups).length := by
    rw [ruleBlocks, length_mapIdx]
    exact (List.getElem?_eq_some_iff.mp hg).1
  exact Provenance.source_eq_iff survivors.ruleBlocks_ne_nil hi hr

theorem Survivors.firstRules_get {i : Nat} (hg : survivors.groups[i]? = some g)
    (hsingle : SingleBefore (ruleBlocks llm survivors.groups) i) :
    ∃ text, (firstRules llm survivors.groups)[i]? = some text
      ∧ (produced llm survivors.groups)[i]? = some ⟨text, i, 0⟩ := by
  have hblock : (ruleBlocks llm survivors.groups)[i]? = some (rulesOf (llm.bind (· i)) g) := by
    rw [ruleBlocks_get, hg]
    rfl
  have hne := survivors.ruleBlocks_ne_nil _ (List.mem_of_getElem? hblock)
  obtain ⟨text, rest, hrules⟩ := exists_cons_of_ne_nil hne
  rw [hrules] at hblock
  refine ⟨text, ?_, outputs_get_of_single hsingle hblock rfl⟩
  rw [firstRules, List.getElem?_map, hblock]
  rfl

theorem Survivors.eq_of_key {i j : Nat} {h : EntityGroup} (hi : survivors.groups[i]? = some g)
    (hj : survivors.groups[j]? = some h) (hkey : g.key = h.key) : i = j := by
  have hi' : (survivors.groups.map EntityGroup.key)[i]? = some g.key := by rw [List.getElem?_map, hi]; rfl
  have hj' : (survivors.groups.map EntityGroup.key)[j]? = some g.key := by rw [List.getElem?_map, hj, hkey]; rfl
  have hlt : i < (survivors.groups.map EntityGroup.key).length := (List.getElem?_eq_some_iff.mp hi').1
  exact (List.getElem?_inj hlt survivors.keys).mp (hi'.trans hj'.symm)

/-! ## Rules in step -/

def IntactInStep (events : EventsTable) (llm : Option (Nat → Option (List Char))) (groups : List EntityGroup) : Prop :=
  ∀ (i : Nat) g, groups[i]? = some g → intact events g = true → SingleBefore (ruleBlocks llm groups) i

theorem Survivors.mem_promotedRules (hsingle : IntactInStep events llm survivors.groups)
    (hr : r ∈ promotedRules events llm survivors.groups) :
    FromIntact events survivors.groups r ∧ r.place = 0 ∧ (produced llm survivors.groups)[r.source]? = some r := by
  obtain ⟨i, g, hget, hg, hintact⟩ := mem_verifyAndFilterRules.mp hr
  obtain ⟨text, -, hproduced⟩ := survivors.firstRules_get hg (hsingle i g hg hintact)
  obtain rfl : r = ⟨text, i, 0⟩ := Option.some.inj (hget.symm.trans hproduced)
  exact ⟨⟨g, hg, hintact⟩, rfl, hget⟩

theorem Survivors.promotedRules_in_step (hsingle : IntactInStep events llm survivors.groups) :
    (promotedRules events llm survivors.groups).map Output.value = intactRules events llm survivors.groups := by
  rw [promotedRules_value, ← produced_value, intactRules]
  have hproduced : survivors.groups.length ≤ ((produced llm survivors.groups).map Output.value).length := by
    rw [length_map]
    exact survivors.length_le_produced
  have hfirst : survivors.groups.length ≤ (firstRules llm survivors.groups).length := by
    rw [firstRules, length_map, ruleBlocks, length_mapIdx]
  refine verifyAndFilterRules_congr hproduced hfirst ?_
  intro i g hg hintact
  obtain ⟨text, hfirst, hproduced⟩ := survivors.firstRules_get hg (hsingle i g hg hintact)
  rw [List.getElem?_map, hproduced, hfirst]
  rfl

theorem Survivors.length_rules_in_step (hsingle : IntactInStep events llm survivors.groups) :
    (readExistingRules (dream (some events) llm md survivors.groups).memoryMd).length
      = (readExistingRules md).length
        + ((newRules id md (intactRules events llm survivors.groups)).flatMap ruleLines).length := by
  have hlines : (appendedRules md events llm survivors.groups).flatMap (ruleLines ·.value)
      = (newRules id md (intactRules events llm survivors.groups)).flatMap ruleLines := by
    rw [← survivors.promotedRules_in_step hsingle, ← newRules_map, flatMap_map]
    rfl
  rw [length_rules_after, hlines]

theorem mem_diaryCredits {groups : List EntityGroup} {i : Nat} (hg : groups[i]? = some g)
    (hr : (produced llm groups)[i]? = some r) (htext : r.value ∈ (promotedRules events llm groups).map Output.value) :
    ⟨g.entityName, g.entityType, [r]⟩ ∈ diaryCredits events llm groups :=
  mem_buildPromotedGroups.mpr ⟨i, g, r, hg, hr, htext, rfl⟩

theorem mem_appendedRules {groups : List EntityGroup} :
    r ∈ appendedRules md events llm groups ↔ r ∈ promotedRules events llm groups ∧ r.value ∉ readExistingRules md := by
  simp [appendedRules, newRules]

theorem InStep.lessonsKept (h : InStep md maxRules events llm survivors.groups) :
    LessonsKept md maxRules events llm survivors.groups := by
  have hsingle : IntactInStep events llm survivors.groups := fun i g hg hintact => h.single i g hg (.inl hintact)
  constructor
  case sound =>
    intro r hr
    exact (survivors.mem_promotedRules hsingle (mem_appendedRules.mp hr).1).1
  case complete =>
    intro r hr hintact hnew
    obtain ⟨g, hg, hintact⟩ := hintact
    obtain ⟨block, hblock, hvalue⟩ := mem_outputs.mp hr
    -- a rule behind the first of an unmodified group is listed
    have hplace : r.place = 0 := by
      by_contra hne
      obtain ⟨p, hp⟩ := Nat.exists_eq_succ_of_ne_zero hne
      rw [hp] at hvalue
      have htail : r.value ∈ block.tail := List.mem_of_getElem? (by rw [List.getElem?_tail]; exact hvalue)
      exact hnew (h.listed r.source g block hg hintact hblock r.value htail)
    rw [hplace] at hvalue
    have hget := outputs_get_of_single (hsingle r.source g hg hintact) hblock hvalue
    have hself : (produced llm survivors.groups)[r.source]? = some r := by
      rw [produced, hget, ← hplace]
    exact mem_appendedRules.mpr ⟨mem_verifyAndFilterRules.mpr ⟨r.source, g, hself, hg, hintact⟩, hnew⟩
  case credited =>
    intro r hr
    obtain ⟨⟨g, hg, -⟩, -, hget⟩ := survivors.mem_promotedRules hsingle hr
    exact ⟨_, mem_diaryCredits hg hget (mem_map_of_mem hr), mem_singleton_self r, g, hg, rfl⟩
  case creditedOnly =>
    intro p hp r hr
    obtain ⟨i, g, r', hg, hget, htext, rfl⟩ := mem_buildPromotedGroups.mp hp
    obtain rfl : r = r' := mem_singleton.mp hr
    have hrepeats : Repeats events llm survivors.groups i := by
      refine ⟨r.value, ?_, ?_⟩
      · rw [← produced_value, List.getElem?_map, hget]
        rfl
      · rwa [survivors.promotedRules_in_step hsingle] at htext
    have hsource : r.source = i := (survivors.source_eq_iff hg hget).mpr (h.single i g hg (.inr hrepeats))
    exact ⟨g, by rw [hsource]; exact hg, rfl⟩
  case capacity =>
    rw [survivors.length_rules_in_step hsingle]
    exact h.fits

theorem LessonsKept.single_of_text (h : LessonsKept md maxRules events llm survivors.groups)
    {i : Nat} (hg : survivors.groups[i]? = some g) (hr : (produced llm survivors.groups)[i]? = some r)
    (htext : r.value ∈ (promotedRules events llm survivors.groups).map Output.value) :
    SingleBefore (ruleBlocks llm survivors.groups) i := by
  obtain ⟨g', hg', hkey⟩ := h.creditedOnly _ (mem_diaryCredits hg hr htext) r (mem_singleton_self r)
  have hsource : i = r.source := survivors.eq_of_key hg hg' hkey
  exact (survivors.source_eq_iff hg hr).mp hsource.symm

theorem LessonsKept.inStep (h : LessonsKept md maxRules events llm survivors.groups) :
    InStep md maxRules events llm survivors.groups := by
  have hsingle : IntactInStep events llm survivors.groups := by
    intro i g hg hintact
    have hi : i < (produced llm survivors.groups).length :=
      Nat.lt_of_lt_of_le (List.getElem?_eq_some_iff.mp hg).1 survivors.length_le_produced
    have hr : (produced llm survivors.groups)[i]? = some (produced llm survivors.groups)[i] :=
      List.getElem?_eq_getElem hi
    refine h.single_of_text survivors hg hr (mem_map_of_mem ?_)
    exact mem_verifyAndFilterRules.mpr ⟨i, g, hr, hg, hintact⟩
  constructor
  case single =>
    intro i g hg hmatters
    rcases hmatters with hintact | hrepeats
    · exact hsingle i g hg hintact
    · obtain ⟨text, htext, hmem⟩ := hrepeats
      rw [← produced_value, List.getElem?_map, Option.map_eq_some_iff] at htext
      obtain ⟨r, hr, rfl⟩ := htext
      rw [← survivors.promotedRules_in_step hsingle] at hmem
      exact h.single_of_text survivors hg hr hmem
  case listed =>
    intro i g block hg hintact hblock text htext
    by_contra hnew
    obtain ⟨p, hp⟩ := List.mem_iff_getElem?.mp htext
    rw [List.getElem?_tail] at hp
    have hproduced : (⟨text, i, p + 1⟩ : Output (List Char)) ∈ produced llm survivors.groups :=
      mem_outputs.mpr ⟨block, hblock, hp⟩
    have happended := h.complete _ hproduced ⟨g, hg, hintact⟩ hnew
    have hplace := (survivors.mem_promotedRules hsingle (mem_appendedRules.mp happended).1).2.1
    exact Nat.succ_ne_zero p hplace
  case fits =>
    rw [← survivors.length_rules_in_step hsingle]
    exact h.capacity

end Cycle

/-- A cycle keeps its lessons exactly when its rules are in step with the groups. -/
theorem dreamt_rules_kept_iff {md : Option (List Char)} {maxRules : Nat} (survivors : Survivors maxRules md)
    (llm : Option (Nat → Option (List Char))) (events : EventsTable) :
    LessonsKept md maxRules events llm survivors.groups ↔ InStep md maxRules events llm survivors.groups :=
  ⟨fun h => h.inStep survivors, fun h => h.lessonsKept survivors⟩

def databaseEntry (eventId : Int) (lesson : String) : MemoryEntry :=
  ⟨[], some lesson.toList, "s1", eventId, "tool", "database", 100, .error⟩

def shiftedGroups : Survivors 10 none where
  groups :=
    [⟨"database", "tool", [databaseEntry 1 "skip the backup", databaseEntry 2 "drop the index"], 1, 1⟩,
     ⟨"build", "tool", [⟨[], some "pin versions".toList, "s2", 3, "tool", "build", 100, .error⟩], 1, 1⟩]
  keys := by decide
  nonempty := by decide
  capacity := by decide

def failsOnce : Option (Nat → Option (List Char)) :=
  some fun k => if k = 0 then none else some "Pin all versions.".toList

theorem a_raw_lesson_passes_for_the_next_group :
    dream (some (some [⟨2, 100⟩, ⟨3, 100⟩])) failsOnce none shiftedGroups.groups
        = ⟨some "- drop the index\n".toList, [⟨"build", "tool", ["drop the index".toList]⟩]⟩
      ∧ ¬ LessonsKept none 10 (some [⟨2, 100⟩, ⟨3, 100⟩]) failsOnce shiftedGroups.groups := by
  refine ⟨by decide +kernel, ?_⟩
  intro h
  obtain ⟨g, hg, hintact⟩ := h.sound ⟨"drop the index".toList, 0, 1⟩ (by decide +kernel)
  obtain rfl : shiftedGroups.groups[0] = g := Option.some.inj hg
  exact absurd hintact (by decide +kernel)

end CloseClaw.Memory.Dreaming
