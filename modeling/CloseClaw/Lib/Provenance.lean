/- Outputs matched to their sources by position. -/

import Mathlib.Data.List.Basic
import Mathlib.Tactic.Common

namespace CloseClaw.Lib.Provenance

open List

structure Output (α : Type) where
  value : α
  source : Nat
  place : Nat
  deriving DecidableEq

variable {α : Type}

def ofSource (k : Nat) (block : List α) : List (Output α) := block.mapIdx fun p a => ⟨a, k, p⟩

def outputsFrom (k : Nat) : List (List α) → List (Output α)
  | [] => []
  | block :: blocks => ofSource k block ++ outputsFrom (k + 1) blocks

def outputs (blocks : List (List α)) : List (Output α) := outputsFrom 0 blocks

def SingleBefore (blocks : List (List α)) (i : Nat) : Prop :=
  ∀ k < i, ∀ block, blocks[k]? = some block → block.length = 1

variable {block : List α} {blocks : List (List α)}

theorem SingleBefore.tail {i : Nat} (h : SingleBefore (block :: blocks) (i + 1)) : SingleBefore blocks i :=
  fun k hk b hb => h (k + 1) (by omega) b hb

@[simp] theorem length_ofSource (k : Nat) (block : List α) : (ofSource k block).length = block.length := by
  simp [ofSource]

variable {r : Output α}

variable {k i : Nat} {a : α}

theorem ofSource_get (h : (ofSource k block)[i]? = some r) :
    r.source = k ∧ r.place = i ∧ block[i]? = some r.value := by
  rw [ofSource, List.getElem?_mapIdx, Option.map_eq_some_iff] at h
  obtain ⟨a, ha, rfl⟩ := h
  exact ⟨rfl, rfl, ha⟩

theorem mem_ofSource : r ∈ ofSource k block ↔ r.source = k ∧ block[r.place]? = some r.value := by
  constructor
  · intro h
    obtain ⟨p, hp⟩ := List.mem_iff_getElem?.mp h
    obtain ⟨hsource, hplace, hvalue⟩ := ofSource_get hp
    exact ⟨hsource, by rw [hplace]; exact hvalue⟩
  · intro h
    obtain ⟨hsource, hvalue⟩ := h
    refine List.mem_iff_getElem?.mpr ⟨r.place, ?_⟩
    rw [ofSource, List.getElem?_mapIdx, hvalue, ← hsource]
    rfl

theorem outputsFrom_value (k : Nat) (blocks : List (List α)) :
    (outputsFrom k blocks).map Output.value = blocks.flatten := by
  induction blocks generalizing k with
  | nil => rfl
  | cons block blocks ih =>
    rw [outputsFrom, map_append, ih (k + 1), flatten_cons]
    congr 1
    apply List.ext_getElem?
    intro i
    rw [List.getElem?_map, ofSource, List.getElem?_mapIdx, Option.map_map]
    exact Option.map_id'

theorem outputs_value (blocks : List (List α)) : (outputs blocks).map Output.value = blocks.flatten :=
  outputsFrom_value 0 blocks

theorem mem_outputsFrom : r ∈ outputsFrom k blocks
      ↔ ∃ i block, r.source = k + i ∧ blocks[i]? = some block ∧ block[r.place]? = some r.value := by
  induction blocks generalizing k with
  | nil => simp [outputsFrom]
  | cons block blocks ih =>
    rw [outputsFrom, mem_append, mem_ofSource, ih]
    constructor
    · intro h
      rcases h with ⟨hsource, hvalue⟩ | ⟨i, b, hsource, hb, hvalue⟩
      · exact ⟨0, block, hsource, rfl, hvalue⟩
      · exact ⟨i + 1, b, by omega, hb, hvalue⟩
    · intro h
      obtain ⟨i, b, hsource, hb, hvalue⟩ := h
      cases i with
      | zero =>
        obtain rfl : block = b := Option.some.inj hb
        exact .inl ⟨hsource, hvalue⟩
      | succ i => exact .inr ⟨i, b, by omega, hb, hvalue⟩

theorem mem_outputs :
    r ∈ outputs blocks ↔ ∃ block, blocks[r.source]? = some block ∧ block[r.place]? = some r.value := by
  rw [outputs, mem_outputsFrom]
  constructor
  · intro h
    obtain ⟨i, block, hsource, hblock, hvalue⟩ := h
    exact ⟨block, by rw [hsource, Nat.zero_add]; exact hblock, hvalue⟩
  · intro h
    obtain ⟨block, hblock, hvalue⟩ := h
    exact ⟨r.source, block, (Nat.zero_add _).symm, hblock, hvalue⟩

theorem length_outputsFrom (hne : ∀ block ∈ blocks, block ≠ []) : blocks.length ≤ (outputsFrom k blocks).length := by
  induction blocks generalizing k with
  | nil => exact Nat.zero_le _
  | cons block blocks ih =>
    have hblock : 0 < block.length := length_pos_iff.mpr (hne block mem_cons_self)
    have hrest : blocks.length ≤ (outputsFrom (k + 1) blocks).length := ih fun b hb => hne b (mem_cons_of_mem _ hb)
    rw [outputsFrom, length_append, length_ofSource, length_cons]
    omega

theorem length_outputs (hne : ∀ block ∈ blocks, block ≠ []) : blocks.length ≤ (outputs blocks).length :=
  length_outputsFrom hne

theorem outputsFrom_get (hne : ∀ block ∈ blocks, block ≠ []) (h : (outputsFrom k blocks)[i]? = some r) :
    r.source ≤ k + i ∧ (r.source = k + i → SingleBefore blocks i) := by
  induction blocks generalizing k i with
  | nil => cases h
  | cons block blocks ih =>
    have hblock : 0 < block.length := length_pos_iff.mpr (hne block mem_cons_self)
    by_cases hi : i < block.length
    · rw [outputsFrom, List.getElem?_append_left (by simpa using hi)] at h
      obtain ⟨hsource, -, -⟩ := ofSource_get h
      exact ⟨by omega, fun heq k hk => by omega⟩
    · rw [outputsFrom, List.getElem?_append_right (by simpa using hi), length_ofSource] at h
      obtain ⟨hle, heq⟩ := ih (fun b hb => hne b (mem_cons_of_mem _ hb)) h
      refine ⟨by omega, fun hsource => ?_⟩
      have hone : block.length = 1 := by omega
      have hrest : SingleBefore blocks (i - block.length) := heq (by omega)
      intro j hj b hb
      cases j with
      | zero =>
        obtain rfl : block = b := Option.some.inj hb
        exact hone
      | succ j => exact hrest j (by omega) b hb

theorem outputsFrom_get_of_single (hsingle : SingleBefore blocks i) (hi : blocks[i]? = some block)
    (ha : block[0]? = some a) : (outputsFrom k blocks)[i]? = some ⟨a, k + i, 0⟩ := by
  induction blocks generalizing k i with
  | nil => cases hi
  | cons first blocks ih =>
    cases i with
    | zero =>
      obtain rfl : first = block := Option.some.inj hi
      have hpos : 0 < first.length := (List.getElem?_eq_some_iff.mp ha).1
      rw [outputsFrom, List.getElem?_append_left (by simpa using hpos), ofSource, List.getElem?_mapIdx, ha]
      rfl
    | succ =>
      have hone : first.length = 1 := hsingle 0 (by omega) first rfl
      rw [outputsFrom, List.getElem?_append_right (by simp [hone]), length_ofSource, hone, Nat.add_sub_cancel,
        ih hsingle.tail hi, Nat.add_right_comm, Nat.add_assoc]

theorem outputs_get_of_single (hsingle : SingleBefore blocks i) (hi : blocks[i]? = some block)
    (ha : block[0]? = some a) : (outputs blocks)[i]? = some ⟨a, i, 0⟩ := by
  have hget := outputsFrom_get_of_single (k := 0) hsingle hi ha
  rwa [Nat.zero_add] at hget

theorem source_eq_iff (hne : ∀ block ∈ blocks, block ≠ []) (hi : i < blocks.length)
    (h : (outputs blocks)[i]? = some r) : r.source = i ↔ SingleBefore blocks i := by
  constructor
  · intro hsource
    exact (outputsFrom_get hne h).2 (by omega)
  · intro hsingle
    have hblock : blocks[i]? = some (blocks[i]) := List.getElem?_eq_getElem hi
    have hpos : 0 < (blocks[i]).length := length_pos_iff.mpr (hne _ (getElem_mem hi))
    have hget := outputs_get_of_single hsingle hblock (List.getElem?_eq_getElem hpos)
    rw [h] at hget
    rw [Option.some.inj hget]

end CloseClaw.Lib.Provenance
