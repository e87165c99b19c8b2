/- An index from keys to positions. -/

import Mathlib.Data.List.AList

namespace CloseClaw.Lib.KeyIndex

open List

variable {κ ν α : Type} [DecidableEq κ]

def indexed (m : AList fun _ : κ => List ν) (k : κ) : List ν := (m.lookup k).getD []

def push (m : AList fun _ : κ => List ν) (k : κ) (v : ν) : AList fun _ : κ => List ν := m.insert k (indexed m k ++ [v])

@[simp] theorem indexed_empty (k : κ) : indexed (∅ : AList fun _ : κ => List ν) k = [] := rfl

theorem mem_indexed_push {m : AList fun _ : κ => List ν} {k k' : κ} {v w : ν} :
    w ∈ indexed (push m k v) k' ↔ w ∈ indexed m k' ∨ (k' = k ∧ w = v) := by
  unfold push
  by_cases h : k' = k
  · subst h
    rw [indexed, AList.lookup_insert]
    simp
  · rw [indexed, AList.lookup_insert_ne h]
    simp [h, indexed]

theorem mem_indexed_fold {σ : Type} (view : σ → AList fun _ : κ => List ν) (keys : α → List κ) (step : σ → α × ν → σ)
    (hstep : ∀ s p k w, w ∈ indexed (view (step s p)) k ↔ w ∈ indexed (view s) k ∨ (k ∈ keys p.1 ∧ w = p.2)) :
    ∀ (items : List (α × ν)) (s : σ) (k : κ) (w : ν),
      w ∈ indexed (view (items.foldl step s)) k ↔ w ∈ indexed (view s) k ∨ ∃ a, (a, w) ∈ items ∧ k ∈ keys a := by
  intro items
  induction items with
  | nil => intro s k w; simp
  | cons p items ih =>
    intro s k w
    rw [foldl_cons, ih, hstep]
    constructor
    · intro hor
      rcases hor with (h | ⟨h, rfl⟩) | ⟨a, ha, hk⟩
      · exact .inl h
      · exact .inr ⟨p.1, mem_cons_self, h⟩
      · exact .inr ⟨a, mem_cons_of_mem _ ha, hk⟩
    · intro hor
      rcases hor with h | ⟨a, ha, hk⟩
      · exact .inl (.inl h)
      · rcases mem_cons.mp ha with rfl | ha
        · exact .inl (.inr ⟨hk, rfl⟩)
        · exact .inr ⟨a, ha, hk⟩

def fill (value : κ → ν) (keys : List κ) (m : AList fun _ : κ => ν) : AList fun _ : κ => ν :=
  keys.foldl (fun m k => m.insert k (value k)) m

theorem lookup_fill {value : κ → ν} {keys : List κ} {k : κ} :
    ∀ {m : AList fun _ : κ => ν}, (fill value keys m).lookup k = if k ∈ keys then some (value k) else m.lookup k := by
  induction keys with
  | nil => intro m; rfl
  | cons x keys ih =>
    intro m
    rw [fill, foldl_cons, ← fill, ih]
    by_cases hk : k ∈ keys
    · simp [hk]
    · by_cases hx : k = x
      · subst hx; simp [hk, AList.lookup_insert]
      · simp [hk, hx, AList.lookup_insert_ne hx]

end CloseClaw.Lib.KeyIndex
