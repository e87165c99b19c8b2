/- Loops whose rounds each change one entry of a keyed state. -/

import Mathlib.Data.List.Nodup

namespace CloseClaw.Lib

open List

variable {σ κ ν α : Type}

structure LocalStep (view : σ → κ → ν) (key : α → κ) (f : σ → α → σ) (g : α → ν → ν) : Prop where
  self : ∀ s a, view (f s a) (key a) = g a (view s (key a))
  other : ∀ s a k, k ≠ key a → view (f s a) k = view s k

namespace LocalStep

variable {view : σ → κ → ν} {key : α → κ} {f : σ → α → σ} {g : α → ν → ν} {s : σ} {xs : List α}

theorem foldl_of_not_mem (h : LocalStep view key f g) {k : κ} (hk : k ∉ xs.map key) :
    view (xs.foldl f s) k = view s k := by
  induction xs generalizing s with
  | nil => rfl
  | cons a xs ih =>
    simp only [map_cons, mem_cons, not_or] at hk
    rw [foldl_cons, ih hk.2, h.other s a k hk.1]

theorem foldl_of_mem (h : LocalStep view key f g) (hnd : (xs.map key).Nodup) {a : α} (ha : a ∈ xs) :
    view (xs.foldl f s) (key a) = g a (view s (key a)) := by
  induction xs generalizing s with
  | nil => cases ha
  | cons b xs ih =>
    simp only [map_cons, nodup_cons] at hnd
    rw [foldl_cons]
    rcases mem_cons.mp ha with rfl | ha
    · rw [h.foldl_of_not_mem hnd.1, h.self]
    · have hne : key a ≠ key b := fun e => hnd.1 (e ▸ mem_map_of_mem ha)
      rw [ih hnd.2 ha, h.other s b _ hne]

end LocalStep

theorem KeyedFold.map_filterMap_sublist {key : α → κ} {find : κ → Option α} (h : ∀ k a, find k = some a → key a = k)
    (ks : List κ) : ((ks.filterMap find).map key).Sublist ks := by
  induction ks with
  | nil => exact List.Sublist.refl _
  | cons k ks ih =>
    cases hk : find k with
    | none => simpa [hk] using ih.cons k
    | some a => simpa [hk, h k a hk] using ih.cons_cons k

end CloseClaw.Lib
