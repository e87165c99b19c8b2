/- A counter that stands for a set of open items. -/

import Mathlib.Data.Finset.Card
import Mathlib.Algebra.Order.Ring.Int

namespace CloseClaw.Lib

structure Ledger (α : Type) where
  work : Finset α
  balance : Int

namespace Ledger

variable {α : Type} {l : Ledger α} {a : α}

def empty : Ledger α := ⟨∅, 0⟩

def Exact (l : Ledger α) : Prop := l.balance = l.work.card

def flush (l : Ledger α) (p : α → Bool) (n : Nat) : Ledger α := ⟨l.work.filter (fun a => p a = false), l.balance - n⟩

def count (l : Ledger α) (p : α → Bool) : Nat := (l.work.filter (fun a => p a = true)).card

theorem exact_empty : (empty : Ledger α).Exact := rfl

theorem exact_flush_iff (h : l.Exact) {p : α → Bool} {n : Nat} : (l.flush p n).Exact ↔ l.count p = n := by
  unfold Exact at h ⊢
  have hsplit := Finset.card_filter_add_card_filter_not (s := l.work) (fun a => p a = true)
  simp only [Bool.not_eq_true] at hsplit
  simp only [flush, count]
  omega

theorem flush_subset {p : α → Bool} {n : Nat} : (l.flush p n).work ⊆ l.work := Finset.filter_subset _ _

theorem Exact.nonneg (h : l.Exact) : 0 ≤ l.balance := by
  unfold Exact at h
  omega

theorem Exact.eq_zero (h : l.Exact) (hempty : ∀ a, a ∉ l.work) : l.balance = 0 := by
  unfold Exact at h
  rw [h, Finset.eq_empty_of_forall_notMem hempty]
  rfl

variable [DecidableEq α]

def enter (l : Ledger α) (a : α) : Ledger α := ⟨insert a l.work, l.balance + 1⟩

def leave (l : Ledger α) (a : α) : Ledger α := ⟨l.work.erase a, l.balance - 1⟩

def lose (l : Ledger α) (a : α) : Ledger α := ⟨l.work.erase a, l.balance⟩

theorem exact_enter_iff (h : l.Exact) : (l.enter a).Exact ↔ a ∉ l.work := by
  unfold Exact at h ⊢
  by_cases ha : a ∈ l.work
  · simp [enter, ha, h]
  · simp [enter, ha, h, Finset.card_insert_of_notMem]

theorem exact_leave_iff (h : l.Exact) : (l.leave a).Exact ↔ a ∈ l.work := by
  unfold Exact at h ⊢
  by_cases ha : a ∈ l.work
  · have hcard := Finset.card_erase_add_one ha
    simp only [leave, ha, iff_true]
    omega
  · simp [leave, ha, h]

theorem exact_lose_iff (h : l.Exact) : (l.lose a).Exact ↔ a ∉ l.work := by
  unfold Exact at h ⊢
  by_cases ha : a ∈ l.work
  · have hcard := Finset.card_erase_add_one ha
    simp only [lose, ha, not_true_eq_false, iff_false]
    omega
  · simp [lose, ha, h]

theorem exact_lose_leave_iff {b : α} (hab : a ≠ b) (h : l.Exact) :
    ((l.lose a).leave b).Exact ↔ (a ∈ l.work ↔ b ∉ l.work) := by
  unfold Exact at h ⊢
  by_cases ha : a ∈ l.work
  · have hcard := Finset.card_erase_add_one ha
    by_cases hb : b ∈ l.work
    · have hcard' := Finset.card_erase_add_one (Finset.mem_erase.mpr ⟨hab.symm, hb⟩)
      simp only [leave, lose, ha, hb, not_true_eq_false, iff_false]
      omega
    · have hb' : b ∉ l.work.erase a := fun hmem => hb (Finset.mem_of_mem_erase hmem)
      simp only [leave, lose, ha, hb, Finset.erase_eq_of_notMem hb', not_false_eq_true, iff_true]
      omega
  · have hleave := exact_leave_iff (a := b) h
    simp only [ha, false_iff, not_not, lose, Finset.erase_eq_of_notMem ha]
    exact hleave

theorem mem_leave {b : α} : b ∈ (l.leave a).work ↔ b ≠ a ∧ b ∈ l.work := Finset.mem_erase

theorem notMem_leave_self : a ∉ (l.leave a).work := Finset.notMem_erase a l.work

theorem notMem_lose_self : a ∉ (l.lose a).work := Finset.notMem_erase a l.work

theorem mem_enter {b : α} : b ∈ (l.enter a).work ↔ b = a ∨ b ∈ l.work := Finset.mem_insert

theorem leave_subset : (l.leave a).work ⊆ l.work := Finset.erase_subset a l.work

theorem lose_subset : (l.lose a).work ⊆ l.work := Finset.erase_subset a l.work

end Ledger

end CloseClaw.Lib
