/- One list that serves several first-in-first-out lanes. -/

import Mathlib.Data.Prod.Lex
import Mathlib.Data.List.Perm.Basic

namespace CloseClaw.Lib.LaneQueue

open List

variable {ι ρ : Type} [LinearOrder ρ] (lane : ι → ρ) (seq : ι → Nat)

def key (i : ι) : ρ ×ₗ Nat := toLex (lane i, seq i)

def place (x : ι) (l : List ι) : List ι := l.insertIdx (l.findIdx fun i => decide (key lane seq x < key lane seq i)) x

def Ordered (l : List ι) : Prop := l.Pairwise fun a b => key lane seq a < key lane seq b

def view [DecidableEq ρ] (l : List ι) (r : ρ) : List ι := l.filter fun i => decide (lane i = r)

variable {lane seq} {x : ι} {l : List ι}

theorem key_lt {a b : ι} : key lane seq a < key lane seq b ↔ lane a < lane b ∨ lane a = lane b ∧ seq a < seq b := by
  simp only [key, Prod.Lex.toLex_lt_toLex]

theorem key_lt_of_seq {a b : ι} (h : seq b < seq a) : key lane seq a < key lane seq b ↔ lane a < lane b := by
  rw [key_lt]
  constructor
  · intro hk
    rcases hk with hk | hk
    · exact hk
    · omega
  · intro hk; exact .inl hk

@[simp] theorem place_nil : place lane seq x [] = [x] := rfl

theorem place_cons (i : ι) : place lane seq x (i :: l) =
    if key lane seq x < key lane seq i then x :: i :: l else i :: place lane seq x l := by
  by_cases h : key lane seq x < key lane seq i
  · simp [place, findIdx_cons, h]
  · simp [place, findIdx_cons, h]

theorem place_perm : (place lane seq x l).Perm (x :: l) := by
  induction l with
  | nil => exact List.Perm.refl _
  | cons i l ih =>
    rw [place_cons]
    split
    · exact List.Perm.refl _
    · exact (ih.cons i).trans (List.Perm.swap x i l)

theorem mem_place {y : ι} : y ∈ place lane seq x l ↔ y = x ∨ y ∈ l := by
  rw [place_perm.mem_iff, mem_cons]

theorem place_last (h : ∀ i ∈ l, key lane seq i < key lane seq x) : place lane seq x l = l ++ [x] := by
  induction l with
  | nil => rfl
  | cons i l ih =>
    have hi : ¬ key lane seq x < key lane seq i := not_lt_of_gt (h i mem_cons_self)
    rw [place_cons, if_neg hi, ih fun j hj => h j (mem_cons_of_mem i hj), cons_append]

theorem Ordered.place (h : Ordered lane seq l) (hx : ∀ i ∈ l, key lane seq i ≠ key lane seq x) :
    Ordered lane seq (place lane seq x l) := by
  induction l with
  | nil => exact pairwise_singleton _ _
  | cons i l ih =>
    obtain ⟨hi, hl⟩ := pairwise_cons.mp h
    rw [place_cons]
    split
    · rename_i hlt
      refine pairwise_cons.mpr ⟨?_, h⟩
      intro j hj
      rcases mem_cons.mp hj with rfl | hj
      · exact hlt
      · exact lt_trans hlt (hi j hj)
    · rename_i hge
      refine pairwise_cons.mpr ⟨?_, ih hl fun j hj => hx j (mem_cons_of_mem i hj)⟩
      intro j hj
      rcases mem_place.mp hj with rfl | hj
      · exact lt_of_le_of_ne (not_lt.mp hge) (hx i mem_cons_self)
      · exact hi j hj

theorem Ordered.lane_le (h : Ordered lane seq l) : l.Pairwise fun a b => lane a ≤ lane b := by
  refine List.Pairwise.imp ?_ h
  intro a b hab
  rcases key_lt.mp hab with hab | hab
  · exact le_of_lt hab
  · exact le_of_eq hab.1

section

variable [DecidableEq ρ]

omit [LinearOrder ρ] in
@[simp] theorem view_nil (r : ρ) : view lane ([] : List ι) r = [] := rfl

omit [LinearOrder ρ] in
theorem view_cons (i : ι) (r : ρ) :
    view lane (i :: l) r = if lane i = r then i :: view lane l r else view lane l r := by
  simp only [view, filter_cons, decide_eq_true_eq]

omit [LinearOrder ρ] in
theorem mem_view {r : ρ} {i : ι} : i ∈ view lane l r ↔ i ∈ l ∧ lane i = r := by
  simp only [view, mem_filter, decide_eq_true_eq]

omit [LinearOrder ρ] in
theorem view_eq_nil {r : ρ} (h : ∀ i ∈ l, lane i ≠ r) : view lane l r = [] := by
  rw [eq_nil_iff_forall_not_mem]
  intro i hi
  exact h i (mem_view.mp hi).1 (mem_view.mp hi).2

theorem view_place (h : Ordered lane seq l) (hx : ∀ i ∈ l, seq i < seq x) (r : ρ) :
    view lane (place lane seq x l) r = if lane x = r then view lane l r ++ [x] else view lane l r := by
  induction l with
  | nil => simp [view_cons]
  | cons i l ih =>
    obtain ⟨hi, hl⟩ := pairwise_cons.mp h
    have hlt : key lane seq x < key lane seq i ↔ lane x < lane i := key_lt_of_seq (hx i mem_cons_self)
    rw [place_cons]
    by_cases hb : lane x < lane i
    · -- every item from here on is in a later lane than the new one
      rw [if_pos (hlt.mpr hb), view_cons]
      by_cases hr : lane x = r
      · have hnone : view lane (i :: l) r = [] := by
          refine view_eq_nil ?_
          intro j hj hjr
          have hij : lane i ≤ lane j := by
            rcases mem_cons.mp hj with rfl | hj
            · exact le_refl _
            · exact (pairwise_cons.mp h.lane_le).1 j hj
          exact absurd (lt_of_lt_of_le hb hij) (by rw [hjr, hr]; exact lt_irrefl r)
        rw [if_pos hr, if_pos hr, hnone, nil_append]
      · rw [if_neg hr, if_neg hr]
    · rw [if_neg (mt hlt.mp hb), view_cons, view_cons, ih hl fun j hj => hx j (mem_cons_of_mem i hj)]
      by_cases hr : lane x = r
      · by_cases hir : lane i = r <;> simp [hr, hir]
      · by_cases hir : lane i = r <;> simp [hr, hir]

theorem Ordered.view_head {i : ι} (h : Ordered lane seq (i :: l)) :
    view lane (i :: l) (lane i) = i :: view lane l (lane i) ∧ ∀ r < lane i, view lane (i :: l) r = [] := by
  refine ⟨by rw [view_cons, if_pos rfl], ?_⟩
  intro r hr
  refine view_eq_nil ?_
  intro j hj hjr
  rcases mem_cons.mp hj with rfl | hj
  · exact absurd hr (by rw [hjr]; exact lt_irrefl r)
  · have hij := (pairwise_cons.mp h.lane_le).1 j hj
    rw [hjr] at hij
    exact absurd hr (not_lt_of_ge hij)

end

end CloseClaw.Lib.LaneQueue
