/- Patches of a list, put in place from back to front. -/

import Mathlib.Data.List.Pairwise
import Mathlib.Data.List.Perm.Basic

namespace CloseClaw.Lib

open List

structure Patch (α : Type) where
  start : Nat
  stop : Nat
  text : List α

namespace Patch

variable {α : Type} {ms ms' : List (Patch α)} {l : List α}

def replaceRange (l : List α) (m : Patch α) : List α := l.take m.start ++ m.text ++ l.drop m.stop

def overlap (a b : Patch α) : Bool := a.start < b.stop && b.start < a.stop

def neighboursOverlap : List (Patch α) → Bool
  | a :: b :: rest => overlap a b || neighboursOverlap (b :: rest)
  | _ => false

def sorted (ms : List (Patch α)) : List (Patch α) := ms.mergeSort fun a b => a.start ≤ b.start

def sortedBack (ms : List (Patch α)) : List (Patch α) := ms.mergeSort fun a b => b.start ≤ a.start

def Before (a b : Patch α) : Prop := a.stop ≤ b.start

def splice (pos : Nat) (l : List α) : List (Patch α) → List α
  | [] => l
  | m :: ms => l.take (m.start - pos) ++ m.text ++ splice m.stop (l.drop (m.stop - pos)) ms

theorem splice_cons {pos : Nat} (c : α) (l : List α) (h : ∀ m ∈ ms, pos < m.start ∧ m.start ≤ m.stop) :
    splice pos (c :: l) ms = c :: splice (pos + 1) l ms := by
  cases ms with
  | nil => rfl
  | cons m =>
    obtain ⟨hstart, hstop⟩ := h m mem_cons_self
    have htake : m.start - pos = m.start - (pos + 1) + 1 := by omega
    have hdrop : m.stop - pos = m.stop - (pos + 1) + 1 := by omega
    simp only [splice, htake, hdrop, take_succ_cons, drop_succ_cons, cons_append]

def Proper (ms : List (Patch α)) : Prop := ∀ m ∈ ms, m.start < m.stop

def Apart (ms : List (Patch α)) : Prop := ms.Pairwise fun a b => overlap a b = false

theorem sorted_perm (ms : List (Patch α)) : (sorted ms).Perm ms := mergeSort_perm _ _

theorem Proper.perm (h : Proper ms) (hp : ms'.Perm ms) : Proper ms' := fun m hm => h m (hp.subset hm)

theorem Apart.perm (h : Apart ms) (hp : ms.Perm ms') : Apart ms' := by
  refine hp.pairwise h ?_
  intro a b hab
  rwa [overlap, Bool.and_comm]

theorem sorted_pairwise (ms : List (Patch α)) : (sorted ms).Pairwise fun a b => a.start ≤ b.start := by
  refine (pairwise_mergeSort ?_ ?_ ms).imp fun hab => of_decide_eq_true hab
  · intro a b c hab hbc
    simp only [decide_eq_true_eq] at *
    exact Nat.le_trans hab hbc
  · intro a b
    simpa using Nat.le_total a.start b.start

theorem sortedBack_pairwise (ms : List (Patch α)) : (sortedBack ms).Pairwise fun a b => b.start ≤ a.start := by
  refine (pairwise_mergeSort ?_ ?_ ms).imp fun hab => of_decide_eq_true hab
  · intro a b c hab hbc
    simp only [decide_eq_true_eq] at *
    exact Nat.le_trans hbc hab
  · intro a b
    simpa using Nat.le_total b.start a.start

variable {a b : Patch α}

theorem overlap_eq_false (ha : a.start ≤ b.start) (hb : b.start < b.stop) : overlap a b = false ↔ Before a b := by
  simp only [overlap, Before, Bool.and_eq_false_iff, decide_eq_false_iff_not]
  omega

theorem neighboursOverlap_eq_false (hs : ms.Pairwise fun a b => a.start ≤ b.start) (hp : Proper ms) :
    neighboursOverlap ms = false ↔ ms.Pairwise Before := by
  induction ms with
  | nil => simp [neighboursOverlap]
  | cons a rest ih =>
    obtain ⟨ha, hrest⟩ := pairwise_cons.mp hs
    have hproper : Proper rest := fun m hm => hp m (mem_cons_of_mem _ hm)
    cases rest with
    | nil => simp [neighboursOverlap]
    | cons b =>
      rw [neighboursOverlap, Bool.or_eq_false_iff, ih hrest hproper,
        overlap_eq_false (ha b mem_cons_self) (hproper b mem_cons_self)]
      refine ⟨?_, fun h => ⟨(pairwise_cons.mp h).1 b mem_cons_self, (pairwise_cons.mp h).2⟩⟩
      rintro ⟨hab, hpair⟩
      refine pairwise_cons.mpr ⟨?_, hpair⟩
      intro c hc
      -- a later one starts no earlier than the neighbour
      rcases mem_cons.mp hc with rfl | hc
      · exact hab
      · exact Nat.le_trans hab ((pairwise_cons.mp hrest).1 c hc)

theorem before_sorted_iff (hp : Proper ms) : (sorted ms).Pairwise Before ↔ Apart ms := by
  have hproper := hp.perm (sorted_perm ms)
  refine ⟨?_, ?_⟩
  · intro h
    refine Apart.perm (List.Pairwise.imp_of_mem ?_ h) (sorted_perm ms)
    intro a b ha hb hab
    simp only [overlap, Bool.and_eq_false_iff, decide_eq_false_iff_not]
    exact .inr (Nat.not_lt.mpr hab)
  · intro h
    have hapart : Apart (sorted ms) := h.perm (sorted_perm ms).symm
    refine ((sorted_pairwise ms).and hapart).imp_of_mem ?_
    intro a b ha hb hab
    exact (overlap_eq_false hab.1 (hproper b hb)).mp hab.2

theorem before_irrefl (ha : a.start < a.stop) (hb : b.start < b.stop) (hab : Before a b) (hba : Before b a) : False := by
  unfold Before at *
  omega

theorem sorted_eq (hp : Proper ms) (ha : Apart ms) (hperm : ms'.Perm ms) : sorted ms' = sorted ms := by
  have hp' := hp.perm hperm
  refine List.Perm.eq_of_pairwise ?_ ((before_sorted_iff hp').mpr (ha.perm hperm.symm))
    ((before_sorted_iff hp).mpr ha) ((sorted_perm ms').trans (hperm.trans (sorted_perm ms).symm))
  intro a b hma hmb hab hba
  exact (before_irrefl (hp'.perm (sorted_perm ms') a hma) (hp.perm (sorted_perm ms) b hmb) hab hba).elim

theorem eq_of_start_eq (hp : Proper ms) (hb : ms.Pairwise Before) (ha : a ∈ ms) (hmem : b ∈ ms)
    (hab : a.start = b.start) : a = b := by
  have hsymm : Std.Symm fun a b : Patch α => a.start ≠ b.start := ⟨fun _ _ h => h.symm⟩
  have hne : ms.Pairwise fun a b => a.start ≠ b.start := by
    refine hb.imp_of_mem ?_
    intro x y hx _ hxy
    exact Nat.ne_of_lt (Nat.lt_of_lt_of_le (hp x hx) hxy)
  by_contra h
  exact hne.forall ha hmem h hab

theorem sortedBack_eq (hp : Proper ms) (hb : ms.Pairwise Before) : sortedBack ms = ms.reverse := by
  have hperm : (sortedBack ms).Perm ms := mergeSort_perm _ _
  have hreverse : ms.reverse.Pairwise fun a b => b.start ≤ a.start := by
    rw [pairwise_reverse]
    refine hb.imp_of_mem ?_
    intro a b ha _ hab
    exact Nat.le_trans (Nat.le_of_lt (hp a ha)) hab
  refine List.Perm.eq_of_pairwise ?_ (sortedBack_pairwise ms) hreverse (hperm.trans ms.reverse_perm.symm)
  intro a b ha hmem hba hab
  exact eq_of_start_eq hp hb (hperm.subset ha) (mem_reverse.mp hmem) (Nat.le_antisymm hab hba)

theorem foldr_replaceRange (hb : ms.Pairwise Before) (pos : Nat)
    (hm : ∀ m ∈ ms, pos ≤ m.start ∧ m.start ≤ m.stop ∧ m.stop ≤ l.length) :
    ms.foldr (fun m r => replaceRange r m) l = l.take pos ++ splice pos (l.drop pos) ms := by
  induction ms generalizing pos with
  | nil => simp [splice]
  | cons m ms ih =>
    obtain ⟨hbefore, hrest⟩ := pairwise_cons.mp hb
    obtain ⟨hpos, hstop, hlen⟩ := hm m mem_cons_self
    have hih := ih hrest m.stop fun m' hm' => ⟨hbefore m' hm', (hm m' (mem_cons_of_mem _ hm')).2⟩
    have htake : (l.take m.stop).length = m.stop := by simp [hlen]
    rw [foldr_cons, hih, replaceRange, take_append_of_le_length (by omega), take_take,
      drop_left' htake, splice, drop_drop, Nat.add_sub_cancel' (Nat.le_trans hpos hstop), Nat.min_eq_left hstop]
    have hsplit : l.take m.start = l.take pos ++ (l.drop pos).take (m.start - pos) := by
      rw [← take_add, Nat.add_sub_cancel' hpos]
    simp [hsplit]

theorem foldl_replaceRange (hp : Proper ms) (hb : ms.Pairwise Before) (hm : ∀ m ∈ ms, m.stop ≤ l.length) :
    (sortedBack ms).foldl replaceRange l = splice 0 l ms := by
  rw [sortedBack_eq hp hb, foldl_reverse, foldr_replaceRange hb 0]
  · simp
  · intro m hmem
    exact ⟨Nat.zero_le _, Nat.le_of_lt (hp m hmem), hm m hmem⟩

end Patch

end CloseClaw.Lib
