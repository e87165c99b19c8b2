/- The nodes below a node of a forest, deepest first. -/

import Mathlib.Data.List.Sort
import CloseClaw.Lib.AncestorWalk

namespace CloseClaw.Lib.LevelOrder

open AncestorWalk List

variable {α : Type*}

structure Forest (α : Type*) where
  parent : α → Option α
  children : α → List α
  nodes : List α
  mem_children : ∀ {x y : α}, y ∈ children x ↔ parent y = some x
  nodup_children : ∀ x, (children x).Nodup
  mem_nodes : ∀ {x y : α}, parent y = some x → y ∈ nodes
  ends : ∀ x, ∃ chain, Ancestors parent x chain

def next (children : α → List α) (e : α × Nat) : List (α × Nat) := (children e.1).map fun y => (y, e.2 + 1)

def collect (children : α → List α) : Nat → List (α × Nat) → List (α × Nat) → Option (List (α × Nat))
  | _, [], found => some found
  | 0, _ :: _, _ => none
  | fuel + 1, e :: queue, found => collect children fuel (queue ++ next children e) (found ++ next children e)

theorem mem_next {children : α → List α} {e : α × Nat} {y : α} {n : Nat} :
    (y, n) ∈ next children e ↔ y ∈ children e.1 ∧ n = e.2 + 1 := by
  simp [next, eq_comm]

theorem map_fst_next (children : α → List α) (e : α × Nat) : (next children e).map Prod.fst = children e.1 := by
  simp [next, Function.comp_def]

namespace Forest

variable (F : Forest α) {r x y : α} {n m : Nat}

theorem level_unique {F : Forest α} (h : Below F.parent r n x) (h' : Below F.parent r m x) : n = m := by
  obtain ⟨above, habove⟩ := F.ends r
  obtain ⟨chain, hchain⟩ := F.ends x
  have := h.length_chain habove hchain
  have := h'.length_chain habove hchain
  omega

structure Reached (r : α) (taken queue found : List (α × Nat)) : Prop where
  split : (r, 0) :: found = taken ++ queue
  closed : found = taken.flatMap (next F.children)
  below : ∀ e ∈ (r, 0) :: found, Below F.parent r e.2 e.1
  nodup : (((r, 0) :: found).map Prod.fst).Nodup

variable {F} {taken queue found : List (α × Nat)}

theorem reached_start (r : α) : F.Reached r [] [(r, 0)] [] where
  split := rfl
  closed := rfl
  below e he := by
    rw [mem_singleton.mp he]
    exact .self
  nodup := nodup_singleton r

theorem Reached.child_new {e : α × Nat} (h : F.Reached r taken (e :: queue) found) (hy : y ∈ F.children e.1) :
    y ∉ ((r, 0) :: found).map Prod.fst := by
  have hparent := F.mem_children.mp hy
  have hbelow : Below F.parent r e.2 e.1 := h.below e (by rw [h.split]; simp)
  intro hmem
  rw [map_cons, mem_cons] at hmem
  rcases hmem with rfl | hfound
  · have := level_unique (.child hbelow hparent) .self
    omega
  · obtain ⟨⟨y', k⟩, hmem', rfl⟩ := mem_map.mp hfound
    rw [h.closed, mem_flatMap] at hmem'
    obtain ⟨e', he', hy'⟩ := hmem'
    have hsame : e'.1 = e.1 := Option.some.inj ((F.mem_children.mp (mem_next.mp hy').1).symm.trans hparent)
    have hnodup := h.nodup
    rw [h.split, map_append, map_cons, nodup_append] at hnodup
    exact hnodup.2.2 e'.1 (mem_map_of_mem he') e.1 (by simp) hsame

theorem Reached.step {e : α × Nat} (h : F.Reached r taken (e :: queue) found) :
    F.Reached r (taken ++ [e]) (queue ++ next F.children e) (found ++ next F.children e) where
  split := by
    rw [← cons_append, h.split]
    simp
  closed := by
    rw [flatMap_append, ← h.closed]
    simp
  below := by
    rw [← cons_append]
    rintro ⟨y, k⟩ hy
    rcases mem_append.mp hy with hy | hy
    · exact h.below _ hy
    · obtain ⟨hchild, rfl⟩ := mem_next.mp hy
      exact .child (h.below e (by rw [h.split]; simp)) (F.mem_children.mp hchild)
  nodup := by
    rw [← cons_append, map_append, map_fst_next, nodup_append]
    refine ⟨h.nodup, F.nodup_children e.1, ?_⟩
    rintro x hx y hy rfl
    exact h.child_new hy hx

theorem Reached.length_found (h : F.Reached r taken queue found) : found.length ≤ F.nodes.length := by
  have hnodup : (found.map Prod.fst).Nodup := (nodup_cons.mp h.nodup).2
  have hsub : found.map Prod.fst ⊆ F.nodes := by
    intro y hy
    obtain ⟨⟨y', k⟩, hmem, rfl⟩ := mem_map.mp hy
    rw [h.closed, mem_flatMap] at hmem
    obtain ⟨e, -, hnext⟩ := hmem
    exact F.mem_nodes (F.mem_children.mp (mem_next.mp hnext).1)
  simpa using (subperm_of_subset hnodup hsub).length_le

theorem Reached.run {fuel : Nat} (h : F.Reached r taken queue found) (hfuel : F.nodes.length + 1 ≤ fuel + taken.length) :
    ∃ all, collect F.children fuel queue found = some all ∧ F.Reached r ((r, 0) :: all) [] all := by
  induction fuel generalizing taken queue found with
  | zero =>
    have hlen := congrArg List.length h.split
    have hfound := h.length_found
    cases queue with
    | nil => exact ⟨found, rfl, by simpa [h.split] using h⟩
    | cons =>
      simp only [length_cons, length_append] at hlen
      omega
  | succ fuel ih =>
    cases queue with
    | nil => exact ⟨found, rfl, by simpa [h.split] using h⟩
    | cons =>
      refine ih h.step ?_
      rw [length_append, length_singleton]
      omega

theorem collect_total (F : Forest α) (r : α) :
    ∃ all, collect F.children (F.nodes.length + 1) [(r, 0)] [] = some all ∧ F.Reached r ((r, 0) :: all) [] all :=
  (reached_start r).run (Nat.le_refl _)

variable {all : List (α × Nat)}

theorem nodup_collect (h : F.Reached r ((r, 0) :: all) [] all) : (all.map Prod.fst).Nodup := (nodup_cons.mp h.nodup).2

theorem mem_collect_iff (h : F.Reached r ((r, 0) :: all) [] all) : (x, n) ∈ all ↔ Below F.parent r n x ∧ 0 < n := by
  constructor
  · intro hx
    refine ⟨h.below _ (mem_cons_of_mem _ hx), ?_⟩
    rw [h.closed, mem_flatMap] at hx
    obtain ⟨e, -, hnext⟩ := hx
    rw [(mem_next.mp hnext).2]
    omega
  · rintro ⟨hbelow, hpos⟩
    have hstart : (x, n) ∈ (r, 0) :: all := by
      clear hpos
      induction hbelow with
      | self => exact mem_cons_self
      | child _ hp ih =>
        refine mem_cons_of_mem _ ?_
        rw [h.closed, mem_flatMap]
        exact ⟨_, ih, mem_next.mpr ⟨F.mem_children.mpr hp, rfl⟩⟩
    rcases mem_cons.mp hstart with heq | hmem
    · rw [(Prod.mk.inj heq).2] at hpos
      omega
    · exact hmem

end Forest

section Order

variable [LinearOrder α]

def deepestFirst (all : List (α × Nat)) : List (α × Nat) :=
  all.insertionSort fun a b => b.2 < a.2 ∨ a.2 = b.2 ∧ a.1 ≤ b.1

theorem perm_deepestFirst (all : List (α × Nat)) : (deepestFirst all).Perm all := perm_insertionSort _ all

theorem level_antitone (all : List (α × Nat)) : (deepestFirst all).Pairwise fun a b => b.2 ≤ a.2 := by
  have htotal : Std.Total fun a b : α × Nat => b.2 < a.2 ∨ a.2 = b.2 ∧ a.1 ≤ b.1 := by
    constructor
    intro a b
    rcases lt_trichotomy a.2 b.2 with h | h | h
    · exact .inr (.inl h)
    · rcases le_total a.1 b.1 with h' | h'
      · exact .inl (.inr ⟨h, h'⟩)
      · exact .inr (.inr ⟨h.symm, h'⟩)
    · exact .inl (.inl h)
  have htrans : IsTrans (α × Nat) fun a b => b.2 < a.2 ∨ a.2 = b.2 ∧ a.1 ≤ b.1 := by
    constructor
    rintro a b c (hab | ⟨hab, hab'⟩) (hbc | ⟨hbc, hbc'⟩)
    · exact .inl (by omega)
    · exact .inl (by omega)
    · exact .inl (by omega)
    · exact .inr ⟨by omega, hab'.trans hbc'⟩
  refine (pairwise_insertionSort _ all).imp ?_
  rintro a b (h | ⟨h, -⟩) <;> omega

theorem deepestFirst_ordered {F : Forest α} {r : α} {all : List (α × Nat)} (h : F.Reached r ((r, 0) :: all) [] all) :
    ((deepestFirst all).map Prod.fst).Pairwise fun x y => ∀ n, 0 < n → ¬ Below F.parent x n y := by
  rw [pairwise_map]
  refine (level_antitone all).imp_of_mem ?_
  intro a b ha hb hle n hn hbelow
  have hra := ((Forest.mem_collect_iff h).mp ((perm_deepestFirst all).subset ha)).1
  have hrb := ((Forest.mem_collect_iff h).mp ((perm_deepestFirst all).subset hb)).1
  have := Forest.level_unique (hra.trans hbelow) hrb
  omega

end Order

end CloseClaw.Lib.LevelOrder
