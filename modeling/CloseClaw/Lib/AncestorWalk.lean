/- Loops that climb parent links, with fuel. -/

import Mathlib.Data.List.Nodup

namespace CloseClaw.Lib.AncestorWalk

open List

variable {α σ : Type*}

inductive Ancestors (parent : α → Option α) : α → List α → Prop
  | root {s : α} : parent s = none → Ancestors parent s []
  | climb {s p : α} {chain : List α} : parent s = some p → Ancestors parent p chain → Ancestors parent s (p :: chain)

def foldWhile (visit : σ → α → Option σ) : σ → List α → σ
  | st, [] => st
  | st, x :: xs =>
    match visit st x with
    | some st' => foldWhile visit st' xs
    | none => st

variable {visit : σ → α → Option σ}

theorem foldWhile_of_some {st st' : σ} {x : α} (h : visit st x = some st') (xs : List α) :
    foldWhile visit st (x :: xs) = foldWhile visit st' xs := by
  rw [foldWhile, h]

theorem foldWhile_of_none {st : σ} {x : α} (h : visit st x = none) (xs : List α) :
    foldWhile visit st (x :: xs) = st := by
  rw [foldWhile, h]

def walk (parent : α → Option α) (visit : σ → α → Option σ) : Nat → α → σ → Option σ
  | 0, _, _ => none
  | fuel + 1, current, st =>
    match visit st current with
    | none => some st
    | some st' =>
      match parent current with
      | none => some st'
      | some p => walk parent visit fuel p st'

variable {parent : α → Option α} {s : α} {chain : List α}

theorem walk_eq (h : Ancestors parent s chain) : ∀ {fuel : Nat} {st : σ}, chain.length < fuel →
      walk parent visit fuel s st = some (foldWhile visit st (s :: chain)) := by
  induction h with
  | root hp =>
    intro fuel st hf
    cases fuel with
    | zero => cases hf
    | succ =>
      unfold walk foldWhile
      cases visit st _ with
      | none => rfl
      | some => simp [hp, foldWhile]
  | climb hp _ ih =>
    intro fuel st hf
    cases fuel with
    | zero => cases hf
    | succ =>
      unfold walk foldWhile
      cases visit st _ with
      | none => rfl
      | some =>
        simp only [hp]
        exact ih (by simpa using hf)

theorem Ancestors.unique {chain' : List α} (h : Ancestors parent s chain) (h' : Ancestors parent s chain') :
    chain = chain' := by
  induction h generalizing chain' with
  | root hp =>
    cases h' with
    | root => rfl
    | climb hp' => rw [hp] at hp'; cases hp'
  | climb hp _ ih =>
    cases h' with
    | root hp' => rw [hp] at hp'; cases hp'
    | climb hp' h' =>
      rw [hp] at hp'
      obtain rfl := Option.some.inj hp'
      rw [ih h']

theorem Ancestors.above {x : α} {below above : List α} (h : Ancestors parent s chain)
    (hc : s :: chain = below ++ x :: above) : Ancestors parent x above := by
  induction h generalizing below with
  | root hp =>
    cases below with
    | nil => obtain ⟨rfl, rfl⟩ := List.cons.inj hc; exact .root hp
    | cons => simp at hc
  | climb hp h ih =>
    cases below with
    | nil => obtain ⟨rfl, rfl⟩ := List.cons.inj hc; exact .climb hp h
    | cons => exact ih (List.cons.inj hc).2

theorem Ancestors.notMem (h : Ancestors parent s chain) : s ∉ chain := by
  intro hs
  obtain ⟨below, above, hc⟩ := append_of_mem hs
  have habove : Ancestors parent s above := h.above (show s :: chain = (s :: below) ++ s :: above by rw [hc]; rfl)
  have hlen := congrArg List.length (h.unique habove)
  rw [hc] at hlen
  simp at hlen
  omega

inductive Below (parent : α → Option α) (a : α) : Nat → α → Prop
  | self : Below parent a 0 a
  | child {n : Nat} {p d : α} : Below parent a n p → parent d = some p → Below parent a (n + 1) d

variable {parent' : α → Option α} {a d : α} {n : Nat}

theorem Below.trans {b : α} {m : Nat} (h : Below parent a m b) (h' : Below parent b n d) :
    Below parent a (m + n) d := by
  induction h' with
  | self => exact h
  | child _ hp ih => exact .child ih hp

theorem Below.mono (h : Below parent a n d) (hsub : ∀ c p, parent c = some p → parent' c = some p) :
    Below parent' a n d := by
  induction h with
  | self => exact .self
  | child _ hp ih => exact .child ih (hsub _ _ hp)

theorem Ancestors.of_sub (h : Ancestors parent s chain) (hsub : ∀ c p, parent' c = some p → parent c = some p) :
    ∃ chain', Ancestors parent' s chain' := by
  induction h with
  | @root s hp =>
    refine ⟨[], .root ?_⟩
    rw [Option.eq_none_iff_forall_ne_some]
    intro p hp'
    rw [hsub s p hp'] at hp
    cases hp
  | @climb s p chain hp _ ih =>
    cases hp' : parent' s with
    | none => exact ⟨[], .root hp'⟩
    | some q =>
      obtain rfl : p = q := Option.some.inj (hp.symm.trans (hsub s q hp'))
      obtain ⟨chain', hchain⟩ := ih
      exact ⟨p :: chain', .climb hp' hchain⟩

theorem Below.length_chain {above : List α} (h : Below parent a n d) (ha : Ancestors parent a above)
    (hd : Ancestors parent d chain) : chain.length = n + above.length := by
  induction h generalizing chain with
  | self => rw [hd.unique ha, Nat.zero_add]
  | child _ hp ih =>
    cases hd with
    | root hp' => rw [hp] at hp'; cases hp'
    | climb hp' hup =>
      obtain rfl := Option.some.inj (hp.symm.trans hp')
      have := ih hup
      rw [length_cons]
      omega

theorem Below.add_rank_le {rank : α → Nat} (hrank : ∀ c p, parent c = some p → rank c + 1 ≤ rank p)
    (h : Below parent a n d) : n + rank d ≤ rank a := by
  induction h with
  | self => omega
  | child _ hp =>
    have := hrank _ _ hp
    omega

variable [DecidableEq α]

def insertAbove (parent : α → Option α) (lo u : α) (x : α) : Option α :=
  if x = lo then some u else if x = u then parent lo else parent x

theorem Ancestors.insertAbove_of_notMem {lo u : α} (h : Ancestors parent s chain) (hlo : lo ∉ s :: chain)
    (hu : u ∉ s :: chain) : Ancestors (insertAbove parent lo u) s chain := by
  induction h with
  | root hp =>
    refine .root ?_
    rw [mem_singleton] at hlo hu
    rw [insertAbove, if_neg (Ne.symm hlo), if_neg (Ne.symm hu), hp]
  | climb hp _ ih =>
    rw [mem_cons, not_or] at hlo hu
    refine .climb ?_ (ih hlo.2 hu.2)
    rw [insertAbove, if_neg (Ne.symm hlo.1), if_neg (Ne.symm hu.1), hp]

theorem Ancestors.insertAbove_self {u : α} (h : Ancestors parent s chain) (hu : u ∉ s :: chain) :
    Ancestors (insertAbove parent s u) s (u :: chain) := by
  rw [mem_cons, not_or] at hu
  refine .climb (by simp [insertAbove]) ?_
  cases h with
  | root hp => exact .root (by simp [insertAbove, hu.1, hp])
  | climb hp h' =>
    refine .climb (by simp [insertAbove, hu.1, hp]) (h'.insertAbove_of_notMem ?_ hu.2)
    exact Ancestors.notMem (.climb hp h')

theorem Ancestors.insertAbove_mem {lo u : α} {below above : List α} (h : Ancestors parent s chain)
    (hc : chain = below ++ lo :: above) (hu : u ∉ s :: chain) :
    Ancestors (insertAbove parent lo u) s (below ++ lo :: u :: above) := by
  induction h generalizing below with
  | root => simp at hc
  | @climb s p rest hp h' ih =>
    have hlo : s ≠ lo := by
      rintro rfl
      exact Ancestors.notMem (.climb hp h') (by rw [hc]; simp)
    rw [mem_cons, not_or] at hu
    have hs : insertAbove parent lo u s = some p := by rw [insertAbove, if_neg hlo, if_neg (Ne.symm hu.1), hp]
    cases below with
    | nil =>
      obtain ⟨rfl, rfl⟩ := List.cons.inj hc
      exact .climb hs (h'.insertAbove_self hu.2)
    | cons =>
      obtain ⟨rfl, hrest⟩ := List.cons.inj hc
      exact .climb hs (ih hrest hu.2)

end CloseClaw.Lib.AncestorWalk
