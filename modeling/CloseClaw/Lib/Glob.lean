/- Glob patterns and the texts they stand for. -/

import Mathlib.Computability.Language

open Computability

namespace CloseClaw.Lib.Glob

open List Language

inductive Token where
  | dirs
  | any
  | star
  | one
  | lit (c : Char)

def tokens : List Char → List Token
  | '*' :: '*' :: '/' :: p => .dirs :: tokens p
  | '*' :: '*' :: p => .any :: tokens p
  | '*' :: p => .star :: tokens p
  | '?' :: p => .one :: tokens p
  | c :: p => .lit c :: tokens p
  | [] => []

def segment : Language Char := {u | '/' ∉ u}

def Token.language : Token → Language Char
  | .dirs => (segment * {['/']})∗
  | .any => ⊤
  | .star => segment
  | .one => {u | ∃ c, u = [c]}
  | .lit c => {[c]}

def language (ts : List Token) : Language Char := (ts.map Token.language).prod

def minLength : List Token → Nat
  | [] => 0
  | .one :: ts | .lit _ :: ts => minLength ts + 1
  | .dirs :: ts | .any :: ts | .star :: ts => minLength ts

def shortest (d : Char) : List Token → List Char
  | [] => []
  | .one :: ts => d :: shortest d ts
  | .lit c :: ts => c :: shortest d ts
  | .dirs :: ts | .any :: ts | .star :: ts => shortest d ts

@[simp] theorem tokens_nil : tokens [] = [] := rfl

@[simp] theorem tokens_dirs (p : List Char) : tokens ('*' :: '*' :: '/' :: p) = .dirs :: tokens p := rfl

theorem tokens_any {p : List Char} (h : p.head? ≠ some '/') : tokens ('*' :: '*' :: p) = .any :: tokens p := by
  rw [tokens]
  intro q hq
  exact h (by rw [hq]; rfl)

theorem tokens_star {p : List Char} (h : p.head? ≠ some '*') : tokens ('*' :: p) = .star :: tokens p := by
  rw [tokens]
  · intro q hq
    exact h (by rw [hq]; rfl)
  · intro q hq
    exact h (by rw [hq]; rfl)

@[simp] theorem tokens_one (p : List Char) : tokens ('?' :: p) = .one :: tokens p := rfl

theorem tokens_lit {c : Char} (h : c ≠ '*') (h' : c ≠ '?') (p : List Char) : tokens (c :: p) = .lit c :: tokens p := by
  rw [tokens]
  · intro q hq
    exact absurd hq h
  all_goals simp_all

/-- Induction over a pattern as it is read: what stands after a `*` is the end, a literal,
    or `?`. -/
theorem pattern_induction {motive : List Char → Prop} (nil : motive [])
    (lit : ∀ c p, c ≠ '*' → c ≠ '?' → motive p → motive (c :: p)) (one : ∀ p, motive p → motive ('?' :: p))
    (star_nil : motive ['*']) (star_lit : ∀ c p, c ≠ '*' → c ≠ '?' → motive p → motive ('*' :: c :: p))
    (star_one : ∀ p, motive p → motive ('*' :: '?' :: p))
    (any : ∀ p, p.head? ≠ some '/' → motive p → motive ('*' :: '*' :: p))
    (dirs : ∀ p, motive p → motive ('*' :: '*' :: '/' :: p)) (p : List Char) : motive p := by
  induction hn : p.length using Nat.strong_induction_on generalizing p with
  | _ n ih =>
    have shorter : ∀ q : List Char, q.length < p.length → motive q := fun q hq => ih q.length (hn ▸ hq) q rfl
    cases p with
    | nil => exact nil
    | cons c q =>
      by_cases hstar : c = '*'
      · subst hstar
        cases q with
        | nil => exact star_nil
        | cons d q =>
          by_cases hany : d = '*'
          · subst hany
            by_cases hsep : q.head? = some '/'
            · obtain ⟨r, rfl⟩ := List.head?_eq_some_iff.mp hsep
              exact dirs r (shorter r (by simp only [length_cons]; omega))
            · exact any q hsep (shorter q (by simp only [length_cons]; omega))
          by_cases hone : d = '?'
          · subst hone
            exact star_one q (shorter q (by simp only [length_cons]; omega))
          · exact star_lit d q hany hone (shorter q (by simp only [length_cons]; omega))
      by_cases hone : c = '?'
      · subst hone
        exact one q (shorter q (by simp))
      · exact lit c q hstar hone (shorter q (by simp))

variable {ts : List Token} {t : List Char}

@[simp] theorem mem_language_nil : t ∈ language [] ↔ t = [] := by
  simp [language]

variable {k : Token} {u : List Char} (d : Char)

theorem mem_language_cons : t ∈ language (k :: ts) ↔ ∃ u v, t = u ++ v ∧ u ∈ k.language ∧ v ∈ language ts := by
  rw [language, map_cons, prod_cons, mem_mul]
  constructor
  · intro h
    obtain ⟨u, hu, v, hv, rfl⟩ := h
    exact ⟨u, v, rfl, hu, hv⟩
  · intro h
    obtain ⟨u, v, rfl, hu, hv⟩ := h
    exact ⟨u, hu, v, hv, rfl⟩

@[simp] theorem mem_language_lit {c : Char} : t ∈ language (.lit c :: ts) ↔ ∃ v, t = c :: v ∧ v ∈ language ts := by
  rw [mem_language_cons]
  constructor
  · intro h
    obtain ⟨u, v, rfl, hu, hv⟩ := h
    have huc : u = [c] := hu
    exact ⟨v, by rw [huc]; rfl, hv⟩
  · intro h
    obtain ⟨v, rfl, hv⟩ := h
    exact ⟨[c], v, rfl, rfl, hv⟩

@[simp] theorem mem_language_one : t ∈ language (.one :: ts) ↔ ∃ c v, t = c :: v ∧ v ∈ language ts := by
  rw [mem_language_cons]
  constructor
  · intro h
    obtain ⟨u, v, rfl, ⟨c, rfl⟩, hv⟩ := h
    exact ⟨c, v, rfl, hv⟩
  · intro h
    obtain ⟨c, v, rfl, hv⟩ := h
    exact ⟨[c], v, rfl, ⟨c, rfl⟩, hv⟩

theorem mem_language_star : t ∈ language (.star :: ts) ↔ ∃ u v, t = u ++ v ∧ '/' ∉ u ∧ v ∈ language ts :=
  mem_language_cons

theorem mem_language_any : t ∈ language (.any :: ts) ↔ ∃ u v, t = u ++ v ∧ v ∈ language ts := by
  rw [mem_language_cons]
  constructor
  · intro h
    obtain ⟨u, v, ht, -, hv⟩ := h
    exact ⟨u, v, ht, hv⟩
  · intro h
    obtain ⟨u, v, ht, hv⟩ := h
    exact ⟨u, v, ht, Set.mem_univ u, hv⟩

theorem mem_segment_sep : u ∈ segment * {['/']} ↔ ∃ s, u = s ++ ['/'] ∧ '/' ∉ s := by
  rw [mem_mul]
  constructor
  · intro h
    obtain ⟨s, hs, e, he, rfl⟩ := h
    have hsep : e = ['/'] := he
    exact ⟨s, by rw [hsep], hs⟩
  · intro h
    obtain ⟨s, rfl, hs⟩ := h
    exact ⟨s, hs, ['/'], rfl, rfl⟩

theorem mem_dirs : u ∈ Token.language .dirs ↔ u = [] ∨ ∃ v, u = v ++ ['/'] := by
  constructor
  · intro h
    obtain ⟨l, rfl, hl⟩ := mem_kstar.mp h
    rcases eq_nil_or_concat l with rfl | ⟨init, last, rfl⟩
    · exact .inl rfl
    · obtain ⟨s, hs, -⟩ := mem_segment_sep.mp (hl last (by simp))
      exact .inr ⟨init.flatten ++ s, by simp [hs]⟩
  · intro h
    rcases h with rfl | ⟨v, rfl⟩
    · exact nil_mem_kstar _
    · -- a character more starts a segment of its own when it is a separator, else it
      -- joins the first segment there is
      apply mem_kstar.mpr
      induction v with
      | nil => exact ⟨[['/']], rfl, fun y hy => mem_segment_sep.mpr ⟨[], by simpa using hy, by simp⟩⟩
      | cons c v ih =>
        obtain ⟨l, hl, hseg⟩ := ih
        by_cases hc : c = '/'
        · subst hc
          refine ⟨['/'] :: l, by simp [hl], fun y hy => ?_⟩
          rcases mem_cons.mp hy with rfl | hy
          · exact mem_segment_sep.mpr ⟨[], rfl, by simp⟩
          · exact hseg y hy
        · cases l with
          | nil => simp at hl
          | cons s l =>
            refine ⟨(c :: s) :: l, by simp [hl], fun y hy => ?_⟩
            rcases mem_cons.mp hy with rfl | hy
            · obtain ⟨s', rfl, hs'⟩ := mem_segment_sep.mp (hseg s (by simp))
              exact mem_segment_sep.mpr ⟨c :: s', rfl, by simp [hs', Ne.symm hc]⟩
            · exact hseg y (by simp [hy])

theorem mem_language_dirs : t ∈ language (.dirs :: ts) ↔
    ∃ u v, t = u ++ v ∧ (u = [] ∨ ∃ w, u = w ++ ['/']) ∧ v ∈ language ts := by
  rw [mem_language_cons]
  simp only [mem_dirs]

theorem exists_last_segment (u : List Char) : ∃ d s, u = d ++ s ∧ (d = [] ∨ ∃ w, d = w ++ ['/']) ∧ '/' ∉ s := by
  induction u using List.reverseRecOn with
  | nil => exact ⟨[], [], rfl, .inl rfl, not_mem_nil⟩
  | append_singleton u c ih =>
    by_cases hc : c = '/'
    · exact ⟨u ++ [c], [], by simp, .inr ⟨u, by rw [hc]⟩, not_mem_nil⟩
    · obtain ⟨d, s, rfl, hd, hs⟩ := ih
      exact ⟨d, s ++ [c], by simp, hd, by simp [hs, Ne.symm hc]⟩

theorem mem_language_cons_of_mem (hk : [] ∈ k.language) (h : t ∈ language ts) : t ∈ language (k :: ts) :=
  mem_language_cons.mpr ⟨[], t, rfl, hk, h⟩

theorem minLength_le (h : t ∈ language ts) : minLength ts ≤ t.length := by
  induction ts generalizing t with
  | nil => simp [minLength]
  | cons k ts ih =>
    obtain ⟨u, v, rfl, hu, hv⟩ := mem_language_cons.mp h
    have hle := ih hv
    cases k with
    | lit c =>
      have huc : u = [c] := hu
      simp only [minLength, huc, length_append, length_singleton]
      omega
    | one =>
      obtain ⟨c, rfl⟩ := hu
      simp only [minLength, length_append, length_singleton]
      omega
    | dirs | any | star =>
      simp only [minLength, length_append]
      omega

theorem shortest_mem (ts : List Token) : shortest d ts ∈ language ts := by
  induction ts with
  | nil => simp [shortest]
  | cons k ts ih =>
    cases k with
    | lit | one => simpa [shortest] using ih
    | dirs => exact mem_language_cons_of_mem (nil_mem_kstar _) ih
    | any => exact mem_language_cons_of_mem (Set.mem_univ _) ih
    | star => exact mem_language_cons_of_mem (not_mem_nil) ih

@[simp] theorem length_shortest (ts : List Token) : (shortest d ts).length = minLength ts := by
  induction ts with
  | nil => rfl
  | cons k ts ih => cases k <;> simp [shortest, minLength, ih]

def Token.isStar : Token → Bool
  | .dirs | .any | .star => true
  | .one | .lit _ => false

theorem nil_mem_language_iff : [] ∈ language ts ↔ ts.all Token.isStar = true := by
  induction ts with
  | nil => simp
  | cons k ts ih =>
    rw [all_cons, Bool.and_eq_true, ← ih, mem_language_cons]
    constructor
    · intro h
      obtain ⟨u, v, huv, hu, hv⟩ := h
      obtain ⟨rfl, rfl⟩ := nil_eq_append_iff.mp huv
      refine ⟨?_, hv⟩
      cases k with
      | lit => cases hu
      | one =>
        obtain ⟨c, hc⟩ := hu
        cases hc
      | dirs | any | star => rfl
    · intro h
      refine ⟨[], [], rfl, ?_, h.2⟩
      cases k with
      | lit c | one => cases h.1
      | dirs => exact nil_mem_kstar _
      | any => exact Set.mem_univ _
      | star => exact not_mem_nil

end CloseClaw.Lib.Glob
