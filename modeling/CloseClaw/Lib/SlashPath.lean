/- Texts made of segments, each preceded by one separator. Such a text determines its segments. -/

import Mathlib.Data.List.Infix

namespace CloseClaw.Lib.SlashPath

open List

variable {α : Type*} {sep : α}

def render (sep : α) (segs : List (List α)) : List α := segs.flatMap (sep :: ·)

@[simp] theorem render_nil : render sep [] = [] := rfl

@[simp] theorem render_cons (s : List α) (segs : List (List α)) : render sep (s :: segs) = sep :: (s ++ render sep segs) := rfl

@[simp] theorem render_append (a b : List (List α)) : render sep (a ++ b) = render sep a ++ render sep b := by
  simp [render]

variable {segs : List (List α)}

theorem render_eq_nil : render sep segs = [] ↔ segs = [] := by
  cases segs <;> simp

def SepFree (sep : α) (segs : List (List α)) : Prop := ∀ s ∈ segs, sep ∉ s

variable {s : List α} {a b : List (List α)}

theorem SepFree.head (h : SepFree sep (s :: segs)) : sep ∉ s := h s mem_cons_self

theorem SepFree.tail (h : SepFree sep (s :: segs)) : SepFree sep segs :=
  fun t ht => h t (mem_cons_of_mem _ ht)

theorem render_head (segs : List (List α)) : render sep segs = [] ∨ ∃ r, render sep segs = sep :: r := by
  cases segs with
  | nil => exact .inl rfl
  | cons => exact .inr ⟨_, rfl⟩

theorem segment_prefix : ∀ {a b r t : List α}, sep ∉ a → sep ∉ b → (t = [] ∨ ∃ u, t = sep :: u) →
    a ++ sep :: r <+: b ++ t → a = b ∧ sep :: r <+: t := by
  intro a
  induction a with
  | nil =>
    intro b r t _ hb ht h
    cases b with
    | nil => exact ⟨rfl, h⟩
    | cons y =>
      have hy : sep = y := (cons_prefix_cons.mp h).1
      exact absurd (hy ▸ mem_cons_self) hb
  | cons x a ih =>
    intro b r t ha hb ht h
    cases b with
    | nil =>
      rcases ht with rfl | ⟨u, rfl⟩
      · simp at h
      · have hx : x = sep := (cons_prefix_cons.mp h).1
        exact absurd (hx ▸ mem_cons_self) ha
    | cons =>
      obtain ⟨rfl, h'⟩ := cons_prefix_cons.mp h
      obtain ⟨rfl, h''⟩ := ih (fun hm => ha (mem_cons_of_mem _ hm)) (fun hm => hb (mem_cons_of_mem _ hm)) ht h'
      exact ⟨rfl, h''⟩

theorem render_sep_prefix_iff : ∀ {a b : List (List α)}, SepFree sep a → SepFree sep b →
    (render sep a ++ [sep] <+: render sep b ↔ a <+: b ∧ a ≠ b) := by
  intro a
  induction a with
  | nil =>
    intro b _ _
    cases b with
    | nil | cons => simp
  | cons x a ih =>
    intro b ha hb
    cases b with
    | nil => simp
    | cons y b =>
      simp only [render_cons, cons_append, append_assoc, cons_prefix_cons, true_and, ne_eq, List.cons.injEq]
      constructor
      · intro h
        -- the text after `x` starts with a separator whether or not `a` is empty
        obtain ⟨r, hr⟩ : ∃ r, render sep a ++ [sep] = sep :: r := by
          rcases (render_head a : render sep a = [] ∨ _) with e | ⟨r, e⟩ <;> simp [e]
        rw [hr] at h
        obtain ⟨rfl, h'⟩ := segment_prefix ha.head hb.head (render_head b) h
        rw [← hr] at h'
        obtain ⟨h1, h2⟩ := (ih ha.tail hb.tail).mp h'
        exact ⟨⟨rfl, h1⟩, fun e => h2 e.2⟩
      · rintro ⟨⟨rfl, h1⟩, h2⟩
        have hne : a ≠ b := fun e => h2 ⟨rfl, e⟩
        exact (prefix_append_right_inj x).mpr ((ih ha.tail hb.tail).mpr ⟨h1, hne⟩)

theorem render_inj (ha : SepFree sep a) (hb : SepFree sep b) : render sep a = render sep b ↔ a = b := by
  constructor
  · intro h
    have key : render sep a ++ [sep] <+: render sep (b ++ [[]]) := by simp [h]
    have hb' : SepFree sep (b ++ [[]]) := by
      intro s hs
      rcases mem_append.mp hs with hs | hs
      · exact hb s hs
      · simp at hs; simp [hs]
    obtain ⟨hp, -⟩ := (render_sep_prefix_iff ha hb').mp key
    rcases prefix_concat_iff.mp hp with rfl | hp
    · simp at h
    · by_contra hne
      have hlen := ((render_sep_prefix_iff ha hb).mpr ⟨hp, hne⟩).length_le
      rw [h, length_append, length_singleton] at hlen
      omega
  · rintro rfl; rfl

theorem render_below (ha : SepFree sep a) (hb : SepFree sep b) :
    (render sep b = render sep a ∨ render sep a ++ [sep] <+: render sep b) ↔ a <+: b := by
  rw [render_inj hb ha, render_sep_prefix_iff ha hb]
  constructor
  · intro hor
    rcases hor with rfl | h
    · exact prefix_rfl
    · exact h.1
  · intro h
    by_cases e : a = b
    · exact .inl e.symm
    · exact .inr ⟨h, e⟩

theorem render_split (hfree : SepFree sep segs) : ∀ {t r : List α},
    render sep segs = t ++ sep :: r → ∃ a b, segs = a ++ b ∧ t = render sep a ∧ sep :: r = render sep b := by
  induction segs with
  | nil => simp
  | cons s segs ih =>
    intro t r h
    cases t with
    | nil => exact ⟨[], s :: segs, rfl, rfl, h.symm⟩
    | cons x t =>
      rw [render_cons, cons_append] at h
      obtain ⟨rfl, hrest⟩ := List.cons.inj h
      rcases append_eq_append_iff.mp hrest with ⟨t', rfl, h'⟩ | ⟨s', rfl, h'⟩
      · obtain ⟨a, b, rfl, rfl, hb⟩ := ih hfree.tail h'
        exact ⟨s :: a, b, rfl, rfl, hb⟩
      · -- the split is inside the segment, which holds no separator
        cases s' with
        | nil =>
          obtain ⟨a, b, rfl, ha, hb⟩ := ih hfree.tail (t := []) (by simpa using h'.symm)
          exact ⟨(t ++ []) :: a, b, rfl, by simp [← ha], hb⟩
        | cons =>
          obtain ⟨rfl, -⟩ := List.cons.inj h'
          exact absurd (by simp) hfree.head

theorem render_part (ha : SepFree sep a) (hb : SepFree sep b) (hne : a ≠ []) :
    (render sep a <:+ render sep b ∨ render sep a ++ [sep] <:+: render sep b) ↔ a <:+: b := by
  constructor
  · intro h
    obtain ⟨t, r, hr, heq⟩ : ∃ t r, (r = [] ∨ [sep] <+: r) ∧ render sep b = t ++ (render sep a ++ r) := by
      rcases h with ⟨t, ht⟩ | ⟨t, r, ht⟩
      · exact ⟨t, [], .inl rfl, by simp [ht]⟩
      · exact ⟨t, sep :: r, .inr (by simp), by simp [← ht]⟩
    obtain ⟨r', hr'⟩ : ∃ r', render sep a ++ r = sep :: r' := by
      rcases (render_head a : render sep a = [] ∨ _) with e | ⟨x, e⟩
      · exact absurd (render_eq_nil.mp e) hne
      · exact ⟨x ++ r, by simp [e]⟩
    rw [hr'] at heq
    obtain ⟨front, rest, rfl, -, hrest⟩ := render_split hb heq
    rw [← hr'] at hrest
    have hbelow : a <+: rest := by
      rw [← render_below ha fun s hs => hb s (by simp [hs])]
      rcases hr with rfl | ⟨u, rfl⟩
      · exact .inl (by simp [← hrest])
      · exact .inr ⟨u, by simp [← hrest]⟩
    exact hbelow.isInfix.trans (suffix_append front rest).isInfix
  · intro h
    obtain ⟨front, rest, rfl⟩ := h
    cases rest with
    | nil => exact .inl ⟨render sep front, by simp⟩
    | cons s rest => exact .inr ⟨render sep front, s ++ render sep rest, by simp⟩

end CloseClaw.Lib.SlashPath
