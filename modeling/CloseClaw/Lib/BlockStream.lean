/- Streams of numbered blocks, and a writer with at most one open. -/

import CloseClaw.Lib.Trace
import Mathlib.Data.List.Basic

namespace CloseClaw.Lib.BlockStream

open Lib List

variable {K : Type}

inductive BlockEvent (K : Type) where
  | start (index : Nat) (kind : K)
  | piece (index : Nat) (kind : K)
  | stop (index : Nat)

inductive Mark (K : Type) where
  | start (kind : K)
  | piece (kind : K)
  | stop

def BlockEvent.mark (i : Nat) : BlockEvent K → Option (Mark K)
  | .start j k => if j = i then some (.start k) else none
  | .piece j k => if j = i then some (.piece k) else none
  | .stop j => if j = i then some .stop else none

def marks (events : List (BlockEvent K)) (i : Nat) : List (Mark K) := events.filterMap (BlockEvent.mark i)

open Mark

def Opened (k : K) (ms : List (Mark K)) : Prop := ∃ n, ms = Mark.start k :: List.replicate n (piece k)

def Complete (ms : List (Mark K)) : Prop := ∃ k pre, Opened k pre ∧ ms = pre ++ [stop]

def Balanced (events : List (BlockEvent K)) : Prop := ∀ i, marks events i = [] ∨ Complete (marks events i)

structure Writer (K : Type) where
  block : Option (Nat × K)
  next : Nat
  events : List (BlockEvent K)

inductive Op (K : Type) where
  | start (kind : K)
  | piece (kind : K)
  | stop

namespace Writer

def empty : Writer K := ⟨none, 0, []⟩

def step (w : Writer K) : Op K → Writer K
  | .start k => ⟨some (w.next, k), w.next + 1, w.events ++ [.start w.next k]⟩
  | .piece k =>
    match w.block with
    | some (i, _) => { w with events := w.events ++ [.piece i k] }
    | none => w
  | .stop =>
    match w.block with
    | some (i, _) => { w with block := none, events := w.events ++ [.stop i] }
    | none => w

def Clean (w : Writer K) : Op K → Prop
  | .start _ => w.block = none
  | .piece k => ∀ i kind, w.block = some (i, kind) → kind = k
  | .stop => True

end Writer

section Marks

variable {events : List (BlockEvent K)} {i j : Nat} {k : K}

theorem marks_concat (events : List (BlockEvent K)) (e : BlockEvent K) (i : Nat) :
    marks (events ++ [e]) i = marks events i ++ (e.mark i).toList := by
  unfold marks
  cases h : e.mark i <;> simp [filterMap_append, h]

@[simp] theorem marks_concat_start :
    marks (events ++ [.start j k]) i = marks events i ++ if j = i then [Mark.start k] else [] := by
  rw [marks_concat]
  by_cases h : j = i <;> simp [BlockEvent.mark, h]

@[simp] theorem marks_concat_piece :
    marks (events ++ [.piece j k]) i = marks events i ++ if j = i then [piece k] else [] := by
  rw [marks_concat]
  by_cases h : j = i <;> simp [BlockEvent.mark, h]

@[simp] theorem marks_concat_stop : marks (events ++ [.stop j]) i = marks events i ++ if j = i then [stop] else [] := by
  rw [marks_concat]
  by_cases h : j = i <;> simp [BlockEvent.mark, h]

theorem Opened.concat_piece {ms : List (Mark K)} (h : Opened k ms) : Opened k (ms ++ [.piece k]) := by
  obtain ⟨n, rfl⟩ := h
  exact ⟨n + 1, by rw [replicate_succ', cons_append]⟩

theorem Opened.not_complete {ms : List (Mark K)} (h : Opened k ms) : ¬ Complete ms := by
  rintro ⟨k', pre, -, heq⟩
  obtain ⟨n, rfl⟩ := h
  have hlast : stop ∈ Mark.start k :: List.replicate n (piece k) := by
    rw [heq]
    exact mem_append_right _ (mem_singleton_self _)
  simp [mem_replicate] at hlast

end Marks

def Broken (ms : List (Mark K)) : Prop := ∃ k rest k', ms = Mark.start k :: rest ∧ piece k' ∈ rest ∧ k' ≠ k

theorem Broken.append {ms : List (Mark K)} (h : Broken ms) (more : List (Mark K)) : Broken (ms ++ more) := by
  obtain ⟨k, rest, k', rfl, hmem, hne⟩ := h
  exact ⟨k, rest ++ more, k', rfl, mem_append_left _ hmem, hne⟩

theorem Broken.not_complete {ms : List (Mark K)} (h : Broken ms) : ¬ Complete ms := by
  obtain ⟨k, rest, k', rfl, hmem, hne⟩ := h
  rintro ⟨k₂, pre, ⟨n, rfl⟩, heq⟩
  rw [cons_append, List.cons.injEq] at heq
  obtain ⟨hk, rfl⟩ := heq
  cases hk
  simp only [mem_append, mem_replicate, mem_singleton, reduceCtorEq, or_false] at hmem
  exact hne (piece.inj hmem.2)

namespace Writer

variable {w : Writer K}

structure Sound (w : Writer K) : Prop where
  fresh : ∀ i, w.next ≤ i → marks w.events i = []
  opened : ∀ i k, w.block = some (i, k) → i < w.next ∧ Opened k (marks w.events i)
  complete : ∀ i, i < w.next → (∀ k, w.block ≠ some (i, k)) → Complete (marks w.events i)

structure SpoiledAt (w : Writer K) (i : Nat) : Prop where
  old : i < w.next
  begun : marks w.events i ≠ []
  lost : ((∀ k, w.block ≠ some (i, k)) ∧ ¬ Complete (marks w.events i)) ∨ Broken (marks w.events i)

def Spoiled (w : Writer K) : Prop := ∃ i, SpoiledAt w i

theorem sound_empty : Sound (empty : Writer K) := by
  refine ⟨fun _ _ => rfl, ?_, ?_⟩
  · intro i k hb
    cases hb
  · intro i hi
    exact absurd hi (Nat.not_lt_zero i)

variable {k : K} {op : Op K} {ops : List (Op K)}

theorem Sound.start (h : Sound w) (hc : w.block = none) : Sound (w.step (.start k)) := by
  refine ⟨?_, ?_, ?_⟩
  · intro i hi
    have hne : w.next ≠ i := by simp only [step] at hi; omega
    simp [step, hne, h.fresh i (by simp only [step] at hi; omega)]
  · intro i k' hb
    simp only [step, Option.some.injEq, Prod.mk.injEq] at hb
    obtain ⟨rfl, rfl⟩ := hb
    exact ⟨Nat.lt_succ_self _, 0, by simp [step, h.fresh w.next (Nat.le_refl _)]⟩
  · intro i hi hb
    have hne : w.next ≠ i := by
      rintro rfl
      exact hb k rfl
    have hold : i < w.next := by simp only [step] at hi; omega
    simpa [step, hne] using h.complete i hold (by simp [hc])

theorem Sound.piece {k : K} (h : Sound w) (hc : Clean w (.piece k)) : Sound (w.step (.piece k)) := by
  cases hb : w.block with
  | none => simpa only [step, hb] using h
  | some block =>
    obtain ⟨j, kind⟩ := block
    obtain rfl : kind = k := hc j kind hb
    have hopen := h.opened j kind hb
    have hstep : w.step (.piece kind) = { w with events := w.events ++ [.piece j kind] } := by simp only [step, hb]
    rw [hstep]
    refine ⟨?_, ?_, ?_⟩
    · intro i hi
      have hne : j ≠ i := by have := hopen.1; simp only at hi; omega
      simpa [hne] using h.fresh i hi
    · intro i k' hi
      rw [hb] at hi
      obtain ⟨rfl, rfl⟩ := Prod.mk.inj (Option.some.inj hi)
      exact ⟨hopen.1, by simpa using hopen.2.concat_piece⟩
    · intro i hi hnot
      have hne : j ≠ i := by
        rintro rfl
        exact hnot kind hb
      simpa [hne] using h.complete i hi hnot

theorem Sound.stop (h : Sound w) : Sound (w.step .stop) := by
  cases hb : w.block with
  | none => simpa only [step, hb] using h
  | some block =>
    obtain ⟨j, kind⟩ := block
    have hopen := h.opened j kind hb
    have hstep : w.step .stop = { w with block := none, events := w.events ++ [.stop j] } := by simp only [step, hb]
    rw [hstep]
    refine ⟨?_, by simp, ?_⟩
    · intro i hi
      have hne : j ≠ i := by have := hopen.1; simp only at hi; omega
      simpa [hne] using h.fresh i hi
    · intro i hi _
      by_cases hji : j = i
      · subst hji
        simpa using ⟨kind, _, hopen.2, rfl⟩
      · have hother : ∀ k, w.block ≠ some (i, k) := by
          intro k hk
          rw [hb] at hk
          exact hji (Prod.mk.inj (Option.some.inj hk)).1
        simpa [hji] using h.complete i hi hother

theorem Sound.spoiled_start (h : Sound w) (hc : w.block ≠ none) : Spoiled (w.step (.start k)) := by
  obtain ⟨⟨j, kind⟩, hb⟩ := Option.ne_none_iff_exists'.mp hc
  obtain ⟨hlt, hopen⟩ := h.opened j kind hb
  have hne : w.next ≠ j := by omega
  have hmarks : marks (w.step (.start k)).events j = marks w.events j := by simp [step, hne]
  refine ⟨j, Nat.lt_succ_of_lt hlt, ?_, .inl ⟨?_, ?_⟩⟩
  · rw [hmarks]
    obtain ⟨n, hn⟩ := hopen
    simp [hn]
  · intro k' hk
    simp only [step, Option.some.injEq, Prod.mk.injEq] at hk
    exact hne hk.1
  · rw [hmarks]
    exact hopen.not_complete

theorem Sound.spoiled_piece (h : Sound w) (hc : ¬ Clean w (.piece k)) : Spoiled (w.step (.piece k)) := by
  simp only [Clean] at hc
  push Not at hc
  obtain ⟨j, kind, hb, hkind⟩ := hc
  obtain ⟨hlt, n, hn⟩ := h.opened j kind hb
  have hmarks : marks (w.step (.piece k)).events j =
      Mark.start kind :: (List.replicate n (.piece kind) ++ [.piece k]) := by
    simp [step, hb, hn]
  refine ⟨j, by simpa only [step, hb] using hlt, by simp [hmarks], .inr ?_⟩
  exact ⟨kind, _, k, hmarks, by simp, Ne.symm hkind⟩

theorem Spoiled.write (h : Spoiled w) {e : BlockEvent K} {block : Option (Nat × K)}
    (he : ∀ i, (∀ k, w.block ≠ some (i, k)) → e.mark i = none) (hb : block = w.block ∨ block = none) :
    Spoiled { w with block, events := w.events ++ [e] } := by
  obtain ⟨i, hold, hbegun, hlost⟩ := h
  refine ⟨i, hold, by simp [marks_concat, hbegun], ?_⟩
  simp only [marks_concat]
  rcases hlost with ⟨hcur, hnot⟩ | hbroken
  · refine .inl ⟨?_, by simpa [he i hcur] using hnot⟩
    rcases hb with rfl | rfl
    · exact hcur
    · nofun
  · exact .inr (hbroken.append _)

theorem Spoiled.step (h : Spoiled w) (op : Op K) : Spoiled (w.step op) := by
  cases op with
  | start k =>
    obtain ⟨i, hold, hbegun, hlost⟩ := h
    have hne : w.next ≠ i := by omega
    have hmarks : marks (w.step (.start k)).events i = marks w.events i := by simp [Writer.step, hne]
    refine ⟨i, Nat.lt_succ_of_lt hold, by rwa [hmarks], ?_⟩
    rw [hmarks]
    rcases hlost with ⟨-, hnot⟩ | hbroken
    · refine .inl ⟨?_, hnot⟩
      intro k' hk
      simp only [Writer.step, Option.some.injEq, Prod.mk.injEq] at hk
      exact hne hk.1
    · exact .inr hbroken
  | piece | stop =>
    simp only [Writer.step]
    split
    · rename_i j kind hb
      have hother : ∀ i, (∀ k, w.block ≠ some (i, k)) → j ≠ i := by
        rintro _ hcur rfl
        exact hcur kind hb
      exact h.write (fun i hcur => if_neg (hother i hcur)) (by simp)
    · exact h

theorem Sound.step (h : Sound w) (hc : Clean w op) : Sound (w.step op) := by
  cases op with
  | start => exact h.start hc
  | piece => exact h.piece hc
  | stop => exact h.stop

theorem Sound.spoiled (h : Sound w) (hc : ¬ Clean w op) : Spoiled (w.step op) := by
  cases op with
  | start => exact h.spoiled_start hc
  | piece => exact h.spoiled_piece hc
  | stop => exact absurd trivial hc

theorem Sound.run (h : Sound w) (hc : Trace.Along Writer.step Clean w ops) :
    Sound (Trace.run Writer.step w ops) :=
  Trace.invariant_along (fun _ _ hs hclean => hs.step hclean) h hc

theorem Spoiled.run (h : Spoiled w) (ops : List (Op K)) : Spoiled (Trace.run Writer.step w ops) :=
  Trace.invariant (fun _ op hs => hs.step op) h ops

theorem Sound.spoiled_run (h : Sound w) (hc : ¬ Trace.Along Writer.step Clean w ops) :
    Spoiled (Trace.run Writer.step w ops) := by
  induction ops generalizing w with
  | nil => exact absurd trivial hc
  | cons op ops ih =>
    by_cases hop : Clean w op
    · exact ih (h.step hop) fun hrest => hc ⟨hop, hrest⟩
    · exact (h.spoiled hop).run ops

theorem Spoiled.not_balanced (h : Spoiled w) : ¬ Balanced w.events := by
  obtain ⟨i, hold, hbegun, hlost⟩ := h
  intro hbal
  rcases hbal i with hnil | hcomplete
  · exact hbegun hnil
  · rcases hlost with ⟨-, hnot⟩ | hbroken
    · exact hnot hcomplete
    · exact hbroken.not_complete hcomplete

theorem Sound.balanced (h : Sound w) (hb : w.block = none) : Balanced w.events := by
  intro i
  by_cases hi : i < w.next
  · exact .inr (h.complete i hi (by simp [hb]))
  · exact .inl (h.fresh i (Nat.le_of_not_lt hi))

theorem step_stop_block (w : Writer K) : (w.step .stop).block = none := by
  cases hb : w.block <;> simp [step, hb]

theorem balanced_run_iff (ops : List (Op K)) :
    Balanced ((Trace.run step empty ops).step .stop).events ↔ Trace.Along step Clean empty ops := by
  constructor
  · intro hbal
    by_contra hc
    exact ((sound_empty.spoiled_run hc).step .stop).not_balanced hbal
  · intro hc
    exact (sound_empty.run hc).stop.balanced (step_stop_block _)

end Writer

end CloseClaw.Lib.BlockStream
