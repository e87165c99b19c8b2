/- Jobs run one after the other or at once. A run may stop anywhere. -/

import Mathlib.Data.List.Perm.Basic
import Mathlib.Data.List.Nodup
import Mathlib.Data.List.Count

namespace CloseClaw.Lib.ForkJoin

open List

inductive Proc (J : Type) where
  | done
  | job (j : J)
  | busy (j : J)
  | seq (p q : Proc J)
  | par (p q : Proc J)

inductive Event (J R : Type) where
  | started (j : J)
  | finished (j : J) (result : R)

variable {J R : Type}

namespace Event

def job : Event J R → J
  | started j => j
  | finished j _ => j

def startedJob : Event J R → Option J
  | started j => some j
  | finished _ _ => none

def finishedJob : Event J R → Option J
  | started _ => none
  | finished j _ => some j

end Event

open Event

namespace Proc

def complete : Proc J → Bool
  | done => true
  | job _ => false
  | busy _ => false
  | seq p q => p.complete && q.complete
  | par p q => p.complete && q.complete

def waiting : Proc J → List J
  | done => []
  | job j => [j]
  | busy _ => []
  | seq p q => p.waiting ++ q.waiting
  | par p q => p.waiting ++ q.waiting

def jobs : Proc J → List J
  | done => []
  | job j => [j]
  | busy j => [j]
  | seq p q => p.jobs ++ q.jobs
  | par p q => p.jobs ++ q.jobs

def Before : Proc J → J → J → Prop
  | done, _, _ => False
  | job _, _, _ => False
  | busy _, _, _ => False
  | seq p q, a, b => (a ∈ p.jobs ∧ b ∈ q.jobs) ∨ Before p a b ∨ Before q a b
  | par p q, a, b => Before p a b ∨ Before q a b

def inOrder : List J → Proc J
  | [] => done
  | j :: rest => seq (job j) (inOrder rest)

def joinAll : List (Proc J) → Proc J
  | [] => done
  | p :: rest => par p (joinAll rest)

@[simp] theorem jobs_inOrder (l : List J) : (inOrder l).jobs = l := by
  induction l with
  | nil => rfl
  | cons j rest ih => simp [inOrder, jobs, ih]

@[simp] theorem jobs_joinAll (ps : List (Proc J)) : (joinAll ps).jobs = ps.flatMap jobs := by
  induction ps with
  | nil => rfl
  | cons p rest ih => simp [joinAll, jobs, ih]

@[simp] theorem waiting_inOrder (l : List J) : (inOrder l).waiting = l := by
  induction l with
  | nil => rfl
  | cons j rest ih => simp [inOrder, waiting, ih]

@[simp] theorem waiting_joinAll (ps : List (Proc J)) : (joinAll ps).waiting = ps.flatMap waiting := by
  induction ps with
  | nil => rfl
  | cons p rest ih => simp [joinAll, waiting, ih]

theorem before_inOrder {l : List J} {a b : J} (h : [a, b].Sublist l) : (inOrder l).Before a b := by
  induction l with
  | nil => cases h
  | cons j rest ih =>
    cases h with
    | cons _ h => exact .inr (.inr (ih h))
    | cons_cons _ h => exact .inl ⟨by simp [jobs], by simpa using h⟩

theorem before_joinAll {ps : List (Proc J)} {p : Proc J} {a b : J} (hp : p ∈ ps) (h : p.Before a b) :
    (joinAll ps).Before a b := by
  induction ps with
  | nil => cases hp
  | cons q rest ih =>
    rcases mem_cons.mp hp with rfl | hp
    · exact .inl h
    · exact .inr (ih hp)

inductive Step : Proc J → Event J R → Proc J → Prop
  | start (j : J) : Step (job j) (.started j) (busy j)
  | finish (j : J) (result : R) : Step (busy j) (.finished j result) done
  | first {p p' q : Proc J} {e : Event J R} (h : Step p e p') : Step (seq p q) e (seq p' q)
  | second {p q q' : Proc J} {e : Event J R} (hp : p.complete = true) (h : Step q e q') : Step (seq p q) e (seq p q')
  | left {p p' q : Proc J} {e : Event J R} (h : Step p e p') : Step (par p q) e (par p' q)
  | right {p q q' : Proc J} {e : Event J R} (h : Step q e q') : Step (par p q) e (par p q')

inductive Run : Proc J → List (Event J R) → Proc J → Prop
  | nil (p : Proc J) : Run p [] p
  | cons {p p' p'' : Proc J} {e : Event J R} {log : List (Event J R)} (h : Step p e p') (rest : Run p' log p'') :
    Run p (e :: log) p''

variable {p p' q : Proc J} {e : Event J R} {log : List (Event J R)} {a b : J}

theorem complete_iff : p.complete = true ↔ p.jobs = [] := by
  induction p with
  | done | job | busy => simp [complete, jobs]
  | seq p q ihp ihq => simp [complete, jobs, ihp, ihq]
  | par p q ihp ihq => simp [complete, jobs, ihp, ihq]

theorem waiting_length_le (p : Proc J) : p.waiting.length ≤ p.jobs.length := by
  induction p with
  | done | job => exact Nat.le_refl _
  | busy => exact Nat.zero_le _
  | seq p q ihp ihq | par p q ihp ihq =>
    simp only [waiting, jobs, length_append]
    omega

theorem before_mem (h : p.Before a b) : a ∈ p.jobs ∧ b ∈ p.jobs := by
  induction p with
  | done | job | busy => cases h
  | seq p q ihp ihq =>
    simp only [jobs, mem_append]
    rcases h with h | h | h
    · exact ⟨.inl h.1, .inr h.2⟩
    · exact ⟨.inl (ihp h).1, .inl (ihp h).2⟩
    · exact ⟨.inr (ihq h).1, .inr (ihq h).2⟩
  | par p q ihp ihq =>
    simp only [jobs, mem_append]
    rcases h with h | h
    · exact ⟨.inl (ihp h).1, .inl (ihp h).2⟩
    · exact ⟨.inr (ihq h).1, .inr (ihq h).2⟩

theorem Step.job_mem (h : Step p e p') : e.job ∈ p.jobs := by
  induction h with
  | start | finish => simp [Event.job, jobs]
  | first h ih | left h ih => simp [jobs, ih]
  | second hp h ih => simp [jobs, ih]
  | right h ih => simp [jobs, ih]

theorem Step.jobs_perm (h : Step p e p') : p.jobs.Perm (e.finishedJob.toList ++ p'.jobs) := by
  induction h with
  | start | finish => exact .refl _
  | first h ih | left h ih =>
    simp only [jobs, ← append_assoc]
    exact ih.append_right _
  | second hp h ih | right h ih =>
    simp only [jobs]
    exact (ih.append_left _).trans (perm_append_comm_assoc _ _ _)

theorem Step.waiting_perm (h : Step p e p') : p.waiting.Perm (e.startedJob.toList ++ p'.waiting) := by
  induction h with
  | start | finish => exact .refl _
  | first h ih | left h ih =>
    simp only [waiting, ← append_assoc]
    exact ih.append_right _
  | second hp h ih | right h ih =>
    simp only [waiting]
    exact (ih.append_left _).trans (perm_append_comm_assoc _ _ _)

theorem Step.mem_jobs (h : Step p e p') (ha : a ∈ p.jobs) : (∃ r, e = .finished a r) ∨ a ∈ p'.jobs := by
  have hmem := h.jobs_perm.mem_iff.mp ha
  cases e with
  | started => exact .inr (by simpa [finishedJob] using hmem)
  | finished j r =>
    rcases (by simpa [finishedJob] using hmem : a = j ∨ a ∈ p'.jobs) with rfl | hmem
    · exact .inl ⟨r, rfl⟩
    · exact .inr hmem

theorem Step.nodup (h : Step p e p') (hn : p.jobs.Nodup) : p'.jobs.Nodup :=
  (nodup_append.mp (h.jobs_perm.nodup_iff.mp hn)).2.1

theorem Step.before (h : Step p e p') (hn : p.jobs.Nodup) (hab : p.Before a b) :
    e ≠ .started b ∧ ((∃ r, e = .finished a r) ∨ p'.Before a b) := by
  induction h with
  | start | finish => cases hab
  | @first p p' q e h ih =>
    obtain ⟨hnp, hnq, hdisjoint⟩ := nodup_append.mp hn
    rcases hab with ⟨ha, hb⟩ | hab | hab
    · refine ⟨?_, ?_⟩
      · rintro rfl
        exact hdisjoint b h.job_mem b hb rfl
      · exact (h.mem_jobs ha).imp_right fun ha => .inl ⟨ha, hb⟩
    · exact (ih hnp hab).imp_right (·.imp_right fun hab => .inr (.inl hab))
    · refine ⟨?_, .inr (.inr (.inr hab))⟩
      rintro rfl
      exact hdisjoint b h.job_mem b (before_mem hab).2 rfl
  | @second p q q' e hp h ih =>
    obtain ⟨hnp, hnq, hdisjoint⟩ := nodup_append.mp hn
    rw [complete_iff] at hp
    rcases hab with ⟨ha, hb⟩ | hab | hab
    · simp [hp] at ha
    · have ha := (before_mem hab).1
      simp [hp] at ha
    · exact (ih hnq hab).imp_right (·.imp_right fun hab => .inr (.inr hab))
  | @left p p' q e h ih =>
    obtain ⟨hnp, hnq, hdisjoint⟩ := nodup_append.mp hn
    rcases hab with hab | hab
    · exact (ih hnp hab).imp_right (·.imp_right .inl)
    · refine ⟨?_, .inr (.inr hab)⟩
      rintro rfl
      exact hdisjoint b h.job_mem b (before_mem hab).2 rfl
  | @right p q q' e h ih =>
    obtain ⟨hnp, hnq, hdisjoint⟩ := nodup_append.mp hn
    rcases hab with hab | hab
    · refine ⟨?_, .inr (.inl hab)⟩
      rintro rfl
      exact hdisjoint b (before_mem hab).2 b h.job_mem rfl
    · exact (ih hnq hab).imp_right (·.imp_right .inr)

def Precedes (log : List (Event J R)) (a b : J) : Prop :=
  ∀ pre post, log = pre ++ .started b :: post → ∃ r, .finished a r ∈ pre

theorem run_precedes (h : Run p log p') (hn : p.jobs.Nodup) (hab : p.Before a b) : Precedes log a b := by
  induction h with
  | nil =>
    intro pre post heq
    simp at heq
  | @cons p p₁ p₂ e log h rest ih =>
    intro pre post heq
    obtain ⟨hne, hnext⟩ := h.before hn hab
    cases pre with
    | nil =>
      obtain ⟨rfl, -⟩ := List.cons.inj heq
      exact absurd rfl hne
    | cons e' pre =>
      obtain ⟨rfl, htail⟩ := List.cons.inj heq
      rcases hnext with ⟨r, rfl⟩ | hab
      · exact ⟨r, by simp⟩
      · obtain ⟨r, hr⟩ := ih (h.nodup hn) hab pre post htail
        exact ⟨r, by simp [hr]⟩

theorem run_finished_perm (h : Run p log p') : p.jobs.Perm (log.filterMap finishedJob ++ p'.jobs) := by
  induction h with
  | nil => exact .refl _
  | @cons p p₁ p₂ e log h rest ih =>
    refine h.jobs_perm.trans ?_
    cases e <;> simpa [filterMap_cons, finishedJob] using ih

theorem run_started_perm (h : Run p log p') : p.waiting.Perm (log.filterMap startedJob ++ p'.waiting) := by
  induction h with
  | nil => exact .refl _
  | @cons p p₁ p₂ e log h rest ih =>
    refine h.waiting_perm.trans ?_
    cases e <;> simpa [filterMap_cons, startedJob] using ih

theorem log_length (log : List (Event J R)) :
    log.length = (log.filterMap startedJob).length + (log.filterMap finishedJob).length := by
  induction log with
  | nil => rfl
  | cons e =>
    cases e <;> simp only [length_cons, filterMap_cons, startedJob, finishedJob] <;> omega

theorem run_length_le (h : Run p log p') : log.length ≤ 2 * p.jobs.length := by
  have hfinished := (run_finished_perm h).length_eq
  have hstarted := (run_started_perm h).length_eq
  have hwaiting := waiting_length_le p
  rw [length_append] at hfinished hstarted
  rw [log_length]
  omega

theorem progress (result : J → R) (p : Proc J) (h : p.complete = false) :
    ∃ (e : Event J R) (p' : Proc J), Step p e p' := by
  induction p with
  | done => cases h
  | job j => exact ⟨_, _, .start j⟩
  | busy j => exact ⟨_, _, .finish j (result j)⟩
  | seq p q ihp ihq =>
    by_cases hp : p.complete = true
    · obtain ⟨e, q', hq⟩ := ihq (by simpa [complete, hp] using h)
      exact ⟨e, _, .second hp hq⟩
    · obtain ⟨e, p', hp⟩ := ihp (by simpa using hp)
      exact ⟨e, _, .first hp⟩
  | par p q ihp ihq =>
    by_cases hp : p.complete = true
    · obtain ⟨e, q', hq⟩ := ihq (by simpa [complete, hp] using h)
      exact ⟨e, _, .right hq⟩
    · obtain ⟨e, p', hp⟩ := ihp (by simpa using hp)
      exact ⟨e, _, .left hp⟩

theorem Step.decreases (h : Step p e p') : p'.waiting.length + p'.jobs.length < p.waiting.length + p.jobs.length := by
  have hjobs := h.jobs_perm.length_eq
  have hwaiting := h.waiting_perm.length_eq
  rw [length_append] at hjobs hwaiting
  cases e <;> simp only [startedJob, finishedJob, Option.toList_some, Option.toList_none,
    length_cons, length_nil] at hjobs hwaiting <;> omega

theorem exists_complete (result : J → R) (p : Proc J) :
    ∃ (log : List (Event J R)) (p' : Proc J), Run p log p' ∧ p'.complete = true := by
  induction hn : p.waiting.length + p.jobs.length using Nat.strongRecOn generalizing p with
  | ind n ih =>
    by_cases hp : p.complete = true
    · exact ⟨[], p, .nil p, hp⟩
    · obtain ⟨e, p₁, h⟩ := progress result p (by simpa using hp)
      obtain ⟨log, p', hrun, hcomplete⟩ := ih _ (hn ▸ h.decreases) p₁ rfl
      exact ⟨e :: log, p', .cons h hrun, hcomplete⟩

end Proc

end CloseClaw.Lib.ForkJoin
