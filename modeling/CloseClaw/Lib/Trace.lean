/- Runs of a step function, and invariants of them. -/

import Mathlib.Order.Defs.Unbundled

namespace CloseClaw.Lib.Trace

open List

variable {σ ε : Type}

def run (step : σ → ε → σ) (s : σ) (events : List ε) : σ := events.foldl step s

def Along (step : σ → ε → σ) (P : σ → ε → Prop) : σ → List ε → Prop
  | _, [] => True
  | s, e :: events => P s e ∧ Along step P (step s e) events

variable {step : σ → ε → σ} {P : σ → ε → Prop} {s : σ} {events : List ε}

instance Along.decidable [∀ s e, Decidable (P s e)] : ∀ s events, Decidable (Along step P s events)
  | _, [] => isTrue trivial
  | s, e :: events =>
    have := Along.decidable (step s e) events
    inferInstanceAs (Decidable (P s e ∧ Along step P (step s e) events))

@[simp] theorem run_nil : run step s [] = s := rfl

@[simp] theorem run_cons (e : ε) : run step s (e :: events) = run step (step s e) events := rfl

theorem run_append (more : List ε) : run step s (events ++ more) = run step (run step s events) more := foldl_append

theorem along_append {more : List ε} :
    Along step P s (events ++ more) ↔ Along step P s events ∧ Along step P (run step s events) more := by
  induction events generalizing s with
  | nil => simp [Along]
  | cons e events ih => simp [Along, ih, and_assoc]

theorem Along.mono {Q : σ → ε → Prop} (h : Along step P s events) (hPQ : ∀ s e, P s e → Q s e) :
    Along step Q s events := by
  induction events generalizing s with
  | nil => trivial
  | cons e events ih => exact ⟨hPQ s e h.1, ih h.2⟩

variable {I : σ → Prop}

theorem invariant_along (hstep : ∀ s e, I s → P s e → I (step s e)) (h : I s)
    (ha : Along step P s events) : I (run step s events) := by
  induction events generalizing s with
  | nil => exact h
  | cons e events ih => exact ih (hstep s e h ha.1) ha.2

theorem invariant (hstep : ∀ s e, I s → I (step s e)) (h : I s) (events : List ε) : I (run step s events) := by
  induction events generalizing s with
  | nil => exact h
  | cons e events ih => exact ih (hstep s e h)

theorem invariant_elim {α : Type} {o : Option α} {f : α → σ} (h : I s)
    (hf : ∀ a, o = some a → I (f a)) : I (o.elim s f) := by
  cases o with
  | none => exact h
  | some a => exact hf a rfl

theorem along_congr {Q : σ → ε → Prop} (hstep : ∀ s e, I s → I (step s e)) (h : I s)
    (hPQ : ∀ s e, I s → (P s e ↔ Q s e)) : Along step P s events ↔ Along step Q s events := by
  induction events generalizing s with
  | nil => exact Iff.rfl
  | cons e events ih => exact and_congr (hPQ s e h) (ih (hstep s e h))

theorem always_iff_along {Q : σ → Prop} (hI : ∀ s e, I s → I (step s e))
    (hQ : ∀ s e, I s → Q s → (Q (step s e) ↔ P s e)) (h : I s) (hs : Q s) :
    (∀ before, before <+: events → Q (run step s before)) ↔ Along step P s events := by
  induction events generalizing s with
  | nil =>
    refine iff_of_true ?_ trivial
    intro before hb
    rw [prefix_nil.mp hb]
    exact hs
  | cons e events ih =>
    constructor
    · intro hall
      have hnext : Q (step s e) := hall [e] (prefix_append [e] events)
      refine ⟨(hQ s e h hs).mp hnext, (ih (hI s e h) hnext).mp ?_⟩
      intro before hb
      exact hall (e :: before) ((prefix_cons_inj e).mpr hb)
    · intro hall before hb
      have hnext : Q (step s e) := (hQ s e h hs).mpr hall.1
      cases before with
      | nil => exact hs
      | cons e' before =>
        obtain ⟨rfl, hrest⟩ := cons_prefix_cons.mp hb
        exact (ih (hI s _ h) hnext).mpr hall.2 before hrest

section Partial

variable {body : σ → ε → Option σ} {I : σ → Prop} {R : σ → σ → Prop} [Std.Refl R] [IsTrans σ R]

theorem foldlM_total (hbody : ∀ s, I s → ∀ e ∈ events, ∃ s', body s e = some s' ∧ I s' ∧ R s s') (h : I s) :
    ∃ s', events.foldlM body s = some s' ∧ I s' ∧ R s s' := by
  induction events generalizing s with
  | nil => exact ⟨s, rfl, h, Std.Refl.refl s⟩
  | cons e events ih =>
    obtain ⟨s₁, he, h₁, hR₁⟩ := hbody s h e mem_cons_self
    obtain ⟨s₂, hrest, h₂, hR₂⟩ := ih (fun s hs e' he' => hbody s hs e' (mem_cons_of_mem e he')) h₁
    refine ⟨s₂, ?_, h₂, IsTrans.trans _ _ _ hR₁ hR₂⟩
    rw [foldlM_cons, he]
    exact hrest

theorem foldlM_turn (hbody : ∀ s, I s → ∀ e ∈ events, ∃ s', body s e = some s' ∧ I s' ∧ R s s') (h : I s) {e : ε}
    (he : e ∈ events) : ∃ s₁ s₂ s', I s₁ ∧ body s₁ e = some s₂ ∧ R s₂ s' ∧ events.foldlM body s = some s' := by
  obtain ⟨before, after, rfl⟩ := append_of_mem he
  obtain ⟨s₁, hbefore, h₁, -⟩ := foldlM_total (fun s hs e' he' => hbody s hs e' (mem_append_left _ he')) h
  obtain ⟨s₂, hturn, h₂, -⟩ := hbody s₁ h₁ e (by simp)
  obtain ⟨s', hafter, -, hR⟩ := foldlM_total
    (fun s hs e' he' => hbody s hs e' (mem_append_right _ (mem_cons_of_mem e he'))) h₂
  refine ⟨s₁, s₂, s', h₁, hturn, hR, ?_⟩
  rw [foldlM_append, hbefore]
  show List.foldlM body s₁ (e :: after) = _
  rw [foldlM_cons, hturn]
  exact hafter

end Partial

end CloseClaw.Lib.Trace
