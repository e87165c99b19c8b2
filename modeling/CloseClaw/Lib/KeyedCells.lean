/- A list of cells that events of different keys fill in turns. -/

import Mathlib.Data.List.Induction
import Mathlib.Logic.Function.Basic

namespace CloseClaw.Lib.KeyedCells

open List Function

variable {ι β : Type}

inductive Event (ι β : Type) where
  | start (key : ι) (cell : β)
  | update (key : ι) (f : β → β)
  | stop (key : ι)

def Event.key : Event ι β → ι
  | .start k _ => k
  | .update k _ => k
  | .stop k => k

def Event.isStart : Event ι β → Bool
  | .start .. => true
  | _ => false

section Alter

variable {o o' : Option Nat} {l : List β} (f g : β → β)

def alter (o : Option Nat) (l : List β) : List β := o.elim l fun pos => l.modify pos f

@[simp] theorem length_alter : (alter f o l).length = l.length := by
  cases o <;> simp [alter]

theorem modify_concat {p : Nat} (h : p < l.length) (c : β) : (l ++ [c]).modify p f = l.modify p f ++ [c] := by
  induction l generalizing p with
  | nil => cases h
  | cons x l ih =>
    cases p with
    | zero => rfl
    | succ => simp [ih (Nat.lt_of_succ_lt_succ h)]

theorem alter_concat (h : ∀ p, o = some p → p < l.length) (c : β) : alter f o (l ++ [c]) = alter f o l ++ [c] := by
  cases o with
  | none => rfl
  | some p => exact modify_concat f (h p rfl) c

theorem modify_comm {p q : Nat} (h : p ≠ q) (l : List β) : (l.modify p f).modify q g = (l.modify q g).modify p f := by
  induction l generalizing p q with
  | nil => simp
  | cons x l ih =>
    cases p <;> cases q <;> simp at h ⊢
    exact ih h

theorem alter_comm (h : ∀ p, o = some p → o' ≠ some p) : alter g o' (alter f o l) = alter f o (alter g o' l) := by
  cases o with
  | none => rfl
  | some p =>
    cases o' with
    | none => rfl
    | some => exact modify_comm f g (fun hpq => h p rfl (by rw [hpq])) l

end Alter

structure Store (ι β : Type) where
  cells : List β
  opened : ι → Option Nat

structure Store.Ok (s : Store ι β) : Prop where
  bounded : ∀ k p, s.opened k = some p → p < s.cells.length
  apart : ∀ j k p, s.opened j = some p → s.opened k = some p → j = k

variable [DecidableEq ι]

open Store

open Event

namespace Store

def empty : Store ι β := ⟨[], fun _ => none⟩

def step (s : Store ι β) : Event ι β → Store ι β
  | .start k cell => ⟨s.cells ++ [cell], Function.update s.opened k (some s.cells.length)⟩
  | .update k f => { s with cells := alter f (s.opened k) s.cells }
  | .stop k => { s with opened := Function.update s.opened k none }

def run (es : List (Event ι β)) : Store ι β := es.foldl step empty

variable {s : Store ι β} {e e' : Event ι β}

theorem Ok.step (h : s.Ok) (e : Event ι β) : (s.step e).Ok := by
  cases e with
  | start k =>
    have hcases : ∀ j p, Function.update s.opened k (some s.cells.length) j = some p →
        j = k ∧ p = s.cells.length ∨ s.opened j = some p ∧ p < s.cells.length := by
      intro j p hj
      by_cases hjk : j = k
      · subst hjk
        rw [update_self] at hj
        exact .inl ⟨rfl, (Option.some.inj hj).symm⟩
      · rw [update_of_ne hjk] at hj
        exact .inr ⟨hj, h.bounded j p hj⟩
    constructor
    · intro j p hj
      simp only [Store.step, length_append, length_singleton]
      rcases hcases j p hj with ⟨-, rfl⟩ | ⟨-, hp⟩ <;> omega
    · intro i j p hi hj
      rcases hcases i p hi with ⟨rfl, rfl⟩ | ⟨hi, hp⟩ <;> rcases hcases j _ hj with ⟨rfl, hq⟩ | ⟨hj, hq⟩
      · rfl
      · omega
      · omega
      · exact h.apart i j p hi hj
  | update =>
    refine ⟨?_, h.apart⟩
    intro j p hj
    simp only [Store.step, length_alter]
    exact h.bounded j p hj
  | stop k =>
    have hkept : ∀ j p, Function.update s.opened k none j = some p → s.opened j = some p := by
      intro j p hj
      by_cases hjk : j = k
      · subst hjk
        simp at hj
      · rwa [update_of_ne hjk] at hj
    exact ⟨fun j p hj => h.bounded j p (hkept j p hj), fun i j p hi hj => h.apart i j p (hkept i p hi) (hkept j p hj)⟩

theorem ok_run (es : List (Event ι β)) : (run es).Ok := by
  induction es using List.reverseRecOn with
  | nil => exact ⟨fun _ _ h => (nomatch h), fun _ _ _ h => (nomatch h)⟩
  | append_singleton es e ih =>
    rw [run, foldl_append]
    exact ih.step e

theorem step_comm (h : s.Ok) (hk : e.key ≠ e'.key) (hs : e.isStart = true → e'.isStart = false) :
    (s.step e).step e' = (s.step e').step e := by
  cases e <;> cases e' <;> simp only [key] at hk
  case start.start => exact absurd (hs rfl) (by simp [isStart])
  case start.update k c j f => simp [step, update_of_ne (Ne.symm hk), alter_concat f (h.bounded j)]
  case update.start k f j c => simp [step, update_of_ne hk, alter_concat f (h.bounded k)]
  case update.update k f j g => simp only [step, alter_comm f g fun p hp hq => hk (h.apart k j p hp hq)]
  case update.stop => simp [step, update_of_ne hk]
  case stop.update => simp [step, update_of_ne (Ne.symm hk)]
  all_goals simp [step, update_comm hk]

theorem foldl_step_comm (h : s.Ok) {later : List (Event ι β)}
    (hl : ∀ e' ∈ later, e.key ≠ e'.key ∧ (e.isStart = true → e'.isStart = false)) :
    later.foldl step (s.step e) = (later.foldl step s).step e := by
  induction later generalizing s with
  | nil => rfl
  | cons e' later ih =>
    obtain ⟨hk, hs⟩ := hl e' mem_cons_self
    rw [foldl_cons, foldl_cons, step_comm h hk hs]
    exact ih (h.step e') fun x hx => hl x (mem_cons_of_mem e' hx)

end Store

def eventsOf (k : ι) (es : List (Event ι β)) : List (Event ι β) := es.filter fun e => e.key = k

variable {es es' : List (Event ι β)}

omit [DecidableEq ι] in
theorem filter_without {p : Event ι β → Bool} {before after : List (Event ι β)} {e : Event ι β}
    (h : (es ++ [e]).filter p = (before ++ e :: after).filter p) (hafter : p e = true → after.filter p = []) :
    es.filter p = (before ++ after).filter p := by
  by_cases he : p e = true
  · simpa [filter_append, he, hafter he] using h
  · simpa [filter_append, he] using h

theorem exists_last {e : Event ι β} (hstarts : (es ++ [e]).filter isStart = es'.filter isStart)
    (hevents : eventsOf e.key (es ++ [e]) = eventsOf e.key es') :
    ∃ before after, es' = before ++ e :: after ∧ eventsOf e.key after = [] ∧
      (e.isStart = true → after.filter isStart = []) := by
  have hlast : eventsOf e.key es' = eventsOf e.key es ++ [e] := by
    rw [← hevents]
    simp [eventsOf, filter_append]
  obtain ⟨first, rest, rfl, -, hrest⟩ := filter_eq_append_iff.mp hlast
  obtain ⟨mid, after, rfl, -, -, hafter⟩ := filter_eq_cons_iff.mp hrest
  refine ⟨first ++ mid, after, by simp, hafter, ?_⟩
  intro he
  rcases eq_nil_or_concat (after.filter isStart) with hnil | ⟨init, x, hx⟩
  · exact hnil
  · -- the last start would be one of another key
    have hsame : x = e := by
      simp only [filter_append, filter_cons, he, if_true, hx, filter_nil, concat_eq_append,
        ← append_assoc, ← cons_append] at hstarts
      exact (append_inj_right' hstarts rfl |> List.cons.inj).1.symm
    have hmem : x ∈ after.filter isStart := by simp [hx]
    exact absurd (filter_eq_nil_iff.mp hafter x (mem_filter.mp hmem).1) (by simp [hsame])

theorem run_eq (hstarts : es.filter isStart = es'.filter isStart) (hevents : ∀ k, eventsOf k es = eventsOf k es') :
    run es = run es' := by
  induction es using List.reverseRecOn generalizing es' with
  | nil =>
    cases es' with
    | nil => rfl
    | cons e =>
      have he := hevents e.key
      simp [eventsOf] at he
  | append_singleton es e ih =>
    obtain ⟨before, after, rfl, hkey, hstart⟩ := exists_last hstarts (hevents e.key)
    have hrest : run es = run (before ++ after) := by
      refine ih (filter_without hstarts hstart) fun k => filter_without (hevents k) fun hk => ?_
      rw [← of_decide_eq_true hk]
      exact hkey
    have hlater : ∀ e' ∈ after, e.key ≠ e'.key ∧ (e.isStart = true → e'.isStart = false) := by
      intro e' he'
      have hother := filter_eq_nil_iff.mp hkey e' he'
      refine ⟨fun h => hother (by simp [h]), ?_⟩
      intro he
      simpa using filter_eq_nil_iff.mp (hstart he) e' he'
    have hmoved := foldl_step_comm (ok_run before) hlater
    calc run (es ++ [e]) = (run es).step e := by rw [run, foldl_append]; rfl
      _ = (after.foldl Store.step (run before)).step e := by rw [hrest, run, foldl_append]; rfl
      _ = run (before ++ e :: after) := by rw [← hmoved, run, run, foldl_append]; rfl

end CloseClaw.Lib.KeyedCells
