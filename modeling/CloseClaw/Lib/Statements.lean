/- Programs of statements on a store, without a transaction. -/

import Mathlib.Tactic.Common
import Mathlib.Data.List.Nodup

namespace CloseClaw.Lib

structure Run (σ ε α : Type) where
  outcome : Except ε α
  next : Nat
  store : σ

def Program (σ ε α : Type) : Type := (Nat → Option ε) → Nat → σ → Run σ ε α

namespace Program

variable {σ ε α β : Type}

def quiet : Nat → Option ε := fun _ => none

protected def pure (a : α) : Program σ ε α := fun _ n s => ⟨.ok a, n, s⟩

protected def bind (p : Program σ ε α) (f : α → Program σ ε β) : Program σ ε β := fun refuses n s =>
  match p refuses n s with
  | ⟨.ok a, n', s'⟩ => f a refuses n' s'
  | ⟨.error e, n', s'⟩ => ⟨.error e, n', s'⟩

instance monad : Monad (Program σ ε) where
  pure := Program.pure
  bind := Program.bind

def statement (f : σ → Except ε (α × σ)) : Program σ ε α := fun refuses n s =>
  match refuses n with
  | some e => ⟨.error e, n + 1, s⟩
  | none =>
    match f s with
    | .ok (a, s') => ⟨.ok a, n + 1, s'⟩
    | .error e => ⟨.error e, n + 1, s⟩

variable {p : Program σ ε α} {f : α → Program σ ε β} {refuses : Nat → Option ε} {n : Nat} {s : σ}

theorem bind_of_ok {a : α} (h : (p refuses n s).outcome = .ok a) :
    (p >>= f) refuses n s = f a refuses (p refuses n s).next (p refuses n s).store := by
  change Program.bind p f refuses n s = _
  unfold Program.bind
  cases hp : p refuses n s with
  | mk outcome =>
    rw [hp] at h
    obtain rfl : outcome = .ok a := h
    rfl

theorem bind_of_error {e : ε} (h : (p refuses n s).outcome = .error e) :
    (p >>= f) refuses n s = ⟨.error e, (p refuses n s).next, (p refuses n s).store⟩ := by
  change Program.bind p f refuses n s = _
  unfold Program.bind
  cases hp : p refuses n s with
  | mk outcome =>
    rw [hp] at h
    obtain rfl : outcome = .error e := h
    rfl

def Within (R : σ → σ → Prop) (p : Program σ ε α) : Prop := ∀ refuses n s, R s (p refuses n s).store

variable {R : σ → σ → Prop} {g : σ → Except ε (α × σ)}

theorem within_statement (hrefl : ∀ s, R s s) (h : ∀ s a s', g s = .ok (a, s') → R s s') : Within R (statement g) := by
  intro refuses n s
  unfold statement
  cases refuses n with
  | some => exact hrefl s
  | none =>
    cases hg : g s with
    | error => exact hrefl s
    | ok r => exact h s r.1 r.2 hg

theorem Within.bind (htrans : ∀ {a b c}, R a b → R b c → R a c) (hp : Within R p)
    (hf : ∀ a, Within R (f a)) : Within R (p >>= f) := by
  intro refuses n s
  cases ho : (p refuses n s).outcome with
  | ok a =>
    rw [bind_of_ok ho]
    exact htrans (hp refuses n s) (hf a _ _ _)
  | error =>
    rw [bind_of_error ho]
    exact hp refuses n s

def Returns (Q : σ → α → Prop) (p : Program σ ε α) : Prop :=
  ∀ refuses n s a, (p refuses n s).outcome = .ok a → Q s a

theorem returns_statement {Q : σ → α → Prop} (h : ∀ s a s', g s = .ok (a, s') → Q s a) : Returns Q (statement g) := by
  intro refuses n s a ha
  unfold statement at ha
  cases hr : refuses n with
  | some =>
    rw [hr] at ha
    cases ha
  | none =>
    rw [hr] at ha
    cases hg : g s with
    | error =>
      rw [hg] at ha
      cases ha
    | ok r =>
      rw [hg] at ha
      obtain rfl : r.1 = a := Except.ok.inj ha
      exact h s r.1 r.2 hg

theorem Returns.bind_within {Q : σ → β → Prop} (hp : Within R p) (hf : ∀ a, Returns Q (f a))
    (hQ : ∀ {s s' b}, R s s' → Q s' b → Q s b) : Returns Q (p >>= f) := by
  intro refuses n s b hb
  cases ho : (p refuses n s).outcome with
  | ok a =>
    rw [bind_of_ok ho] at hb
    exact hQ (hp refuses n s) (hf a _ _ _ b hb)
  | error =>
    rw [bind_of_error ho] at hb
    cases hb

def Succeeds (p : Program σ ε α) (s : σ) (Q : α → σ → Prop) : Prop :=
  ∀ n, ∃ a, (p quiet n s).outcome = .ok a ∧ Q a (p quiet n s).store

variable {a : α} {Q : α → σ → Prop}

theorem succeeds_pure (h : Q a s) : Succeeds (pure a : Program σ ε α) s Q :=
  fun _ => ⟨a, rfl, h⟩

theorem succeeds_statement {s' : σ} (hg : g s = .ok (a, s')) (h : Q a s') : Succeeds (statement g) s Q := by
  intro n
  refine ⟨a, ?_, ?_⟩ <;> simp only [statement, quiet, hg]
  exact h

theorem Succeeds.mono {Q' : α → σ → Prop} (h : Succeeds p s Q) (hQ : ∀ a s', Q a s' → Q' a s') : Succeeds p s Q' := by
  intro n
  obtain ⟨a, ha, hq⟩ := h n
  exact ⟨a, ha, hQ a _ hq⟩

theorem Succeeds.bind {Q : β → σ → Prop} (h : Succeeds p s fun a s' => Succeeds (f a) s' Q) :
    Succeeds (p >>= f) s Q := by
  intro n
  obtain ⟨a, ha, hf⟩ := h n
  rw [bind_of_ok ha]
  exact hf _

def StopsAt (p : Program σ ε α) (refuses : Nat → Option ε) (n : Nat) (s : σ) : Prop :=
  ∃ e, p refuses n s = ⟨.error e, n + 1, s⟩

theorem stopsAt_of_refused (g : σ → Except ε (α × σ)) (h : refuses n ≠ none) : StopsAt (statement g) refuses n s := by
  obtain ⟨e, he⟩ := Option.ne_none_iff_exists'.mp h
  exact ⟨e, by simp only [statement, he]⟩

theorem stopsAt_of_error {e : ε} (h : g s = .error e) : StopsAt (statement g) refuses n s := by
  cases hr : refuses n with
  | some e' => exact stopsAt_of_refused g (by rw [hr]; exact Option.some_ne_none e')
  | none => exact ⟨e, by simp only [statement, hr, h]⟩

theorem StopsAt.bind (h : StopsAt p refuses n s) (f : α → Program σ ε β) : StopsAt (p >>= f) refuses n s := by
  obtain ⟨e, hp⟩ := h
  exact ⟨e, by rw [bind_of_error (e := e) (by rw [hp]), hp]⟩

end Program

open List

structure Table (ρ : Type) where
  rows : List (Int × ρ)
  seq : Int
  keys : (rows.map Prod.fst).Nodup
  bounded : ∀ p ∈ rows, p.1 ≤ seq

namespace Table

variable {ρ : Type} {t : Table ρ} {id : Int} {r : ρ}

def empty : Table ρ := ⟨[], 0, nodup_nil, fun _ h => absurd h not_mem_nil⟩

def has (t : Table ρ) (id : Int) : Bool := t.rows.any (·.1 == id)

def insert (t : Table ρ) (r : ρ) : Table ρ where
  rows := t.rows ++ [(t.seq + 1, r)]
  seq := t.seq + 1
  keys := by
    rw [map_append, nodup_append]
    refine ⟨t.keys, nodup_singleton _, ?_⟩
    intro a ha b hb
    obtain ⟨p, hp, rfl⟩ := mem_map.mp ha
    have hle := t.bounded p hp
    have hb : b = t.seq + 1 := mem_singleton.mp hb
    omega
  bounded := by
    intro p hp
    rcases mem_append.mp hp with hp | hp
    · have hle := t.bounded p hp
      omega
    · obtain rfl := mem_singleton.mp hp
      exact Int.le_refl _

def modify (t : Table ρ) (id : Int) (f : ρ → ρ) : Table ρ where
  rows := t.rows.map fun p => (p.1, if p.1 = id then f p.2 else p.2)
  seq := t.seq
  keys := by
    rw [map_map]
    exact t.keys
  bounded := by
    intro p hp
    obtain ⟨q, hq, rfl⟩ := mem_map.mp hp
    exact t.bounded q hq

theorem has_iff : t.has id = true ↔ ∃ r, (id, r) ∈ t.rows := by
  simp [has]

@[simp] theorem insert_seq : (t.insert r).seq = t.seq + 1 := rfl

@[simp] theorem modify_seq (f : ρ → ρ) : (t.modify id f).seq = t.seq := rfl

theorem mem_insert_self : (t.seq + 1, r) ∈ (t.insert r).rows := mem_append_right _ (mem_singleton_self _)

theorem mem_insert_of_mem {p : Int × ρ} (h : p ∈ t.rows) : p ∈ (t.insert r).rows := mem_append_left _ h

theorem has_insert_self : (t.insert r).has (t.seq + 1) = true := has_iff.mpr ⟨r, mem_insert_self⟩

theorem mem_modify {f : ρ → ρ} {p : Int × ρ} (h : p ∈ t.rows) :
    (p.1, if p.1 = id then f p.2 else p.2) ∈ (t.modify id f).rows :=
  mem_map_of_mem h

end Table

end CloseClaw.Lib
