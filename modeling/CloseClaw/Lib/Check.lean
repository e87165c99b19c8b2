/- Checks that stop at the first failure. -/

import Mathlib.Logic.Basic

namespace CloseClaw.Lib.Check

variable {ε α : Type}

abbrev Result (ε : Type) := Except ε Unit

def failIf (bad : Bool) (e : ε) : Result ε := if bad then .error e else .ok ()

def andThen (first : Result ε) (second : Result ε) : Result ε :=
  match first with
  | .error e => .error e
  | .ok () => second

def all : List (Result ε) → Result ε
  | [] => .ok ()
  | c :: rest => andThen c (all rest)

def forEachIdx (check : Nat → α → Result ε) : Nat → List α → Result ε
  | _, [] => .ok ()
  | i, x :: rest => andThen (check i x) (forEachIdx check (i + 1) rest)

def forEach (check : α → Result ε) (l : List α) : Result ε := forEachIdx (fun _ => check) 0 l

@[simp] theorem failIf_ok {bad : Bool} {e : ε} : failIf bad e = .ok () ↔ bad = false := by
  cases bad <;> simp [failIf]

@[simp] theorem andThen_ok {first second : Result ε} :
    andThen first second = .ok () ↔ first = .ok () ∧ second = .ok () := by
  cases first <;> simp [andThen]

@[simp] theorem all_ok {checks : List (Result ε)} : all checks = .ok () ↔ ∀ c ∈ checks, c = .ok () := by
  induction checks with
  | nil => simp [all]
  | cons c rest ih => simp [all, ih]

theorem forEachIdx_ok {check : Nat → α → Result ε} {l : List α} {i : Nat} :
    forEachIdx check i l = .ok () ↔ ∀ k (hk : k < l.length), check (i + k) l[k] = .ok () := by
  induction l generalizing i with
  | nil => simp [forEachIdx]
  | cons x rest ih =>
    rw [forEachIdx, andThen_ok, ih]
    constructor
    · rintro ⟨hx, hrest⟩ k hk
      cases k with
      | zero => exact hx
      | succ k =>
        have hshift : i + 1 + k = i + (k + 1) := by omega
        exact hshift ▸ hrest k (Nat.lt_of_succ_lt_succ hk)
    · intro h
      refine ⟨h 0 (Nat.succ_pos _), ?_⟩
      intro k hk
      have hshift : i + 1 + k = i + (k + 1) := by omega
      exact hshift ▸ h (k + 1) (Nat.succ_lt_succ hk)

end CloseClaw.Lib.Check
