/- When a model is passed over (`llm/src/retry.rs`). The clock counts nanoseconds; `attempts` does not
   overflow. The reason of a cooldown and its file are left out. -/

import Mathlib.Logic.Function.Basic

namespace CloseClaw.LLM.Cooldown

inductive ErrorKind where
  | transient
  | auth
  | billing
  | invalidRequest
  | unknown
  deriving DecidableEq

structure CooldownEntry where
  attempts : Nat
  cooldownUntil : Option Int

abbrev CooldownManager := String → Option CooldownEntry

def key (provider model : String) : String := provider ++ "/" ++ model

def delaySecs (attempts : Nat) : ErrorKind → Option Nat
  | .transient => some (Nat.min (60 * Nat.pow 2 (Nat.min attempts 5)) 3600)
  | .billing => some (Nat.min (18000 * Nat.pow 2 (Nat.min attempts 3)) 86400)
  | .auth => some 3600
  | .invalidRequest => none
  | .unknown => some 30

structure Outcome where
  provider : String
  model : String
  failure : Option ErrorKind
  at_ : Int

def isInCooldown (c : CooldownManager) (provider model : String) (now : Int) : Bool :=
  ((c (key provider model)).bind (·.cooldownUntil)).any (now < ·)

def recordFailure (c : CooldownManager) (provider model : String) (kind : ErrorKind) (now : Int) : CooldownManager :=
  let entry := (c (key provider model)).getD ⟨0, none⟩
  let attempts := entry.attempts + 1
  Function.update c (key provider model) (some ⟨attempts,
    (delaySecs attempts kind).elim entry.cooldownUntil fun secs => some (now + secs * 1000000000)⟩)

def recordSuccess (c : CooldownManager) (provider model : String) : CooldownManager :=
  Function.update c (key provider model) none

def record (c : CooldownManager) (o : Outcome) : CooldownManager :=
  match o.failure with
  | some kind => recordFailure c o.provider o.model kind o.at_
  | none => recordSuccess c o.provider o.model

/-! ## What a history leaves -/

/-- The newest outcome stands first. -/
def after (history : List Outcome) : CooldownManager := history.foldr (fun o c => record c o) fun _ => none

def about (k : String) (o : Outcome) : Bool := key o.provider o.model = k

def streak (k : String) (history : List Outcome) : Nat :=
  ((history.filter (about k)).takeWhile (·.failure.isSome)).length

/-- The newest outcome decides, invalid requests apart. -/
def expiry (k : String) (history : List Outcome) : Option Int :=
  match history.dropWhile fun o => !about k o || o.failure = some .invalidRequest with
  | ⟨_, _, some kind, t⟩ :: past => (delaySecs (streak k past + 1) kind).map fun secs => t + secs * 1000000000
  | _ => none

theorem entry_after (k : String) (history : List Outcome) :
    (after history k).getD ⟨0, none⟩ = ⟨streak k history, expiry k history⟩ := by
  induction history with
  | nil => rfl
  | cons o past ih =>
    show (record (after past) o k).getD ⟨0, none⟩ = _
    obtain ⟨provider, model, failure, t⟩ := o
    by_cases hk : k = key provider model
    · subst hk
      rcases failure with _ | kind
      · simp [record, recordSuccess, streak, expiry, about]
      · cases kind <;> simp [record, recordFailure, ih, streak, expiry, about, delaySecs]
    · cases failure <;> simp [record, recordFailure, recordSuccess, hk, ih, streak, expiry, about, Ne.symm hk]

theorem isInCooldown_after (history : List Outcome) (provider model : String) (now : Int) :
    isInCooldown (after history) provider model now = (expiry (key provider model) history).any (now < ·) := by
  have h : _ = expiry _ history := congrArg CooldownEntry.cooldownUntil (entry_after (key provider model) history)
  rw [isInCooldown, ← h]
  cases after history (key provider model) <;> rfl

end CloseClaw.LLM.Cooldown
