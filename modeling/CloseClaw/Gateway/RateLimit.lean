/- The limit on outbound messages (`rate_limit.rs`). -/

import Mathlib.Data.List.Infix
import Mathlib.Logic.Function.Basic

namespace CloseClaw.Gateway.RateLimit

open List

def windowLength : Int := 60 * 1000000000

abbrev SlidingWindow := List Int

def SlidingWindow.prune (timestamps : SlidingWindow) (now : Int) : SlidingWindow :=
  timestamps.filter fun t => t > now - windowLength

inductive MiddlewareError where
  | rejected (name reason : String)

structure RateLimitMiddleware where
  maxPerMinute : Nat
  windows : String → SlidingWindow

def withLimit (maxPerMinute : Nat) : RateLimitMiddleware := ⟨maxPerMinute, fun _ => []⟩

structure Message where
  sessionId : String
  time : Int

def checkRateLimit (m : RateLimitMiddleware) (msg : Message) : Except MiddlewareError Unit × RateLimitMiddleware :=
  let pruned := (m.windows msg.sessionId).prune msg.time
  if pruned.length ≥ m.maxPerMinute then
    (.error (.rejected "rate_limit" ("session " ++ msg.sessionId ++ " exceeded rate limit: " ++
      toString pruned.length ++ "/" ++ toString m.maxPerMinute ++ " messages in 60s")),
      { m with windows := Function.update m.windows msg.sessionId pruned })
  else (.ok (), { m with windows := Function.update m.windows msg.sessionId (pruned ++ [msg.time]) })

def accepts (m : RateLimitMiddleware) (msg : Message) : Bool := (checkRateLimit m msg).1.isOk

structure Run where
  limiter : RateLimitMiddleware
  accepted : List Message

def Run.send (r : Run) (msg : Message) : Run :=
  ⟨(checkRateLimit r.limiter msg).2, r.accepted ++ if accepts r.limiter msg then [msg] else []⟩

def run (max : Nat) (msgs : List Message) : Run := msgs.foldl Run.send ⟨withLimit max, []⟩

def recent (accepted : List Message) (sessionId : String) (t : Int) : List Message :=
  accepted.filter fun a => a.sessionId = sessionId ∧ t - windowLength < a.time ∧ a.time ≤ t

variable {m : RateLimitMiddleware} {msg : Message} {sessionId : String}

theorem accepts_iff : accepts m msg = true ↔ ((m.windows msg.sessionId).prune msg.time).length < m.maxPerMinute := by
  simp only [accepts, checkRateLimit]
  split <;> simp_all [Except.isOk, Except.toBool]

theorem checkRateLimit_max : (checkRateLimit m msg).2.maxPerMinute = m.maxPerMinute := by
  simp only [checkRateLimit]
  split <;> rfl

theorem checkRateLimit_other (h : sessionId ≠ msg.sessionId) :
    (checkRateLimit m msg).2.windows sessionId = m.windows sessionId := by
  simp only [checkRateLimit]
  split <;> exact Function.update_of_ne h _ _

theorem checkRateLimit_own : (checkRateLimit m msg).2.windows msg.sessionId =
      (m.windows msg.sessionId).prune msg.time ++ if accepts m msg then [msg.time] else [] := by
  simp only [accepts, checkRateLimit]
  split <;> simp [Except.isOk, Except.toBool]

open SlidingWindow

theorem prune_prune (w : SlidingWindow) {s t : Int} (h : s ≤ t) : prune (w.prune s) t = w.prune t := by
  rw [prune, prune, filter_filter]
  refine filter_congr fun x _ => Bool.eq_iff_iff.mpr ?_
  simp only [Bool.and_eq_true, decide_eq_true_eq]
  omega

variable {max : Nat} {msgs : List Message}

theorem run_snoc : run max (msgs ++ [msg]) = (run max msgs).send msg := by
  simp [run]

theorem run_max : (run max msgs).limiter.maxPerMinute = max := by
  induction msgs using List.reverseRecOn with
  | nil => rfl
  | append_singleton msgs msg ih => rw [run_snoc, Run.send, checkRateLimit_max, ih]

theorem mem_of_mem_accepted {a : Message} (h : a ∈ (run max msgs).accepted) : a ∈ msgs := by
  induction msgs using List.reverseRecOn with
  | nil => cases h
  | append_singleton msgs msg ih =>
    rw [run_snoc, Run.send, mem_append] at h
    rcases h with h | h
    · exact mem_append_left _ (ih h)
    · split at h <;> simp_all

theorem prune_windows (t : Int) (h : ∀ a ∈ msgs, a.time ≤ t) :
    ((run max msgs).limiter.windows sessionId).prune t = (recent (run max msgs).accepted sessionId t).map (·.time) := by
  induction msgs using List.reverseRecOn with
  | nil => rfl
  | append_singleton msgs msg ih =>
    have ih := ih fun a ha => h a (mem_append_left _ ha)
    have ht : msg.time ≤ t := h msg (by simp)
    rw [run_snoc, Run.send, recent, filter_append, map_append]
    by_cases hs : sessionId = msg.sessionId
    · subst hs
      rw [checkRateLimit_own, prune, filter_append]
      congr 1
      · exact (prune_prune _ ht).trans ih
      · split <;> by_cases hw : t - windowLength < msg.time <;> simp [hw, ht]
    · have hnone : (if accepts (run max msgs).limiter msg then [msg] else []).filter
          (fun a => a.sessionId = sessionId ∧ t - windowLength < a.time ∧ a.time ≤ t) = [] := by
        split <;> simp [Ne.symm hs]
      rw [checkRateLimit_other hs, hnone, ih]
      simp [recent]

theorem accepts_run_iff (h : ∀ a ∈ msgs, a.time ≤ msg.time) : accepts (run max msgs).limiter msg = true ↔
      (recent (run max msgs).accepted msg.sessionId msg.time).length < max := by
  rw [accepts_iff, run_max, prune_windows _ h, length_map]

theorem length_recent_le (h : msgs.Pairwise fun a b => a.time ≤ b.time) (t : Int) :
    (recent (run max msgs).accepted sessionId t).length ≤ max := by
  induction msgs using List.reverseRecOn with
  | nil => exact Nat.zero_le _
  | append_singleton msgs msg ih =>
    obtain ⟨hmsgs, -, hlast⟩ := pairwise_append.mp h
    have hle : ∀ a ∈ msgs, a.time ≤ msg.time := fun a ha => hlast a ha msg (by simp)
    have ih := ih hmsgs
    rw [run_snoc, Run.send, recent, filter_append, length_append]
    by_cases hin : accepts (run max msgs).limiter msg = true ∧
        msg.sessionId = sessionId ∧ t - windowLength < msg.time ∧ msg.time ≤ t
    · -- What the window up to `t` holds beside the new message was counted at its time.
      obtain ⟨hok, rfl, hlow, hhigh⟩ := hin
      have hlt := (accepts_run_iff hle).mp hok
      have hsub : (recent (run max msgs).accepted msg.sessionId t).length ≤
          (recent (run max msgs).accepted msg.sessionId msg.time).length := by
        rw [recent, recent, ← countP_eq_length_filter, ← countP_eq_length_filter]
        refine countP_mono_left fun a ha hcount => ?_
        have := hle a (mem_of_mem_accepted ha)
        simp only [decide_eq_true_eq] at hcount ⊢
        exact ⟨hcount.1, by omega, this⟩
      simp only [recent] at hsub hlt
      simp only [hok, if_true, filter_cons, filter_nil, hlow, hhigh]
      simp only [decide_true, and_self, if_true, length_singleton]
      omega
    · have hnone : (if accepts (run max msgs).limiter msg then [msg] else []).filter
          (fun a => a.sessionId = sessionId ∧ t - windowLength < a.time ∧ a.time ≤ t) = [] := by
        split <;> simp_all
      rw [hnone]
      exact ih

theorem run_session (sessionId : String) : (run max (msgs.filter (·.sessionId = sessionId))).limiter.windows sessionId =
        (run max msgs).limiter.windows sessionId ∧
      (run max (msgs.filter (·.sessionId = sessionId))).accepted =
        (run max msgs).accepted.filter (·.sessionId = sessionId) := by
  induction msgs using List.reverseRecOn with
  | nil => exact ⟨rfl, rfl⟩
  | append_singleton msgs msg ih =>
    obtain ⟨hw, hacc⟩ := ih
    rw [filter_append, run_snoc]
    by_cases hs : msg.sessionId = sessionId
    · subst hs
      have hsame : accepts (run max (msgs.filter (·.sessionId = msg.sessionId))).limiter msg =
          accepts (run max msgs).limiter msg := by
        rw [Bool.eq_iff_iff, accepts_iff, accepts_iff, hw, run_max, run_max]
      rw [show [msg].filter (·.sessionId = msg.sessionId) = [msg] by simp, run_snoc, Run.send, Run.send]
      refine ⟨?_, ?_⟩
      · rw [checkRateLimit_own, checkRateLimit_own, hw, hsame]
      · rw [hacc, hsame, filter_append]
        split <;> simp
    · rw [show [msg].filter (·.sessionId = sessionId) = [] by simp [hs], append_nil, Run.send]
      refine ⟨hw.trans (checkRateLimit_other (Ne.symm hs)).symm, ?_⟩
      rw [hacc, filter_append]
      split <;> simp [hs]

theorem rate_limit_is_exact (max : Nat) (msgs : List Message) (hsorted : msgs.Pairwise fun a b => a.time ≤ b.time) :
    (∀ sessionId t, (recent (run max msgs).accepted sessionId t).length ≤ max) ∧
      (∀ earlier msg, earlier ++ [msg] <+: msgs → (accepts (run max earlier).limiter msg = false ↔
        max ≤ (recent (run max earlier).accepted msg.sessionId msg.time).length)) ∧
      ∀ sessionId, (run max (msgs.filter (·.sessionId = sessionId))).accepted =
        (run max msgs).accepted.filter (·.sessionId = sessionId) := by
  refine ⟨fun _ t => length_recent_le hsorted t, ?_, fun sessionId => (run_session sessionId).2⟩
  intro earlier msg hpre
  obtain ⟨-, -, hlast⟩ := pairwise_append.mp (hsorted.sublist hpre.sublist)
  rw [Bool.eq_false_iff, ne_eq, accepts_run_iff fun a ha => hlast a ha msg (by simp), not_lt]

theorem one_message_a_minute :
    (recent (run 1 [⟨"s", 0⟩, ⟨"s", 59⟩, ⟨"s", windowLength⟩]).accepted "s" windowLength).length ≤ 1 :=
  (rate_limit_is_exact 1 _ (by simp [windowLength])).1 "s" windowLength

end CloseClaw.Gateway.RateLimit
