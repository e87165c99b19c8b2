/- Tokens held in a map until they are handed back. -/

import Mathlib.Data.List.AList

namespace CloseClaw.Lib.Escrow

open List

variable {κ τ : Type}

def tokens (held : AList fun _ : κ => τ) : List τ := held.entries.map (·.2)

def Settles (taken returned : List τ) (held : AList fun _ : κ => τ) : Prop := taken.Perm (returned ++ tokens held)

variable {taken returned : List τ} {held : AList fun _ : κ => τ} {k : κ} {t : τ}

theorem Settles.empty : Settles [] [] (∅ : AList fun _ : κ => τ) := List.Perm.refl _

theorem Settles.once [DecidableEq τ] (h : Settles taken returned held) (hd : taken.Nodup) (ht : t ∈ taken) :
    (returned.count t = 1 ∧ (tokens held).count t = 0) ∨ (returned.count t = 0 ∧ (tokens held).count t = 1) := by
  have hcount : taken.count t = returned.count t + (tokens held).count t := by
    rw [h.count_eq, count_append]
  have hone : taken.count t = 1 := count_eq_one_of_mem hd ht
  omega

section

variable [DecidableEq κ]

theorem tokens_insert (h : k ∉ held) (t : τ) : tokens (held.insert k t) = t :: tokens held := by
  rw [tokens, AList.entries_insert_of_notMem h]
  rfl

theorem tokens_erase (h : held.lookup k = some t) : (tokens held).Perm (t :: tokens (held.erase k)) := by
  have hk : k ∈ held := AList.lookup_isSome.mp (by rw [h]; rfl)
  obtain ⟨t', before, after, -, hsplit, herase⟩ := exists_of_kerase (AList.mem_keys.mp hk)
  have ht : t' = t := by
    have hm : held.lookup k = some t' := AList.mem_lookup_iff.mpr (by rw [hsplit]; simp)
    exact Option.some.inj (hm.symm.trans h)
  have hrest : tokens (held.erase k) = (before ++ after).map (·.2) := by rw [← herase]; rfl
  rw [tokens, hsplit, hrest, ← ht, map_append, map_append, map_cons]
  exact perm_middle

theorem Settles.take (h : Settles taken returned held) (hk : k ∉ held) (t : τ) :
    Settles (t :: taken) returned (held.insert k t) := by
  unfold Settles
  rw [tokens_insert hk]
  exact (h.cons t).trans perm_middle.symm

theorem Settles.give (h : Settles taken returned held) (hk : held.lookup k = some t) :
    Settles taken (returned ++ [t]) (held.erase k) := by
  unfold Settles
  rw [append_assoc]
  exact h.trans ((tokens_erase hk).append_left returned)

end

end CloseClaw.Lib.Escrow
