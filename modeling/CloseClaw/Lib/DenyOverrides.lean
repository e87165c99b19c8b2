/- The deny-overrides reading of a list of rules. -/

import Mathlib.Data.List.Basic

namespace CloseClaw.Lib.DenyOverrides

open List

variable {α β : Type*} (applies denies : α → Bool)

def combine (rules : List α) : Option Bool :=
  if rules.any (fun r => applies r && denies r) then some false else if rules.any applies then some true else none

@[simp] theorem combine_nil : combine applies denies [] = none := rfl

variable {applies denies} {rules rules' : List α}

theorem combine_eq_deny : combine applies denies rules = some false ↔ ∃ r ∈ rules, applies r = true ∧ denies r = true := by
  unfold combine
  split
  · rename_i h; simpa using h
  · rename_i h
    simp only [any_eq_true, Bool.and_eq_true] at h
    simp only [h, iff_false]
    split <;> simp

theorem combine_eq_allow : combine applies denies rules = some true ↔
    (∃ r ∈ rules, applies r = true) ∧ ∀ r ∈ rules, applies r = true → denies r = false := by
  unfold combine
  split
  · rename_i h
    obtain ⟨r, hr, h1⟩ := any_eq_true.mp h
    rw [Bool.and_eq_true] at h1
    constructor
    · simp
    · rintro ⟨-, h2⟩; simp [h2 r hr h1.1] at h1
  · rename_i h
    have hnone : ∀ r ∈ rules, applies r = true → denies r = false := by simpa using h
    split
    · rename_i h1
      exact ⟨fun _ => ⟨any_eq_true.mp h1, hnone⟩, fun _ => rfl⟩
    · rename_i h1
      exact ⟨nofun, fun e => absurd (any_eq_true.mpr e.1) h1⟩

theorem combine_eq_none : combine applies denies rules = none ↔ ∀ r ∈ rules, applies r = false := by
  unfold combine
  split
  · rename_i h
    obtain ⟨r, hr, h1⟩ := any_eq_true.mp h
    rw [Bool.and_eq_true] at h1
    simp only [reduceCtorEq, false_iff, not_forall]
    exact ⟨r, hr, by simp [h1.1]⟩
  · split
    · rename_i h1
      obtain ⟨r, hr, h1⟩ := any_eq_true.mp h1
      simp only [reduceCtorEq, false_iff, not_forall]
      exact ⟨r, hr, by simp [h1]⟩
    · rename_i h1; simpa using h1

theorem combine_congr (h : ∀ r, applies r = true → (r ∈ rules ↔ r ∈ rules')) :
    combine applies denies rules = combine applies denies rules' := by
  have hd : rules.any (fun r => applies r && denies r) = rules'.any (fun r => applies r && denies r) := by
    rw [Bool.eq_iff_iff]; simp only [any_eq_true, Bool.and_eq_true]
    exact ⟨fun ⟨r, hr, ha, hd⟩ => ⟨r, (h r ha).mp hr, ha, hd⟩, fun ⟨r, hr, ha, hd⟩ => ⟨r, (h r ha).mpr hr, ha, hd⟩⟩
  have ha : rules.any applies = rules'.any applies := by
    rw [Bool.eq_iff_iff]; simp only [any_eq_true]
    exact ⟨fun ⟨r, hr, ha⟩ => ⟨r, (h r ha).mp hr, ha⟩, fun ⟨r, hr, ha⟩ => ⟨r, (h r ha).mpr hr, ha⟩⟩
  rw [combine, combine, hd, ha]

theorem combine_congr_of_alike (h : ∀ r ∈ rules, ∃ r' ∈ rules', applies r' = applies r ∧ denies r' = denies r)
    (h' : ∀ r' ∈ rules', ∃ r ∈ rules, applies r = applies r' ∧ denies r = denies r') :
    combine applies denies rules = combine applies denies rules' := by
  have hany : ∀ test : Bool → Bool → Bool, rules.any (fun r => test (applies r) (denies r)) =
      rules'.any (fun r => test (applies r) (denies r)) := by
    intro test
    rw [Bool.eq_iff_iff]
    simp only [any_eq_true]
    constructor
    · intro hr
      obtain ⟨r, hr, ht⟩ := hr
      obtain ⟨r', hr', ha, hd⟩ := h r hr
      exact ⟨r', hr', by rw [ha, hd, ht]⟩
    · intro hr
      obtain ⟨r', hr', ht⟩ := hr
      obtain ⟨r, hr, ha, hd⟩ := h' r' hr'
      exact ⟨r, hr, by rw [ha, hd, ht]⟩
  rw [combine, combine, hany fun a d => a && d, hany fun a _ => a]

theorem combine_flatMap {applies' denies' : β → Bool} {expand : β → List α} {source : List β}
    (ha : ∀ b, (expand b).any applies = applies' b) (hd : ∀ b, ∀ a ∈ expand b, denies a = denies' b) :
    combine applies denies (source.flatMap expand) = combine applies' denies' source := by
  have h1 : (source.flatMap expand).any applies = source.any applies' := by
    rw [any_flatMap]; simp only [ha]
  have h2 : (source.flatMap expand).any (fun a => applies a && denies a) = source.any (fun b => applies' b && denies' b) := by
    rw [any_flatMap]
    congr 1
    funext b
    rw [← ha b]
    cases hb : denies' b with
    | false =>
      rw [Bool.and_false, any_eq_false]
      intro a hm; simp [hd b a hm, hb]
    | true =>
      rw [Bool.and_true, Bool.eq_iff_iff]
      simp only [any_eq_true, Bool.and_eq_true]
      exact ⟨fun ⟨a, hm, h⟩ => ⟨a, hm, h.1⟩, fun ⟨a, hm, h⟩ => ⟨a, hm, h, by rw [hd b a hm, hb]⟩⟩
  rw [combine, combine, h1, h2]

end CloseClaw.Lib.DenyOverrides
