/- What `glob_match` accepts (`engine_matching.rs`), and the patterns on which that is the
   language the pattern denotes. -/

import CloseClaw.Lib.Glob
import CloseClaw.Permission.Types

open CloseClaw.Lib.Glob

namespace CloseClaw.Permission

open List

def patternLanguage (pattern : String) : Language Char :=
  if pattern = "*" ∨ pattern = "**" then ⊤ else language (tokens pattern.toList)

def leads : List Token → Bool
  | .dirs :: _ | .any :: _ => true
  | .one :: ts => leads ts
  | _ => false

def absorbs : List Token → Bool
  | .star :: _ => true
  | ts => leads ts

/-- The patterns the recursion decides. -/
def faithful : List Token → Bool
  | [] => true
  | .lit _ :: ts | .one :: ts => faithful ts
  | [.star] => true
  | .star :: .lit c :: ts => c != '/' && faithful ts
  | .star :: _ => false
  | .any :: ts => ts.all Token.isStar
  | .dirs :: ts => absorbs ts && faithful ts

/-! ## What the recursion accepts -/

section Accepts
variable {p t : List Char} {c s : Char}

@[simp] theorem globMatchVec_nil : globMatchVec [] t = true ↔ t = [] := by
  cases t <;> simp [globMatchVec]

theorem globMatchVec_lit (hs : c ≠ '*') (ho : c ≠ '?') :
    globMatchVec (c :: p) t = true ↔ ∃ v, t = c :: v ∧ globMatchVec p v = true := by
  cases t with
  | nil => rw [globMatchVec] <;> simp_all
  | cons =>
    rw [globMatchVec_cons hs]
    simp [ho]
    tauto

@[simp] theorem globMatchVec_one : globMatchVec ('?' :: p) t = true ↔ ∃ d v, t = d :: v ∧ globMatchVec p v = true := by
  cases t with
  | nil => rw [globMatchVec] <;> simp_all
  | cons =>
    rw [globMatchVec_cons (by decide)]
    simp

theorem exists_split_cons {Q : List Char → List Char → Prop} :
    (∃ u v, c :: t = u ++ v ∧ Q u v) ↔ Q [] (c :: t) ∨ ∃ u v, t = u ++ v ∧ Q (c :: u) v := by
  constructor
  · intro h
    obtain ⟨u, v, huv, hq⟩ := h
    rcases cons_eq_append_iff.mp huv with ⟨rfl, rfl⟩ | ⟨u', rfl, rfl⟩
    · exact .inl hq
    · exact .inr ⟨u', v, rfl, hq⟩
  · intro h
    rcases h with hq | ⟨u, v, rfl, hq⟩
    · exact ⟨[], c :: t, rfl, hq⟩
    · exact ⟨c :: u, v, rfl, hq⟩

theorem globMatchVec_star_nil (h : p.head? ≠ some '*') : globMatchVec ('*' :: p) [] = globMatchVec p [] := by
  rw [globMatchVec] <;> intros <;> simp_all

theorem globMatchVec_star_cons (h : p.head? ≠ some '*') : globMatchVec ('*' :: p) (c :: t)
    = (c != '/' && (globMatchVec p (c :: t) || globMatchVec ('*' :: p) t)) := by
  rw [globMatchVec] <;> intros <;> simp_all

theorem globMatchVec_star (h : p.head? ≠ some '*') : globMatchVec ('*' :: p) t = true ↔
    ∃ u v, t = u ++ v ∧ '/' ∉ u ∧ v.head? ≠ some '/' ∧ globMatchVec p v = true := by
  induction t with
  | nil =>
    rw [globMatchVec_star_nil h]
    simp
  | cons c t ih =>
    rw [globMatchVec_star_cons h, exists_split_cons, Bool.and_eq_true, Bool.or_eq_true, ih]
    simp only [bne_iff_ne, ne_eq, not_mem_nil, not_false_eq_true, List.head?_cons, Option.some.injEq, true_and,
      mem_cons, not_or, eq_comm (a := '/')]
    constructor
    · intro h
      obtain ⟨hc, hv | ⟨u, v, ht, hu, hv⟩⟩ := h
      · exact .inl ⟨hc, hv⟩
      · exact .inr ⟨u, v, ht, ⟨hc, hu⟩, hv⟩
    · intro h
      rcases h with ⟨hc, hv⟩ | ⟨u, v, ht, ⟨hc, hu⟩, hv⟩
      · exact ⟨hc, .inl hv⟩
      · exact ⟨hc, .inr ⟨u, v, ht, hu, hv⟩⟩

theorem globMatchVec_any (h : p.head? ≠ some '/') (h' : p.head? ≠ some '\\') :
    globMatchVec ('*' :: '*' :: p) t = true := by
  cases p with
  | nil => induction t with
    | nil => rw [globMatchVec]
    | cons d t ih => rw [globMatchVec, ih, Bool.or_true]
  | cons s =>
    have hs : ¬(s = '/' ∨ s = '\\') := by
      intro hs
      rcases hs with rfl | rfl
      · exact h rfl
      · exact h' rfl
    induction t with
    | nil =>
      rw [globMatchVec]
      simp [hs]
    | cons d t ih =>
      rw [globMatchVec]
      simp [hs, ih]

theorem globMatchVec_sep (hs : s = '/' ∨ s = '\\') (hp : p ≠ []) :
    globMatchVec ('*' :: '*' :: s :: p) t = true ↔ ∃ u v, t = u ++ v ∧ globMatchVec p v = true := by
  induction t with
  | nil =>
    rw [globMatchVec]
    simp [hs, hp]
  | cons d t ih =>
    rw [globMatchVec, exists_split_cons, ← ih]
    simp [hs, hp]

theorem globMatchVec_sep_nil (hs : s = '/' ∨ s = '\\') :
    globMatchVec ['*', '*', s] t = true ↔ t = [] ∨ t.head? = some '/' := by
  cases t with
  | nil => simp [globMatchVec, hs]
  | cons d t =>  simp [globMatchVec, hs]

end Accepts

/-! ## Where the language is decided -/

theorem absorb {ts : List Token} (hf : faithful ts = true) :
    (leads ts = true → ∀ u v, v ∈ language ts → u ++ v ∈ language ts) ∧
      (absorbs ts = true → ∀ u v, v ∈ language ts → u ++ v ∈ language (.dirs :: ts)) := by
  have behind : ∀ {ts : List Token}, (∀ u v, v ∈ language ts → u ++ v ∈ language ts) →
      ∀ u v, v ∈ language ts → u ++ v ∈ language (.dirs :: ts) := fun h u v hv =>
    mem_language_cons_of_mem (Language.nil_mem_kstar _) (h u v hv)
  induction ts with
  | nil => exact ⟨fun h => by simp [leads] at h, fun h => by simp [absorbs, leads] at h⟩
  | cons k ts ih =>
    cases k with
    | lit => exact ⟨fun h => by simp [leads] at h, fun h => by simp [absorbs, leads] at h⟩
    | star =>
      refine ⟨fun h => by simp [leads] at h, fun _ u v hv => ?_⟩
      -- the star takes over what follows the last separator before it
      obtain ⟨s, w, rfl, hs, hw⟩ := mem_language_star.mp hv
      obtain ⟨d, r, rfl, hd, hr⟩ := exists_last_segment u
      refine mem_language_dirs.mpr ⟨d, r ++ s ++ w, by simp, hd, ?_⟩
      exact mem_language_star.mpr ⟨r ++ s, w, rfl, by simp [hr, hs], hw⟩
    | one =>
      have hone : leads (.one :: ts) = true → ∀ u v, v ∈ language (.one :: ts) → u ++ v ∈ language (.one :: ts) := by
        intro hl u v hv
        obtain ⟨c, w, rfl, hw⟩ := mem_language_one.mp hv
        cases u with
        | nil => exact hv
        | cons a u => exact mem_language_one.mpr ⟨a, u ++ [c] ++ w, by simp, (ih hf).1 hl (u ++ [c]) w hw⟩
      exact ⟨hone, fun hl => behind (hone hl)⟩
    | any =>
      have hany : ∀ u v, v ∈ language (.any :: ts) → u ++ v ∈ language (.any :: ts) := by
        intro u v hv
        obtain ⟨d, w, rfl, hw⟩ := mem_language_any.mp hv
        exact mem_language_any.mpr ⟨u ++ d, w, by simp, hw⟩
      exact ⟨fun _ => hany, fun _ => behind hany⟩
    | dirs =>
      have hparts : absorbs ts = true ∧ faithful ts = true := by simpa [faithful] using hf
      have hdirs : ∀ u v, v ∈ language (.dirs :: ts) → u ++ v ∈ language (.dirs :: ts) := by
        intro u v hv
        obtain ⟨d, w, rfl, -, hw⟩ := mem_language_dirs.mp hv
        rw [← append_assoc]
        exact (ih hparts.2).2 hparts.1 (u ++ d) w hw
      exact ⟨fun _ => hdirs, fun _ => behind hdirs⟩

variable {p : List Char}

theorem head?_ne_of_ne {c d : Char} (h : c ≠ d) : (c :: p).head? ≠ some d := by
  simpa using h

theorem accepts_iff_of_faithful (p : List Char) (hf : faithful (tokens p) = true) (t : List Char) :
    globMatchVec p t = true ↔ t ∈ language (tokens p) := by
  induction p using pattern_induction generalizing t with
  | nil => simp
  | lit c p hs ho ih =>
    rw [tokens_lit hs ho] at hf ⊢
    simp only [globMatchVec_lit hs ho, mem_language_lit, ih hf]
  | one p ih =>
    rw [tokens_one] at hf ⊢
    simp only [globMatchVec_one, mem_language_one, ih hf]
  | star_nil =>
    rw [tokens_star (by simp), globMatchVec_star (by simp), mem_language_star]
    simp only [tokens_nil, globMatchVec_nil, mem_language_nil]
    constructor
    · intro h
      obtain ⟨u, v, ht, hu, -, hv⟩ := h
      exact ⟨u, v, ht, hu, hv⟩
    · intro h
      obtain ⟨u, v, ht, hu, rfl⟩ := h
      exact ⟨u, [], ht, hu, by simp, rfl⟩
  | star_lit c p hs ho ih =>
    rw [tokens_star (head?_ne_of_ne hs), tokens_lit hs ho] at hf ⊢
    have hparts : c ≠ '/' ∧ faithful (tokens p) = true := by simpa [faithful] using hf
    rw [globMatchVec_star (head?_ne_of_ne hs), mem_language_star]
    simp only [globMatchVec_lit hs ho, mem_language_lit, ih hparts.2]
    constructor
    · intro h
      obtain ⟨u, v, ht, hu, -, hv⟩ := h
      exact ⟨u, v, ht, hu, hv⟩
    · intro h
      obtain ⟨u, v, ht, hu, w, rfl, hw⟩ := h
      exact ⟨u, c :: w, ht, hu, head?_ne_of_ne hparts.1, w, rfl, hw⟩
  | star_one =>
    rw [tokens_star (head?_ne_of_ne (by decide)), tokens_one] at hf
    simp [faithful] at hf
  | any p hsep =>
    rw [tokens_any hsep] at hf ⊢
    have hstars : (tokens p).all Token.isStar = true := hf
    have hback : p.head? ≠ some '\\' := by
      intro h
      obtain ⟨q, rfl⟩ := List.head?_eq_some_iff.mp h
      rw [tokens_lit (by decide) (by decide)] at hstars
      simp [Token.isStar] at hstars
    rw [globMatchVec_any hsep hback, mem_language_any]
    exact ⟨fun _ => ⟨t, [], by simp, nil_mem_language_iff.mpr hstars⟩, fun _ => rfl⟩
  | dirs p ih =>
    rw [tokens_dirs] at hf ⊢
    have hparts : absorbs (tokens p) = true ∧ faithful (tokens p) = true := by simpa [faithful] using hf
    have hp : p ≠ [] := by
      intro h
      rw [h] at hparts
      simp [absorbs, leads] at hparts
    rw [globMatchVec_sep (.inl rfl) hp]
    constructor
    · intro h
      obtain ⟨u, v, rfl, hv⟩ := h
      exact (absorb hparts.2).2 hparts.1 u v ((ih hparts.2 v).mp hv)
    · intro h
      obtain ⟨u, v, ht, -, hv⟩ := mem_language_dirs.mp h
      exact ⟨u, v, ht, (ih hparts.2 v).mpr hv⟩

/-! ## Short texts -/

theorem none_or_short_sep {s : Char} {n : Nat} (hs : s = '/' ∨ s = '\\')
    (h : (∀ t, ¬globMatchVec p t = true) ∨ ∃ t, globMatchVec p t = true ∧ t.length ≤ n) :
    (∀ t, ¬globMatchVec ('*' :: '*' :: s :: p) t = true) ∨
      ∃ t, globMatchVec ('*' :: '*' :: s :: p) t = true ∧ t.length ≤ n := by
  by_cases hp : p = []
  · subst hp
    exact .inr ⟨[], (globMatchVec_sep_nil hs).mpr (.inl rfl), Nat.zero_le _⟩
  simp only [globMatchVec_sep hs hp]
  rcases h with hnone | ⟨t, ht, hlen⟩
  · left
    intro t ht
    obtain ⟨_, v, _, hv⟩ := ht
    exact hnone v hv
  · exact .inr ⟨t, ⟨[], t, rfl, ht⟩, hlen⟩

theorem accepts_none_or_short (p : List Char) : (∀ t, ¬globMatchVec p t = true) ∨
    ∃ t, globMatchVec p t = true ∧ t.length ≤ minLength (tokens p) := by
  induction p using pattern_induction with
  | nil => exact .inr ⟨[], by simp, by simp [minLength]⟩
  | lit c p hs ho ih =>
    simp only [globMatchVec_lit hs ho, tokens_lit hs ho, minLength]
    rcases ih with hnone | ⟨t, ht, hlen⟩
    · left
      intro t ht
      obtain ⟨v, _, hv⟩ := ht
      exact hnone v hv
    · exact .inr ⟨c :: t, ⟨t, rfl, ht⟩, by simpa using hlen⟩
  | one p ih =>
    simp only [globMatchVec_one, tokens_one, minLength]
    rcases ih with hnone | ⟨t, ht, hlen⟩
    · left
      intro t ht
      obtain ⟨_, v, _, hv⟩ := ht
      exact hnone v hv
    · exact .inr ⟨'?' :: t, ⟨'?', t, rfl, ht⟩, by simpa using hlen⟩
  | star_nil => exact .inr ⟨[], by rw [globMatchVec_star_nil (by simp)]; simp, Nat.zero_le _⟩
  | star_lit c p hs ho ih =>
    simp only [globMatchVec_star (head?_ne_of_ne hs), globMatchVec_lit hs ho, tokens_star (head?_ne_of_ne hs),
      tokens_lit hs ho, minLength]
    by_cases hc : c = '/'
    · -- a separator is where the star may not stop
      left
      intro t ht
      obtain ⟨u, v, _, _, hhead, w, hw, _⟩ := ht
      rw [hw, hc] at hhead
      exact hhead rfl
    rcases ih with hnone | ⟨t, ht, hlen⟩
    · left
      intro t ht
      obtain ⟨_, _, _, _, _, v, _, hv⟩ := ht
      exact hnone v hv
    · exact .inr ⟨c :: t, ⟨[], c :: t, rfl, not_mem_nil, head?_ne_of_ne hc, t, rfl, ht⟩, by simpa using hlen⟩
  | star_one p ih =>
    have hhead : ('?' :: p).head? ≠ some '*' := head?_ne_of_ne (by decide)
    simp only [globMatchVec_star hhead, globMatchVec_one, tokens_star hhead, tokens_one, minLength]
    rcases ih with hnone | ⟨t, ht, hlen⟩
    · left
      intro t ht
      obtain ⟨_, _, _, _, _, _, v, _, hv⟩ := ht
      exact hnone v hv
    · refine .inr ⟨'?' :: t, ⟨[], '?' :: t, rfl, not_mem_nil, head?_ne_of_ne (by decide), '?', t, rfl, ht⟩, ?_⟩
      simpa using hlen
  | any p hsep ih =>
    by_cases hback : p.head? = some '\\'
    · obtain ⟨r, rfl⟩ := List.head?_eq_some_iff.mp hback
      simp only [globMatchVec_lit (c := '\\') (by decide) (by decide)] at ih
      rw [tokens_any hsep, minLength]
      apply none_or_short_sep (.inr rfl)
      rcases ih with hnone | ⟨t, ⟨v, rfl, hv⟩, hlen⟩
      · exact .inl fun v hv => hnone ('\\' :: v) ⟨v, rfl, hv⟩
      · exact .inr ⟨v, hv, (Nat.le_succ _).trans hlen⟩
    · exact .inr ⟨[], globMatchVec_any hsep hback, Nat.zero_le _⟩
  | dirs p ih => exact none_or_short_sep (.inl rfl) ih

/-! ## Patterns that match only themselves -/

def NoWildcard (text : String) : Prop := '*' ∉ text.toList ∧ '?' ∉ text.toList

instance instDecidableNoWildcard (text : String) : Decidable (NoWildcard text) :=
  inferInstanceAs (Decidable (_ ∧ _))

theorem globMatchVec_iff_eq (hs : '*' ∉ p) (ho : '?' ∉ p) (t : List Char) : globMatchVec p t = true ↔ t = p := by
  induction p generalizing t with
  | nil => exact globMatchVec_nil
  | cons c p ih =>
    simp only [mem_cons, not_or] at hs ho
    rw [globMatchVec_lit (Ne.symm hs.1) (Ne.symm ho.1)]
    simp only [ih hs.2 ho.2]
    constructor
    · intro h
      obtain ⟨v, rfl, rfl⟩ := h
      rfl
    · intro h
      exact ⟨p, h, rfl⟩

theorem minLength_lt_of_star (p : List Char) :
    minLength (tokens p) ≤ p.length ∧ ('*' ∈ p → minLength (tokens p) < p.length) := by
  induction p using pattern_induction with
  | nil => simp [minLength]
  | lit c p hs ho ih =>
    rw [tokens_lit hs ho]
    simp only [minLength, length_cons, mem_cons, Ne.symm hs, false_or]
    exact ⟨by omega, fun h => by have := ih.2 h; omega⟩
  | one p ih =>
    rw [tokens_one]
    simp only [minLength, length_cons, mem_cons]
    refine ⟨by omega, fun h => ?_⟩
    have hlt := ih.2 (h.resolve_left (by decide))
    omega
  | star_nil =>
    rw [tokens_star (by simp)]
    simp [minLength]
  | star_lit c p hs ho =>
    rw [tokens_star (head?_ne_of_ne hs), tokens_lit hs ho]
    simp only [minLength, length_cons]
    exact ⟨by omega, fun _ => by omega⟩
  | star_one =>
    rw [tokens_star (head?_ne_of_ne (by decide)), tokens_one]
    simp only [minLength, length_cons]
    exact ⟨by omega, fun _ => by omega⟩
  | any p hsep =>
    rw [tokens_any hsep]
    simp only [minLength, length_cons]
    exact ⟨by omega, fun _ => by omega⟩
  | dirs =>
    rw [tokens_dirs]
    simp only [minLength, length_cons]
    exact ⟨by omega, fun _ => by omega⟩

theorem globMatchVec_map_one (hs : '*' ∉ p) : globMatchVec p (p.map fun c => if c = '?' then '!' else c) = true := by
  induction p with
  | nil => simp
  | cons c p ih =>
    simp only [mem_cons, not_or] at hs
    rw [map_cons, globMatchVec_cons (Ne.symm hs.1), ih hs.2]
    by_cases hc : c = '?' <;> simp [hc]

theorem noWildcard_of_globMatch_iff {pattern : String} (h : ∀ text, globMatch pattern text = true ↔ text = pattern) :
    NoWildcard pattern := by
  have hvec : ∀ t, globMatchVec pattern.toList t = true → t = pattern.toList := by
    intro t ht
    have hmatch : globMatch pattern (String.ofList t) = true := by simp [globMatch, ht]
    rw [← (h _).mp hmatch, String.toList_ofList]
  have hself : globMatch pattern pattern = true := (h pattern).mpr rfl
  have hnostar : '*' ∉ pattern.toList := by
    intro hstar
    have hall : pattern ≠ "**" ∧ pattern ≠ "*" := by
      refine ⟨fun he => ?_, fun he => ?_⟩
      all_goals
        have hempty : globMatch pattern "" = true := by simp [globMatch, he]
        have hnil := (h _).mp hempty
        rw [he] at hnil
        exact absurd hnil (by decide)
    rcases accepts_none_or_short pattern.toList with hnone | ⟨t, ht, hlen⟩
    · have hown : globMatchVec pattern.toList pattern.toList = true := by
        simpa [globMatch, hall] using hself
      exact hnone _ hown
    · have hlt := (minLength_lt_of_star pattern.toList).2 hstar
      rw [hvec t ht] at hlen
      omega
  refine ⟨hnostar, fun hone => ?_⟩
  have hother := hvec _ (globMatchVec_map_one hnostar)
  have hmem : '?' ∈ pattern.toList.map fun c => if c = '?' then '!' else c := by rwa [hother]
  obtain ⟨c, -, hc⟩ := mem_map.mp hmem
  split at hc
  · cases hc
  · contradiction

theorem globMatch_iff_eq_iff {pattern : String} :
    (∀ text, globMatch pattern text = true ↔ text = pattern) ↔ NoWildcard pattern := by
  refine ⟨noWildcard_of_globMatch_iff, fun h text => ?_⟩
  have hall : pattern ≠ "**" ∧ pattern ≠ "*" := by
    refine ⟨fun he => ?_, fun he => ?_⟩
    all_goals
      rw [he] at h
      exact absurd h (by decide)
  have hvec : globMatch pattern text = globMatchVec pattern.toList text.toList := by simp [globMatch, hall]
  rw [hvec, globMatchVec_iff_eq h.1 h.2, String.toList_inj]

end CloseClaw.Permission
