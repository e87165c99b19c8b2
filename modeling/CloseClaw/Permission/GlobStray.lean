/- For every pattern that is not `faithful`, a text on which `glob_match` and its language differ.
   It is carried to the front, token by token. -/

import CloseClaw.Permission.GlobLanguage

open CloseClaw.Lib.Glob

namespace CloseClaw.Permission

open List

def Differs (p t : List Char) : Prop := ¬(globMatchVec p t = true ↔ t ∈ language (tokens p))

def Short (p : List Char) : Prop := ∃ t, t.length ≤ minLength (tokens p) ∧ Differs p t

def Lost (p : List Char) : Prop := ∃ w, globMatchVec p w = true ∧ ∀ v, v <:+ w → v ∉ language (tokens p)

def Padded (p : List Char) : Prop := ∃ a, ∀ z, z ≠ '/' → z ≠ a → ∀ k,
  ∃ w, globMatchVec p w = true ∧ ∀ u v, w = u ++ v → v ∈ language (tokens p) → List.replicate k z <:+ u

theorem Short.exists_shortest {p : List Char} (h : Short p) : ∃ t, t.length ≤ minLength (tokens p) ∧ Differs p t ∧
    ∀ u v, t = u ++ v → (globMatchVec p v = true ∨ v ∈ language (tokens p)) → u = [] := by
  obtain ⟨t, ht, hd⟩ := h
  induction hn : t.length using Nat.strong_induction_on generalizing t with
  | _ n ih =>
    have hout : ∀ s : List Char, s.length < t.length → s ∉ language (tokens p) :=
      fun s hs hl => absurd (minLength_le hl) (by omega)
    by_cases hacc : ∃ s, s.length < t.length ∧ globMatchVec p s = true
    · obtain ⟨s, hs, hm⟩ := hacc
      exact ih s.length (hn ▸ hs) s (by omega) (fun hiff => hout s hs (hiff.mp hm)) rfl
    · refine ⟨t, ht, hd, fun u v huv hv => ?_⟩
      by_contra hu
      have hlt : v.length < t.length := by
        have hpos := length_pos_iff.mpr hu
        rw [huv, length_append]
        omega
      exact hv.elim (fun hm => hacc ⟨v, hlt, hm⟩) (hout v hlt)

theorem exists_fresh (a b c : Char) : ∃ z, z ≠ a ∧ z ≠ b ∧ z ≠ c := by
  obtain ⟨z, -, hz⟩ := Finset.exists_mem_notMem_of_card_lt_card
    (show ({a, b, c} : Finset Char).card < ({'w', 'x', 'y', 'z'} : Finset Char).card from
      lt_of_le_of_lt Finset.card_le_three (by decide))
  simp only [Finset.mem_insert, Finset.mem_singleton, not_or] at hz
  exact ⟨z, hz⟩

theorem suffix_of_cons_suffix_cons {c d : Char} {r w : List Char} (h : c :: r <:+ d :: w) : r <:+ w := by
  rcases suffix_cons_iff.mp h with heq | hsuf
  · rw [(List.cons.inj heq).2]
  · exact (suffix_cons c r).trans hsuf

theorem replicate_suffix_concat {z c : Char} {k : Nat} {u : List Char} (h : List.replicate (k + 1) z <:+ u ++ [c]) :
    z = c ∧ List.replicate k z <:+ u := by
  obtain ⟨s, hs⟩ := h
  rw [replicate_succ', ← append_assoc] at hs
  obtain ⟨hu, hc⟩ := append_inj' hs rfl
  exact ⟨List.cons.inj hc |>.1, s, hu⟩

section Carry
variable {p q : List Char}

theorem Lost.behind (h : Lost p) (d : Char) (hacc : ∀ w, globMatchVec p w = true → globMatchVec q (d :: w) = true)
    (hends : ∀ v ∈ language (tokens q), ∃ c r, c :: r <:+ v ∧ r ∈ language (tokens p)) : Lost q := by
  obtain ⟨w, hw, hno⟩ := h
  refine ⟨d :: w, hacc w hw, fun v hv hl => ?_⟩
  obtain ⟨c, r, hr, hrl⟩ := hends v hl
  exact hno r (suffix_of_cons_suffix_cons (hr.trans hv)) hrl

theorem Lost.dirs (h : Lost p) (hp : p ≠ []) : Lost ('*' :: '*' :: '/' :: p) := by
  obtain ⟨w, hw, hno⟩ := h
  refine ⟨w, (globMatchVec_sep (.inl rfl) hp).mpr ⟨[], w, rfl, hw⟩, fun v hv hl => ?_⟩
  rw [tokens_dirs] at hl
  obtain ⟨d, r, rfl, -, hrl⟩ := mem_language_dirs.mp hl
  exact hno r ((suffix_append d r).trans hv) hrl

theorem Padded.behind (h : Padded p) (c : Char) (hacc : ∀ w, globMatchVec p w = true → globMatchVec q (c :: w) = true)
    (hends : ∀ v ∈ language (tokens q), ∃ r, c :: r <:+ v ∧ r ∈ language (tokens p)) : Lost q := by
  obtain ⟨a, h⟩ := h
  obtain ⟨z, hsep, hza, hzc⟩ := exists_fresh '/' a c
  obtain ⟨w, hw, hpad⟩ := h z hsep hza 1
  refine ⟨c :: w, hacc w hw, fun v hv hl => ?_⟩
  obtain ⟨r, hr, hrl⟩ := hends v hl
  rcases suffix_cons_iff.mp (hr.trans hv) with heq | ⟨u, hu⟩
  · rw [(List.cons.inj heq).2] at hrl
    simpa using hpad [] w rfl hrl
  · have hsuf := hpad (u ++ [c]) r (by simp [hu]) hrl
    exact hzc (replicate_suffix_concat hsuf).1

theorem Padded.one (h : Padded p) : Padded ('?' :: p) := by
  obtain ⟨a, h⟩ := h
  refine ⟨a, fun z hsep hza k => ?_⟩
  obtain ⟨w, hw, hpad⟩ := h z hsep hza (k + 1)
  refine ⟨z :: w, globMatchVec_one.mpr ⟨z, w, rfl, hw⟩, fun u v huv hl => ?_⟩
  rw [tokens_one] at hl
  obtain ⟨d, r, rfl, hr⟩ := mem_language_one.mp hl
  cases u with
  | nil =>
    obtain ⟨-, rfl⟩ := List.cons.inj huv
    simpa using hpad [] w rfl hr
  | cons x u =>
    have hsuf := hpad (u ++ [d]) r (by simp [(List.cons.inj huv).2]) hr
    exact (replicate_suffix_concat hsuf).2.trans (suffix_cons x u)

theorem Padded.dirs (h : Padded p) (hp : p ≠ []) : Padded ('*' :: '*' :: '/' :: p) := by
  obtain ⟨a, h⟩ := h
  refine ⟨a, fun z hsep hza k => ?_⟩
  obtain ⟨w, hw, hpad⟩ := h z hsep hza k
  refine ⟨w, (globMatchVec_sep (.inl rfl) hp).mpr ⟨[], w, rfl, hw⟩, fun u v huv hl => ?_⟩
  rw [tokens_dirs] at hl
  obtain ⟨d, r, rfl, hd, hr⟩ := mem_language_dirs.mp hl
  have hsuf := hpad (u ++ d) r (by simp [huv]) hr
  rcases hd with rfl | ⟨d, rfl⟩
  · simpa using hsuf
  · -- whole segments end in a separator, which no padding does
    cases k with
    | zero => exact nil_suffix
    | succ =>
      rw [← append_assoc] at hsuf
      exact absurd (replicate_suffix_concat hsuf).1 hsep

theorem Short.lit {c : Char} (hs : c ≠ '*') (ho : c ≠ '?') (h : Short p) : Short (c :: p) := by
  obtain ⟨t, ht, hd⟩ := h
  refine ⟨c :: t, by simpa [tokens_lit hs ho, minLength] using ht, ?_⟩
  simpa [Differs, globMatchVec_lit hs ho, tokens_lit hs ho] using hd

theorem Short.one (h : Short p) : Short ('?' :: p) := by
  obtain ⟨t, ht, hd⟩ := h
  refine ⟨'?' :: t, by simpa [minLength] using ht, ?_⟩
  simpa [Differs] using hd

theorem Short.star_lit {c : Char} (hs : c ≠ '*') (ho : c ≠ '?') (hc : c ≠ '/') (h : Short p) :
    Short ('*' :: c :: p) := by
  obtain ⟨t, ht, hd, hstart⟩ := h.exists_shortest
  have htok : tokens ('*' :: c :: p) = .star :: .lit c :: tokens p := by
    rw [tokens_star (head?_ne_of_ne hs), tokens_lit hs ho]
  have hrest : ∀ u v, c :: t = u ++ c :: v → (globMatchVec p v = true ∨ v ∈ language (tokens p)) → v = t := by
    intro u v huv hv
    cases u with
    | nil => exact (List.cons.inj huv).2.symm
    | cons x u => simpa using hstart (u ++ [c]) v (by simp [(List.cons.inj huv).2]) hv
  have hacc : globMatchVec ('*' :: c :: p) (c :: t) = true ↔ globMatchVec p t = true := by
    rw [globMatchVec_star (head?_ne_of_ne hs)]
    constructor
    · intro h
      obtain ⟨u, v, huv, -, -, hv⟩ := h
      obtain ⟨w, rfl, hw⟩ := (globMatchVec_lit hs ho).mp hv
      exact hrest u w huv (.inl hw) ▸ hw
    · intro h
      exact ⟨[], c :: t, rfl, not_mem_nil, head?_ne_of_ne hc, (globMatchVec_lit hs ho).mpr ⟨t, rfl, h⟩⟩
  have hlang : c :: t ∈ language (tokens ('*' :: c :: p)) ↔ t ∈ language (tokens p) := by
    rw [htok, mem_language_star]
    constructor
    · intro h
      obtain ⟨u, v, huv, -, hv⟩ := h
      obtain ⟨w, rfl, hw⟩ := mem_language_lit.mp hv
      exact hrest u w huv (.inr hw) ▸ hw
    · intro h
      exact ⟨[], c :: t, rfl, not_mem_nil, mem_language_lit.mpr ⟨t, rfl, h⟩⟩
  refine ⟨c :: t, by simpa [htok, minLength] using ht, ?_⟩
  rwa [Differs, hacc, hlang]

theorem Short.dirs (h : Short p) (hp : p ≠ []) : Short ('*' :: '*' :: '/' :: p) := by
  obtain ⟨t, ht, hd, hstart⟩ := h.exists_shortest
  have hrest : ∀ u v, t = u ++ v → (globMatchVec p v = true ∨ v ∈ language (tokens p)) → v = t := by
    intro u v huv hv
    rw [huv, hstart u v huv hv, nil_append]
  have hacc : globMatchVec ('*' :: '*' :: '/' :: p) t = true ↔ globMatchVec p t = true := by
    rw [globMatchVec_sep (.inl rfl) hp]
    constructor
    · intro h
      obtain ⟨u, v, huv, hv⟩ := h
      exact hrest u v huv (.inl hv) ▸ hv
    · intro h
      exact ⟨[], t, rfl, h⟩
  have hlang : t ∈ language (tokens ('*' :: '*' :: '/' :: p)) ↔ t ∈ language (tokens p) := by
    rw [tokens_dirs, mem_language_dirs]
    constructor
    · intro h
      obtain ⟨u, v, huv, -, hv⟩ := h
      exact hrest u v huv (.inr hv) ▸ hv
    · intro h
      exact ⟨[], t, rfl, .inl rfl, h⟩
  refine ⟨t, by simpa [minLength] using ht, ?_⟩
  rwa [Differs, hacc, hlang]

end Carry

/-! ### Behind `**/`, a rest that does not absorb -/

def Anchored (ts : List Token) : Prop := ∃ a, ∀ z, z ≠ '/' → z ≠ a →
  ∃ w ∈ language ts, ∀ k u v, List.replicate k z ++ w = u ++ v → v ∈ language ts → v = w

variable {c : Char} {ts : List Token} {x u : List Char}

theorem eq_of_append_cons {y r : List Char} (hc : c ∉ x) (h : x ++ c :: y = u ++ c :: r) (hlen : y.length ≤ r.length) :
    x = u ∧ y = r := by
  rcases append_eq_append_iff.mp h with ⟨s, hu, hs⟩ | ⟨s, hx, hs⟩
  · cases s with
    | nil => simp_all
    | cons =>
      have hlt := congrArg List.length hs
      simp at hlt
      omega
  · cases s with
    | nil => simp_all
    | cons =>
      obtain ⟨rfl, -⟩ := List.cons.inj hs
      exact absurd (by rw [hx]; simp) hc

theorem eq_of_append_sep {d : Char} {s : List Char} (h : x ++ ['/'] = u ++ d :: s) (hs : '/' ∉ s) :
    d = '/' ∧ s = [] := by
  rcases eq_nil_or_concat s with rfl | ⟨s, e, rfl⟩
  · obtain ⟨-, hd⟩ := append_inj' h rfl
    exact ⟨(List.cons.inj hd).1.symm, rfl⟩
  · have hassoc : x ++ ['/'] = (u ++ d :: s) ++ [e] := by simpa using h
    obtain ⟨-, he⟩ := append_inj' hassoc rfl
    have hsep : e = '/' := (List.cons.inj he).1.symm
    exact absurd (by simp [hsep]) hs

theorem anchored_nil : Anchored [] :=
  ⟨'/', fun _ _ _ => ⟨[], mem_language_nil.mpr rfl, fun _ _ _ _ hv => mem_language_nil.mp hv⟩⟩

theorem anchored_lit (c : Char) (ts : List Token) : Anchored (.lit c :: ts) := by
  refine ⟨c, fun z _ hzc => ⟨c :: shortest c ts, mem_language_lit.mpr ⟨_, rfl, shortest_mem c ts⟩, ?_⟩⟩
  intro k u v huv hv
  obtain ⟨r, rfl, hr⟩ := mem_language_lit.mp hv
  have hlen : (shortest c ts).length ≤ r.length := by
    rw [length_shortest]
    exact minLength_le hr
  have hc : c ∉ List.replicate k z := fun h => hzc (eq_of_mem_replicate h).symm
  rw [(eq_of_append_cons hc huv hlen).2]

theorem Anchored.one (h : Anchored ts) : Anchored (.one :: ts) := by
  obtain ⟨a, h⟩ := h
  refine ⟨a, fun z hsep hza => ?_⟩
  obtain ⟨w, hw, honly⟩ := h z hsep hza
  refine ⟨z :: w, mem_language_one.mpr ⟨z, w, rfl, hw⟩, fun k u v huv hv => ?_⟩
  obtain ⟨d, r, rfl, hr⟩ := mem_language_one.mp hv
  have hrw : r = w := honly (k + 1) (u ++ [d]) r (by rw [replicate_succ']; simpa using huv) hr
  subst hrw
  exact (append_inj' huv rfl).2.symm

theorem anchored_one_star : Anchored [.one, .star] := by
  refine ⟨'/', fun z _ _ => ⟨['/'], mem_language_one.mpr ⟨'/', [], rfl, ?_⟩, fun k u v huv hv => ?_⟩⟩
  · exact mem_language_star.mpr ⟨[], [], rfl, not_mem_nil, mem_language_nil.mpr rfl⟩
  · obtain ⟨d, r, rfl, hr⟩ := mem_language_one.mp hv
    obtain ⟨s, e, rfl, hs, he⟩ := mem_language_star.mp hr
    rw [mem_language_nil.mp he, append_nil] at huv ⊢
    obtain ⟨rfl, rfl⟩ := eq_of_append_sep huv hs
    rfl

theorem anchored_one_star_lit (hc : c ≠ '/') (ts : List Token) : Anchored (.one :: .star :: .lit c :: ts) := by
  refine ⟨c, fun z _ hzc => ⟨'/' :: c :: shortest c ts, mem_language_one.mpr ⟨'/', _, rfl, ?_⟩, fun k u v huv hv => ?_⟩⟩
  · refine mem_language_star.mpr ⟨[], _, rfl, not_mem_nil, ?_⟩
    exact mem_language_lit.mpr ⟨_, rfl, shortest_mem c ts⟩
  · obtain ⟨d, r, rfl, hr⟩ := mem_language_one.mp hv
    obtain ⟨s, e, rfl, hs, he⟩ := mem_language_star.mp hr
    obtain ⟨y, rfl, hy⟩ := mem_language_lit.mp he
    have hlen : (shortest c ts).length ≤ y.length := by
      rw [length_shortest]
      exact minLength_le hy
    have hout : c ∉ List.replicate k z ++ ['/'] := by
      intro h
      rcases mem_append.mp h with h | h
      · exact hzc (eq_of_mem_replicate h).symm
      · exact hc (mem_singleton.mp h)
    have hsplit : (List.replicate k z ++ ['/']) ++ c :: shortest c ts = (u ++ d :: s) ++ c :: y := by simpa using huv
    obtain ⟨hx, rfl⟩ := eq_of_append_cons hout hsplit hlen
    obtain ⟨rfl, rfl⟩ := eq_of_append_sep hx hs
    rfl

theorem anchored (hf : faithful ts = true) (hl : leads ts = false) :
    (absorbs ts = false → Anchored ts) ∧ Anchored (.one :: ts) := by
  induction ts with
  | nil => exact ⟨fun _ => anchored_nil, anchored_nil.one⟩
  | cons k ts ih =>
    cases k with
    | lit c => exact ⟨fun _ => anchored_lit c ts, (anchored_lit c ts).one⟩
    | one =>
      have hone := (ih hf hl).2
      exact ⟨fun _ => hone, hone.one⟩
    | star =>
      refine ⟨fun h => by simp [absorbs] at h, ?_⟩
      cases ts with
      | nil => exact anchored_one_star
      | cons k ts =>
        cases k with
        | lit c =>
          have hparts : c ≠ '/' ∧ faithful ts = true := by simpa [faithful] using hf
          exact anchored_one_star_lit hparts.1 ts
        | dirs | any | star | one => simp [faithful] at hf
    | dirs | any => simp [leads] at hl

theorem leads_of_not_absorbs (h : absorbs ts = false) : leads ts = false := by
  cases ts with
  | nil => rfl
  | cons k => cases k <;> simp_all [absorbs, leads]

theorem padded_dirs_of_anchored {p : List Char} (hp : p ≠ []) (hf : faithful (tokens p) = true)
    (h : Anchored (tokens p)) : Padded ('*' :: '*' :: '/' :: p) := by
  obtain ⟨a, h⟩ := h
  refine ⟨a, fun z hsep hza k => ?_⟩
  obtain ⟨w, hw, honly⟩ := h z hsep hza
  refine ⟨List.replicate k z ++ w, ?_, fun u v huv hl => ?_⟩
  · exact (globMatchVec_sep (.inl rfl) hp).mpr ⟨_, w, rfl, (accepts_iff_of_faithful p hf w).mpr hw⟩
  · rw [tokens_dirs] at hl
    obtain ⟨d, r, rfl, hd, hr⟩ := mem_language_dirs.mp hl
    have hrw : r = w := honly k (u ++ d) r (by simpa using huv) hr
    have hpad : List.replicate k z = u ++ d := by
      rw [hrw, ← append_assoc] at huv
      exact append_cancel_right huv
    rcases hd with rfl | ⟨e, rfl⟩
    · rw [hpad, append_nil]
    · -- no separator is in the padding
      have hmem : '/' ∈ List.replicate k z := by simp [hpad]
      exact absurd (eq_of_mem_replicate hmem).symm hsep

theorem padded_dirs_nil : Padded ['*', '*', '/'] := by
  refine ⟨'/', fun z hsep _ k => ⟨'/' :: List.replicate k z, ?_, fun u v huv hl => ?_⟩⟩
  · exact (globMatchVec_sep_nil (.inl rfl)).mpr (.inr rfl)
  · rw [tokens_dirs] at hl
    obtain ⟨d, r, rfl, hd, hr⟩ := mem_language_dirs.mp hl
    rw [mem_language_nil.mp hr, append_nil] at huv
    rcases hd with rfl | ⟨e, rfl⟩
    · rw [append_nil] at huv
      rw [← huv]
      exact suffix_cons _ _
    · cases k with
      | zero => exact nil_suffix
      | succ =>
        rw [replicate_succ', ← cons_append, ← append_assoc] at huv
        obtain ⟨-, hz⟩ := append_inj' huv rfl
        exact absurd (List.cons.inj hz).1 hsep

/-! ### Every other pattern -/

theorem not_globMatchVec_star_sep {p t : List Char} (hp : p.head? ≠ some '*') :
    ¬globMatchVec ('*' :: p) ('/' :: t) = true := by
  rw [globMatchVec_star_cons hp]
  simp

variable (p : List Char)

theorem short_star_sep : Short ('*' :: '/' :: p) := by
  have hstar : ('/' :: p).head? ≠ some '*' := head?_ne_of_ne (by decide)
  refine ⟨'/' :: shortest '/' (tokens p), ?_, fun hiff => not_globMatchVec_star_sep hstar (hiff.mpr ?_)⟩
  all_goals rw [tokens_star hstar, tokens_lit (by decide) (by decide)]
  · simp [minLength]
  · exact mem_language_star.mpr ⟨[], _, rfl, not_mem_nil, mem_language_lit.mpr ⟨_, rfl, shortest_mem _ _⟩⟩

theorem short_star_one : Short ('*' :: '?' :: p) := by
  have hstar : ('?' :: p).head? ≠ some '*' := head?_ne_of_ne (by decide)
  refine ⟨'/' :: shortest '/' (tokens p), ?_, fun hiff => not_globMatchVec_star_sep hstar (hiff.mpr ?_)⟩
  all_goals rw [tokens_star hstar, tokens_one]
  · simp [minLength]
  · exact mem_language_star.mpr ⟨[], _, rfl, not_mem_nil, mem_language_one.mpr ⟨'/', _, rfl, shortest_mem _ _⟩⟩

theorem short_any {p : List Char} (hsep : p.head? ≠ some '/') (hback : p.head? ≠ some '\\')
    (h : (tokens p).all Token.isStar = false) : Short ('*' :: '*' :: p) := by
  refine ⟨[], Nat.zero_le _, fun hiff => ?_⟩
  have hmem := hiff.mp (globMatchVec_any hsep hback)
  rw [tokens_any hsep, nil_mem_language_iff, all_cons, h] at hmem
  simp at hmem

theorem short_any_backslash : Short ('*' :: '*' :: '\\' :: p) := by
  have htok : tokens ('*' :: '*' :: '\\' :: p) = .any :: .lit '\\' :: tokens p := by
    rw [tokens_any (by simp), tokens_lit (by decide) (by decide)]
  rcases none_or_short_sep (s := '\\') (.inr rfl) (accepts_none_or_short p) with hnone | ⟨t, ht, hlen⟩
  · refine ⟨shortest '/' (tokens ('*' :: '*' :: '\\' :: p)), (length_shortest _ _).le, fun hiff => ?_⟩
    exact hnone _ (hiff.mpr (shortest_mem _ _))
  · rw [Short, htok]
    refine ⟨t, hlen.trans (Nat.le_succ _), fun hiff => ?_⟩
    have hmin := minLength_le (hiff.mp ht)
    rw [htok] at hmin
    simp only [minLength] at hmin
    omega

theorem strays_of_not_faithful (hf : faithful (tokens p) = false) : Short p ∨ Lost p ∨ Padded p := by
  induction p using pattern_induction with
  | nil => simp [faithful] at hf
  | lit c p hs ho ih =>
    rw [tokens_lit hs ho] at hf
    have hacc : ∀ w, globMatchVec p w = true → globMatchVec (c :: p) (c :: w) = true := fun w hw =>
      (globMatchVec_lit hs ho).mpr ⟨w, rfl, hw⟩
    have hends : ∀ v ∈ language (tokens (c :: p)), ∃ r, c :: r <:+ v ∧ r ∈ language (tokens p) := by
      intro v hv
      rw [tokens_lit hs ho] at hv
      obtain ⟨r, rfl, hr⟩ := mem_language_lit.mp hv
      exact ⟨r, suffix_rfl, hr⟩
    rcases ih hf with h | h | h
    · exact .inl (h.lit hs ho)
    · exact .inr (.inl (h.behind c hacc fun v hv => ⟨c, hends v hv⟩))
    · exact .inr (.inl (h.behind c hacc hends))
  | one p ih =>
    rw [tokens_one] at hf
    rcases ih hf with h | h | h
    · exact .inl h.one
    · refine .inr (.inl (h.behind '?' (fun w hw => globMatchVec_one.mpr ⟨'?', w, rfl, hw⟩) fun v hv => ?_))
      rw [tokens_one] at hv
      obtain ⟨c, r, rfl, hr⟩ := mem_language_one.mp hv
      exact ⟨c, r, suffix_rfl, hr⟩
    · exact .inr (.inr h.one)
  | star_nil =>
    rw [tokens_star (by simp)] at hf
    simp [faithful] at hf
  | star_lit c p hs ho ih =>
    by_cases hc : c = '/'
    · subst hc
      exact .inl (short_star_sep p)
    have htok : tokens ('*' :: c :: p) = .star :: .lit c :: tokens p := by
      rw [tokens_star (head?_ne_of_ne hs), tokens_lit hs ho]
    have hrest : faithful (tokens p) = false := by
      rw [htok] at hf
      simpa [faithful, hc] using hf
    have hacc : ∀ w, globMatchVec p w = true → globMatchVec ('*' :: c :: p) (c :: w) = true := fun w hw =>
      (globMatchVec_star (head?_ne_of_ne hs)).mpr
        ⟨[], c :: w, rfl, not_mem_nil, head?_ne_of_ne hc, (globMatchVec_lit hs ho).mpr ⟨w, rfl, hw⟩⟩
    have hends : ∀ v ∈ language (tokens ('*' :: c :: p)), ∃ r, c :: r <:+ v ∧ r ∈ language (tokens p) := by
      intro v hv
      rw [htok] at hv
      obtain ⟨u, e, rfl, -, he⟩ := mem_language_star.mp hv
      obtain ⟨r, rfl, hr⟩ := mem_language_lit.mp he
      exact ⟨r, suffix_append u _, hr⟩
    rcases ih hrest with h | h | h
    · exact .inl (h.star_lit hs ho hc)
    · exact .inr (.inl (h.behind c hacc fun v hv => ⟨c, hends v hv⟩))
    · exact .inr (.inl (h.behind c hacc hends))
  | star_one p => exact .inl (short_star_one p)
  | any p hsep =>
    by_cases hback : p.head? = some '\\'
    · obtain ⟨r, rfl⟩ := List.head?_eq_some_iff.mp hback
      exact .inl (short_any_backslash r)
    · rw [tokens_any hsep] at hf
      exact .inl (short_any hsep hback hf)
  | dirs p ih =>
    by_cases hp : p = []
    · subst hp
      exact .inr (.inr padded_dirs_nil)
    by_cases hrest : faithful (tokens p) = true
    · rw [tokens_dirs] at hf
      have habs : absorbs (tokens p) = false := by simpa [faithful, hrest] using hf
      have hanchor := (anchored hrest (leads_of_not_absorbs habs)).1 habs
      exact .inr (.inr (padded_dirs_of_anchored hp hrest hanchor))
    · rcases ih (Bool.eq_false_iff.mpr hrest) with h | h | h
      · exact .inl (h.dirs hp)
      · exact .inr (.inl (h.dirs hp))
      · exact .inr (.inr (h.dirs hp))

theorem exists_differs {p : List Char} (h : Short p ∨ Lost p ∨ Padded p) : ∃ t, Differs p t := by
  rcases h with ⟨t, -, hd⟩ | ⟨w, hw, hno⟩ | ⟨a, h⟩
  · exact ⟨t, hd⟩
  · exact ⟨w, fun hiff => hno w suffix_rfl (hiff.mp hw)⟩
  · obtain ⟨z, hsep, hza, -⟩ := exists_fresh '/' a a
    obtain ⟨w, hw, hpad⟩ := h z hsep hza 1
    exact ⟨w, fun hiff => by simpa using hpad [] w rfl (hiff.mp hw)⟩

theorem accepts_iff_faithful :
    (∀ t, globMatchVec p t = true ↔ t ∈ language (tokens p)) ↔ faithful (tokens p) = true := by
  constructor
  · intro h
    by_contra hf
    obtain ⟨t, ht⟩ := exists_differs (strays_of_not_faithful p (Bool.eq_false_iff.mpr hf))
    exact ht (h t)
  · exact accepts_iff_of_faithful p

theorem globMatch_decides_iff (pattern : String) :
    (∀ text : String, globMatch pattern text = true ↔ text.toList ∈ patternLanguage pattern) ↔
      faithful (tokens pattern.toList) = true := by
  by_cases hstar : pattern = "*" ∨ pattern = "**"
  · have hlang : ∀ text : String, text.toList ∈ patternLanguage pattern := by
      intro text
      rw [patternLanguage, if_pos hstar]
      exact Set.mem_univ _
    have hmatch : ∀ text, globMatch pattern text = true := by
      intro text
      rcases hstar with rfl | rfl <;> simp [globMatch]
    have hfaithful : faithful (tokens pattern.toList) = true := by
      rcases hstar with rfl | rfl <;> decide
    exact ⟨fun _ => hfaithful, fun _ text => ⟨fun _ => hlang text, fun _ => hmatch text⟩⟩
  · rw [← accepts_iff_faithful]
    have hvec : ∀ text, globMatch pattern text = globMatchVec pattern.toList text.toList := by
      intro text
      simp only [not_or] at hstar
      simp [globMatch, hstar]
    have hlang : patternLanguage pattern = language (tokens pattern.toList) := if_neg hstar
    simp only [hvec, hlang]
    constructor
    · intro h t
      simpa using h (String.ofList t)
    · intro h text
      exact h text.toList

theorem globMatch_double_star_tail :
    ¬∀ pattern text : String, globMatch pattern text = true ↔ text.toList ∈ patternLanguage pattern := by
  intro h
  have hmatch : globMatch "/data/**.txt" "/data/key" = true := by
    simp [globMatch, globMatchVec]
  have hmem := (h _ _).mp hmatch
  rw [patternLanguage, if_neg (by decide)] at hmem
  have hmin := minLength_le hmem
  revert hmin
  decide

end CloseClaw.Permission
