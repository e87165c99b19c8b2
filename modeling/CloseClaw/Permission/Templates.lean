/- The expansion of template inheritance (`templates.rs`). -/

import Mathlib.Data.Finset.Card
import Mathlib.Data.List.AList
import Mathlib.Logic.Relation
import CloseClaw.Permission.Types

namespace CloseClaw.Permission.Templates

open List AList
open Relation (TransGen)

inductive TemplateSubject where
  | any
  | agent (agent : String) (matchType : MatchType)
  | userAndAgent (userId agent : String) (userMatch agentMatch : MatchType)

structure Template where
  name : String
  description : String
  subject : TemplateSubject
  effect : Effect
  actions : List Action
  extendsNames : List String

inductive TemplateLoadError where
  | cycleDetected (name : String)
  | templateNotFound (name : String)

abbrev Outcome (α : Type) := Option (Except TemplateLoadError α)

def Outcome.andThen {α β : Type} : Outcome α → (α → Outcome β) → Outcome β
  | none, _ => none
  | some (.error e), _ => some (.error e)
  | some (.ok a), next => next a

structure Marks where
  resolved : HashMap String Template
  visiting : Finset String
  visited : Finset String

def Marks.empty : Marks := ⟨∅, ∅, ∅⟩

def Template.flattened (t : Template) (inherited : List Action) : Template :=
  { t with actions := inherited ++ t.actions, extendsNames := [] }

def resolveParents (resolve : String → Marks → Outcome (Template × Marks)) :
    List String → Marks → List Action → Outcome (List Action × Marks)
  | [], m, merged => some (.ok (merged, m))
  | parentName :: rest, m, merged =>
    (resolve parentName m).andThen fun r => resolveParents resolve rest r.2 (merged ++ r.1.actions)

def resolveTemplate (source : HashMap String Template) : Nat → String → Marks → Outcome (Template × Marks)
  | 0, _, _ => none
  | fuel + 1, name, m =>
    match m.resolved.lookup name with
    | some t => some (.ok (t, m))
    | none =>
      if name ∈ m.visiting then some (.error (.cycleDetected name))
      else
        match source.lookup name with
        | none => some (.error (.templateNotFound name))
        | some tmpl =>
          (resolveParents (resolveTemplate source fuel) tmpl.extendsNames { m with visiting := insert name m.visiting }
            []).andThen fun r =>
              let expanded := tmpl.flattened r.1
              some (.ok (expanded, ⟨r.2.resolved.insert name expanded, r.2.visiting.erase name, insert name r.2.visited⟩))

def resolveNames (source : HashMap String Template) (fuel : Nat) : List String → Marks → Outcome Marks
  | [], m => some (.ok m)
  | name :: rest, m =>
    if name ∈ m.visited then resolveNames source fuel rest m
    else (resolveTemplate source fuel name m).andThen fun r => resolveNames source fuel rest r.2

def expandInheritance (fuel : Nat) (templates : HashMap String Template) (names : List String) :
    Option (Except TemplateLoadError Unit × HashMap String Template) :=
  match resolveNames templates fuel names .empty with
  | none => none
  | some (.error e) => some (.error e, templates)
  | some (.ok m) => some (.ok (), m.resolved)

/-! ## What the expansion is -/

section Spec
variable (source : HashMap String Template)

def Parent (n p : String) : Prop := ∃ t, source.lookup n = some t ∧ p ∈ t.extendsNames

def Complete : Prop := ∀ n p, Parent source n p → p ∈ source

def Acyclic : Prop := ∀ n, ¬TransGen (Parent source) n n

def actionsIn (expanded : HashMap String Template) (name : String) : List Action :=
  ((expanded.lookup name).map Template.actions).getD []

def Template.expandedIn (expanded : HashMap String Template) (t : Template) : Template :=
  t.flattened (t.extendsNames.flatMap (actionsIn expanded))

def Expanded (expanded : HashMap String Template) : Prop :=
  ∀ n, expanded.lookup n = (source.lookup n).map (Template.expandedIn expanded)

inductive Resolvable : String → Prop
  | intro (n : String) (t : Template) : source.lookup n = some t → (∀ p ∈ t.extendsNames, Resolvable p) → Resolvable n

end Spec

/-! ## Outcomes -/

namespace Outcome

def Sat {α : Type} (stuck failed : Prop) (done : α → Prop) : Outcome α → Prop
  | none => stuck
  | some (.error _) => failed
  | some (.ok a) => done a

variable {α β : Type} {stuck failed stuck' : Prop} {done : α → Prop} {done' : β → Prop}

theorem Sat.andThen {o : Outcome α} {next : α → Outcome β} (h : o.Sat stuck failed done)
    (hnext : ∀ a, done a → (next a).Sat stuck failed done') : (o.andThen next).Sat stuck failed done' := by
  match o with
  | none => exact h
  | some (.error _) => exact h
  | some (.ok a) => exact hnext a h

theorem Sat.mono {o : Outcome α} {done' : α → Prop} (h : o.Sat stuck failed done) (hstuck : stuck → stuck')
    (hdone : ∀ a, done a → done' a) : o.Sat stuck' failed done' := by
  match o with
  | none => exact hstuck h
  | some (.error _) => exact h
  | some (.ok a) => exact hdone a h

end Outcome

/-! ## What the search keeps -/

section Search
variable {source : HashMap String Template}

structure Marks.Ok (source : HashMap String Template) (m : Marks) : Prop where
  resolvable : ∀ n ∈ m.resolved, Resolvable source n
  expanded : ∀ n e, m.resolved.lookup n = some e →
    ∃ t, source.lookup n = some t ∧ (∀ p ∈ t.extendsNames, p ∈ m.resolved) ∧ e = t.expandedIn m.resolved
  visited : ∀ n, n ∈ m.visited ↔ n ∈ m.resolved
  apart : ∀ n ∈ m.visiting, n ∉ m.resolved
  known : ∀ n ∈ m.visiting, n ∈ source

structure Kept (m m' : Marks) : Prop where
  visiting : m'.visiting = m.visiting
  lookup : ∀ n e, m.resolved.lookup n = some e → m'.resolved.lookup n = some e

theorem Kept.refl (m : Marks) : Kept m m := ⟨rfl, fun _ _ h => h⟩

theorem Kept.trans {a b c : Marks} (h : Kept a b) (h' : Kept b c) : Kept a c :=
  ⟨h'.visiting.trans h.visiting, fun n e hn => h'.lookup n e (h.lookup n e hn)⟩

structure OnPath (source : HashMap String Template) (visiting : Finset String) (name : String) : Prop where
  asked : name ∈ source ∨ ∃ n, Parent source n name
  path : ∀ v ∈ visiting, TransGen (Parent source) v name

def Sound (source : HashMap String Template) : Prop := Complete source ∧ Acyclic source

variable {n : String}

variable {m a : HashMap String Template} (fuel : Nat) {b : HashMap String Template} {t : Template}

theorem mem_of_lookup (h : m.lookup n = some t) : n ∈ m := by
  rw [← lookup_isSome, h]
  rfl

theorem actionsIn_of_lookup (h : m.lookup n = some t) : actionsIn m n = t.actions := by
  simp [actionsIn, h]

theorem expandedIn_congr (h : ∀ p ∈ t.extendsNames, a.lookup p = b.lookup p) : t.expandedIn a = t.expandedIn b := by
  unfold Template.expandedIn
  congr 1
  exact flatMap_congr fun p hp => by rw [actionsIn, actionsIn, h p hp]

theorem resolveParents_spec {resolve : String → Marks → Outcome (Template × Marks)} {stuck : Prop} {V : Finset String}
    (hresolve : ∀ p m, m.Ok source → m.visiting = V → OnPath source V p → (resolve p m).Sat stuck (¬Sound source)
      fun r => r.2.Ok source ∧ Kept m r.2 ∧ r.2.resolved.lookup p = some r.1) :
    ∀ (ps : List String) (m : Marks) (merged : List Action), m.Ok source → m.visiting = V →
      (∀ p ∈ ps, OnPath source V p) → (resolveParents resolve ps m merged).Sat stuck (¬Sound source)
        fun r => r.2.Ok source ∧ Kept m r.2 ∧ (∀ p ∈ ps, p ∈ r.2.resolved) ∧
          r.1 = merged ++ ps.flatMap (actionsIn r.2.resolved) := by
  intro ps
  induction ps with
  | nil =>
    intro m merged hok _ _
    exact ⟨hok, Kept.refl m, by simp, by simp⟩
  | cons p ps ih =>
    intro m merged hok hV hpath
    refine (hresolve p m hok hV (hpath p (by simp))).andThen fun r hr => ?_
    obtain ⟨hok', hkept, hp⟩ := hr
    refine (ih r.2 _ hok' (hkept.visiting.trans hV) fun q hq => hpath q (by simp [hq])).mono id fun r' hr' => ?_
    obtain ⟨hok'', hkept', hps, hmerged⟩ := hr'
    have hp' := hkept'.lookup p r.1 hp
    refine ⟨hok'', hkept.trans hkept', fun q hq => ?_, ?_⟩
    · rcases mem_cons.mp hq with rfl | hq
      · exact mem_of_lookup hp'
      · exact hps q hq
    · rw [hmerged, flatMap_cons, actionsIn_of_lookup hp', append_assoc]

theorem Marks.Ok.enter {m : Marks} (h : m.Ok source) {name : String} (hnew : m.resolved.lookup name = none)
    (hknown : name ∈ source) : Marks.Ok source { m with visiting := insert name m.visiting } where
  resolvable := h.resolvable
  expanded := h.expanded
  visited := h.visited
  apart n hn := by
    rcases Finset.mem_insert.mp hn with rfl | hn
    · exact lookup_eq_none.mp hnew
    · exact h.apart n hn
  known n hn := by
    rcases Finset.mem_insert.mp hn with rfl | hn
    · exact hknown
    · exact h.known n hn

theorem Marks.Ok.leave {m : Marks} (h : m.Ok source) {name : String} {tmpl : Template} (hon : name ∈ m.visiting)
    (htmpl : source.lookup name = some tmpl) (hparents : ∀ p ∈ tmpl.extendsNames, p ∈ m.resolved) :
    Marks.Ok source ⟨m.resolved.insert name (tmpl.expandedIn m.resolved), m.visiting.erase name,
      insert name m.visited⟩ := by
  have hnew : name ∉ m.resolved := h.apart name hon
  have hother : ∀ p ∈ m.resolved, (m.resolved.insert name (tmpl.expandedIn m.resolved)).lookup p = m.resolved.lookup p := by
    intro p hp
    exact lookup_insert_ne fun e => hnew (e ▸ hp)
  refine ⟨fun n hn => ?_, fun n e he => ?_, fun n => ?_, fun n hn => ?_, fun n hn => ?_⟩
  · rcases (mem_insert _).mp hn with rfl | hn
    · exact .intro n tmpl htmpl fun p hp => h.resolvable p (hparents p hp)
    · exact h.resolvable n hn
  · by_cases hname : n = name
    · subst hname
      rw [lookup_insert, Option.some.injEq] at he
      refine ⟨tmpl, htmpl, fun p hp => (mem_insert _).mpr (.inr (hparents p hp)), ?_⟩
      rw [← he]
      exact expandedIn_congr fun p hp => (hother p (hparents p hp)).symm
    · rw [lookup_insert_ne hname] at he
      obtain ⟨t, ht, hps, rfl⟩ := h.expanded n e he
      refine ⟨t, ht, fun p hp => (mem_insert _).mpr (.inr (hps p hp)), ?_⟩
      exact expandedIn_congr fun p hp => (hother p (hps p hp)).symm
  · rw [Finset.mem_insert, mem_insert, h.visited]
  · obtain ⟨hne, hn⟩ := Finset.mem_erase.mp hn
    intro hmem
    exact ((mem_insert _).mp hmem).elim hne (h.apart n hn)
  · exact h.known n (Finset.mem_of_mem_erase hn)

def roomLeft (source : HashMap String Template) (visiting : Finset String) : Nat := (source.keys.toFinset \ visiting).card

theorem roomLeft_insert {visiting : Finset String} {name : String} (hknown : name ∈ source) (hnew : name ∉ visiting) :
    roomLeft source (insert name visiting) + 1 = roomLeft source visiting := by
  unfold roomLeft
  rw [Finset.sdiff_insert]
  exact Finset.card_erase_add_one (by simp [hnew, AList.mem_keys.mp hknown])

theorem resolveTemplate_spec : ∀ (name : String) (m : Marks), m.Ok source → OnPath source m.visiting name →
    (resolveTemplate source fuel name m).Sat (fuel ≤ roomLeft source m.visiting) (¬Sound source)
      fun r => r.2.Ok source ∧ Kept m r.2 ∧ r.2.resolved.lookup name = some r.1 := by
  induction fuel with
  | zero => exact fun _ _ _ _ => Nat.zero_le _
  | succ fuel ih =>
    intro name m hok hpath
    unfold resolveTemplate
    cases hres : m.resolved.lookup name with
    | some => exact ⟨hok, Kept.refl m, hres⟩
    | none =>
      simp only
      by_cases hon : name ∈ m.visiting
      · -- every template on the path extends the name, so the name extends itself
        rw [if_pos hon]
        exact fun hsound => hsound.2 name (hpath.path name hon)
      rw [if_neg hon]
      cases htmpl : source.lookup name with
      | none =>
        have hnot : name ∉ source := lookup_eq_none.mp htmpl
        intro hsound
        obtain ⟨n, hn⟩ := hpath.asked.resolve_left hnot
        exact hnot (hsound.1 n name hn)
      | some tmpl =>
        have hknown : name ∈ source := mem_of_lookup htmpl
        have hroom := roomLeft_insert hknown hon
        have hparent : ∀ p ∈ tmpl.extendsNames, OnPath source (insert name m.visiting) p := by
          intro p hp
          have hedge : Parent source name p := ⟨tmpl, htmpl, hp⟩
          refine ⟨.inr ⟨name, hedge⟩, fun v hv => ?_⟩
          rcases Finset.mem_insert.mp hv with rfl | hv
          · exact .single hedge
          · exact (hpath.path v hv).tail hedge
        have hcall : ∀ p m', m'.Ok source → m'.visiting = insert name m.visiting →
            OnPath source (insert name m.visiting) p →
            (resolveTemplate source fuel p m').Sat (fuel + 1 ≤ roomLeft source m.visiting) (¬Sound source)
              fun r => r.2.Ok source ∧ Kept m' r.2 ∧ r.2.resolved.lookup p = some r.1 := by
          intro p m' hok' hV hp
          refine (ih p m' hok' (hV ▸ hp)).mono (fun h => ?_) fun _ h => h
          rw [hV] at h
          omega
        have hloop := resolveParents_spec hcall tmpl.extendsNames { m with visiting := insert name m.visiting } []
          (hok.enter hres hknown) rfl hparent
        refine hloop.andThen fun r hr => ?_
        obtain ⟨hok', hkept, hparents, hmerged⟩ := hr
        rw [nil_append] at hmerged
        have hname : name ∈ r.2.visiting := by rw [hkept.visiting]; exact Finset.mem_insert_self _ _
        have hexp : tmpl.flattened r.1 = tmpl.expandedIn r.2.resolved := by rw [hmerged]; rfl
        simp only [hexp]
        refine ⟨hok'.leave hname htmpl hparents, ⟨?_, fun n e he => ?_⟩, lookup_insert _⟩
        · rw [hkept.visiting]
          exact Finset.erase_insert hon
        · have hne : n ≠ name := by
            rintro rfl
            rw [hres] at he
            cases he
          show (r.2.resolved.insert name _).lookup n = some e
          rw [lookup_insert_ne hne]
          exact hkept.lookup n e he

theorem resolveNames_spec : ∀ (names : List String) (m : Marks), m.Ok source → m.visiting = ∅ →
    (∀ n ∈ names, n ∈ source) → (resolveNames source fuel names m).Sat (fuel ≤ source.keys.length) (¬Sound source)
      fun m' => m'.Ok source ∧ Kept m m' ∧ ∀ n ∈ names, n ∈ m'.resolved := by
  intro names
  induction names with
  | nil => exact fun m hok _ _ => ⟨hok, Kept.refl m, by simp⟩
  | cons name rest ih =>
    intro m hok hV hknown
    have hrest : ∀ n ∈ rest, n ∈ source := fun n hn => hknown n (by simp [hn])
    unfold resolveNames
    by_cases hdone : name ∈ m.visited
    · rw [if_pos hdone]
      refine (ih m hok hV hrest).mono id fun m' hm' => ⟨hm'.1, hm'.2.1, fun n hn => ?_⟩
      rcases mem_cons.mp hn with rfl | hn
      · obtain ⟨e, he⟩ := Option.isSome_iff_exists.mp (lookup_isSome.mpr ((hok.visited n).mp hdone))
        exact mem_of_lookup (hm'.2.1.lookup n e he)
      · exact hm'.2.2 n hn
    rw [if_neg hdone]
    have hpath : OnPath source m.visiting name := ⟨.inl (hknown name (by simp)), by simp [hV]⟩
    have hroom : roomLeft source m.visiting ≤ source.keys.length := by
      rw [roomLeft, hV, Finset.sdiff_empty]
      exact toFinset_card_le _
    have hcall := (resolveTemplate_spec fuel name m hok hpath).mono (fun h => h.trans hroom) fun _ h => h
    refine hcall.andThen fun r hr => ?_
    obtain ⟨hok', hkept, hname⟩ := hr
    refine (ih r.2 hok' (hkept.visiting.trans hV) hrest).mono id fun m' hm' => ?_
    refine ⟨hm'.1, hkept.trans hm'.2.1, fun n hn => ?_⟩
    rcases mem_cons.mp hn with rfl | hn
    · exact mem_of_lookup (hm'.2.1.lookup n r.1 hname)
    · exact hm'.2.2 n hn

/-! ## Resolvable templates -/

theorem Resolvable.mem (h : Resolvable source n) : n ∈ source := by
  cases h with
  | intro n t ht => exact mem_of_lookup ht

theorem Resolvable.parent {p : String} (h : Resolvable source n) (hp : Parent source n p) : Resolvable source p := by
  obtain ⟨t, ht, hp⟩ := hp
  cases h with
  | intro n t' ht' hps =>
    obtain rfl : t' = t := Option.some.inj (ht'.symm.trans ht)
    exact hps p hp

theorem Resolvable.not_cycle (h : Resolvable source n) : ¬TransGen (Parent source) n n := by
  induction h with
  | intro n t ht hps ih =>
    intro hcycle
    obtain ⟨p, hnp, hpn⟩ := Relation.TransGen.head'_iff.mp hcycle
    obtain ⟨t', ht', hp⟩ := hnp
    obtain rfl : t' = t := Option.some.inj (ht'.symm.trans ht)
    -- the cycle, from the parent on
    exact ih p hp (Relation.TransGen.tail' hpn ⟨t', ht', hp⟩)

theorem sound_of_resolvable (h : ∀ n ∈ source, Resolvable source n) : Sound source := by
  have hmem : ∀ {n p}, Parent source n p → n ∈ source := by
    intro n p hp
    obtain ⟨t, ht, -⟩ := hp
    exact mem_of_lookup ht
  refine ⟨fun n p hp => ((h n (hmem hp)).parent hp).mem, fun n hcycle => ?_⟩
  obtain ⟨p, hp, -⟩ := Relation.TransGen.head'_iff.mp hcycle
  exact (h n (hmem hp)).not_cycle hcycle

theorem Expanded.unique (ha : Expanded source a) (hb : Expanded source b) (h : ∀ n ∈ source, Resolvable source n)
    (n : String) : a.lookup n = b.lookup n := by
  by_cases hn : n ∈ source
  · have hres := h n hn
    induction hres with
    | intro n t ht hps ih =>
      rw [ha n, hb n, ht]
      simp only [Option.map_some]
      rw [expandedIn_congr fun p hp => ih p hp (hps p hp).mem]
  · rw [ha n, hb n, lookup_eq_none.mpr hn]
    rfl

theorem Marks.Ok.all_expanded {m : Marks} (h : m.Ok source) (hall : ∀ n ∈ source, n ∈ m.resolved) :
    Expanded source m.resolved := by
  intro n
  cases hn : source.lookup n with
  | none =>
    cases he : m.resolved.lookup n with
    | none => rfl
    | some e =>
      obtain ⟨t, ht, -⟩ := h.expanded n e he
      rw [hn] at ht
      cases ht
  | some t =>
    obtain ⟨e, he⟩ := Option.isSome_iff_exists.mp (lookup_isSome.mpr (hall n (mem_of_lookup hn)))
    obtain ⟨t', ht', -, rfl⟩ := h.expanded n e he
    obtain rfl : t = t' := Option.some.inj (hn.symm.trans ht')
    exact he

end Search

/-! ## More fuel changes nothing -/

theorem Outcome.andThen_mono {α β : Type} {o o' : Outcome α} {next next' : α → Outcome β} {r : Except TemplateLoadError β}
    (ho : ∀ x, o = some x → o' = some x) (hnext : ∀ a x, next a = some x → next' a = some x)
    (h : o.andThen next = some r) : o'.andThen next' = some r := by
  match o with
  | none => cases h
  | some (.error e) =>
    rw [ho _ rfl]
    exact h
  | some (.ok a) =>
    rw [ho _ rfl]
    exact hnext a r h

theorem resolveParents_mono {resolve resolve' : String → Marks → Outcome (Template × Marks)}
    (h : ∀ p m r, resolve p m = some r → resolve' p m = some r) :
    ∀ (ps : List String) (m : Marks) (merged : List Action) (r : Except TemplateLoadError (List Action × Marks)),
      resolveParents resolve ps m merged = some r → resolveParents resolve' ps m merged = some r := by
  intro ps
  induction ps with
  | nil => exact fun _ _ _ hr => hr
  | cons p ps ih => exact fun m merged r hr => Outcome.andThen_mono (h p m) (fun a x hx => ih _ _ x hx) hr

section Fuel
variable {source : HashMap String Template}

theorem resolveTemplate_succ (fuel : Nat) : ∀ (name : String) (m : Marks) (r : Except TemplateLoadError (Template × Marks)),
    resolveTemplate source fuel name m = some r → resolveTemplate source (fuel + 1) name m = some r := by
  induction fuel with
  | zero =>
    intro name m r h
    cases h
  | succ fuel ih =>
    intro name m r h
    rw [resolveTemplate] at h ⊢
    split at h
    · exact h
    split at h
    · rw [if_pos (by assumption)]
      exact h
    rw [if_neg (by assumption)]
    split at h
    · exact h
    · exact Outcome.andThen_mono (resolveParents_mono ih _ _ _) (fun _ _ hx => hx) h

theorem resolveNames_succ (fuel : Nat) : ∀ (names : List String) (m : Marks) (r : Except TemplateLoadError Marks),
    resolveNames source fuel names m = some r → resolveNames source (fuel + 1) names m = some r := by
  intro names
  induction names with
  | nil => exact fun _ _ h => h
  | cons name rest ih =>
    intro m r h
    unfold resolveNames at h ⊢
    split at h
    · rw [if_pos (by assumption)]
      exact ih m r h
    · rw [if_neg (by assumption)]
      exact Outcome.andThen_mono (resolveTemplate_succ fuel name m) (fun a x hx => ih a.2 x hx) h

theorem expandInheritance_of_le {fuel fuel' : Nat} (hle : fuel ≤ fuel') {names : List String}
    {r : Except TemplateLoadError Unit × HashMap String Template} (h : expandInheritance fuel source names = some r) :
    expandInheritance fuel' source names = some r := by
  induction hle with
  | refl => exact h
  | step _ ih =>
    unfold expandInheritance at ih ⊢
    split at ih
    · cases ih
    all_goals
      rename_i hr
      rw [resolveNames_succ _ names _ _ hr]
      exact ih

end Fuel

/-! ## The expansion -/

section Expansion
variable {source : HashMap String Template}

theorem Marks.Ok.empty : Marks.empty.Ok source where
  resolvable _ hn := absurd hn (notMem_empty _)
  expanded _ _ he := absurd (mem_of_lookup he) (notMem_empty _)
  visited n := by simp [Marks.empty, notMem_empty]
  apart _ hn := absurd hn (Finset.notMem_empty _)
  known _ hn := absurd hn (Finset.notMem_empty _)

inductive Ends (source : HashMap String Template) : Except TemplateLoadError Unit → HashMap String Template → Prop
  | expanded (m : HashMap String Template) : (∀ n ∈ source, Resolvable source n) → Expanded source m → Ends source (.ok ()) m
  | refused (e : TemplateLoadError) : ¬Sound source → Ends source (.error e) source

theorem expandInheritance_ends {fuel : Nat} (hfuel : source.keys.length < fuel) {names : List String}
    (hnames : names.Perm source.keys) :
    ∃ result after, expandInheritance fuel source names = some (result, after) ∧ Ends source result after := by
  have hknown : ∀ n ∈ names, n ∈ source := fun n hn => AList.mem_keys.mpr (hnames.mem_iff.mp hn)
  have hrun := resolveNames_spec fuel names .empty Marks.Ok.empty rfl hknown
  unfold expandInheritance
  cases hr : resolveNames source fuel names .empty with
  | none =>
    rw [hr] at hrun
    exact absurd hfuel (Nat.not_lt.mpr hrun)
  | some r =>
    rw [hr] at hrun
    cases r with
    | error e => exact ⟨_, _, rfl, .refused e hrun⟩
    | ok m =>
      obtain ⟨hok, -, hdone⟩ := hrun
      have hall : ∀ n ∈ source, n ∈ m.resolved := fun n hn => hdone n (hnames.mem_iff.mpr (AList.mem_keys.mp hn))
      exact ⟨_, _, rfl, .expanded m.resolved (fun n hn => hok.resolvable n (hall n hn)) (hok.all_expanded hall)⟩

theorem Ends.ok_iff {result : Except TemplateLoadError Unit} {after : HashMap String Template}
    (h : Ends source result after) : result = .ok () ↔ Sound source := by
  cases h with
  | expanded _ hres => simp [sound_of_resolvable hres]
  | refused _ hnot => simp [hnot]

theorem Ends.agree {result result' : Except TemplateLoadError Unit} {after after' : HashMap String Template}
    (h : Ends source result after) (h' : Ends source result' after') (n : String) : after'.lookup n = after.lookup n := by
  cases h with
  | expanded _ hres hexp =>
    cases h' with
    | expanded _ _ hexp' => exact hexp'.unique hexp hres n
    | refused _ hnot => exact absurd (sound_of_resolvable hres) hnot
  | refused _ hnot =>
    cases h' with
    | expanded _ hres => exact absurd (sound_of_resolvable hres) hnot
    | refused => rfl

theorem Expanded.again {a b : HashMap String Template} (h : Expanded source a) (hb : Expanded a b) (n : String) :
    b.lookup n = a.lookup n := by
  rw [hb n, h n]
  cases source.lookup n <;> rfl

theorem Expanded.sound {a : HashMap String Template} (h : Expanded source a) : Sound a := by
  have hnone : ∀ n p, ¬Parent a n p := by
    intro n p ⟨t, ht, hp⟩
    rw [h n] at ht
    obtain ⟨t', -, rfl⟩ := Option.map_eq_some_iff.mp ht
    cases hp
  refine ⟨fun n p hp => absurd hp (hnone n p), fun n hn => ?_⟩
  obtain ⟨p, hp, -⟩ := Relation.TransGen.head'_iff.mp hn
  exact hnone n p hp

end Expansion

/-- In any order of the names the expansion ends the same way; it succeeds exactly when every
extended name exists and none extends itself. -/
theorem expand_inheritance_correct (source : HashMap String Template) (names : List String)
    (hnames : names.Perm source.keys) :
    ∃ result after,
      (∀ fuel, source.keys.length < fuel → expandInheritance fuel source names = some (result, after)) ∧
      (result = .ok () ↔ Complete source ∧ Acyclic source) ∧
      (result = .ok () → Expanded source after) ∧
      (result ≠ .ok () → after = source) ∧
      ∀ names', names'.Perm source.keys → ∀ fuel, source.keys.length < fuel →
        ∃ result' after', expandInheritance fuel source names' = some (result', after') ∧
          (result' = .ok () ↔ result = .ok ()) ∧ ∀ n, after'.lookup n = after.lookup n := by
  obtain ⟨result, after, hrun, hends⟩ := expandInheritance_ends (Nat.lt_succ_self source.keys.length) hnames
  refine ⟨result, after, fun fuel hfuel => expandInheritance_of_le hfuel hrun, hends.ok_iff, ?_, ?_, ?_⟩
  · intro hok
    cases hends with
    | expanded _ _ hexp => exact hexp
    | refused => cases hok
  · intro hnot
    cases hends with
    | expanded => exact absurd rfl hnot
    | refused => rfl
  · intro names' hnames' fuel hfuel
    obtain ⟨result', after', hrun', hends'⟩ := expandInheritance_ends hfuel hnames'
    exact ⟨result', after', hrun', hends'.ok_iff.trans hends.ok_iff.symm, hends.agree hends'⟩

def readers : HashMap String Template :=
  AList.insert "child" ⟨"child", "", .any, .allow, [.all], ["base"]⟩
    (AList.insert "base" ⟨"base", "", .any, .allow, [.file "read" ["/data/*"]], []⟩ ∅)

theorem expand_inheritance_correct_readers : ∃ result after,
      (∀ fuel, readers.keys.length < fuel → expandInheritance fuel readers ["child", "base"] = some (result, after)) ∧
      (result = .ok () ↔ Complete readers ∧ Acyclic readers) ∧
      (result = .ok () → Expanded readers after) ∧
      (result ≠ .ok () → after = readers) ∧
      ∀ names', names'.Perm readers.keys → ∀ fuel, readers.keys.length < fuel →
        ∃ result' after', expandInheritance fuel readers names' = some (result', after') ∧
          (result' = .ok () ↔ result = .ok ()) ∧ ∀ n, after'.lookup n = after.lookup n :=
  expand_inheritance_correct readers ["child", "base"] (by decide)

/-- Expanded templates are expanded to themselves. -/
theorem expansion_is_final (source after : HashMap String Template) (names names' : List String) (fuel fuel' : Nat)
    (hnames : names.Perm source.keys) (hfuel : source.keys.length < fuel)
    (h : expandInheritance fuel source names = some (.ok (), after)) (hnames' : names'.Perm after.keys)
    (hfuel' : after.keys.length < fuel') :
    ∃ again, expandInheritance fuel' after names' = some (.ok (), again) ∧ ∀ n, again.lookup n = after.lookup n := by
  obtain ⟨_, _, hrun, hends⟩ := expandInheritance_ends hfuel hnames
  obtain ⟨result, again, hrun', hends'⟩ := expandInheritance_ends hfuel' hnames'
  obtain ⟨rfl, rfl⟩ := Prod.mk.inj (Option.some.inj (hrun.symm.trans h))
  cases hends with
  | expanded _ _ hexp =>
    obtain rfl := hends'.ok_iff.mpr hexp.sound
    refine ⟨again, hrun', fun n => ?_⟩
    cases hends' with
    | expanded _ _ hexp' => exact hexp.again hexp' n

theorem expansion_is_final_readers : ∃ after again, expandInheritance 3 readers ["child", "base"] = some (.ok (), after) ∧
      expandInheritance 3 after after.keys = some (.ok (), again) ∧ ∀ n, again.lookup n = after.lookup n :=
  have h : expandInheritance 3 readers ["child", "base"] = some (.ok (), _) := rfl
  have ⟨again, h'⟩ := expansion_is_final readers _ _ _ 3 3 (by decide) (by decide) h (.refl _) (by decide)
  ⟨_, again, h, h'⟩

end CloseClaw.Permission.Templates
