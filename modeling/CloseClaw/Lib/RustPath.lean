/- `std::path` on Unix. For a path that is not valid UTF-8 the text is its lossy rendering
   (`utf8`). -/

import CloseClaw.Lib.Text
import CloseClaw.Lib.SlashPath

namespace CloseClaw.Lib.RustPath

open Lib List Text

structure PathBuf where
  text : String
  utf8 : Bool
  deriving DecidableEq

def PathBuf.ofStr (s : String) : PathBuf := ⟨s, true⟩

def PathBuf.toStr (p : PathBuf) : Option String := if p.utf8 then some p.text else none

def PathBuf.toStringLossy (p : PathBuf) : String := p.text

def PathBuf.join (p : PathBuf) (s : String) : PathBuf :=
  if startsWith s "/" then ⟨s, true⟩
  else if p.text = "" ∨ endsWith p.text "/" = true then ⟨p.text ++ s, p.utf8⟩
  else ⟨p.text ++ "/" ++ s, p.utf8⟩

inductive Component where
  | rootDir
  | curDir
  | parentDir
  | normal (s : String)
  deriving DecidableEq

def segment : List Char → Option Component
  | [] => none
  | ['.'] => none
  | ['.', '.'] => some .parentDir
  | s => some (.normal (String.ofList s))

def components (path : String) : List Component :=
  let segs := path.toList.splitOn '/'
  let lead := if startsWith path "/" then [.rootDir] else if segs.head? = some ['.'] then [.curDir] else []
  lead ++ segs.filterMap segment

def Component.visit (names : List String) : Component → List String
  | .parentDir => names.dropLast
  | .curDir => names
  | .normal s => names ++ [s]
  | .rootDir => names

open Component

def resolve (cs : List Component) : List String := cs.foldl visit []

theorem sep_notMem_splitOn {l s : List Char} (h : s ∈ l.splitOn '/') : '/' ∉ s := by
  induction l generalizing s with
  | nil => simp at h; simp [h]
  | cons c l ih =>
    rw [splitOn_cons_eq_if_modifyHead] at h
    split at h
    · rcases mem_cons.mp h with rfl | h
      · simp
      · exact ih h
    · rename_i hc
      cases hl : l.splitOn '/' with
      | nil => simp [hl] at h
      | cons x =>
        rw [hl, modifyHead_cons] at h
        rcases mem_cons.mp h with rfl | h
        · have hx := ih (s := x) (by simp [hl])
          simp only [beq_iff_eq] at hc
          simp only [mem_cons, not_or]
          exact ⟨fun e => hc e.symm, hx⟩
        · exact ih (by simp [hl, h])

variable {a : List String} (p : PathBuf) {n : String} {b : List String} {s : String}

theorem sep_notMem_component {path : String} (h : normal n ∈ components path) : '/' ∉ n.toList := by
  have hm : normal n ∈ (path.toList.splitOn '/').filterMap segment := by
    simp only [components, mem_append] at h
    rcases h with h | h
    · split at h
      · simp at h
      · split at h <;> simp at h
    · exact h
  obtain ⟨s, hs, he⟩ := mem_filterMap.mp hm
  unfold segment at he
  split at he <;> simp at he
  rw [← he, String.toList_ofList]
  exact sep_notMem_splitOn hs

theorem mem_resolve {cs : List Component} (h : n ∈ resolve cs) : normal n ∈ cs := by
  have key : ∀ (cs : List Component) (acc : List String), n ∈ cs.foldl visit acc → n ∈ acc ∨ normal n ∈ cs := by
    intro cs
    induction cs with
    | nil => intro acc h; exact .inl h
    | cons c cs ih =>
      intro acc h
      rcases ih _ h with h | h
      · cases c with
        | rootDir | curDir => exact .inl h
        | parentDir => exact .inl (mem_of_mem_dropLast h)
        | normal =>
          rcases mem_append.mp h with h | h
          · exact .inl h
          · simp at h; simp [h]
      · exact .inr (mem_cons_of_mem _ h)
  rcases key cs [] h with h | h
  · cases h
  · exact h

theorem resolve_sepFree (path : String) : SlashPath.SepFree '/' ((resolve (components path)).map String.toList) := by
  intro s hs
  obtain ⟨n, hn, rfl⟩ := mem_map.mp hs
  exact sep_notMem_component (mem_resolve hn)

theorem map_toList_inj : a.map String.toList = b.map String.toList ↔ a = b :=
  (map_injective_iff.mpr fun _ _ h => String.toList_inj.mp h).eq_iff

theorem map_toList_prefix_iff : a.map String.toList <+: b.map String.toList ↔ a <+: b := by
  constructor
  · intro ⟨t, ht⟩
    obtain ⟨b1, b2, rfl, h1, -⟩ := map_eq_append_iff.mp ht.symm
    exact ⟨b2, by rw [map_toList_inj.mp h1]⟩
  · intro h; exact h.map _

theorem map_toList_infix_iff : a.map String.toList <:+: b.map String.toList ↔ a <:+: b := by
  constructor
  · intro h
    obtain ⟨s, t, hst⟩ := h
    obtain ⟨bst, bt, rfl, hs, -⟩ := map_eq_append_iff.mp hst.symm
    obtain ⟨bs, ba, rfl, -, ha⟩ := map_eq_append_iff.mp hs
    exact ⟨bs, bt, by rw [map_toList_inj.mp ha]⟩
  · intro h
    exact h.map _

def segments (path : String) : List Component := (path.toList.splitOn '/').filterMap segment

theorem resolve_components (path : String) : resolve (components path) = (segments path).foldl visit [] := by
  unfold resolve components
  simp only [foldl_append]
  congr 1
  split
  · rfl
  · split <;> rfl

theorem splitOn_append_sep (a b : List Char) : (a ++ '/' :: b).splitOn '/' = a.splitOn '/' ++ b.splitOn '/' := by
  induction a with
  | nil => simp [splitOn_cons_eq_if_modifyHead]
  | cons c a ih =>
    rw [cons_append, splitOn_cons_eq_if_modifyHead, splitOn_cons_eq_if_modifyHead, ih]
    split
    · rfl
    · cases ha : a.splitOn '/' with
      | nil => exact absurd ha (splitOn_ne_nil _ _)
      | cons => rfl

theorem segments_sep (a b : String) : segments (a ++ "/" ++ b) = segments a ++ segments b := by
  have ht : (a ++ "/" ++ b).toList = a.toList ++ '/' :: b.toList := by simp
  rw [segments, ht, splitOn_append_sep, filterMap_append]
  rfl

theorem segments_empty : segments "" = [] := by decide

theorem segments_join (h : startsWith s "/" = false) : segments (p.join s).text = segments p.text ++ segments s := by
  simp only [PathBuf.join, h, Bool.false_eq_true, if_false]
  split
  · next hp =>
    rcases hp with hp | hp
    · rw [hp, segments_empty]
      simp
    · -- the base ends in a separator: what is before it has the same segments
      obtain ⟨q, hq⟩ := endsWith_iff.mp hp
      have hpq : p.text = String.ofList q ++ "/" ++ "" := by
        rw [← String.toList_inj, ← hq]
        simp
      have hps : p.text ++ s = String.ofList q ++ "/" ++ s := by
        rw [hpq]
        simp
      show segments (p.text ++ s) = _
      rw [hps, hpq, segments_sep, segments_sep, segments_empty, append_nil]
  · exact segments_sep _ _

theorem resolve_join (h : startsWith s "/" = false) :
    resolve (components (p.join s).text) = (segments s).foldl visit (resolve (components p.text)) := by
  rw [resolve_components, segments_join p h, foldl_append, resolve_components]

theorem startsWith_slash_append (a b : String) (h : a ≠ "") : startsWith (a ++ b) "/" = startsWith a "/" := by
  cases ha : a.toList with
  | nil => exact absurd (String.toList_eq_nil_iff.mp ha) h
  | cons => simp [startsWith, ha]

theorem startsWith_join (h : startsWith s "/" = false) : startsWith (p.join s).text "/" = startsWith p.text "/" := by
  simp only [PathBuf.join, h, Bool.false_eq_true, if_false]
  by_cases hp : p.text = ""
  · simp only [hp, true_or, if_true, String.empty_append, h]
    decide
  · split
    · exact startsWith_slash_append _ _ hp
    · rw [String.append_assoc]
      exact startsWith_slash_append _ _ hp

end CloseClaw.Lib.RustPath
