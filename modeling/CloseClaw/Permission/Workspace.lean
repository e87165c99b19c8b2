/- Workspace and configuration paths (`engine_workspace.rs`). -/

import CloseClaw.Lib.RustPath

namespace CloseClaw.Permission

open Lib Lib.RustPath List SlashPath

def names (path : String) : List String := resolve (components path)

def normalizePath (path : String) : String :=
  let normalized := String.ofList (render '/' ((names path).map String.toList))
  if normalized = "" then "/" else normalized

def isNestedWorkspacePath (dataRoot : PathBuf) (agentId userId normPath : String) : Bool :=
  let wsPrefix := normalizePath (dataRoot.join "workspaces").toStringLossy
  if normPath != wsPrefix && !Text.startsWith normPath (wsPrefix ++ "/") then false
  else
    let suffix := "/" ++ agentId ++ "/" ++ userId
    Text.endsWith normPath suffix || Text.contains normPath (suffix ++ "/")

def isWorkspacePath (dataRoot : PathBuf) (agentId userId path : String) : Bool :=
  let wsPath := ((dataRoot.join "workspaces").join agentId).join userId
  let normPrefix := normalizePath (wsPath.toStr.getD "")
  let normPath := normalizePath path
  if normPath == normPrefix || Text.startsWith normPath (normPrefix ++ "/") then true
  else isNestedWorkspacePath dataRoot agentId userId normPath

def isConfigDirPath (dataRoot : PathBuf) (path : String) : Bool :=
  let normRoot := normalizePath (dataRoot.toStr.getD "")
  let normPath := normalizePath path
  if normPath != normRoot && !Text.startsWith normPath (normRoot ++ "/") then false
  else normPath == normRoot || !Text.startsWith normPath (normRoot ++ "/workspaces/")

theorem name_ne_empty (path : String) {n : String} (h : n ∈ names path) : n ≠ "" := by
  have hm := mem_resolve h
  simp only [components, mem_append] at hm
  rcases hm with hm | hm
  · split at hm
    · simp at hm
    · split at hm <;> simp at hm
  · obtain ⟨s, -, hs⟩ := mem_filterMap.mp hm
    rintro rfl
    unfold RustPath.segment at hs
    split at hs <;> simp_all

theorem names_sepFree (path : String) : SepFree '/' ((names path).map String.toList) := resolve_sepFree path

variable {path : String}

theorem normalizePath_toList_of_ne (h : names path ≠ []) :
    (normalizePath path).toList = render '/' ((names path).map String.toList) := by
  unfold normalizePath
  simp only
  split
  · rename_i he
    have : render '/' ((names path).map String.toList) = [] := by simpa using congrArg String.toList he
    rw [render_eq_nil, map_eq_nil_iff] at this
    exact absurd this h
  · exact String.toList_ofList

theorem normalizePath_of_names_nil (h : names path = []) : normalizePath path = "/" := by
  simp [normalizePath, h]

theorem normalizePath_eq_slash : normalizePath path = "/" ↔ names path = [] := by
  constructor
  · intro h
    by_contra hne
    have ht := normalizePath_toList_of_ne hne
    rw [h] at ht
    cases hn : names path with
    | nil => exact hne hn
    | cons n ns =>
      have hn0 : n ≠ "" := name_ne_empty path (by simp [hn])
      rw [hn, map_cons, render_cons] at ht
      have : n.toList = [] := by
        have h2 : [] = n.toList ++ render '/' (ns.map String.toList) := (List.cons.inj ht).2
        exact (append_eq_nil_iff.mp h2.symm).1
      exact hn0 (String.toList_inj.mp (by simpa using this))
  · exact normalizePath_of_names_nil

theorem normalizePath_below {outer : String} (h : names outer ≠ []) (path : String) :
    (normalizePath path = normalizePath outer ∨ Text.startsWith (normalizePath path) (normalizePath outer ++ "/") = true)
      ↔ names outer <+: names path := by
  rw [Text.startsWith_iff, String.toList_append, ← String.toList_inj, normalizePath_toList_of_ne h]
  by_cases hp : names path = []
  · -- the path is the root: neither test holds, and no name list is below it
    have hslash : normalizePath path = "/" := normalizePath_of_names_nil hp
    rw [hp, prefix_nil, hslash]
    constructor
    · intro hor
      rcases hor with h1 | h1
      · refine absurd (normalizePath_eq_slash.mp ?_) h
        rw [← String.toList_inj, normalizePath_toList_of_ne h, ← h1]
      · cases hn : names outer with
        | nil => rfl
        | cons =>
          rw [hn] at h1
          have := h1.length_le
          simp at this
    · intro h1; exact absurd h1 h
  · rw [normalizePath_toList_of_ne hp]
    have := render_below (names_sepFree outer) (names_sepFree path)
    rw [map_toList_prefix_iff] at this
    exact this

def InConfigDir (root path : String) : Prop :=
  names root <+: names path ∧ ¬ (names root ++ ["workspaces"] <+: names path ∧ names root ++ ["workspaces"] ≠ names path)

instance (root path : String) : Decidable (InConfigDir root path) := inferInstanceAs (Decidable (_ ∧ ¬ (_ ∧ _)))

theorem workspaces_text {root : String} (h : names root ≠ []) (hp : names path ≠ []) :
    Text.startsWith (normalizePath path) (normalizePath root ++ "/workspaces/") = true
      ↔ names root ++ ["workspaces"] <+: names path ∧ names root ++ ["workspaces"] ≠ names path := by
  have hfree : SepFree '/' ((names root ++ ["workspaces"]).map String.toList) := by
    intro s hs
    rw [map_append, mem_append] at hs
    rcases hs with hs | hs
    · exact names_sepFree root s hs
    · simp only [map_cons, map_nil, mem_singleton] at hs
      subst hs; decide
  have key := render_sep_prefix_iff hfree (names_sepFree path)
  rw [map_toList_prefix_iff, ne_eq, map_toList_inj] at key
  rw [← ne_eq] at key
  rw [← key, Text.startsWith_iff, String.toList_append, normalizePath_toList_of_ne h, normalizePath_toList_of_ne hp]
  simp

theorem isConfigDirPath_iff {dataRoot : PathBuf} (h : names (dataRoot.toStr.getD "") ≠ []) :
    isConfigDirPath dataRoot path = true ↔ InConfigDir (dataRoot.toStr.getD "") path := by
  set root := dataRoot.toStr.getD "" with hroot
  have hbelow := normalizePath_below h path
  unfold isConfigDirPath InConfigDir
  simp only [← hroot]
  by_cases hin : names root <+: names path
  · have hp : names path ≠ [] := fun e => h (prefix_nil.mp (e ▸ hin))
    have hws := workspaces_text h hp
    rw [if_neg (by
      rw [Bool.and_eq_true, not_and_or]
      rcases hbelow.mpr hin with h1 | h1
      · left; simp [h1]
      · right; simp [h1])]
    rw [Bool.or_eq_true, Bool.not_eq_true', ← Bool.not_eq_true, hws]
    constructor
    · intro hor
      rcases hor with h1 | h1
      · -- the root itself is below no longer path
        refine ⟨hin, fun hlong => ?_⟩
        have hs := hws.mpr hlong
        rw [beq_iff_eq.mp h1, Text.startsWith_iff, String.toList_append] at hs
        have := hs.length_le
        simp only [length_append, String.reduceToList, length_cons] at this
        omega
      · exact ⟨hin, h1⟩
    · exact fun h1 => .inr h1.2
  · rw [if_pos (by
      rw [Bool.and_eq_true, bne_iff_ne, Bool.not_eq_true', ← Bool.not_eq_true]
      exact ⟨fun e => hin (hbelow.mp (.inl e)), fun e => hin (hbelow.mp (.inr e))⟩)]
    simp [hin]

theorem normalizePath_not_startsWith_slashes (hp : names path ≠ []) :
    Text.startsWith (normalizePath path) "//" = false := by
  rw [← Bool.not_eq_true, Text.startsWith_iff, normalizePath_toList_of_ne hp]
  cases hn : names path with
  | nil => exact absurd hn hp
  | cons n =>
    have hn0 : n ≠ "" := name_ne_empty path (by simp [hn])
    have hsep : '/' ∉ n.toList := names_sepFree path n.toList (by simp [hn])
    cases ht : n.toList with
    | nil => exact absurd (String.toList_inj.mp (by simpa using ht)) hn0
    | cons c =>
      rw [ht] at hsep
      simp only [map_cons, render_cons, ht, cons_append]
      intro hpre
      have hc : '/' = c := (cons_prefix_cons.mp (cons_prefix_cons.mp hpre).2).1
      exact hsep (hc ▸ mem_cons_self)

theorem isConfigDirPath_of_root_nil {dataRoot : PathBuf} (h : names (dataRoot.toStr.getD "") = [])
    (hp : names path ≠ []) : isConfigDirPath dataRoot path = false := by
  have hne : normalizePath path ≠ "/" := fun e => hp (normalizePath_eq_slash.mp e)
  have hstart := normalizePath_not_startsWith_slashes hp
  unfold isConfigDirPath
  simp only [normalizePath_of_names_nil h]
  rw [if_pos]
  rw [Bool.and_eq_true, bne_iff_ne, Bool.not_eq_true']
  exact ⟨hne, hstart⟩

open Lib Lib.RustPath List

def NormalName (s : String) : Prop := s ≠ "" ∧ '/' ∉ s.toList ∧ s ≠ "." ∧ s ≠ ".."

instance instDecidableNormalName (s : String) : Decidable (NormalName s) := inferInstanceAs (Decidable (_ ∧ _ ∧ _ ∧ _))

def InWorkspace (dataRoot : PathBuf) (agentId userId path : String) : Prop :=
  names dataRoot.text ++ ["workspaces", agentId, userId] <+: names path

instance instDecidableInWorkspace (dataRoot : PathBuf) (agentId userId path : String) :
    Decidable (InWorkspace dataRoot agentId userId path) := inferInstanceAs (Decidable (_ <+: _))

variable {s : String}

theorem NormalName.relative (h : NormalName s) : Text.startsWith s "/" = false := by
  rw [← Bool.not_eq_true, Text.startsWith_iff]
  intro hpre
  exact h.2.1 (hpre.subset (by simp))

theorem NormalName.segments (h : NormalName s) : segments s = [.normal s] := by
  obtain ⟨hne, hsep, hdot, hdots⟩ := h
  have hseg : RustPath.segment s.toList = some (.normal s) := by
    unfold RustPath.segment
    split
    · rename_i hs
      exact absurd (String.toList_inj.mp (by simpa using hs)) hne
    · rename_i hs
      exact absurd (String.toList_inj.mp (by simpa using hs)) hdot
    · rename_i hs
      exact absurd (String.toList_inj.mp (by simpa using hs)) hdots
    · rw [String.ofList_toList]
  rw [RustPath.segments, splitOn_eq_singleton hsep, filterMap_cons, hseg]
  rfl

theorem names_join (h : NormalName s) (p : PathBuf) : names (p.join s).text = names p.text ++ [s] := by
  rw [names, resolve_join p h.relative, h.segments]
  rfl

theorem utf8_join (h : NormalName s) (p : PathBuf) : (p.join s).utf8 = p.utf8 := by
  simp only [PathBuf.join, h.relative, Bool.false_eq_true, if_false]
  split <;> rfl

theorem normalName_workspaces : NormalName "workspaces" := by decide

variable {dataRoot : PathBuf} {agentId userId path : String}

theorem pair_text (ha : NormalName agentId) (hu : NormalName userId) (hp : names path ≠ []) :
    (Text.endsWith (normalizePath path) ("/" ++ agentId ++ "/" ++ userId) ||
        Text.contains (normalizePath path) ("/" ++ agentId ++ "/" ++ userId ++ "/")) = true ↔
      [agentId, userId] <:+: names path := by
  have hfree : SlashPath.SepFree '/' ([agentId, userId].map String.toList) := by
    intro s hs
    simp only [map_cons, map_nil, mem_cons, not_mem_nil, or_false] at hs
    rcases hs with rfl | rfl
    · exact ha.2.1
    · exact hu.2.1
  have hpart := SlashPath.render_part hfree (names_sepFree path) (by simp)
  rw [map_toList_infix_iff] at hpart
  rw [Bool.or_eq_true, Text.endsWith_iff, Text.contains_iff, normalizePath_toList_of_ne hp, ← hpart]
  simp

theorem isNestedWorkspacePath_iff (ha : NormalName agentId) (hu : NormalName userId) :
    isNestedWorkspacePath dataRoot agentId userId (normalizePath path) = true ↔
      names dataRoot.text ++ ["workspaces"] <+: names path ∧ [agentId, userId] <:+: names path := by
  have hroot : names (dataRoot.join "workspaces").text = names dataRoot.text ++ ["workspaces"] :=
    names_join normalName_workspaces dataRoot
  have hne : names (dataRoot.join "workspaces").text ≠ [] := by simp [hroot]
  have hbelow := normalizePath_below hne path
  rw [hroot] at hbelow
  unfold isNestedWorkspacePath PathBuf.toStringLossy
  simp only
  by_cases hin : names dataRoot.text ++ ["workspaces"] <+: names path
  · have hp : names path ≠ [] := fun e => by simp [e] at hin
    rw [if_neg, pair_text ha hu hp]
    · simp [hin]
    · rw [Bool.and_eq_true, bne_iff_ne, Bool.not_eq_true', not_and_or, not_not, Bool.not_eq_false]
      exact hbelow.mpr hin
  · rw [if_pos]
    · simp [hin]
    · rw [Bool.and_eq_true, bne_iff_ne, Bool.not_eq_true', ← Bool.not_eq_true, ← not_or]
      exact fun h => hin (hbelow.mp h)

theorem isWorkspacePath_iff (ha : NormalName agentId) (hu : NormalName userId) (hp : names path ≠ []) :
    isWorkspacePath dataRoot agentId userId path = true ↔
      (dataRoot.utf8 = true ∧ InWorkspace dataRoot agentId userId path) ∨
        (names dataRoot.text ++ ["workspaces"] <+: names path ∧ [agentId, userId] <:+: names path) := by
  have hutf8 : (((dataRoot.join "workspaces").join agentId).join userId).utf8 = dataRoot.utf8 := by
    rw [utf8_join hu, utf8_join ha, utf8_join normalName_workspaces]
  have hnames : names (((dataRoot.join "workspaces").join agentId).join userId).text =
      names dataRoot.text ++ ["workspaces", agentId, userId] := by
    rw [names_join hu, names_join ha, names_join normalName_workspaces]
    simp
  have hown : (normalizePath path == normalizePath ((((dataRoot.join "workspaces").join agentId).join userId).toStr.getD "")
      || Text.startsWith (normalizePath path)
        (normalizePath ((((dataRoot.join "workspaces").join agentId).join userId).toStr.getD "") ++ "/")) = true ↔
      dataRoot.utf8 = true ∧ InWorkspace dataRoot agentId userId path := by
    rw [Bool.or_eq_true, beq_iff_eq, PathBuf.toStr, hutf8]
    cases dataRoot.utf8 with
    | false =>
      have hslash : normalizePath path ≠ "/" := fun e => hp (normalizePath_eq_slash.mp e)
      have hempty : normalizePath "" = "/" := by decide
      have htwo : ("/" ++ "/" : String) = "//" := by decide
      simp [hempty, hslash, htwo, normalizePath_not_startsWith_slashes hp]
    | true =>
      have hne : names (((dataRoot.join "workspaces").join agentId).join userId).text ≠ [] := by simp [hnames]
      have hbelow := normalizePath_below hne path
      rw [hnames] at hbelow
      simpa [InWorkspace] using hbelow
  unfold isWorkspacePath
  simp only
  rw [← isNestedWorkspacePath_iff ha hu, ← hown]
  split
  · rename_i h
    simp [h]
  · rename_i h
    simp only [h, Bool.false_eq_true, false_or]

/-- Below one pair's directory another pair holds what is nested, and nothing else. -/
theorem workspace_shared_iff_nested (dataRoot : PathBuf) (a1 u1 a2 u2 path : String) (ha : NormalName a2)
    (hu : NormalName u2) (hin : InWorkspace dataRoot a1 u1 path) :
    (¬[a2, u2] <:+: names path → isWorkspacePath dataRoot a2 u2 path = false) ∧
      ([a2, u2] <:+: (names path).drop ((names dataRoot.text).length + 1) →
        isWorkspacePath dataRoot a2 u2 path = true) := by
  have hp : names path ≠ [] := fun e => by simp [InWorkspace, e] at hin
  have hroot : names dataRoot.text ++ ["workspaces"] <+: names path := List.IsPrefix.trans ⟨[a1, u1], by simp⟩ hin
  constructor
  · intro hout
    rw [← Bool.not_eq_true, isWorkspacePath_iff ha hu hp]
    intro h
    rcases h with ⟨-, hown⟩ | ⟨-, hpair⟩
    · exact hout (List.IsInfix.trans ⟨names dataRoot.text ++ ["workspaces"], [], by simp⟩ hown.isInfix)
    · exact hout hpair
  · intro hnested
    rw [isWorkspacePath_iff ha hu hp]
    exact .inr ⟨hroot, hnested.trans (drop_suffix _ _).isInfix⟩

theorem workspace_shared_iff_nested_notes :
    isWorkspacePath (.ofStr "/data") "b" "v" "/data/workspaces/a/u/notes" = false ∧
      isWorkspacePath (.ofStr "/data") "b" "v" "/data/workspaces/a/u/b/v" = true :=
  ⟨(workspace_shared_iff_nested (.ofStr "/data") "a" "u" "b" "v" "/data/workspaces/a/u/notes" (by decide) (by decide)
      (by decide)).1 (by decide),
    (workspace_shared_iff_nested (.ofStr "/data") "a" "u" "b" "v" "/data/workspaces/a/u/b/v" (by decide) (by decide)
      (by decide)).2 (by decide)⟩

theorem a_nested_workspace_is_shared :
    ¬∀ (dataRoot : PathBuf) (a1 u1 a2 u2 path : String), (∃ s, Component.normal s ∈ components dataRoot.text) →
      NormalName a1 → NormalName u1 → NormalName a2 → NormalName u2 → (a1, u1) ≠ (a2, u2) →
      InWorkspace dataRoot a1 u1 path → isWorkspacePath dataRoot a2 u2 path = false := by
  intro h
  have hfalse := h (.ofStr "/data") "a" "u" "b" "v" "/data/workspaces/a/u/b/v" ⟨"data", by decide⟩ (by decide) (by decide)
    (by decide) (by decide) (by decide) (by decide)
  have htrue : isWorkspacePath (.ofStr "/data") "b" "v" "/data/workspaces/a/u/b/v" = true :=
    (isWorkspacePath_iff (by decide) (by decide) (by decide)).mpr (.inr ⟨by decide, by decide⟩)
  rw [htrue] at hfalse
  cases hfalse

end CloseClaw.Permission
