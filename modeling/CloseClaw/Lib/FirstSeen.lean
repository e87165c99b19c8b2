/- The first element of each key, kept by a loop over the elements with the set of keys seen. -/

import Mathlib.Data.List.Nodup

namespace CloseClaw.Lib.FirstSeen

open List

variable {α κ : Type} [DecidableEq κ] {key : α → κ}

def dedup (key : α → κ) (seen : List κ) : List α → List α
  | [] => []
  | a :: as => if key a ∈ seen then dedup key seen as else a :: dedup key (key a :: seen) as

variable {seen : List κ} {as : List α} {a : α}

theorem dedup_sublist (seen : List κ) (as : List α) : (dedup key seen as).Sublist as := by
  fun_induction dedup key seen as with
  | case1 => exact .slnil
  | case2 seen a as hseen ih => exact ih.cons a
  | case3 seen a as hseen ih => exact ih.cons_cons a

theorem key_not_mem (h : a ∈ dedup key seen as) : key a ∉ seen := by
  fun_induction dedup key seen as with
  | case1 => cases h
  | case2 seen b as hseen ih => exact ih h
  | case3 seen b as hseen ih =>
    rcases mem_cons.mp h with rfl | h
    · exact hseen
    · exact fun hm => ih h (mem_cons_of_mem _ hm)

theorem nodup_dedup (seen : List κ) (as : List α) : ((dedup key seen as).map key).Nodup := by
  fun_induction dedup key seen as with
  | case1 => exact nodup_nil
  | case2 seen b as hseen ih => exact ih
  | case3 seen b as hseen ih =>
    refine nodup_cons.mpr ⟨fun hm => ?_, ih⟩
    obtain ⟨a, ha, hkey⟩ := mem_map.mp hm
    exact key_not_mem ha (hkey ▸ mem_cons_self)

theorem exists_mem_dedup (key : α → κ) (h : a ∈ as) (hs : key a ∉ seen) : ∃ d ∈ dedup key seen as, key d = key a := by
  fun_induction dedup key seen as with
  | case1 => cases h
  | case2 seen b as hseen ih =>
    rcases mem_cons.mp h with rfl | h
    · exact absurd hseen hs
    · exact ih h hs
  | case3 seen b as hseen ih =>
    by_cases hkey : key b = key a
    · exact ⟨b, mem_cons_self, hkey⟩
    · rcases mem_cons.mp h with rfl | h
      · exact absurd rfl hkey
      · obtain ⟨d, hd, hid⟩ := ih h fun hm => (mem_cons.mp hm).elim (fun e => hkey e.symm) hs
        exact ⟨d, mem_cons_of_mem _ hd, hid⟩

end CloseClaw.Lib.FirstSeen
