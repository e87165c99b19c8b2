/- One mutex per file (`file_mutex.rs`). Lookup and lock, and the two halves of a cleanup, are
   steps of their own. -/

import CloseClaw.Lib.RustPath
import CloseClaw.Lib.Trace
import Mathlib.Data.List.Nodup
import Mathlib.Logic.Function.Basic

namespace CloseClaw.Common.FileMutex

open Lib List Function

inductive Task (P : Type) where
  | waiting (blocking : Bool) (path key : P) (mutex : Nat)
  | holding (path key : P) (mutex : Nat)
  | checked (key : P)
  | done
  deriving DecidableEq

namespace Task

variable {P : Type}

def clone : Task P → Option (P × Nat)
  | waiting _ _ key m => some (key, m)
  | holding _ key m => some (key, m)
  | checked _ => none
  | done => none

def guard : Task P → Option (P × Nat)
  | waiting _ _ _ _ => none
  | holding _ key m => some (key, m)
  | checked _ => none
  | done => none

def guardPath : Task P → Option P
  | waiting _ _ _ _ => none
  | holding path _ _ => some path
  | checked _ => none
  | done => none

theorem clone_of_guard {t : Task P} {k : P} {m : Nat} (h : t.guard = some (k, m)) : t.clone = some (k, m) := by
  cases t <;> simp_all [guard, clone]

end Task

structure FileMutexMap (P : Type) where
  canonicalize : P → Option P
  inner : P → Option Nat
  next : Nat
  tasks : List (Task P)

inductive Event (P : Type) where
  | changeFs (canonicalize : P → Option P)
  | acquire (path : P)
  | tryAcquire (path : P)
  | lock (task : Nat)
  | tryLock (task : Nat)
  | cancel (task : Nat)
  | release (task : Nat)
  | cleanup (path : P)
  | remove (task : Nat)

namespace FileMutexMap

variable {P : Type}

def new (canonicalize : P → Option P) : FileMutexMap P :=
  { canonicalize, inner := fun _ => none, next := 0, tasks := [] }

def canonicalizeOrClone (s : FileMutexMap P) (path : P) : P := (s.canonicalize path).getD path

def locked (s : FileMutexMap P) (m : Nat) : Bool := s.tasks.any fun t => t.guard.any fun g => g.2 = m

def strongCount (s : FileMutexMap P) (m : Nat) : Nat := 1 + s.tasks.countP fun t => t.clone.any fun c => c.2 = m

section Step

variable [DecidableEq P]

def lookup (s : FileMutexMap P) (blocking : Bool) (path : P) : FileMutexMap P :=
  let key := s.canonicalizeOrClone path
  match s.inner key with
  | some m => { s with tasks := s.tasks ++ [.waiting blocking path key m] }
  | none =>
    { s with
      inner := Function.update s.inner key (some s.next)
      next := s.next + 1
      tasks := s.tasks ++ [.waiting blocking path key s.next] }

def step (s : FileMutexMap P) : Event P → FileMutexMap P
  | .changeFs canonicalize => { s with canonicalize }
  | .acquire path => s.lookup true path
  | .tryAcquire path => s.lookup false path
  | .lock i =>
    match s.tasks[i]? with
    | some (.waiting true path key m) =>
      if s.locked m then s else { s with tasks := s.tasks.set i (.holding path key m) }
    | _ => s
  | .tryLock i =>
    match s.tasks[i]? with
    | some (.waiting false path key m) =>
      { s with tasks := s.tasks.set i (if s.locked m then .done else .holding path key m) }
    | _ => s
  | .cancel i =>
    match s.tasks[i]? with
    | some (.waiting true _ _ _) => { s with tasks := s.tasks.set i .done }
    | _ => s
  | .release i =>
    match s.tasks[i]? with
    | some (.holding _ _ _) => { s with tasks := s.tasks.set i .done }
    | _ => s
  | .cleanup path =>
    let key := s.canonicalizeOrClone path
    match s.inner key with
    | some m => if s.strongCount m = 1 then { s with tasks := s.tasks ++ [.checked key] } else s
    | none => s
  | .remove i =>
    match s.tasks[i]? with
    | some (.checked key) => { s with inner := Function.update s.inner key none, tasks := s.tasks.set i .done }
    | _ => s

end Step

def guards (s : FileMutexMap P) : List (P × Nat) := s.tasks.filterMap Task.guard

def OneGuardPerKey (s : FileMutexMap P) : Prop := (s.guards.map (·.1)).Nodup

/-- A lookup does not take the key of a cleanup that stands before its removal. -/
def LookupOutsideCleanup (s : FileMutexMap P) : Event P → Prop
  | .acquire path => Task.checked (s.canonicalizeOrClone path) ∉ s.tasks
  | .tryAcquire path => Task.checked (s.canonicalizeOrClone path) ∉ s.tasks
  | _ => True

instance LookupOutsideCleanup.decidable [DecidableEq P] (s : FileMutexMap P) (e : Event P) :
    Decidable (s.LookupOutsideCleanup e) := by
  cases e <;> unfold LookupOutsideCleanup <;> infer_instance

structure Inv (s : FileMutexMap P) : Prop where
  keyed : ∀ t ∈ s.tasks, ∀ k m, t.clone = some (k, m) → s.inner k = some m
  allocated : ∀ k m, s.inner k = some m → m < s.next
  exclusive : (s.guards.map (·.2)).Nodup
  unused : ∀ t ∈ s.tasks, ∀ k m, t.clone = some (k, m) → Task.checked k ∉ s.tasks

theorem Inv.new (canonicalize : P → Option P) : Inv (FileMutexMap.new canonicalize) where
  keyed := by simp [FileMutexMap.new]
  allocated := by simp [FileMutexMap.new]
  exclusive := by simp [FileMutexMap.new, guards]
  unused := by simp [FileMutexMap.new]

variable {s : FileMutexMap P} {m : Nat}

variable {k : P} {i : Nat} {t : Task P}

theorem mem_guards : (k, m) ∈ s.guards ↔ ∃ t ∈ s.tasks, t.guard = some (k, m) := mem_filterMap

theorem Inv.guard_keyed (h : Inv s) (hg : (k, m) ∈ s.guards) : s.inner k = some m := by
  obtain ⟨t, ht, hg⟩ := mem_guards.mp hg
  exact h.keyed t ht k m (Task.clone_of_guard hg)

theorem Inv.oneGuardPerKey (h : Inv s) : OneGuardPerKey s := by
  have hmap : (s.guards.map (·.1)).map s.inner = (s.guards.map (·.2)).map some := by
    rw [map_map, map_map]
    refine map_congr_left ?_
    rintro ⟨k, m⟩ hg
    exact h.guard_keyed hg
  have hnodup : ((s.guards.map (·.1)).map s.inner).Nodup := by
    rw [hmap]
    exact h.exclusive.map (fun _ _ h => Option.some.inj h)
  exact List.Nodup.of_map _ hnodup

theorem locked_iff : s.locked m = true ↔ m ∈ s.guards.map (·.2) := by
  simp only [locked, any_eq_true, mem_map]
  constructor
  · rintro ⟨t, ht, hany⟩
    cases hg : t.guard with
    | none => simp [hg] at hany
    | some g => exact ⟨g, mem_guards.mpr ⟨t, ht, hg⟩, by simpa [hg] using hany⟩
  · rintro ⟨g, hg, rfl⟩
    obtain ⟨t, ht, hg⟩ := mem_guards.mp hg
    exact ⟨t, ht, by simp [hg]⟩

theorem split_task (h : s.tasks[i]? = some t) :
    ∃ before after, s.tasks = before ++ t :: after ∧ ∀ u, s.tasks.set i u = before ++ u :: after := by
  obtain ⟨hi, rfl⟩ := List.getElem?_eq_some_iff.mp h
  refine ⟨s.tasks.take i, s.tasks.drop (i + 1), ?_, ?_⟩
  · simp
  · intro u
    rw [set_eq_take_append_cons_drop, if_pos hi]

theorem Inv.set (h : Inv s) {i : Nat} {t u : Task P} (ht : s.tasks[i]? = some t)
    (hclone : ∀ k m, u.clone = some (k, m) → t.clone = some (k, m))
    (hguard : ∀ k m, u.guard = some (k, m) → s.locked m = false) (hchecked : ∀ k, u ≠ .checked k) :
    Inv { s with tasks := s.tasks.set i u } := by
  obtain ⟨before, after, htasks, hset⟩ := split_task ht
  have hmem : ∀ v ∈ s.tasks.set i u, ∀ k m, v.clone = some (k, m) → ∃ w ∈ s.tasks, w.clone = some (k, m) := by
    intro v hv k m hc
    rw [hset] at hv
    rw [htasks]
    rcases mem_append.mp hv with hv | hv
    · exact ⟨v, by simp [hv], hc⟩
    rcases mem_cons.mp hv with rfl | hv
    · exact ⟨t, by simp, hclone k m hc⟩
    · exact ⟨v, by simp [hv], hc⟩
  refine ⟨?_, h.allocated, ?_, ?_⟩
  · intro v hv k m hc
    obtain ⟨w, hw, hc⟩ := hmem v hv k m hc
    exact h.keyed w hw k m hc
  · have hold : (((before ++ after).filterMap Task.guard).map (·.2)).Sublist (s.guards.map (·.2)) := by
      unfold guards
      rw [htasks]
      exact ((List.Sublist.append_left (sublist_cons_self t after) before).filterMap _).map _
    simp only [guards, hset]
    cases hg : u.guard with
    | none => simpa [hg] using h.exclusive.sublist hold
    | some g =>
      obtain ⟨k, m⟩ := g
      have hfree : m ∉ s.guards.map (·.2) := by
        intro hm
        rw [← locked_iff, hguard k m hg] at hm
        cases hm
      rw [filterMap_append, filterMap_cons_some hg, map_append, map_cons, nodup_middle,
        ← map_append, ← filterMap_append, nodup_cons]
      exact ⟨fun hm => hfree (hold.subset hm), h.exclusive.sublist hold⟩
  · intro v hv k m hc hchk
    obtain ⟨w, hw, hc⟩ := hmem v hv k m hc
    refine h.unused w hw k m hc ?_
    simp only [hset] at hchk
    rw [htasks]
    rcases mem_append.mp hchk with hchk | hchk
    · exact mem_append.mpr (.inl hchk)
    rcases mem_cons.mp hchk with hchk | hchk
    · exact absurd hchk.symm (hchecked k)
    · exact mem_append.mpr (.inr (mem_cons_of_mem _ hchk))

theorem Inv.hold (h : Inv s) {blocking : Bool} {path key : P}
    (ht : s.tasks[i]? = some (.waiting blocking path key m)) (hfree : ¬ s.locked m = true) :
    Inv { s with tasks := s.tasks.set i (.holding path key m) } := by
  refine h.set ht (by simp [Task.clone]) ?_ (by simp)
  intro k n hg
  simp only [Task.guard, Option.some.injEq, Prod.mk.injEq] at hg
  rw [← hg.2]
  simpa using hfree

theorem Inv.finish (h : Inv s) (ht : s.tasks[i]? = some t) : Inv { s with tasks := s.tasks.set i .done } :=
  h.set ht (by simp [Task.clone]) (by simp [Task.guard]) (by simp)

theorem Inv.join (h : Inv s) {inner : P → Option Nat} {next : Nat} {key : P} (blocking : Bool)
    (path : P) (hkey : inner key = some m) (hkeep : ∀ k n, s.inner k = some n → inner k = some n)
    (halloc : ∀ k n, inner k = some n → n < next) (hout : Task.checked key ∉ s.tasks) :
    Inv { s with inner, next, tasks := s.tasks ++ [.waiting blocking path key m] } where
  keyed := by
    intro t ht k n hc
    rcases mem_append.mp ht with ht | ht
    · exact hkeep k n (h.keyed t ht k n hc)
    · obtain rfl := mem_singleton.mp ht
      obtain ⟨rfl, rfl⟩ : key = k ∧ m = n := by simpa [Task.clone] using hc
      exact hkey
  allocated := halloc
  exclusive := by simpa [guards, filterMap_cons, Task.guard] using h.exclusive
  unused := by
    intro t ht k n hc hchk
    have hchk : Task.checked k ∈ s.tasks := by simpa using hchk
    rcases mem_append.mp ht with ht | ht
    · exact h.unused t ht k n hc hchk
    · obtain rfl := mem_singleton.mp ht
      obtain ⟨rfl, rfl⟩ : key = k ∧ m = n := by simpa [Task.clone] using hc
      exact hout hchk

theorem Inv.cleanup (h : Inv s) {key : P} (hkey : s.inner key = some m)
    (hcount : s.strongCount m = 1) : Inv { s with tasks := s.tasks ++ [.checked key] } where
  keyed := by
    intro t ht k n hc
    rcases mem_append.mp ht with ht | ht
    · exact h.keyed t ht k n hc
    · obtain rfl := mem_singleton.mp ht
      cases hc
  allocated := h.allocated
  exclusive := by simpa [guards, filterMap_cons, Task.guard] using h.exclusive
  unused := by
    intro t ht k n hc hchk
    rcases mem_append.mp ht with hmem | hmem
    · rcases mem_append.mp hchk with hchk | hchk
      · exact h.unused t hmem k n hc hchk
      · -- a clone under `key` is a clone of `m`, and the strong count leaves none
        obtain rfl : k = key := by simpa using hchk
        obtain rfl : n = m := Option.some.inj ((h.keyed t hmem k n hc).symm.trans hkey)
        have hzero : (s.tasks.countP fun t => t.clone.any fun c => c.2 = n) = 0 := by
          unfold strongCount at hcount
          omega
        exact countP_eq_zero.mp hzero t hmem (by simp [hc])
    · obtain rfl := mem_singleton.mp hmem
      cases hc

section Step

variable [DecidableEq P]

variable {s : FileMutexMap P}

theorem Inv.lookup (h : Inv s) (blocking : Bool) (path : P)
    (hout : Task.checked (s.canonicalizeOrClone path) ∉ s.tasks) : Inv (s.lookup blocking path) := by
  unfold FileMutexMap.lookup
  dsimp only
  split
  next m hkey => exact h.join blocking path hkey (fun k n hk => hk) h.allocated hout
  next hnone =>
    refine h.join blocking path (update_self ..) ?_ ?_ hout
    · intro k n hk
      have hne : k ≠ s.canonicalizeOrClone path := by
        rintro rfl
        rw [hnone] at hk
        cases hk
      rw [update_of_ne hne, hk]
    · intro k n hk
      by_cases he : k = s.canonicalizeOrClone path
      · rw [he, update_self] at hk
        obtain rfl := Option.some.inj hk
        omega
      · rw [update_of_ne he] at hk
        have := h.allocated k n hk
        omega

theorem Inv.remove (h : Inv s) {i : Nat} {key : P} (ht : s.tasks[i]? = some (.checked key)) :
    Inv { s with inner := Function.update s.inner key none, tasks := s.tasks.set i .done } := by
  have hset := h.finish ht
  refine ⟨?_, ?_, hset.exclusive, hset.unused⟩
  · intro t hmem k m hc
    have hne : k ≠ key := by
      rintro rfl
      rcases mem_or_eq_of_mem_set hmem with hmem | rfl
      · exact h.unused t hmem k m hc (List.mem_of_getElem? ht)
      · cases hc
    show Function.update s.inner key none k = some m
    rw [update_of_ne hne]
    exact hset.keyed t hmem k m hc
  · intro k m hk
    by_cases he : k = key
    · simp [he] at hk
    · simp only [update_of_ne he] at hk
      exact h.allocated k m hk

theorem Inv.step (h : Inv s) (e : Event P) (hout : s.LookupOutsideCleanup e) : Inv (s.step e) := by
  cases e with
  | changeFs => exact ⟨h.keyed, h.allocated, h.exclusive, h.unused⟩
  | acquire path => exact h.lookup true path hout
  | tryAcquire path => exact h.lookup false path hout
  | lock =>
    unfold FileMutexMap.step
    dsimp only
    split
    next path key m ht =>
      split
      · exact h
      next hfree => exact h.hold ht hfree
    · exact h
  | tryLock =>
    unfold FileMutexMap.step
    dsimp only
    split
    next path key m ht =>
      by_cases hfree : s.locked m = true
      · rw [if_pos hfree]
        exact h.finish ht
      · rw [if_neg hfree]
        exact h.hold ht hfree
    · exact h
  | cancel | release =>
    unfold FileMutexMap.step
    dsimp only
    split
    next path key m ht => exact h.finish ht
    · exact h
  | cleanup =>
    unfold FileMutexMap.step
    dsimp only
    split
    next m hkey =>
      split
      next hcount => exact h.cleanup hkey hcount
      · exact h
    · exact h
  | remove =>
    unfold FileMutexMap.step
    dsimp only
    split
    next key ht => exact h.remove ht
    · exact h

theorem one_guard_per_key (canonicalize : P → Option P) (events : List (Event P))
    (h : Trace.Along step LookupOutsideCleanup (.new canonicalize) events) :
    OneGuardPerKey (Trace.run step (.new canonicalize) events) :=
  (Trace.invariant_along (fun _ e hinv hout => hinv.step e hout) (Inv.new canonicalize) h).oneGuardPerKey

end Step

abbrev Components := List RustPath.Component

def handover : List (Event Components) :=
  let path := RustPath.components "/w/a.txt"
  [.acquire path, .lock 0, .acquire path, .lock 1, .cleanup path, .release 0, .lock 1, .release 1, .cleanup path,
    .remove 2, .tryAcquire path, .tryLock 3]

theorem one_guard_after_handover : OneGuardPerKey (Trace.run step (.new some) handover) :=
  one_guard_per_key some handover (by decide)

def OneGuardPerFile (s : FileMutexMap P) : Prop :=
  ((s.tasks.filterMap Task.guardPath).filterMap s.canonicalize).Nodup

instance OneGuardPerFile.decidable [DecidableEq P] (s : FileMutexMap P) : Decidable s.OneGuardPerFile :=
  inferInstanceAs (Decidable (List.Nodup _))

def createdWhileHeld : List (Event Components) :=
  let path := RustPath.components "/w/a.txt"
  let other := RustPath.components "/w/d/../a.txt"
  [.acquire path, .lock 0, .acquire other, .lock 1,
    .changeFs fun p => if p = path ∨ p = other then some path else none]

theorem spellings_lock_apart : ¬ OneGuardPerFile (Trace.run step (.new fun _ => none) createdWhileHeld) := by
  decide

end FileMutexMap

end CloseClaw.Common.FileMutex
