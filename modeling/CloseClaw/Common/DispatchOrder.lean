/- In which order a batch of tool calls runs. -/

import CloseClaw.Common.Dispatcher
import Mathlib.Data.List.Perm.Lattice

namespace CloseClaw.Common.Dispatcher

open Lib Lib.ForkJoin List Proc ToolCallDispatcher
open Lib.ForkJoin.Proc (Precedes)

variable {P : Type}

variable {calls : List (PendingToolCall P)}

theorem mem_callRefs {r : CallRef P} : r ∈ callRefs calls ↔ calls[r.index]? = some r.call := by
  obtain ⟨i, c⟩ := r
  simp only [callRefs, mem_mapIdx, CallRef.mk.injEq, List.getElem?_eq_some_iff]
  constructor
  · rintro ⟨j, hj, rfl, rfl⟩
    exact ⟨hj, rfl⟩
  · rintro ⟨hi, rfl⟩
    exact ⟨i, hi, rfl, rfl⟩

@[simp] theorem callRefs_index (calls : List (PendingToolCall P)) :
    (callRefs calls).map (·.index) = List.range calls.length := by
  apply ext_getElem
  · simp [callRefs]
  · intro i h₁ h₂
    simp [callRefs]

theorem pairwise_index {refs : List (CallRef P)} (h : refs.Sublist (callRefs calls)) :
    (refs.map (·.index)).Pairwise (· < ·) := by
  have hrange : (List.range calls.length).Pairwise (· < ·) := pairwise_lt_range
  rw [← callRefs_index] at hrange
  exact hrange.sublist (h.map _)

theorem pair_sublist {l : List Nat} {i j : Nat} (h : l.Pairwise (· < ·)) (hi : i ∈ l) (hj : j ∈ l) (hij : i < j) :
    [i, j].Sublist l := by
  induction l with
  | nil => cases hi
  | cons a l ih =>
    obtain ⟨hle, hl⟩ := pairwise_cons.mp h
    rcases mem_cons.mp hi with rfl | hil
    · rcases mem_cons.mp hj with rfl | hjl
      · omega
      · exact (singleton_sublist.mpr hjl).cons_cons _
    · rcases mem_cons.mp hj with rfl | hjl
      · have := hle i hil
        omega
      · exact (ih hl hil hjl).cons _

def ToolCallDispatcher.groupOf (d : ToolCallDispatcher) (providerSupportsParallel : Bool) (call : PendingToolCall P) :
    DispatchGroup :=
  if d.shouldFallbackToSerial providerSupportsParallel then .serial else d.classify call

theorem filterGroup_classified (d : ToolCallDispatcher) (calls : List (PendingToolCall P)) (provider : Bool)
    (group : DispatchGroup) :
    filterGroup (d.classified calls provider) group =
      (callRefs calls).filter fun r => d.groupOf provider r.call = group := by
  unfold filterGroup classified classifyCalls groupOf
  split <;> simp [filter_map, Function.comp_def]

theorem mutex_path (d : ToolCallDispatcher) (provider : Bool) {call : PendingToolCall P}
    (h : d.groupOf provider call = .mutexByFile) : call.filePath.isSome := by
  unfold groupOf classify at h
  split_ifs at h
  assumption

theorem groups_perm {α : Type} (f : α → DispatchGroup) (l : List α) :
    ((l.filter fun a => f a = .parallel) ++ ((l.filter fun a => f a = .mutexByFile) ++
      l.filter fun a => f a = .serial)).Perm l := by
  induction l with
  | nil => exact .refl _
  | cons a l ih =>
    cases hf : f a with
    | parallel => simpa [hf] using ih.cons a
    | mutexByFile => simpa [hf] using perm_middle.trans (ih.cons a)
    | serial =>
      simp only [hf, filter_cons, reduceCtorEq, decide_false, decide_true, Bool.false_eq_true, if_false, if_true]
      rw [← append_assoc] at ih ⊢
      exact perm_middle.trans (ih.cons a)

def InGroup (d : ToolCallDispatcher) (calls : List (PendingToolCall P)) (provider : Bool) (group : DispatchGroup)
    (i : Nat) : Prop :=
  ∃ call, calls[i]? = some call ∧ d.groupOf provider call = group

def ForPath (calls : List (PendingToolCall P)) (path : P) (i : Nat) : Prop :=
  ∃ call, calls[i]? = some call ∧ call.filePath = some path

theorem mem_group_index {d : ToolCallDispatcher} {provider : Bool} {group : DispatchGroup} {i : Nat} :
    i ∈ ((callRefs calls).filter fun r => d.groupOf provider r.call = group).map (·.index) ↔
      InGroup d calls provider group i := by
  simp only [mem_map, mem_filter, mem_callRefs, decide_eq_true_eq, InGroup]
  constructor
  · rintro ⟨r, ⟨hr, hg⟩, rfl⟩
    exact ⟨r.call, hr, hg⟩
  · rintro ⟨call, hc, hg⟩
    exact ⟨⟨i, call⟩, ⟨hc, hg⟩, rfl⟩

theorem inGroup_serial_of_fallback {d : ToolCallDispatcher} {provider : Bool} {i : Nat}
    (h : d.shouldFallbackToSerial provider = true) (hi : i < calls.length) : InGroup d calls provider .serial i :=
  ⟨calls[i], List.getElem?_eq_getElem hi, by simp [groupOf, h]⟩

/-! ## Files -/

variable [DecidableEq P]

def filedUnder (byFile : List (P × List (CallRef P))) (path : P) : List (CallRef P) :=
  ((byFile.find? fun f => f.1 = path).map (·.2)).getD []

theorem filedUnder_pushTo (byFile : List (P × List (CallRef P))) (path q : P) (c : CallRef P) :
    filedUnder (pushTo path c byFile) q = if path = q then filedUnder byFile q ++ [c] else filedUnder byFile q := by
  induction byFile with
  | nil => by_cases h : path = q <;> simp [pushTo, filedUnder, h]
  | cons f rest ih =>
    obtain ⟨p, calls⟩ := f
    unfold filedUnder at ih ⊢
    by_cases hp : p = path <;> by_cases hq : p = q
    · subst hp; subst hq; simp [pushTo]
    · subst hp; simp [pushTo, hq]
    · subst hq; simp [pushTo, hp, Ne.symm hp]
    · simp [pushTo, hp, hq, ih]

theorem pushTo_flatMap (path : P) (c : CallRef P) (byFile : List (P × List (CallRef P))) :
    ((pushTo path c byFile).flatMap (·.2)).Perm (byFile.flatMap (·.2) ++ [c]) := by
  induction byFile with
  | nil => exact .refl _
  | cons f rest ih =>
    obtain ⟨p, calls⟩ := f
    by_cases hp : p = path
    · simp only [pushTo, hp, if_true, flatMap_cons, append_assoc]
      exact List.Perm.append_left _ perm_append_comm
    · simp only [pushTo, hp, if_false, flatMap_cons, append_assoc]
      exact ih.append_left _

theorem filedUnder_groupByFile (calls : List (CallRef P)) (path : P) :
    filedUnder (groupByFile calls) path = calls.filter fun c => c.call.filePath = some path := by
  suffices h : ∀ byFile, filedUnder (calls.foldl fileCall byFile) path =
      filedUnder byFile path ++ calls.filter fun c => c.call.filePath = some path by
    exact h []
  induction calls with
  | nil => intro byFile; simp
  | cons c calls ih =>
    intro byFile
    rw [foldl_cons, ih]
    cases hc : c.call.filePath with
    | none => simp [fileCall, hc]
    | some q => by_cases hq : q = path <;> simp [fileCall, hc, filedUnder_pushTo, hq]

theorem groupByFile_perm {calls : List (CallRef P)} (h : ∀ c ∈ calls, c.call.filePath.isSome) :
    ((groupByFile calls).flatMap (·.2)).Perm calls := by
  suffices h : ∀ byFile, ((calls.foldl fileCall byFile).flatMap (·.2)).Perm (byFile.flatMap (·.2) ++ calls) by
    exact h []
  induction calls with
  | nil => intro byFile; simp
  | cons c calls ih =>
    intro byFile
    obtain ⟨path, hc⟩ := Option.isSome_iff_exists.mp (h c (by simp))
    rw [foldl_cons]
    refine (ih (fun c hc => h c (by simp [hc])) _).trans ?_
    simpa [fileCall, hc] using (pushTo_flatMap path c byFile).append_right calls

theorem mem_groupByFile {calls : List (CallRef P)} {c : CallRef P} {path : P} (hc : c ∈ calls)
    (hpath : c.call.filePath = some path) :
    (path, calls.filter fun c => c.call.filePath = some path) ∈ groupByFile calls := by
  have hfiled := filedUnder_groupByFile calls path
  have hmem : c ∈ calls.filter fun c => c.call.filePath = some path := by simp [hc, hpath]
  unfold filedUnder at hfiled
  cases hf : (groupByFile calls).find? fun f => f.1 = path with
  | none =>
    rw [hf] at hfiled
    simp [← hfiled] at hmem
  | some f =>
    obtain ⟨p, filed⟩ := f
    rw [hf] at hfiled
    have hp : p = path := by simpa using List.find?_some hf
    have hin := List.mem_of_find?_eq_some hf
    rw [hp, show filed = _ from hfiled] at hin
    exact hin

/-! ## The body of a batch -/

def Batch.order (b : Batch P) (files : List (P × List (CallRef P))) : List (CallRef P) :=
  b.ordered ++ (b.remaining ++ (files.flatMap (·.2) ++ b.serial))

section Schedules

variable (d : ToolCallDispatcher) (calls : List (PendingToolCall P)) (provider : Bool)

theorem batch_mutex :
    (d.batch calls provider).mutex = (callRefs calls).filter fun r => d.groupOf provider r.call = .mutexByFile :=
  filterGroup_classified d calls provider .mutexByFile

theorem batch_serial :
    (d.batch calls provider).serial = (callRefs calls).filter fun r => d.groupOf provider r.call = .serial :=
  filterGroup_classified d calls provider .serial

theorem batch_parallel_perm : ((d.batch calls provider).ordered ++ (d.batch calls provider).remaining).Perm
    ((callRefs calls).filter fun r => d.groupOf provider r.call = .parallel) := by
  rw [← filterGroup_classified]
  simp only [batch, reorderReadEdit, partition_eq_filter_filter]
  exact filter_append_perm _ _

variable {R : Type} {d calls provider} (s : Schedule R (d.batch calls provider))

theorem files_flatMap_perm : (s.files.flatMap (·.2)).Perm (d.batch calls provider).mutex := by
  refine (s.files_perm.flatMap_right _).trans (groupByFile_perm ?_)
  intro c hc
  rw [batch_mutex] at hc
  exact mutex_path d provider (by simpa using (mem_filter.mp hc).2)

theorem order_perm : ((d.batch calls provider).order s.files).Perm (callRefs calls) := by
  unfold Batch.order
  rw [← append_assoc]
  refine .trans ?_ (groups_perm (fun r => d.groupOf provider r.call) (callRefs calls))
  rw [← batch_mutex, ← batch_serial]
  exact (batch_parallel_perm d calls provider).append ((files_flatMap_perm s).append_right _)

theorem body_jobs : ((d.batch calls provider).body s.files).jobs =
    ((d.batch calls provider).order s.files).map (·.index) := by
  simp [Batch.body, Batch.order, jobs, flatMap_map, map_flatMap, ← map_eq_flatMap]

theorem body_waiting :
    ((d.batch calls provider).body s.files).waiting = ((d.batch calls provider).body s.files).jobs := by
  simp [Batch.body, jobs, waiting, flatMap_map]

theorem body_jobs_perm : ((d.batch calls provider).body s.files).jobs.Perm (List.range calls.length) := by
  rw [body_jobs, ← callRefs_index]
  exact (order_perm s).map _

theorem body_nodup : ((d.batch calls provider).body s.files).jobs.Nodup := (body_jobs_perm s).nodup_iff.mpr nodup_range

end Schedules

/-! ## The order of execution -/

structure OrderingDiscipline {R : Type} (d : ToolCallDispatcher) (calls : List (PendingToolCall P)) (provider : Bool)
    (log : List (Event Nat R)) (rest : Proc Nat) : Prop where
  started_at_most_once : (log.filterMap Event.startedJob).Nodup
  finished_at_most_once : (log.filterMap Event.finishedJob).Nodup
  started_when_complete : rest.complete = true → ∀ i, i ∈ log.filterMap Event.startedJob ↔ i < calls.length
  finished_when_complete : rest.complete = true → ∀ i, i ∈ log.filterMap Event.finishedJob ↔ i < calls.length
  fallback_in_order : d.shouldFallbackToSerial provider = true → ∀ i j, i < j → j < calls.length → Precedes log i j
  parallel_before_mutex : ∀ i j, InGroup d calls provider .parallel i → InGroup d calls provider .mutexByFile j →
    Precedes log i j
  same_file_in_order : ∀ path i j, InGroup d calls provider .mutexByFile i → InGroup d calls provider .mutexByFile j →
    ForPath calls path i → ForPath calls path j → i < j → Precedes log i j
  serial_last : ∀ i j, i < calls.length → ¬ InGroup d calls provider .serial i → InGroup d calls provider .serial j →
    Precedes log i j
  serial_in_order : ∀ i j, InGroup d calls provider .serial i → InGroup d calls provider .serial j → i < j →
    Precedes log i j

section Order

variable {d : ToolCallDispatcher} {calls : List (PendingToolCall P)} {provider : Bool} {R : Type} {i j : Nat}
  (s : Schedule R (d.batch calls provider))

theorem parallel_mem (hi : InGroup d calls provider .parallel i) :
    i ∈ (d.batch calls provider).ordered.map (·.index) ∨ i ∈ (d.batch calls provider).remaining.map (·.index) := by
  rw [← mem_group_index] at hi
  have hperm := (batch_parallel_perm d calls provider).map (·.index)
  rw [map_append] at hperm
  exact mem_append.mp (hperm.mem_iff.mpr hi)

theorem mutex_mem (hi : InGroup d calls provider .mutexByFile i) :
    i ∈ (joinAll (s.files.map fun f => .inOrder (f.2.map (·.index)))).jobs := by
  rw [← mem_group_index, ← batch_mutex] at hi
  have hmem := ((files_flatMap_perm s).map (·.index)).mem_iff.mpr hi
  simpa [flatMap_map, map_flatMap] using hmem

theorem serial_mem (hi : InGroup d calls provider .serial i) :
    i ∈ (inOrder ((d.batch calls provider).serial.map (·.index))).jobs := by
  rw [← mem_group_index, ← batch_serial] at hi
  simpa using hi

theorem parallel_before (hi : InGroup d calls provider .parallel i)
    (hj : InGroup d calls provider .mutexByFile j ∨ InGroup d calls provider .serial j) :
    ((d.batch calls provider).body s.files).Before i j := by
  have hlater : j ∈ (seq (joinAll (s.files.map fun f => .inOrder (f.2.map (·.index))))
      (.inOrder ((d.batch calls provider).serial.map (·.index)))).jobs := by
    rw [jobs, mem_append]
    exact hj.imp (mutex_mem s) serial_mem
  rcases parallel_mem hi with hi | hi
  · refine .inl ⟨by simpa [flatMap_map, ← map_eq_flatMap, jobs] using hi, ?_⟩
    rw [jobs, mem_append]
    exact .inr hlater
  · exact .inr (.inr (.inl ⟨by simpa [flatMap_map, ← map_eq_flatMap, jobs] using hi, hlater⟩))

theorem mutex_before_serial (hi : InGroup d calls provider .mutexByFile i) (hj : InGroup d calls provider .serial j) :
    ((d.batch calls provider).body s.files).Before i j :=
  .inr (.inr (.inr (.inr (.inl ⟨mutex_mem s hi, serial_mem hj⟩))))

theorem mutex_before_mutex {path : P} (hi : InGroup d calls provider .mutexByFile i)
    (hj : InGroup d calls provider .mutexByFile j) (hpi : ForPath calls path i) (hpj : ForPath calls path j)
    (hij : i < j) : ((d.batch calls provider).body s.files).Before i j := by
  obtain ⟨a, ha, hga⟩ := hi
  obtain ⟨b, hb, hgb⟩ := hj
  obtain ⟨a', ha', hpa⟩ := hpi
  obtain ⟨b', hb', hpb⟩ := hpj
  obtain rfl : a = a' := Option.some.inj (ha.symm.trans ha')
  obtain rfl : b = b' := Option.some.inj (hb.symm.trans hb')
  have hma : (⟨i, a⟩ : CallRef P) ∈ (d.batch calls provider).mutex := by
    simp [batch_mutex, mem_callRefs, ha, hga]
  have hmb : (⟨j, b⟩ : CallRef P) ∈ (d.batch calls provider).mutex := by
    simp [batch_mutex, mem_callRefs, hb, hgb]
  set filed := (d.batch calls provider).mutex.filter fun c => c.call.filePath = some path with hfiled
  have hfile : (path, filed) ∈ s.files := s.files_perm.mem_iff.mpr (mem_groupByFile hma hpa)
  have hsub : filed.Sublist (callRefs calls) := by
    rw [hfiled, batch_mutex]
    exact filter_sublist.trans filter_sublist
  have hi : i ∈ filed.map (·.index) := mem_map.mpr ⟨⟨i, a⟩, by simp [hfiled, hma, hpa], rfl⟩
  have hj : j ∈ filed.map (·.index) := mem_map.mpr ⟨⟨j, b⟩, by simp [hfiled, hmb, hpb], rfl⟩
  have hlane : (inOrder (filed.map (·.index))).Before i j :=
    before_inOrder (pair_sublist (pairwise_index hsub) hi hj hij)
  have hin : inOrder (filed.map (·.index)) ∈ s.files.map fun f => .inOrder (f.2.map (·.index)) :=
    mem_map.mpr ⟨(path, filed), hfile, rfl⟩
  exact .inr (.inr (.inr (.inr (.inr (.inl (before_joinAll hin hlane))))))

theorem serial_before_serial (hi : InGroup d calls provider .serial i) (hj : InGroup d calls provider .serial j)
    (hij : i < j) : ((d.batch calls provider).body s.files).Before i j := by
  have hsub : ((callRefs calls).filter fun r => d.groupOf provider r.call = .serial).Sublist (callRefs calls) :=
    filter_sublist
  rw [← mem_group_index] at hi hj
  refine .inr (.inr (.inr (.inr (.inr (.inr ?_)))))
  rw [batch_serial]
  exact before_inOrder (pair_sublist (pairwise_index hsub) hi hj hij)

theorem finished_perm : (List.range calls.length).Perm (s.log.filterMap Event.finishedJob ++ s.rest.jobs) :=
  (body_jobs_perm s).symm.trans (run_finished_perm s.run)

theorem started_perm : (List.range calls.length).Perm (s.log.filterMap Event.startedJob ++ s.rest.waiting) := by
  have h := run_started_perm s.run
  rw [body_waiting] at h
  exact (body_jobs_perm s).symm.trans h

theorem waiting_of_complete {p : Proc Nat} (h : p.complete = true) : p.waiting = [] := by
  have hle := waiting_length_le p
  rw [complete_iff.mp h] at hle
  exact eq_nil_of_length_eq_zero (by simpa using hle)

theorem finished_perm_of_complete (h : s.rest.complete = true) :
    (List.range calls.length).Perm (s.log.filterMap Event.finishedJob) := by
  have hperm := finished_perm s
  rwa [complete_iff.mp h, append_nil] at hperm

theorem started_perm_of_complete (h : s.rest.complete = true) :
    (List.range calls.length).Perm (s.log.filterMap Event.startedJob) := by
  have hperm := started_perm s
  rwa [waiting_of_complete h, append_nil] at hperm

end Order

theorem dispatch_ordering {R : Type} (d : ToolCallDispatcher) (calls : List (PendingToolCall P)) (provider : Bool)
    (s : Schedule R (d.batch calls provider)) : OrderingDiscipline d calls provider s.log s.rest where
  started_at_most_once :=
    (nodup_append.mp ((started_perm s).nodup_iff.mp nodup_range)).1
  finished_at_most_once :=
    (nodup_append.mp ((finished_perm s).nodup_iff.mp nodup_range)).1
  started_when_complete := by
    intro h i
    rw [← (started_perm_of_complete s h).mem_iff, mem_range]
  finished_when_complete := by
    intro h i
    rw [← (finished_perm_of_complete s h).mem_iff, mem_range]
  fallback_in_order := by
    intro h i j hij hj
    exact run_precedes s.run (body_nodup s) (serial_before_serial s
      (inGroup_serial_of_fallback h (by omega)) (inGroup_serial_of_fallback h hj) hij)
  parallel_before_mutex := by
    intro i j hi hj
    exact run_precedes s.run (body_nodup s) (parallel_before s hi (.inl hj))
  same_file_in_order := by
    intro path i j hi hj hpi hpj hij
    exact run_precedes s.run (body_nodup s) (mutex_before_mutex s hi hj hpi hpj hij)
  serial_last := by
    intro i j hi hserial hj
    refine run_precedes s.run (body_nodup s) ?_
    cases hgroup : d.groupOf provider calls[i] with
    | parallel => exact parallel_before s ⟨_, List.getElem?_eq_getElem hi, hgroup⟩ (.inr hj)
    | mutexByFile => exact mutex_before_serial s ⟨_, List.getElem?_eq_getElem hi, hgroup⟩ hj
    | serial => exact absurd ⟨_, List.getElem?_eq_getElem hi, hgroup⟩ hserial
  serial_in_order := by
    intro i j hi hj hij
    exact run_precedes s.run (body_nodup s) (serial_before_serial s hi hj hij)

end CloseClaw.Common.Dispatcher
