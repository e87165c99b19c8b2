/- What a batch of tool calls returns, filed by call id. -/

import CloseClaw.Common.DispatchOrder
import CloseClaw.Lib.KeyedFold

namespace CloseClaw.Common.Dispatcher

open Lib Lib.ForkJoin List

variable {P R : Type}

theorem expectAll_eq_some {results : List (Option R)} {rs : List R} :
    expectAll results = some rs ↔ results = rs.map some := by
  induction results generalizing rs with
  | nil => cases rs <;> simp [expectAll]
  | cons r results ih =>
    cases r with
    | none => cases rs <;> simp [expectAll]
    | some => cases rs <;> simp [expectAll, ih, and_comm]

theorem expectAll_isSome {results : List (Option R)} (h : ∀ r ∈ results, r.isSome) : (expectAll results).isSome := by
  induction results with
  | nil => rfl
  | cons r results ih =>
    obtain ⟨res, rfl⟩ := Option.isSome_iff_exists.mp (h r (by simp))
    simpa [expectAll] using ih fun r hr => h r (by simp [hr])

variable {calls : List (PendingToolCall P)}

theorem fillResults_append (results : List (Option R)) (a b : List (String × R)) :
    fillResults calls (fillResults calls results a) b = fillResults calls results (a ++ b) := by
  simp [fillResults]

variable (log : List (Event Nat R))

theorem executed_append (a b : List (CallRef P)) : executed log (a ++ b) = executed log a ++ executed log b := by
  simp [executed]

theorem idToIndex_eq_some {id : String} {i : Nat} (h : idToIndex calls id = some i) :
    (∃ call, calls[i]? = some call ∧ call.id = id) ∧ ∀ j call, calls[j]? = some call → call.id = id → j ≤ i := by
  obtain ⟨r, hlast, rfl⟩ := Option.map_eq_some_iff.mp h
  have hr := mem_filter.mp (List.mem_of_getLast? hlast)
  refine ⟨⟨r.call, mem_callRefs.mp hr.1, by simpa using hr.2⟩, ?_⟩
  intro j call hj hid
  have hmem : (⟨j, call⟩ : CallRef P) ∈ (callRefs calls).filter fun c => c.call.id = id := by
    simp [mem_callRefs, hj, hid]
  have hsorted := pairwise_index (filter_sublist (l := callRefs calls) (p := fun c => c.call.id = id))
  obtain ⟨front, hfront⟩ := List.getLast?_eq_some_iff.mp hlast
  rw [hfront] at hmem hsorted
  rw [map_append, pairwise_append] at hsorted
  rcases mem_append.mp hmem with hmem | hmem
  · exact Nat.le_of_lt (hsorted.2.2 j (mem_map.mpr ⟨_, hmem, rfl⟩) r.index (by simp))
  · exact Nat.le_of_eq (congrArg CallRef.index (mem_singleton.mp hmem))

theorem idToIndex_of_nodup (hids : (calls.map (·.id)).Nodup) {r : CallRef P} (hr : r ∈ callRefs calls) :
    idToIndex calls r.call.id = some r.index := by
  cases h : idToIndex calls r.call.id with
  | none =>
    have hmem : r ∈ (callRefs calls).filter fun c => c.call.id = r.call.id := by simp [hr]
    simp only [idToIndex, Option.map_eq_none_iff, List.getLast?_eq_none_iff] at h
    rw [h] at hmem
    cases hmem
  | some i =>
    obtain ⟨⟨call, hcall, hid⟩, -⟩ := idToIndex_eq_some h
    have hat := mem_callRefs.mp hr
    have heq : (calls.map (·.id))[i]? = (calls.map (·.id))[r.index]? := by simp [hcall, hat, hid]
    have hlt : i < (calls.map (·.id)).length := by
      obtain ⟨hlt, -⟩ := List.getElem?_eq_some_iff.mp hcall
      simpa using hlt
    rw [(List.getElem?_inj hlt hids).mp heq]

theorem idToIndex_ne {i j : Nat} {a b : PendingToolCall P} (ha : calls[i]? = some a) (hb : calls[j]? = some b)
    (hij : i < j) (hid : a.id = b.id) (id : String) : idToIndex calls id ≠ some i := by
  intro h
  obtain ⟨⟨call, hcall, rfl⟩, hlast⟩ := idToIndex_eq_some h
  obtain rfl : a = call := Option.some.inj (ha.symm.trans hcall)
  have := hlast j b hb hid.symm
  omega

theorem fillResults_untouched {i : Nat} (h : ∀ id, idToIndex calls id ≠ some i) (pairs : List (String × R)) :
    ∀ results : List (Option R), (fillResults calls results pairs)[i]? = results[i]? := by
  induction pairs with
  | nil => intro results; rfl
  | cons pair pairs ih =>
    intro results
    show (fillResults calls _ pairs)[i]? = _
    rw [ih]
    dsimp only
    cases hk : idToIndex calls pair.1 with
    | none => rfl
    | some k =>
      have hne : k ≠ i := fun e => h pair.1 (e ▸ hk)
      exact List.getElem?_set_ne hne

def fileResult (log : List (Event Nat R)) (results : List (Option R)) (r : CallRef P) : List (Option R) :=
  results.set r.index (resultOf log r.index)

theorem fillResults_executed (hids : (calls.map (·.id)).Nodup) {log : List (Event Nat R)} (refs : List (CallRef P)) :
    ∀ results : List (Option R), (∀ r ∈ refs, r ∈ callRefs calls ∧ (resultOf log r.index).isSome) →
      fillResults calls results (executed log refs) = refs.foldl (fileResult log) results := by
  induction refs with
  | nil => intro results h; rfl
  | cons r refs ih =>
    intro results h
    obtain ⟨hr, hsome⟩ := h r (by simp)
    obtain ⟨res, hres⟩ := Option.isSome_iff_exists.mp hsome
    rw [foldl_cons, ← ih _ fun c hc => h c (by simp [hc])]
    simp [executed, fillResults, hres, idToIndex_of_nodup hids hr, fileResult]

theorem fileResult_local :
    LocalStep (fun (results : List (Option R)) (i : Nat) => results[i]?) (fun r : CallRef P => r.index) (fileResult log)
      (fun r v => v.map fun _ => resultOf log r.index) where
  self := by
    intro results r
    exact List.getElem?_set_self'
  other := by
    intro results r i h
    exact List.getElem?_set_ne (Ne.symm h)

theorem foldl_fileResult_length (refs : List (CallRef P)) :
    ∀ results : List (Option R), (refs.foldl (fileResult log) results).length = results.length := by
  induction refs with
  | nil => intro results; rfl
  | cons r refs ih => intro results; rw [foldl_cons, ih, fileResult, length_set]

theorem resultOf_eq_some {log : List (Event Nat R)} (h : (log.filterMap Event.finishedJob).Nodup) {i : Nat} {r : R} :
    resultOf log i = some r ↔ .finished i r ∈ log := by
  induction log with
  | nil => simp [resultOf]
  | cons e log ih =>
    cases e with
    | started =>
      have h : (log.filterMap Event.finishedJob).Nodup := by simpa [filterMap_cons, Event.finishedJob] using h
      simpa [resultOf] using ih h
    | finished j =>
      simp only [filterMap_cons, Event.finishedJob, nodup_cons] at h
      by_cases hj : j = i
      · subst hj
        have hlater : .finished j r ∉ log := fun hmem => h.1 (mem_filterMap.mpr ⟨_, hmem, rfl⟩)
        simp [resultOf, hlater, eq_comm]
      · simpa [resultOf, hj, Ne.symm hj] using ih h.2

variable [DecidableEq P]

def AllAnswered (R : Type) (d : ToolCallDispatcher) (calls : List (PendingToolCall P)) (provider : Bool) : Prop :=
  ∀ s : Schedule R (d.batch calls provider),
    s.log.length ≤ 2 * calls.length ∧
    (s.rest.complete = false → ∃ (e : Event Nat R) (rest : Proc Nat), Proc.Step s.rest e rest) ∧
    (s.rest.complete = true → ∃ results, (d.batch calls provider).answer calls s.files s.log = some results ∧
      results.length = calls.length ∧ ∀ i r, results[i]? = some r ↔ .finished i r ∈ s.log)

section Answer

variable {d : ToolCallDispatcher} {provider : Bool} (s : Schedule R (d.batch calls provider))

def filled : List (Option R) :=
  fillResults calls (List.replicate calls.length none) (executed s.log ((d.batch calls provider).order s.files))

theorem answer_eq : (d.batch calls provider).answer calls s.files s.log = expectAll (filled s) := by
  simp only [filled, Batch.answer, Batch.order, fillResults_append, executed_append, append_assoc]

theorem resultOf_of_complete (hdone : s.rest.complete = true) {i : Nat} (hi : i < calls.length) :
    (resultOf s.log i).isSome := by
  have hperm := finished_perm_of_complete s hdone
  have hmem := hperm.mem_iff.mp (mem_range.mpr hi)
  have hnodup := hperm.nodup_iff.mp nodup_range
  obtain ⟨e, he, hj⟩ := mem_filterMap.mp hmem
  cases e with
  | started => cases hj
  | finished j =>
    obtain rfl : j = i := Option.some.inj hj
    rw [(resultOf_eq_some hnodup).mpr he]
    rfl

theorem filled_of_nodup (hids : (calls.map (·.id)).Nodup) (hdone : s.rest.complete = true) :
    filled s = (List.range calls.length).map (resultOf s.log) := by
  have hrefs : ∀ r ∈ (d.batch calls provider).order s.files, r ∈ callRefs calls ∧ (resultOf s.log r.index).isSome := by
    intro r hr
    have hr := (order_perm s).mem_iff.mp hr
    obtain ⟨hlt, -⟩ := List.getElem?_eq_some_iff.mp (mem_callRefs.mp hr)
    exact ⟨hr, resultOf_of_complete s hdone hlt⟩
  rw [filled, fillResults_executed hids _ _ hrefs]
  apply List.ext_getElem?
  intro i
  by_cases hi : i < calls.length
  · have hnodup : (((d.batch calls provider).order s.files).map (·.index)).Nodup := by
      rw [← body_jobs]
      exact body_nodup s
    have hmem : (⟨i, calls[i]⟩ : CallRef P) ∈ (d.batch calls provider).order s.files :=
      (order_perm s).mem_iff.mpr (mem_callRefs.mpr (List.getElem?_eq_getElem hi))
    refine ((fileResult_local s.log).foldl_of_mem hnodup hmem).trans ?_
    simp [hi]
  · have hlength := foldl_fileResult_length s.log ((d.batch calls provider).order s.files)
      (List.replicate calls.length none)
    rw [length_replicate] at hlength
    rw [List.getElem?_eq_none (by omega), List.getElem?_eq_none (by simp; omega)]

theorem answer_of_nodup (hids : (calls.map (·.id)).Nodup) (hdone : s.rest.complete = true) :
    ∃ results, (d.batch calls provider).answer calls s.files s.log = some results ∧
      results.length = calls.length ∧ ∀ i r, results[i]? = some r ↔ .finished i r ∈ s.log := by
  have hfilled := filled_of_nodup s hids hdone
  have hsome : (expectAll (filled s)).isSome := by
    refine expectAll_isSome fun r hr => ?_
    rw [hfilled] at hr
    obtain ⟨i, hi, rfl⟩ := mem_map.mp hr
    exact resultOf_of_complete s hdone (mem_range.mp hi)
  obtain ⟨results, hresults⟩ := Option.isSome_iff_exists.mp hsome
  have hentries := (expectAll_eq_some.mp hresults).symm.trans hfilled
  refine ⟨results, by rw [answer_eq, hresults], by simpa using congrArg List.length hentries, ?_⟩
  intro i r
  have hperm := finished_perm_of_complete s hdone
  have hresult : ∀ r, resultOf s.log i = some r ↔ .finished i r ∈ s.log := fun _ =>
    resultOf_eq_some (hperm.nodup_iff.mp nodup_range)
  rw [← hresult]
  have hentry : (results[i]?).map some = ((List.range calls.length)[i]?).map (resultOf s.log) := by
    rw [← List.getElem?_map, ← List.getElem?_map, hentries]
  by_cases hi : i < calls.length
  · rw [List.getElem?_range hi, Option.map_some] at hentry
    cases hr : results[i]? with
    | none => simp [hr] at hentry
    | some =>
      rw [hr, Option.map_some, Option.some.injEq] at hentry
      rw [← hentry]
  · have hnone : resultOf s.log i = none := by
      rw [← Option.not_isSome_iff_eq_none, Option.isSome_iff_exists]
      rintro ⟨r', hr'⟩
      have hmem := (hresult r').mp hr'
      have := hperm.mem_iff.mpr (mem_filterMap.mpr ⟨_, hmem, rfl⟩)
      exact hi (mem_range.mp this)
    have hlength : results.length = calls.length := by simpa using congrArg List.length hentries
    rw [hnone, List.getElem?_eq_none (by omega)]

theorem answer_of_repeat {i j : Nat} {a b : PendingToolCall P} (ha : calls[i]? = some a) (hb : calls[j]? = some b)
    (hij : i < j) (hid : a.id = b.id) : (d.batch calls provider).answer calls s.files s.log = none := by
  have hnone : (filled s)[i]? = (List.replicate calls.length (none : Option R))[i]? :=
    fillResults_untouched (idToIndex_ne ha hb hij hid) _ _
  have hi : i < calls.length := (List.getElem?_eq_some_iff.mp ha).1
  rw [answer_eq]
  cases h : expectAll (filled s) with
  | none => rfl
  | some =>
    rw [expectAll_eq_some.mp h] at hnone
    simp [hi] at hnone

end Answer

theorem exists_complete_schedule (R : Type) [Inhabited R] (b : Batch P) :
    ∃ s : Schedule R b, s.rest.complete = true := by
  obtain ⟨log, rest, hrun, hdone⟩ := Proc.exists_complete (fun _ => (default : R)) (b.body (groupByFile b.mutex))
  exact ⟨⟨groupByFile b.mutex, .refl _, log, rest, hrun⟩, hdone⟩

theorem not_answered_of_repeat (R : Type) [Inhabited R] (d : ToolCallDispatcher) (provider : Bool) {i j : Nat}
    {a b : PendingToolCall P} (ha : calls[i]? = some a) (hb : calls[j]? = some b) (hij : i < j) (hid : a.id = b.id) :
    ¬ AllAnswered R d calls provider := by
  intro hall
  obtain ⟨s, hdone⟩ := exists_complete_schedule R (d.batch calls provider)
  obtain ⟨results, hresults, -⟩ := (hall s).2.2 hdone
  rw [answer_of_repeat s ha hb hij hid] at hresults
  cases hresults

theorem calls_answered_iff (R : Type) [Inhabited R] (d : ToolCallDispatcher) (calls : List (PendingToolCall P))
    (provider : Bool) : AllAnswered R d calls provider ↔ (calls.map (·.id)).Nodup := by
  constructor
  · intro hall
    rw [List.nodup_iff_getElem?_ne_getElem?]
    intro i j hij hj heq
    rw [length_map] at hj
    have hi : i < calls.length := by omega
    simp only [List.getElem?_map, List.getElem?_eq_getElem hi, List.getElem?_eq_getElem hj, Option.map_some,
      Option.some.injEq] at heq
    exact not_answered_of_repeat R d provider (List.getElem?_eq_getElem hi) (List.getElem?_eq_getElem hj) hij heq hall
  · intro hids s
    refine ⟨?_, ?_, answer_of_nodup s hids⟩
    · have hlength := Proc.run_length_le s.run
      rwa [(body_jobs_perm s).length_eq, length_range] at hlength
    · exact Proc.progress (fun _ => default) s.rest

def unnamedCalls : List (PendingToolCall String) :=
  [⟨"", "Read", .obj [], none, true⟩, ⟨"", "Ls", .obj [], none, true⟩]

theorem unnamed_calls_panic : ¬ AllAnswered Nat ⟨true⟩ unnamedCalls true :=
  not_answered_of_repeat Nat ⟨true⟩ true (i := 0) (j := 1) rfl rfl (by decide) rfl

end CloseClaw.Common.Dispatcher
