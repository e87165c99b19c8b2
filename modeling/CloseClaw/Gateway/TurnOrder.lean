/- Do turns overlap, and in which order do they start? -/

import CloseClaw.Gateway.Turns
import Mathlib.Data.List.Pairwise

namespace CloseClaw.Gateway.Turns

open Lib List

def Alone (s : Session) : Event → Prop
  | .handler i => ∀ h, s.handlers[i]? = some h → h.pc = .checkBusy →
      i = 0 ∧ (s.isBusy = false → s.tasks = [] ∧ s.queue = [])
  | .recover => s.tasks = [] ∧ s.handlers = []
  | _ => True

instance Alone.decidable (s : Session) : ∀ e, Decidable (Alone s e)
  | .handler i =>
    match hs : s.handlers[i]? with
    | none => isTrue fun _ h => by simp [hs] at h
    | some h =>
      decidable_of_iff (h.pc = .checkBusy → i = 0 ∧ (s.isBusy = false → s.tasks = [] ∧ s.queue = []))
        ⟨fun hd _ heq => Option.some.inj (hs.symm.trans heq) ▸ hd, fun hd => hd h hs⟩
  | .recover => inferInstanceAs (Decidable (_ ∧ _))
  | .arrive _ | .task _ | .callEnd _ _ | .stuckAlert => isTrue trivial

namespace Session

def line (s : Session) : List Nat :=
  s.started ++ s.tasks.filterMap (·.pc.message) ++ s.queue ++ s.handlers.map (·.message)

structure InOrder (s : Session) : Prop where
  one : s.tasks.length ≤ 1
  waiting : ∀ h ∈ s.handlers.tail, h.pc = .checkBusy
  dispatching : ∀ h ∈ s.handlers, h.pc = .dispatchLlmCall → s.tasks = [] ∧ s.queue = []
  sorted : s.line.Pairwise (· < ·)
  arrived : ∀ m ∈ s.line, m < s.arrived

theorem inOrder_idle : InOrder .idle where
  one := Nat.zero_le _
  waiting := by simp [idle]
  dispatching := by simp [idle]
  sorted := List.Pairwise.nil
  arrived := by simp [idle, line]

variable {s : Session}

theorem InOrder.of_sublist {s' : Session} (h : InOrder s) (hline : s'.line.Sublist s.line)
    (ha : s'.arrived = s.arrived) (one : s'.tasks.length ≤ 1) (waiting : ∀ h ∈ s'.handlers.tail, h.pc = .checkBusy)
    (dispatching : ∀ h ∈ s'.handlers, h.pc = .dispatchLlmCall → s'.tasks = [] ∧ s'.queue = []) : InOrder s' where
  one := one
  waiting := waiting
  dispatching := dispatching
  sorted := h.sorted.sublist hline
  arrived := fun m hm => by rw [ha]; exact h.arrived m (hline.subset hm)

theorem InOrder.of_task {s' : Session} (h : InOrder s) {t : Task} (hs : s.tasks = [t])
    (hs' : s'.tasks.length ≤ 1) (hline : s'.line.Sublist s.line) (ha : s'.arrived = s.arrived)
    (hh : s'.handlers = s.handlers) : InOrder s' := by
  refine h.of_sublist hline ha hs' (by rw [hh]; exact h.waiting) ?_
  rw [hh]
  intro hd hmem hpc
  simpa [hs] using (h.dispatching hd hmem hpc).1

theorem filterMap_message (t : Task) : [t].filterMap (·.pc.message) = t.pc.message.toList := by
  cases hm : t.pc.message <;> simp [hm]

theorem InOrder.stepTask (h : InOrder s) {i : Nat} {t : Task} (ht : s.tasks[i]? = some t) :
    InOrder (s.stepTask i t) := by
  have hs : s.tasks = [t] := (splice_of_length_le_one h.one ht []).1
  have hset : ∀ new, splice s.tasks i new = new := fun new => (splice_of_length_le_one h.one ht new).2
  -- the task goes on with the message it has, or without one as before
  have hkeep : ∀ s' : Session, ∀ t', s'.tasks = [t'] → s'.started ++ t'.pc.message.toList ++ s'.queue =
      s.started ++ t.pc.message.toList ++ s.queue → s'.arrived = s.arrived → s'.handlers = s.handlers → InOrder s' := by
    intro s' t' hs' hline ha hh
    refine h.of_task hs (by simp [hs']) ?_ ha hh
    rw [line, line, hs', hs, filterMap_message, filterMap_message, hline, hh]
  have hgone : ∀ s' : Session, s'.tasks = [] → (s'.started ++ s'.queue).Sublist
      (s.started ++ t.pc.message.toList ++ s.queue) → s'.arrived = s.arrived → s'.handlers = s.handlers →
        InOrder s' := by
    intro s' hs' hline ha hh
    refine h.of_task hs (by simp [hs']) ?_ ha hh
    rw [line, line, hs', hs, filterMap_message, hh, filterMap_nil, append_nil]
    exact hline.append_right _
  unfold Session.stepTask
  split
  · rename_i message stream hpc
    exact hkeep _ _ (hset _) (by simp [setTask, hpc, TaskPc.message]) rfl rfl
  · exact h
  · rename_i reply hpc
    refine hkeep _ _ (hset _) ?_ rfl rfl
    simp only [setTask, hpc]
    split
    · split <;> rfl
    · rfl
  · rename_i reply hpc
    exact hkeep _ _ (hset _) (by simp [setTask, hpc, TaskPc.message]) rfl rfl
  · rename_i reply hpc
    exact hkeep _ _ (hset _) (by simp [setTask, hpc, TaskPc.message]) rfl rfl
  · rename_i hpc
    exact hkeep _ _ (hset _) (by simp [setTask, hpc, TaskPc.message]) rfl rfl
  · rename_i hpc
    exact hgone _ (hset _) (by simp [setTask, hpc, TaskPc.message]) rfl rfl
  · rename_i verdict _ _ hpc
    refine hkeep _ _ (hset _) ?_ rfl rfl
    simp only [setTask, hpc]
    split <;> rfl
  · rename_i hpc
    split
    · exact hgone _ (hset _) (by simp [setTask, hpc, TaskPc.message]) rfl rfl
    · exact hkeep _ _ (hset _) (by simp [setTask, hpc, TaskPc.message]) rfl rfl
  · rename_i hpc
    split
    · exact hgone _ (hset _) (by simp [setTask, hpc, TaskPc.message]) rfl rfl
    · rename_i message rest hq
      exact hkeep _ _ (hset _) (by simp [setTask, hpc, hq, TaskPc.message]) rfl rfl
  · rename_i message hpc
    exact hkeep _ _ (hset _) (by simp [setTask, hpc, TaskPc.message]) rfl rfl

theorem InOrder.first (h : InOrder s) {i : Nat} {hd : Handler} (hget : s.handlers[i]? = some hd)
    (hpc : hd.pc ≠ .checkBusy) : s.handlers = hd :: s.handlers.tail ∧ i = 0 := by
  cases hl : s.handlers with
  | nil => simp [hl] at hget
  | cons =>
    cases i with
    | zero => simpa [hl] using hget
    | succ =>
      rw [hl, List.getElem?_cons_succ] at hget
      exact absurd (h.waiting hd (by simpa [hl] using List.mem_of_getElem? hget)) hpc

theorem InOrder.stepHandler (h : InOrder s) {i : Nat} {hd : Handler}
    (hget : s.handlers[i]? = some hd) (ha : Alone s (.handler i)) : InOrder (s.stepHandler i hd) := by
  obtain rfl : i = 0 := by
    by_cases hpc : hd.pc = .checkBusy
    · exact (ha hd hget hpc).1
    · exact (h.first hget hpc).2
  obtain ⟨rest, hl⟩ : ∃ rest, s.handlers = hd :: rest := by
    cases hl : s.handlers with
    | nil => simp [hl] at hget
    | cons x rest => exact ⟨rest, by simpa [hl] using hget⟩
  have hwait : ∀ x ∈ rest, x.pc = .checkBusy := by simpa [hl] using h.waiting
  have hset : ∀ new, splice s.handlers 0 new = new ++ rest := fun new => by simp [splice, hl]
  unfold Session.stepHandler
  split
  · rename_i hpc
    refine h.of_sublist ?_ rfl h.one ?_ ?_
    · simp [line, setHandler, splice, hl]
    · simpa [setHandler, hset] using hwait
    · intro x hx hx'
      simp only [setHandler, hset, singleton_append, mem_cons] at hx
      rcases hx with rfl | hx
      · by_cases hbusy : s.isBusy = true
        · simp [hbusy] at hx'
        · exact (ha hd hget hpc).2 (by simpa using hbusy)
      · exact absurd (hwait x hx) (by simp [hx'])
  · rename_i hpc
    refine h.of_sublist ?_ rfl h.one ?_ ?_
    · simp [line, setHandler, splice, hl]
    · simpa [setHandler, hset] using fun x hx => hwait x (mem_of_mem_tail hx)
    · intro x hx hx'
      exact absurd (hwait x (by simpa [setHandler, hset] using hx)) (by simp [hx'])
  · rename_i hpc
    obtain ⟨htasks, hqueue⟩ := h.dispatching hd (by simp [hl]) hpc
    refine h.of_sublist ?_ rfl ?_ ?_ ?_
    · simp [line, setHandler, splice, hl, htasks, hqueue, TaskPc.message]
    · simp [htasks]
    · simpa [setHandler, hset] using fun x hx => hwait x (mem_of_mem_tail hx)
    · intro x hx hx'
      exact absurd (hwait x (by simpa [setHandler, hset] using hx)) (by simp [hx'])

theorem InOrder.step (h : InOrder s) {e : Event} (ha : Alone s e) : InOrder (step s e) := by
  cases e with
  | arrive stream =>
    have hline : (Turns.step s (.arrive stream)).line = s.line ++ [s.arrived] := by simp [Turns.step, line]
    refine ⟨h.one, ?_, ?_, ?_, ?_⟩
    · cases hl : s.handlers with
      | nil => simp [Turns.step, hl]
      | cons => simpa [Turns.step, hl, or_imp, forall_and] using h.waiting
    · intro x hx hpc
      rcases mem_append.mp hx with hx | hx
      · exact h.dispatching x hx hpc
      · simp [mem_singleton.mp hx] at hpc
    · rw [hline, pairwise_append]
      refine ⟨h.sorted, by simp, fun a ha b hb => ?_⟩
      rw [mem_singleton.mp hb]
      exact h.arrived a ha
    · intro m hm
      rw [hline] at hm
      show m < s.arrived + 1
      rcases mem_append.mp hm with hm | hm
      · exact Nat.lt_succ_of_lt (h.arrived m hm)
      · rw [mem_singleton.mp hm]
        exact Nat.lt_succ_self _
  | handler => exact step_handler_of h fun hd hget => h.stepHandler hget ha
  | task => exact step_task_of h fun t ht => h.stepTask ht
  | callEnd i reply =>
    simp only [Turns.step]
    split
    · rename_i kind drained stream ht
      obtain ⟨hs, hset⟩ := splice_of_length_le_one h.one ht [⟨kind, drained, .clearBusy reply⟩]
      refine h.of_task hs (by simp [setTask, hset]) ?_ rfl rfl
      rw [line, line, setTask, hset, hs, filterMap_message, filterMap_message]
      exact List.Sublist.refl _
    · exact h
  | recover =>
    obtain ⟨htasks, hhandlers⟩ := ha
    refine h.of_sublist ?_ rfl ?_ h.waiting ?_
    · simp [Turns.step, line, TaskPc.message]
    · simp [Turns.step, htasks]
    · simp [Turns.step, hhandlers]
  | stuckAlert => exact ⟨h.one, h.waiting, h.dispatching, h.sorted, h.arrived⟩

end Session

theorem turns_in_order (events : List Event) (h : Trace.Along step Alone .idle events) :
    let s := Trace.run step .idle events
    (s.tasks.filter (·.pc.isInFlight)).length ≤ 1 ∧ s.started.Pairwise (· < ·) := by
  intro s
  have hi : s.InOrder := Trace.invariant_along (fun _ _ hi ha => hi.step ha) Session.inOrder_idle h
  refine ⟨Nat.le_trans (length_filter_le ..) hi.one, ?_⟩
  have hs := hi.sorted
  rw [Session.line, append_assoc, append_assoc] at hs
  exact (pairwise_append.mp hs).1

def queuedRun : List Event :=
  List.flatten
    [[.arrive true, .handler 0, .handler 0, .task 0, .arrive true, .handler 0, .handler 0, .callEnd 0 ⟨true, .none⟩],
      List.replicate 8 (.task 0)]

theorem turns_in_order_queued : ((Trace.run step .idle queuedRun).tasks.filter (·.pc.isInFlight)).length ≤ 1 ∧
      (Trace.run step .idle queuedRun).started.Pairwise (· < ·) :=
  turns_in_order queuedRun (by decide +kernel)

def overtakenRun : List Event :=
  List.flatten
    [[.arrive true, .handler 0, .handler 0, .task 0, .arrive true, .handler 0, .handler 0, .callEnd 0 ⟨false, .none⟩,
        .task 0],
      [.arrive true, .handler 0, .handler 0, .task 1], List.replicate 5 (.task 0)]

theorem turns_overlap : ((Trace.run step .idle overtakenRun).tasks.filter (·.pc.isInFlight)).length = 2 ∧
      (Trace.run step .idle overtakenRun).started = [0, 2, 1] := by
  decide +kernel

/-! ## Nothing twice, nothing lost -/

namespace Session

/-- How often a message stands in line, one more while it is still to arrive. -/
def places (s : Session) (m : Nat) : Nat := s.line.count m + (1 - (s.arrived - m))

structure Keeps (s s' : Session) (m : Nat) : Prop where
  le : s'.places m ≤ s.places m
  eq : s.stuckAlert = false → s'.places m = s.places m ∧ s'.stuckAlert = false

variable {s s' : Session} {i m : Nat} {t : Task}

theorem Keeps.of_eq (h : s'.places m = s.places m) (ha : s'.stuckAlert = s.stuckAlert) : Keeps s s' m :=
  ⟨Nat.le_of_eq h, fun hs => ⟨h, ha.trans hs⟩⟩

def claimed (s : Session) (tasks : List Task) (m : Nat) : Nat :=
  (s.started ++ tasks.filterMap (·.pc.message) ++ s.queue).count m

theorem keeps_task {new : List Task} (ht : s.tasks[i]? = some t) (hnew : s'.tasks = splice s.tasks i new)
    (hh : s'.handlers = s.handlers) (ha : s'.arrived = s.arrived) (hle : s'.claimed new m ≤ s.claimed [t] m)
    (heq : s.stuckAlert = false → s'.claimed new m = s.claimed [t] m ∧ s'.stuckAlert = false) : Keeps s s' m := by
  have hc := count_splice ht (·.pc.message) new m
  have hplaces : s'.places m + s.claimed [t] m = s.places m + s'.claimed new m := by
    simp only [places, claimed, line, hnew, hh, ha, count_append, filterMap_message] at hc ⊢
    omega
  exact ⟨by omega, fun hs => ⟨by have := heq hs; omega, (heq hs).2⟩⟩

theorem keeps_stepTask (ht : s.tasks[i]? = some t) : Keeps s (s.stepTask i t) m := by
  unfold stepTask
  repeat' split
  all_goals first
    | exact .of_eq rfl rfl
    | refine keeps_task ht rfl rfl rfl ?_ ?_ <;> simp only [claimed, filterMap_nil, filterMap_message] <;>
        simp [*, setTask, TaskPc.message]

theorem keeps_stepHandler {hd : Handler} (hget : s.handlers[i]? = some hd) : Keeps s (s.stepHandler i hd) m := by
  have hc : ∀ new, ((splice s.handlers i new).map (·.message)).count m + [hd.message].count m =
      (s.handlers.map (·.message)).count m + (new.map (·.message)).count m := by
    simpa using fun new => count_splice hget (some ·.message) new m
  unfold stepHandler
  split
  · have := hc [{ hd with pc := if s.isBusy then .enqueuePending else .dispatchLlmCall }]
    refine .of_eq ?_ rfl
    simp only [places, line, setHandler, count_append, map_cons, map_nil] at this ⊢
    omega
  all_goals
    have := hc []
    refine .of_eq ?_ rfl
    simp only [places, line, setHandler, count_append, filterMap_append, filterMap_message, map_nil, count_nil] at this ⊢
    simp only [TaskPc.message, Option.toList_some] at this ⊢
    omega

theorem keeps_step {e : Event} (he : e ≠ .stuckAlert) : Keeps s (step s e) m := by
  cases e with
  | arrive =>
    have hnew : [s.arrived].count m + (1 - (s.arrived + 1 - m)) = 1 - (s.arrived - m) := by grind
    refine .of_eq ?_ rfl
    simp only [places, line, step, map_append, map_cons, map_nil, count_append]
    omega
  | handler => exact step_handler_of (P := (Keeps s · m)) (.of_eq rfl rfl) fun hd hget => keeps_stepHandler hget
  | task => exact step_task_of (P := (Keeps s · m)) (.of_eq rfl rfl) fun t ht => keeps_stepTask ht
  | callEnd =>
    simp only [step]
    split
    · rename_i ht
      exact keeps_task ht rfl rfl rfl (Nat.le_refl _) fun hs => ⟨rfl, hs⟩
    · exact .of_eq rfl rfl
  | recover => exact .of_eq (by simp [places, line, step, TaskPc.message]) rfl
  | stuckAlert => exact absurd rfl he

end Session

/-- No message gets two turns, and before a warning is pending none is dropped. -/
theorem no_message_twice_or_lost (events : List Event) :
    let s := Trace.run step .idle events
    s.line.Nodup ∧ (Trace.Along step (fun _ e => e ≠ .stuckAlert) .idle events → ∀ m < s.arrived, m ∈ s.line) := by
  intro s
  have hidle : ∀ m, Session.places .idle m = 1 := by simp [Session.places, Session.line, Session.idle]
  refine ⟨nodup_iff_count.mpr fun m => ?_, fun ha m hm => ?_⟩
  · have h : s.places m ≤ 1 := by
      refine Trace.invariant (I := (Session.places · m ≤ 1)) (fun s e hs => ?_) (Nat.le_of_eq (hidle m)) events
      by_cases he : e = .stuckAlert
      · exact he ▸ hs
      · exact Nat.le_trans (Session.keeps_step he).le hs
    exact Nat.le_trans (Nat.le_add_right _ _) h
  · have h : s.places m = 1 ∧ s.stuckAlert = false :=
      Trace.invariant_along (I := fun s => s.places m = 1 ∧ s.stuckAlert = false)
        (fun _ _ hs he => ((Session.keeps_step he).eq hs.2).imp_left (·.trans hs.1)) ⟨hidle m, rfl⟩ ha
    rw [Session.places] at h
    exact count_pos_iff.mp (by omega)

end CloseClaw.Gateway.Turns
