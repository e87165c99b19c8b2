/- Does every message on a session's queue get its turn? -/

import CloseClaw.Gateway.Turns
import Mathlib.Algebra.GroupWithZero.Nat

namespace CloseClaw.Gateway.Turns

open Lib List TaskPc Trace Session

def Heard (s : Session) : Event → Prop
  | .handler i => ∀ h, s.handlers[i]? = some h → h.pc = .enqueuePending → s.tasks ≠ []
  | .task i => ∀ t, s.tasks[i]? = some t → t.pc = .drainAnnounces → s.stuckAlert = false
  | _ => True

def NoStop : Event → Prop
  | .callEnd _ reply => reply.verdict ≠ .stop
  | _ => True

instance Heard.decidable (s : Session) : ∀ e, Decidable (Heard s e)
  | .handler i =>
    match hs : s.handlers[i]? with
    | none => isTrue fun _ h => by simp [hs] at h
    | some h =>
      decidable_of_iff (h.pc = .enqueuePending → s.tasks ≠ [])
        ⟨fun hd _ heq => Option.some.inj (hs.symm.trans heq) ▸ hd, fun hd => hd h hs⟩
  | .task i =>
    match hs : s.tasks[i]? with
    | none => isTrue fun _ h => by simp [hs] at h
    | some t =>
      decidable_of_iff (t.pc = .drainAnnounces → s.stuckAlert = false)
        ⟨fun hd _ heq => Option.some.inj (hs.symm.trans heq) ▸ hd, fun hd => hd t hs⟩
  | .arrive _ | .callEnd _ _ | .recover | .stuckAlert => isTrue trivial

instance NoStop.decidable : ∀ e, Decidable (NoStop e)
  | .callEnd _ reply => inferInstanceAs (Decidable (reply.verdict ≠ .stop))
  | .arrive _ | .handler _ | .task _ | .recover | .stuckAlert => isTrue trivial

def Event.isInternal : Event → Bool
  | .handler _ | .task _ | .callEnd _ _ => true
  | .arrive _ | .recover | .stuckAlert => false

def Event.retries : Event → Nat
  | .callEnd _ ⟨_, .retry⟩ => 1
  | _ => 0

/-! ## The work there is -/

def Verdict.work : Verdict → Nat
  | .retry => 8
  | _ => 0

def TaskPc.work : TaskPc → Nat
  | .popPending => 1
  | .drainAnnounces => 2
  | .recover verdict => 3 + verdict.work
  | .runTools reply => 4 + reply.verdict.work
  | .dispatchTools reply => 5 + reply.verdict.work
  | .clearBusy reply => 6 + reply.verdict.work
  | .inFlight _ => 7
  | .callLlm _ _ => 8
  | .setBusy _ => 9

def HandlerPc.work : HandlerPc → Nat
  | .dispatchLlmCall => 9
  | .enqueuePending => 10
  | .checkBusy => 11

namespace Session

def work (s : Session) : Nat :=
  9 * s.queue.length + (s.tasks.map (·.pc.work)).sum + (s.handlers.map (·.pc.work)).sum

end Session

theorem sum_splice {α : Type} {l : List α} {i : Nat} {a : α} (h : l[i]? = some a) (f : α → Nat) (new : List α) :
    ((splice l i new).map f).sum + f a = (l.map f).sum + (new.map f).sum := by
  conv_rhs => rw [eq_splice h]
  simp only [splice, map_append, sum_append, map_cons, sum_cons]
  omega

namespace Session

variable {s' : Session} {i : Nat} {t : Task} {h : Handler}

theorem work_lt_of_task {s : Session} (ht : s.tasks[i]? = some t) {new : List Task}
    (htasks : s'.tasks = splice s.tasks i new) (hhandlers : s'.handlers = s.handlers)
    (hlt : 9 * s'.queue.length + (new.map (·.pc.work)).sum < 9 * s.queue.length + t.pc.work) : s'.work < s.work := by
  have := sum_splice ht (·.pc.work) new
  rw [work, work, htasks, hhandlers]
  omega

theorem work_stepTask {s : Session} (ht : s.tasks[i]? = some t) (hpc : t.pc.isInFlight = false) :
    (s.stepTask i t).work < s.work := by
  unfold stepTask
  split
  · rename_i h
    exact work_lt_of_task ht rfl rfl (by simp [setTask, h, TaskPc.work])
  · rename_i h
    simp [h, TaskPc.isInFlight] at hpc
  · rename_i reply h
    refine work_lt_of_task ht rfl rfl ?_
    simp only [setTask, h]
    split
    · split <;> simp [TaskPc.work]
    · simp [TaskPc.work]
      omega
  · rename_i h
    exact work_lt_of_task ht rfl rfl (by simp [setTask, h, TaskPc.work])
  · rename_i h
    exact work_lt_of_task ht rfl rfl (by simp [setTask, h, TaskPc.work])
  · rename_i h
    exact work_lt_of_task ht rfl rfl (by simp [setTask, h, TaskPc.work, Verdict.work])
  · rename_i h
    exact work_lt_of_task ht rfl rfl (by simp [setTask, h, TaskPc.work, Verdict.work])
  · rename_i h
    refine work_lt_of_task ht rfl rfl ?_
    simp only [setTask, h]
    split <;> simp [TaskPc.work] <;> omega
  · rename_i h
    split
    · exact work_lt_of_task ht rfl rfl (by simp [h, TaskPc.work])
    · exact work_lt_of_task ht rfl rfl (by simp [setTask, h, TaskPc.work])
  · rename_i h
    split
    · exact work_lt_of_task ht rfl rfl (by simp [setTask, h, TaskPc.work])
    · rename_i hq
      exact work_lt_of_task ht rfl rfl (by simp [h, hq, TaskPc.work]; omega)
  · rename_i h
    exact work_lt_of_task ht rfl rfl (by simp [setTask, h, TaskPc.work])

theorem work_lt_of_handler {s : Session} (hget : s.handlers[i]? = some h) {new : List Handler}
    (hhandlers : s'.handlers = splice s.handlers i new)
    (hlt : 9 * s'.queue.length + (s'.tasks.map (·.pc.work)).sum + (new.map (·.pc.work)).sum <
      9 * s.queue.length + (s.tasks.map (·.pc.work)).sum + h.pc.work) :
    s'.work < s.work := by
  have := sum_splice hget (·.pc.work) new
  rw [work, work, hhandlers]
  omega

theorem work_stepHandler {s : Session} (hget : s.handlers[i]? = some h) : (s.stepHandler i h).work < s.work := by
  unfold stepHandler
  split
  · rename_i hpc
    refine work_lt_of_handler hget rfl ?_
    split <;> simp [setHandler, hpc, HandlerPc.work]
  · rename_i hpc
    refine work_lt_of_handler hget rfl ?_
    simp [setHandler, hpc, HandlerPc.work]
    omega
  · rename_i hpc
    refine work_lt_of_handler hget rfl ?_
    rw [map_append, sum_append, hpc]
    show 9 * s.queue.length + (_ + 8) + 0 < 9 * s.queue.length + _ + 9
    omega

end Session

variable {s : Session}

theorem work_callEnd {i : Nat} {kind : TaskKind} {drained stream : Bool}
    (ht : s.tasks[i]? = some ⟨kind, drained, .inFlight stream⟩) (reply : Reply) :
    (step s (.callEnd i reply)).work + 1 = s.work + reply.verdict.work := by
  have hsum := sum_splice ht (·.pc.work) [⟨kind, drained, .clearBusy reply⟩]
  rw [map_singleton, sum_singleton, TaskPc.work, TaskPc.work] at hsum
  simp only [step, ht, Session.work, Session.setTask]
  omega

theorem work_step {e : Event} (hint : e.isInternal = true) (hne : step s e ≠ s) :
    (step s e).work + 1 ≤ s.work + 8 * e.retries := by
  cases e with
  | arrive stream | recover | stuckAlert => simp [Event.isInternal] at hint
  | handler =>
    simp only [step] at hne ⊢
    split at hne
    · rename_i h hget
      split at hne
      · exact absurd rfl hne
      · rename_i hl
        simp only [hl, Event.retries]
        exact work_stepHandler hget
    · exact absurd rfl hne
  | task =>
    simp only [step] at hne ⊢
    split at hne
    · rename_i t ht
      split at hne
      · exact absurd rfl hne
      · rename_i hl
        simp only [hl, Event.retries]
        by_cases hpc : t.pc.isInFlight = true
        · refine absurd ?_ hne
          unfold Session.stepTask
          split <;> simp_all [TaskPc.isInFlight]
        · exact work_stepTask ht (by simpa using hpc)
    · exact absurd rfl hne
  | callEnd i reply =>
    simp only [step] at hne
    split at hne
    · rename_i ht
      rw [work_callEnd ht reply]
      cases reply with
      | mk hasToolUse verdict => cases verdict <;> simp [Event.retries, Verdict.work]
    · exact absurd rfl hne

theorem exists_step (h : s.tasks ≠ [] ∨ s.handlers ≠ []) : ∃ e, e.isInternal = true ∧ step s e ≠ s := by
  have hcall : ∀ (i : Nat) (t : Task), s.tasks[i]? = some t → t.pc.isInFlight = true → ∃ e, e.isInternal = true ∧
    step s e ≠ s := by
    intro i t ht hpc
    obtain ⟨kind, drained, pc⟩ := t
    cases pc with
    | inFlight =>
      refine ⟨.callEnd i ⟨false, .none⟩, rfl, fun heq => ?_⟩
      have hwork := work_callEnd ht ⟨false, .none⟩
      rw [heq] at hwork
      simp [Verdict.work] at hwork
    | _ => simp [TaskPc.isInFlight] at hpc
  by_cases hl : s.locked = true
  · obtain ⟨t, ht, hpc⟩ := any_eq_true.mp hl
    obtain ⟨i, hi⟩ := List.getElem?_of_mem ht
    exact hcall i t hi (by simp [of_decide_eq_true hpc, TaskPc.isInFlight])
  cases htasks : s.tasks with
  | cons t =>
    have ht : s.tasks[0]? = some t := by simp [htasks]
    by_cases hpc : t.pc.isInFlight = true
    · exact hcall 0 t ht hpc
    · refine ⟨.task 0, rfl, fun heq => ?_⟩
      have hwork := work_stepTask ht (by simpa using hpc)
      simp only [step, ht, if_neg hl] at heq
      rw [heq] at hwork
      exact Nat.lt_irrefl _ hwork
  | nil =>
    cases hhandlers : s.handlers with
    | nil => simp [htasks, hhandlers] at h
    | cons x =>
      have hx : s.handlers[0]? = some x := by simp [hhandlers]
      refine ⟨.handler 0, rfl, fun heq => ?_⟩
      have hwork := work_stepHandler hx
      simp only [step, hx, if_neg hl] at heq
      rw [heq] at hwork
      exact Nat.lt_irrefl _ hwork

/-! ## No message is lost -/

def TaskPc.verdict : TaskPc → Option Verdict
  | .clearBusy reply | .dispatchTools reply | .runTools reply => some reply.verdict
  | .recover verdict => some verdict
  | _ => none

namespace Session

def taken (s : Session) : List Nat := s.tasks.filterMap (·.pc.message)

structure Kept (s : Session) : Prop where
  held : ∀ m ∈ s.enqueued, m ∈ s.queue ∨ m ∈ s.taken ∨ m ∈ s.started
  taker : s.queue ≠ [] → s.tasks ≠ []
  noStop : ∀ t ∈ s.tasks, t.pc.verdict ≠ some .stop

theorem kept_idle : Kept .idle := ⟨by simp [idle], by simp [idle], by simp [idle]⟩

variable {s : Session} {i : Nat}

theorem Kept.of_task {s' : Session} (h : Kept s) {t : Task} (ht : s.tasks[i]? = some t)
    {new : List Task} (htasks : s'.tasks = splice s.tasks i new) (henqueued : s'.enqueued = s.enqueued)
    (hheld : ∀ m, m ∈ s.queue ∨ m ∈ t.pc.message ∨ m ∈ s.started →
      m ∈ s'.queue ∨ (∃ t' ∈ new, m ∈ t'.pc.message) ∨ m ∈ s'.started)
    (htaker : s'.queue ≠ [] → new ≠ []) (hstop : ∀ t' ∈ new, t'.pc.verdict ≠ some .stop) : Kept s' := by
  refine ⟨?_, ?_, ?_⟩
  · intro m hm
    rw [henqueued] at hm
    have htaken : m ∈ s.taken → m ∈ t.pc.message ∨ m ∈ s'.taken := by
      intro hm
      rw [taken, eq_splice ht] at hm
      simp only [taken, htasks, splice, filterMap_append, filterMap_cons, mem_append] at hm ⊢
      cases hmsg : t.pc.message with
      | none => simp only [hmsg] at hm; tauto
      | some => simp only [hmsg, mem_cons] at hm; simp only [Option.mem_def, Option.some.injEq]; tauto
    have hnew : (∃ t' ∈ new, m ∈ t'.pc.message) → m ∈ s'.taken := by
      rintro ⟨t', ht', hmsg⟩
      rw [taken, htasks, mem_filterMap]
      exact ⟨t', by simp [splice, ht'], hmsg⟩
    rcases h.held m hm with hm | hm | hm
    · exact (hheld m (.inl hm)).imp_right (Or.imp_left hnew)
    · rcases htaken hm with hm | hm
      · exact (hheld m (.inr (.inl hm))).imp_right (Or.imp_left hnew)
      · exact .inr (.inl hm)
    · exact (hheld m (.inr (.inr hm))).imp_right (Or.imp_left hnew)
  · intro hq hnil
    rw [htasks] at hnil
    simp only [splice, append_eq_nil_iff] at hnil
    exact htaker hq hnil.1.2
  · intro t' ht'
    rw [htasks] at ht'
    rcases mem_splice ht' with ht' | ht'
    · exact hstop t' ht'
    · exact h.noStop t' ht'

theorem Kept.of_move {s' : Session} (h : Kept s) {t t' : Task} (ht : s.tasks[i]? = some t)
    (htasks : s'.tasks = splice s.tasks i [t']) (henqueued : s'.enqueued = s.enqueued)
    (hqueue : s'.queue = s.queue) (hstarted : s'.started = s.started)
    (hmessage : t'.pc.message = t.pc.message) (hstop : t'.pc.verdict ≠ some .stop) : Kept s' := by
  refine h.of_task ht htasks henqueued ?_ (by simp) (by simpa using hstop)
  intro m hm
  rw [hqueue, hstarted]
  exact hm.imp_right (Or.imp_left fun hm => ⟨t', mem_singleton_self _, hmessage ▸ hm⟩)

theorem Kept.of_end (h : Kept s) {t : Task} (ht : s.tasks[i]? = some t)
    (hmessage : t.pc.message = none) (hqueue : s.queue = []) : Kept (s.setTask i []) := by
  refine h.of_task ht rfl rfl ?_ (fun hq => absurd hqueue hq) (by simp)
  intro m hm
  rw [hmessage] at hm
  rcases hm with hm | hm | hm
  · exact .inl hm
  · simp at hm
  · exact .inr (.inr hm)

theorem Kept.stepTask (h : Kept s) {t : Task} (ht : s.tasks[i]? = some t)
    (halert : t.pc = .drainAnnounces → s.stuckAlert = false) : Kept (s.stepTask i t) := by
  have hstop := h.noStop t (List.mem_of_getElem? ht)
  unfold Session.stepTask
  split
  · rename_i message stream hpc
    refine h.of_task ht rfl rfl ?_ (by simp) (by simp [verdict])
    intro m hm
    rw [hpc] at hm
    rcases hm with hm | hm | hm
    · exact .inl hm
    · exact .inr (.inr (mem_append_right _ (by simpa [TaskPc.message] using hm)))
    · exact .inr (.inr (mem_append_left _ hm))
  · exact h
  · rename_i reply hpc
    rw [hpc] at hstop
    refine h.of_move ht rfl rfl rfl rfl ?_ ?_
    · rw [hpc]
      dsimp only
      split
      · split <;> rfl
      · rfl
    · dsimp only
      split
      · split <;> exact hstop
      · nofun
  · rename_i reply hpc
    rw [hpc] at hstop
    exact h.of_move ht rfl rfl rfl rfl (by rw [hpc]; rfl) hstop
  · rename_i reply hpc
    rw [hpc] at hstop
    exact h.of_move ht rfl rfl rfl rfl (by rw [hpc]; rfl) hstop
  · rename_i hpc
    exact h.of_move ht rfl rfl rfl rfl (by rw [hpc]; rfl) nofun
  · rename_i hpc
    simp [hpc, verdict] at hstop
  · rename_i hpc
    refine h.of_move ht rfl rfl rfl rfl ?_ ?_
    · rw [hpc]
      dsimp only
      split <;> rfl
    · dsimp only
      split <;> nofun
  · rename_i hpc
    rw [halert hpc]
    exact h.of_move ht rfl rfl rfl rfl (by rw [hpc]; rfl) nofun
  · rename_i hpc
    split
    · rename_i hqueue
      exact h.of_end ht (by rw [hpc]; rfl) hqueue
    · rename_i message rest hqueue
      refine h.of_task ht rfl rfl ?_ (by simp) (by simp [verdict])
      intro m hm
      rw [hpc, hqueue] at hm
      rcases hm with hm | hm | hm
      · rcases mem_cons.mp hm with rfl | hm
        · exact .inr (.inl ⟨_, mem_singleton_self _, rfl⟩)
        · exact .inl hm
      · simp [TaskPc.message] at hm
      · exact .inr (.inr hm)
  · rename_i message hpc
    exact h.of_move ht rfl rfl rfl rfl (by rw [hpc]; rfl) nofun

theorem Kept.of_new {s' : Session} (h : Kept s) {t : Task} (htasks : s'.tasks = s.tasks ++ [t])
    (henqueued : s'.enqueued = s.enqueued) (hqueue : s'.queue = s.queue)
    (hstarted : s'.started = s.started) (hstop : t.pc.verdict ≠ some .stop) : Kept s' := by
  refine ⟨?_, by simp [htasks], ?_⟩
  · intro m hm
    rw [henqueued] at hm
    rw [hqueue, hstarted, taken, htasks, filterMap_append]
    exact (h.held m hm).imp_right (Or.imp_left fun hm => mem_append_left _ hm)
  · intro t' ht'
    rw [htasks] at ht'
    rcases mem_append.mp ht' with ht' | ht'
    · exact h.noStop t' ht'
    · rwa [mem_singleton.mp ht']

theorem Kept.stepHandler (h : Kept s) {hd : Handler}
    (htask : hd.pc = .enqueuePending → s.tasks ≠ []) : Kept (s.stepHandler i hd) := by
  unfold Session.stepHandler
  split
  · exact ⟨h.held, h.taker, h.noStop⟩
  · rename_i hpc
    refine ⟨?_, fun _ => htask hpc, h.noStop⟩
    intro m hm
    rcases mem_append.mp hm with hm | hm
    · exact (h.held m hm).imp_left fun hm => mem_append_left _ hm
    · exact .inl (mem_append_right _ hm)
  · exact h.of_new rfl rfl rfl rfl (by simp [verdict])

theorem Kept.step (h : Kept s) {e : Event} (hheard : Heard s e) (hstop : NoStop e) : Kept (step s e) := by
  cases e with
  | arrive | stuckAlert => exact ⟨h.held, h.taker, h.noStop⟩
  | handler => exact step_handler_of h fun hd hget => h.stepHandler (hheard hd hget)
  | task => exact step_task_of h fun t ht => h.stepTask ht (hheard t ht)
  | callEnd =>
    simp only [Turns.step]
    split
    · rename_i kind drained stream ht
      exact h.of_move ht rfl rfl rfl rfl rfl fun heq => hstop (Option.some.inj heq)
    · exact h
  | recover => exact h.of_new rfl rfl rfl rfl (by simp [verdict])

end Session

/-! ## Every run -/

theorem kept_run (hs : s.Kept) {events : List Event} (h : Along step Heard s events)
    (hstop : ∀ e ∈ events, NoStop e) : (run step s events).Kept := by
  induction events generalizing s with
  | nil => exact hs
  | cons e events ih =>
    obtain ⟨hstop, hrest⟩ := forall_mem_cons.mp hstop
    exact ih (hs.step h.1 hstop) h.2 hrest

theorem length_le_work {more : List Event} (hint : ∀ e ∈ more, e.isInternal = true)
    (hmoves : Along step (fun s e => step s e ≠ s) s more) :
    more.length + (run step s more).work ≤ s.work + 8 * (more.map Event.retries).sum := by
  induction more generalizing s with
  | nil => simp
  | cons e more ih =>
    obtain ⟨hint, hrest⟩ := forall_mem_cons.mp hint
    have hstep := work_step hint hmoves.1
    have hmore := ih hrest hmoves.2
    rw [run_cons, length_cons, map_cons, sum_cons]
    omega

/-- The session comes to rest in a bounded number of steps; then every queued message has had its
turn. -/
theorem queued_messages_get_turns (events more : List Event) (hstop : ∀ e ∈ events ++ more, NoStop e)
    (h : Along step Heard .idle (events ++ more)) (hint : ∀ e ∈ more, e.isInternal = true)
    (hmoves : Along step (fun s e => step s e ≠ s) (run step .idle events) more) :
    let s := run step .idle (events ++ more)
    more.length ≤ (run step .idle events).work + 8 * (more.map Event.retries).sum ∧
      ((∀ e, e.isInternal = true → step s e = s) → ∀ m ∈ s.enqueued, m ∈ s.started) := by
  intro s
  refine ⟨Nat.le_of_add_right_le (length_le_work hint hmoves), fun hrest m hm => ?_⟩
  have hkept : s.Kept := kept_run kept_idle h hstop
  have hnobody : ¬ (s.tasks ≠ [] ∨ s.handlers ≠ []) := fun hsome =>
    let ⟨e, he, hne⟩ := exists_step hsome
    hne (hrest e he)
  rw [not_or, not_ne_iff, not_ne_iff] at hnobody
  rcases hkept.held m hm with hm | hm | hm
  · exact absurd hnobody.1 (hkept.taker (ne_nil_of_mem hm))
  · simp [taken, hnobody.1] at hm
  · exact hm

def busyStart : List Event :=
  [.arrive true, .handler 0, .handler 0, .task 0, .arrive true, .handler 0, .handler 0]

def finishing : List Event :=
  List.flatten
    [[.callEnd 0 ⟨false, .none⟩], List.replicate 6 (.task 0), [.callEnd 0 ⟨false, .none⟩], List.replicate 3 (.task 0)]

theorem finishing_rests (e : Event) (he : e.isInternal = true) :
    step (run step .idle (busyStart ++ finishing)) e = run step .idle (busyStart ++ finishing) := by
  rw [show run step .idle (busyStart ++ finishing) = ⟨false, [], [], [], false, 2, [1], [0, 1]⟩ by decide +kernel]
  cases e with
  | handler i | task i | callEnd i reply => rfl
  | arrive stream | recover | stuckAlert => simp [Event.isInternal] at he

theorem queued_messages_get_turns_finishing :
    finishing.length ≤ (run step .idle busyStart).work ∧ 1 ∈ (run step .idle (busyStart ++ finishing)).started := by
  have h := queued_messages_get_turns busyStart finishing (by decide +kernel) (by decide +kernel) (by decide +kernel)
    (by decide +kernel)
  exact ⟨h.1, h.2 finishing_rests 1 (by decide +kernel)⟩

def lateEnqueue : List Event :=
  List.flatten
    [[.arrive true, .handler 0, .handler 0, .task 0, .arrive true, .handler 0, .callEnd 0 ⟨false, .none⟩],
      List.replicate 4 (.task 0), [.handler 0]]

def stuckEnd : List Event :=
  List.flatten [busyStart, [.stuckAlert, .callEnd 0 ⟨false, .none⟩, .task 0, .task 0, .task 0]]

theorem queued_message_forgotten : run step .idle lateEnqueue = ⟨false, [1], [], [], false, 2, [1], [0]⟩ ∧
      run step .idle stuckEnd = ⟨false, [], [], [], false, 2, [1], [0]⟩ := by
  decide +kernel

end CloseClaw.Gateway.Turns
