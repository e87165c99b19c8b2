/- The turns of one session, step by step (`session_handler.rs`, `session_handler_dispatch.rs`,
   `session_handler_announce.rs`). -/

import CloseClaw.Lib.Trace
import Mathlib.Data.List.Basic

namespace CloseClaw.Gateway.Turns

open Lib List

inductive Verdict where
  | none
  | notifyUser
  | retry
  | stop
  deriving DecidableEq

structure Reply where
  hasToolUse : Bool
  verdict : Verdict
  deriving DecidableEq

inductive HandlerPc where
  | checkBusy
  | enqueuePending
  | dispatchLlmCall
  deriving DecidableEq

structure Handler where
  message : Nat
  stream : Bool
  pc : HandlerPc
  deriving DecidableEq

inductive TaskPc where
  | callLlm (message : Option Nat) (stream : Bool)
  | inFlight (stream : Bool)
  | clearBusy (reply : Reply)
  | dispatchTools (reply : Reply)
  | runTools (reply : Reply)
  | recover (verdict : Verdict)
  | drainAnnounces
  | popPending
  | setBusy (message : Nat)
  deriving DecidableEq

def TaskPc.message : TaskPc → Option Nat
  | .callLlm message _ => message
  | .setBusy message => some message
  | _ => none

def TaskPc.isInFlight : TaskPc → Bool
  | .inFlight _ => true
  | _ => false

inductive TaskKind where
  | turn
  | recovery
  deriving DecidableEq

structure Task where
  kind : TaskKind
  drained : Bool
  pc : TaskPc
  deriving DecidableEq

structure Session where
  llmActive : Bool
  queue : List Nat
  handlers : List Handler
  tasks : List Task
  stuckAlert : Bool
  arrived : Nat
  enqueued : List Nat
  started : List Nat
  deriving DecidableEq

def Session.idle : Session := ⟨false, [], [], [], false, 0, [], []⟩

def splice {α : Type} (l : List α) (i : Nat) (new : List α) : List α := l.take i ++ new ++ l.drop (i + 1)

namespace Session

def isBusy (s : Session) : Bool :=
  s.llmActive || s.tasks.any fun t => match t.pc with | .runTools _ => true | _ => false

def locked (s : Session) : Bool := s.tasks.any (·.pc = .inFlight false)

def setTask (s : Session) (i : Nat) (new : List Task) : Session := { s with tasks := splice s.tasks i new }

def setHandler (s : Session) (i : Nat) (new : List Handler) : Session := { s with handlers := splice s.handlers i new }

def stepHandler (s : Session) (i : Nat) (h : Handler) : Session :=
  match h.pc with
  | .checkBusy => s.setHandler i [{ h with pc := if s.isBusy then .enqueuePending else .dispatchLlmCall }]
  | .enqueuePending =>
    { s.setHandler i [] with queue := s.queue ++ [h.message], enqueued := s.enqueued ++ [h.message] }
  | .dispatchLlmCall =>
    { s.setHandler i [] with
      llmActive := true
      tasks := s.tasks ++ [⟨.turn, false, .callLlm (some h.message) h.stream⟩] }

def stepTask (s : Session) (i : Nat) (t : Task) : Session :=
  match t.pc with
  | .callLlm message stream =>
    { s.setTask i [{ t with pc := .inFlight stream }] with started := s.started ++ message.toList }
  | .inFlight _ => s
  | .clearBusy reply =>
    { s.setTask i [{ t with pc :=
        match t.kind with
        | .turn => if reply.hasToolUse then .dispatchTools reply else .recover reply.verdict
        | .recovery => .popPending }] with
      llmActive := false }
  | .dispatchTools reply => s.setTask i [{ t with pc := .runTools reply }]
  | .runTools reply => s.setTask i [{ t with pc := .recover reply.verdict }]
  | .recover .retry => s.setTask i [{ t with pc := .callLlm none false }]
  | .recover .stop => s.setTask i []
  | .recover _ => s.setTask i [{ t with pc := if t.drained then .popPending else .drainAnnounces }]
  | .drainAnnounces =>
    if s.stuckAlert then { s.setTask i [] with queue := [], stuckAlert := false }
    else s.setTask i [{ t with drained := true, pc := .popPending }]
  | .popPending =>
    match s.queue with
    | [] => s.setTask i []
    | message :: rest => { s.setTask i [{ t with pc := .setBusy message }] with queue := rest }
  | .setBusy message => { s.setTask i [{ t with pc := .callLlm (some message) false }] with llmActive := true }

end Session

inductive Event where
  | arrive (stream : Bool)
  | handler (i : Nat)
  | task (i : Nat)
  | callEnd (i : Nat) (reply : Reply)
  | recover
  | stuckAlert

def step (s : Session) : Event → Session
  | .arrive stream => { s with handlers := s.handlers ++ [⟨s.arrived, stream, .checkBusy⟩], arrived := s.arrived + 1 }
  | .handler i =>
    match s.handlers[i]? with
    | some h => if s.locked then s else s.stepHandler i h
    | none => s
  | .task i =>
    match s.tasks[i]? with
    | some t => if s.locked then s else s.stepTask i t
    | none => s
  | .callEnd i reply =>
    match s.tasks[i]? with
    | some ⟨kind, drained, .inFlight _⟩ => s.setTask i [⟨kind, drained, .clearBusy reply⟩]
    | _ => s
  | .recover => { s with tasks := s.tasks ++ [⟨.recovery, false, .drainAnnounces⟩] }
  | .stuckAlert => { s with stuckAlert := true }

variable {P : Session → Prop} {s : Session}

theorem step_handler_of {i : Nat} (h : P s) (hstep : ∀ hd, s.handlers[i]? = some hd → P (s.stepHandler i hd)) :
    P (step s (.handler i)) := by
  simp only [step]
  split
  · rename_i hd hget
    split
    · exact h
    · exact hstep hd hget
  · exact h

theorem step_task_of {i : Nat} (h : P s) (hstep : ∀ t, s.tasks[i]? = some t → P (s.stepTask i t)) :
    P (step s (.task i)) := by
  simp only [step]
  split
  · rename_i t ht
    split
    · exact h
    · exact hstep t ht
  · exact h

section Splice

variable {α : Type} {l : List α} {i : Nat} {a : α}

theorem eq_splice (h : l[i]? = some a) : l = l.take i ++ a :: l.drop (i + 1) := by
  obtain ⟨hi, rfl⟩ := List.getElem?_eq_some_iff.mp h
  rw [getElem_cons_drop, take_append_drop]

theorem count_splice (h : l[i]? = some a) (f : α → Option Nat) (new : List α) (m : Nat) :
    ((splice l i new).filterMap f).count m + (f a).toList.count m =
      (l.filterMap f).count m + (new.filterMap f).count m := by
  conv_rhs => rw [eq_splice h]
  cases hf : f a <;> simp [splice, hf, count_cons] <;> omega

theorem mem_splice {new : List α} {b : α} (h : b ∈ splice l i new) : b ∈ new ∨ b ∈ l := by
  simp only [splice, mem_append] at h
  rcases h with (h | h) | h
  · exact .inr (mem_of_mem_take h)
  · exact .inl h
  · exact .inr (mem_of_mem_drop h)

theorem splice_of_length_le_one (hl : l.length ≤ 1) (h : l[i]? = some a) (new : List α) :
    l = [a] ∧ splice l i new = new := by
  obtain ⟨hi, rfl⟩ := List.getElem?_eq_some_iff.mp h
  obtain rfl : i = 0 := by omega
  obtain ⟨b, rfl⟩ := length_eq_one_iff.mp (by omega : l.length = 1)
  simp [splice]

end Splice

end CloseClaw.Gateway.Turns
