/- The order of a session's writes (`checkpoint_manager.rs`). -/

import CloseClaw.Session.CheckpointManager

namespace CloseClaw.Session

open Lib

variable {Msg Rest : Type}

inductive SaveOrderCall (Msg Rest : Type) where
  | save (c : SessionCheckpoint Msg Rest)
  | saveDirect (c : SessionCheckpoint Msg Rest)
  | delete
  | archive

def SaveOrderCall.prepare (agentId : Option String) (role : Option AgentRole) :
    SaveOrderCall Msg Rest → SaveOrderCall Msg Rest
  | .save c => .save (CheckpointManager.injectIdentity agentId role c)
  | call => call

structure WriteTask (Msg Rest : Type) where
  pc : Pc Msg Rest
  next : List (Pc Msg Rest)

def SaveOrderCall.task : SaveOrderCall Msg Rest → WriteTask Msg Rest
  | .save c => ⟨.insertRow c, []⟩
  | .saveDirect c => ⟨.insertRow c, []⟩
  | .delete => ⟨.deleteRow, []⟩
  | .archive => ⟨.markMigrating, [.deleteRow]⟩

def SaveOrderCall.inBackground : SaveOrderCall Msg Rest → Bool
  | .save _ => true
  | _ => false

namespace WriteTask

def done (t : WriteTask Msg Rest) : Bool :=
  match t.pc with
  | .finished _ => true
  | _ => false

def advance : Pc Msg Rest → List (Pc Msg Rest) → WriteTask Msg Rest
  | .finished (.ok ()), pc :: next => ⟨pc, next⟩
  | pc, next => ⟨pc, next⟩

def step (C : StoreCodec Msg Rest) (id : String) (now : Int) (t : WriteTask Msg Rest) (s : Slot Rest) :
    WriteTask Msg Rest × Slot Rest :=
  if t.done then (t, s)
  else
    let (pc, s) := t.pc.step C id now s
    (advance pc t.next, s)

end WriteTask

structure SaveRun (Msg Rest : Type) where
  slot : Slot Rest
  agentId : Option String
  role : Option AgentRole
  tasks : List (SaveOrderCall Msg Rest × WriteTask Msg Rest)

inductive SaveEvent (Msg Rest : Type) where
  | call (c : SaveOrderCall Msg Rest)
  | write (task : Nat) (now : Int)

namespace SaveRun

def answered (s : SaveRun Msg Rest) : Bool :=
  match s.tasks.getLast? with
  | none => true
  | some (c, t) => c.inBackground || t.done

def step (C : StoreCodec Msg Rest) (id : String) (s : SaveRun Msg Rest) : SaveEvent Msg Rest → SaveRun Msg Rest
  | .call c =>
    let c := c.prepare s.agentId s.role
    if s.answered then { s with tasks := s.tasks ++ [(c, c.task)] } else s
  | .write i now =>
    match s.tasks[i]? with
    | none => s
    | some (c, t) =>
      let (t, slot) := t.step C id now s.slot
      { s with slot := slot, tasks := s.tasks.set i (c, t) }

def allDone (s : SaveRun Msg Rest) : Bool := s.tasks.all (·.2.done)

end SaveRun

def Stored (C : StoreCodec Msg Rest) (s : Slot Rest) (c : SessionCheckpoint Msg Rest) : Prop :=
  s.row = some (sessionRow c) ∧ s.active.map (·.text) = some (C.transcript.text c.pendingMessages)

def SaveOrderCall.Effect (C : StoreCodec Msg Rest) (s : Slot Rest) : SaveOrderCall Msg Rest → Prop
  | .save c => Stored C s c
  | .saveDirect c => Stored C s c
  | .delete => s.status ≠ some .active
  | .archive => s.status ≠ some .active

def LastCallWins (C : StoreCodec Msg Rest) (s : SaveRun Msg Rest) : Prop :=
  ∀ x ∈ s.tasks.getLast?, x.1.Effect C s.slot

def WritesInOrder (s : SaveRun Msg Rest) : SaveEvent Msg Rest → Prop
  | .call _ => True
  | .write i _ => ∀ x ∈ s.tasks.take i, x.2.done = true

instance WritesInOrder.decidable (s : SaveRun Msg Rest) : ∀ e, Decidable (WritesInOrder s e)
  | .call _ => isTrue trivial
  | .write i _ => inferInstanceAs (Decidable (∀ x ∈ s.tasks.take i, x.2.done = true))

variable {C : StoreCodec Msg Rest} {id : String} {now : Int} {s : Slot Rest}

def SaveOrderCall.Progress (C : StoreCodec Msg Rest) (s : Slot Rest) :
    SaveOrderCall Msg Rest → WriteTask Msg Rest → Prop
  | .save c, t | .saveDirect c, t => t.next = [] ∧
    match t.pc with
    | .insertRow c' => c' = c
    | .createFile pieces => pieces = C.pieces c.pendingMessages ∧ s.row = some (sessionRow c)
    | .writeFile offset piece pieces => s.row = some (sessionRow c) ∧ ∃ f, s.active = some f ∧ f.text.length = offset ∧
        f.text ++ piece ++ pieces.flatten = C.transcript.text c.pendingMessages
    | .finished _ => Stored C s c
    | _ => False
  | .delete, t => t.next = [] ∧
    match t.pc with
    | .deleteRow => True
    | .removeActive | .removeArchived | .finished _ => s.row = none
    | _ => False
  | .archive, t =>
    match t.pc with
    | .markMigrating => t.next = [.deleteRow]
    | .testArchived | .moveToArchived | .stampArchived => t.next = [.deleteRow] ∧ s.status = some .migrating
    | .finished _ => s.status ≠ some .active
    | .deleteRow => t.next = []
    | .removeActive | .removeArchived => t.next = [] ∧ s.row = none
    | _ => False

open SaveOrderCall

theorem progress_task (c : SaveOrderCall Msg Rest) : c.Progress C s c.task := by
  cases c <;> simp [Progress, task]

theorem done_task (c : SaveOrderCall Msg Rest) : c.task.done = false := by
  cases c <;> rfl

variable {c : SaveOrderCall Msg Rest} {t : WriteTask Msg Rest}

theorem effect_of_progress (h : c.Progress C s t) (hd : t.done = true) : c.Effect C s := by
  obtain ⟨pc, next⟩ := t
  cases pc <;> simp only [WriteTask.done, Bool.false_eq_true] at hd
  cases c with
  | save | saveDirect => exact h.2
  | delete =>
    have hrow : s.row = none := h.2
    simp [Effect, Slot.status, hrow]
  | archive => exact h

theorem progress_writing {c : SessionCheckpoint Msg Rest} {pieces : List (List Char)} {f : TranscriptFile}
    (hrow : s.row = some (sessionRow c)) (hf : s.active = some f)
    (htext : f.text ++ pieces.flatten = C.transcript.text c.pendingMessages) :
    (saveDirect c).Progress C s (WriteTask.advance (.writing f.text.length pieces) []) := by
  cases pieces with
  | nil => exact ⟨rfl, hrow, by simpa [hf] using htext⟩
  | cons => exact ⟨rfl, hrow, f, hf, rfl, by simpa using htext⟩

theorem progress_step_save {c : SessionCheckpoint Msg Rest} (h : (saveDirect c).Progress C s t) :
    (saveDirect c).Progress C (t.step C id now s).2 (t.step C id now s).1 := by
  obtain ⟨pc, next⟩ := t
  obtain ⟨rfl, h⟩ := h
  cases pc with
  | insertRow => cases h; exact ⟨rfl, rfl, rfl⟩
  | createFile =>
    obtain ⟨rfl, hrow⟩ := h
    exact progress_writing (f := ⟨[], now / 1000⟩) hrow rfl (by simp [C.pieces_flatten])
  | writeFile offset piece =>
    obtain ⟨hrow, f, hf, rfl, htext⟩ := h
    have hw := f.writeAt_length piece now
    have := progress_writing (C := C) (s := { s with active := some ⟨f.text ++ piece, now / 1000⟩ })
      (f := ⟨f.text ++ piece, now / 1000⟩) hrow rfl htext
    simpa [WriteTask.step, WriteTask.done, Pc.step, hf, hw] using this
  | finished => exact ⟨rfl, h⟩
  | _ => exact h.elim

theorem progress_step_delete (h : delete.Progress C s t) :
    delete.Progress C (t.step C id now s).2 (t.step C id now s).1 := by
  obtain ⟨pc, next⟩ := t
  obtain ⟨rfl, h⟩ := h
  cases pc with
  | deleteRow => exact ⟨rfl, rfl⟩
  | removeActive | removeArchived | finished => exact ⟨rfl, h⟩
  | _ => exact h.elim

theorem progress_step_archive (h : archive.Progress C s t) :
    archive.Progress C (t.step C id now s).2 (t.step C id now s).1 := by
  obtain ⟨pc, next⟩ := t
  cases pc with
  | markMigrating =>
    obtain rfl : next = [.deleteRow] := h
    obtain ⟨row, active, archived⟩ := s
    rcases row with _ | ⟨status, at_, archivedAt, agent, role, rest⟩
    · rfl
    · cases status
      · exact ⟨rfl, rfl⟩
      · exact ⟨rfl, rfl⟩
      · rfl
  | testArchived =>
    obtain ⟨row, active, archived⟩ := s
    cases archived <;> exact h
  | moveToArchived =>
    obtain ⟨row, active, archived⟩ := s
    cases active with
    | none => exact fun ha => absurd (h.2.symm.trans ha) (by decide)
    | some => exact h
  | stampArchived =>
    obtain ⟨rfl, -⟩ := h
    rfl
  | finished | removeActive => exact h
  | deleteRow => exact ⟨h, rfl⟩
  | removeArchived =>
    obtain ⟨rfl, hrow⟩ := h
    simp [WriteTask.step, WriteTask.done, Pc.step, WriteTask.advance, Progress, Slot.status, hrow]
  | _ => exact h.elim

theorem progress_step (h : c.Progress C s t) : c.Progress C (t.step C id now s).2 (t.step C id now s).1 := by
  cases c with
  | save | saveDirect => exact progress_step_save h
  | delete => exact progress_step_delete h
  | archive => exact progress_step_archive h

def InOrder (C : StoreCodec Msg Rest) (s : Slot Rest) :
    Option (SaveOrderCall Msg Rest) → List (SaveOrderCall Msg Rest × WriteTask Msg Rest) → Prop
  | last, [] => ∀ c ∈ last, c.Effect C s
  | _, (c, t) :: tasks =>
    (t.done = true ∧ InOrder C s (some c) tasks ) ∨ (t.done = false ∧ c.Progress C s t ∧ ∀ x ∈ tasks, x.2 = x.1.task)

variable {last : Option (SaveOrderCall Msg Rest)} {tasks : List (SaveOrderCall Msg Rest × WriteTask Msg Rest)}

theorem inOrder_fresh (hlast : ∀ c ∈ last, c.Effect C s) (h : ∀ x ∈ tasks, x.2 = x.1.task) : InOrder C s last tasks := by
  cases tasks with
  | nil => exact hlast
  | cons x =>
    have hx : x.2 = x.1.task := h x (by simp)
    exact .inr ⟨hx ▸ done_task x.1, hx ▸ progress_task x.1, fun y hy => h y (by simp [hy])⟩

theorem inOrder_append (h : InOrder C s last tasks) (c : SaveOrderCall Msg Rest) :
    InOrder C s last (tasks ++ [(c, c.task)]) := by
  induction tasks generalizing last with
  | nil => exact inOrder_fresh h (by simp)
  | cons x tasks ih =>
    rcases h with ⟨hd, h⟩ | ⟨hd, hp, hf⟩
    · exact .inl ⟨hd, ih h⟩
    · refine .inr ⟨hd, hp, ?_⟩
      intro y hy
      rcases List.mem_append.mp hy with hy | hy
      · exact hf y hy
      · rw [List.mem_singleton.mp hy]

theorem inOrder_write {i : Nat} (h : InOrder C s last tasks)
    (hi : ∀ x ∈ tasks.take i, x.2.done = true) (ht : tasks[i]? = some (c, t)) :
    InOrder C (t.step C id now s).2 last (tasks.set i (c, (t.step C id now s).1)) := by
  induction tasks generalizing last i with
  | nil => simp at ht
  | cons x tasks ih =>
    cases i with
    | zero =>
      obtain rfl : x = (c, t) := by simpa using ht
      rcases h with ⟨hd, h⟩ | ⟨hd, hp, hf⟩
      · have hd' : t.done = true := hd
        have hstep : t.step C id now s = (t, s) := by simp [WriteTask.step, hd']
        rw [hstep]
        exact .inl ⟨hd, h⟩
      · have hp' : c.Progress C (t.step C id now s).2 (t.step C id now s).1 := progress_step hp
        cases hd' : (t.step C id now s).1.done with
        | false => exact .inr ⟨hd', hp', hf⟩
        | true => exact .inl ⟨hd', inOrder_fresh (by simpa using effect_of_progress hp' hd') hf⟩
    | succ =>
      have hx : x.2.done = true := hi x (by simp)
      rcases h with ⟨hd, h⟩ | ⟨hd, -, -⟩
      · exact .inl ⟨hd, ih h (fun y hy => hi y (by simp [hy])) (by simpa using ht)⟩
      · rw [hx] at hd; cases hd

theorem effect_of_inOrder (h : InOrder C s last tasks) (hd : ∀ x ∈ tasks, x.2.done = true) :
    ∀ c ∈ (tasks.getLast?.map (·.1)).or last, c.Effect C s := by
  induction tasks generalizing last with
  | nil => simpa [InOrder] using h
  | cons x tasks ih =>
    have hx : x.2.done = true := hd x (by simp)
    rcases h with ⟨-, h⟩ | ⟨hn, -, -⟩
    · have hlast := ih h fun y hy => hd y (by simp [hy])
      cases hl : tasks.getLast? with
      | none =>
        obtain rfl := List.getLast?_eq_none_iff.mp hl
        simpa using hlast
      | some y =>
        have hl' : (x :: tasks).getLast? = some y := by simp [List.getLast?_cons, hl]
        rw [hl']
        simpa [hl] using hlast
    · rw [hx] at hn; cases hn

open SaveRun

theorem step_inOrder {r : SaveRun Msg Rest} {e : SaveEvent Msg Rest} (h : InOrder C r.slot none r.tasks)
    (he : WritesInOrder r e) : InOrder C (r.step C id e).slot none (r.step C id e).tasks := by
  cases e with
  | call =>
    simp only [step]
    split
    · exact inOrder_append h _
    · exact h
  | write i =>
    simp only [step]
    cases ht : r.tasks[i]? with
    | none => exact h
    | some => exact inOrder_write h he ht

theorem ordered_writes_let_the_last_call_win (C : StoreCodec Msg Rest) (id : String) (slot : Slot Rest)
    (agentId : Option String) (role : Option AgentRole) (events : List (SaveEvent Msg Rest))
    (h : Trace.Along (step C id) WritesInOrder ⟨slot, agentId, role, []⟩ events)
    (hd : (Trace.run (step C id) ⟨slot, agentId, role, []⟩ events).allDone = true) :
    LastCallWins C (Trace.run (step C id) ⟨slot, agentId, role, []⟩ events) := by
  have hi : InOrder C (Trace.run (step C id) ⟨slot, agentId, role, []⟩ events).slot none
      (Trace.run (step C id) ⟨slot, agentId, role, []⟩ events).tasks :=
    Trace.invariant_along (I := fun r => InOrder C r.slot none r.tasks) (fun r e => step_inOrder) (by simp [InOrder]) h
  have := effect_of_inOrder hi (by simpa [allDone] using hd)
  intro x hx
  exact this x.1 (by simp [Option.mem_def.mp hx])

def savedThenDeleted : List (SaveEvent Bool Unit) :=
  [.call (.save (notes [true])), .write 0 1000, .write 0 1000, .write 0 1000, .call (.saveDirect (notes [])),
    .write 1 2000,
    .write 1 2000, .call .delete, .write 2 3000, .write 2 3000, .write 2 3000]

theorem savedThenDeleted_leaves_no_active_row :
    Trace.Along (step noteStore "s1") WritesInOrder ⟨Slot.empty, none, none, []⟩ savedThenDeleted ∧
      (Trace.run (step noteStore "s1") ⟨Slot.empty, none, none, []⟩ savedThenDeleted).allDone = true ∧
        LastCallWins noteStore (Trace.run (step noteStore "s1") ⟨Slot.empty, none, none, []⟩ savedThenDeleted) :=
  ⟨by decide, by decide,
    ordered_writes_let_the_last_call_win noteStore "s1" Slot.empty none none savedThenDeleted (by decide) (by decide)⟩

def overtakenSave : List (SaveEvent Bool Unit) :=
  [.call (.save (notes [true])), .call (.save (notes [])), .write 1 1000, .write 1 1000, .write 0 2000, .write 0 2000,
    .write 0 2000]

theorem an_overtaken_save_wins :
    (Trace.run (step noteStore "s1") ⟨Slot.empty, none, none, []⟩ overtakenSave).allDone = true ∧
      ¬ LastCallWins noteStore (Trace.run (step noteStore "s1") ⟨Slot.empty, none, none, []⟩ overtakenSave) := by
  refine ⟨by decide, ?_⟩
  intro h
  have hstored := (h (_, _) rfl).2
  revert hstored
  decide

end CloseClaw.Session
