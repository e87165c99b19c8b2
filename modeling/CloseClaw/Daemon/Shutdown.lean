/- The state of a shutdown (`daemon/src/shutdown.rs`): one atomic cell, with other steps between a
   load and its compare-and-exchange. -/

import CloseClaw.Lib.Trace
import Mathlib.Data.List.AList

namespace CloseClaw.Daemon.Shutdown

open Lib AList

inductive ShutdownState where
  | running
  | shuttingDown
  | draining
  | stopped
  | forcefulShuttingDown
  deriving DecidableEq

inductive ShutdownMode where
  | graceful
  | forceful
  deriving DecidableEq

namespace ShutdownState

def isShuttingDownState : ShutdownState → Bool
  | .shuttingDown | .draining | .forcefulShuttingDown => true
  | .running | .stopped => false

def mode : ShutdownState → ShutdownMode
  | .forcefulShuttingDown => .forceful
  | _ => .graceful

end ShutdownState

structure EscalateCall where
  secondRound : Bool
  loaded : Option ShutdownState

inductive DrainTask where
  | polling
  | finalizing
  | drained
  deriving DecidableEq

structure Coordinator where
  state : ShutdownState
  answers : List Bool
  forced : Bool
  calls : AList fun _ : Nat => EscalateCall
  drains : AList fun _ : Nat => DrainTask

inductive Event where
  | tryStartShutdown
  | tryStartForcefulShutdown
  | escalateToForceful (call : Nat)
  | escalateLoad (call : Nat)
  | escalateExchange (call : Nat)
  | initiateShutdown (task : Nat)
  | drainPoll (task : Nat) (busyCount : Nat) (timedOut : Bool)
  | startDrain (task : Nat)
  | markStopped (task : Nat)

namespace Coordinator

def init : Coordinator := ⟨.running, [], false, ∅, ∅⟩

def tryStart (s : Coordinator) (target : ShutdownState) : Coordinator :=
  if s.state = .running then { s with state := target, answers := s.answers ++ [true] }
  else { s with answers := s.answers ++ [false] }

variable (s : Coordinator) (target : ShutdownState)

theorem calls_tryStart : (s.tryStart target).calls = s.calls := by
  unfold tryStart
  split_ifs <;> rfl

theorem drains_tryStart : (s.tryStart target).drains = s.drains := by
  unfold tryStart
  split_ifs <;> rfl

theorem forced_tryStart : (s.tryStart target).forced = s.forced := by
  unfold tryStart
  split_ifs <;> rfl

def tryStartForcefulShutdown (s : Coordinator) : Coordinator :=
  { s.tryStart .forcefulShuttingDown with forced := s.forced || s.state == .running }

def escalateLoad (s : Coordinator) (id : Nat) (call : EscalateCall) : Coordinator :=
  if s.state = .forcefulShuttingDown ∨ s.state = .running then { s with calls := s.calls.erase id }
  else { s with calls := s.calls.insert id { call with loaded := some s.state } }

def escalateExchange (s : Coordinator) (id : Nat) (call : EscalateCall) (current : ShutdownState) : Coordinator :=
  if s.state = current then
    { s with state := .forcefulShuttingDown, forced := true, calls := s.calls.erase id }
  else if call.secondRound then { s with calls := s.calls.erase id }
  else { s with calls := s.calls.insert id ⟨true, none⟩ }

def drainPoll (s : Coordinator) (task busyCount : Nat) (timedOut : Bool) : Coordinator :=
  if s.state = .forcefulShuttingDown ∨ busyCount = 0 ∨ timedOut = true then
    { s with drains := s.drains.insert task .finalizing }
  else s

def step (s : Coordinator) : Event → Coordinator
  | .tryStartShutdown => s.tryStart .shuttingDown
  | .tryStartForcefulShutdown => s.tryStartForcefulShutdown
  | .escalateToForceful id => if id ∈ s.calls then s else { s with calls := s.calls.insert id ⟨false, none⟩ }
  | .escalateLoad id =>
    match s.calls.lookup id with
    | some ⟨secondRound, none⟩ => s.escalateLoad id ⟨secondRound, none⟩
    | _ => s
  | .escalateExchange id =>
    match s.calls.lookup id with
    | some ⟨secondRound, some current⟩ => s.escalateExchange id ⟨secondRound, some current⟩ current
    | _ => s
  | .initiateShutdown task =>
    if task ∈ s.drains then s
    else { s.tryStart .shuttingDown with drains := s.drains.insert task .polling }
  | .drainPoll task busyCount timedOut =>
    if s.drains.lookup task = some .polling then s.drainPoll task busyCount timedOut else s
  | .startDrain task =>
    if s.drains.lookup task = some .finalizing then
      { s with state := .draining, drains := s.drains.insert task .drained }
    else s
  | .markStopped task =>
    if s.drains.lookup task = some .drained then
      { s with state := .stopped, drains := s.drains.erase task }
    else s

def isShuttingDown (s : Coordinator) : Bool := s.state.isShuttingDownState

def mode (s : Coordinator) : ShutdownMode := s.state.mode

end Coordinator

/-! ## What a shutdown owes -/

def OneStarter (s : Coordinator) : Prop := s.answers = [] ∨ s.answers.count true = 1

structure Forward (s : Coordinator) : Prop where
  starter : OneStarter s
  shuttingDown : true ∈ s.answers → s.isShuttingDown = true
  forceful : s.forced = true → s.mode = .forceful

/-- No drain task stores `stopped`, and none stores `draining` once the shutdown is
    forceful. -/
def Unfinished (s : Coordinator) : Event → Prop
  | .startDrain task => s.drains.lookup task = some .finalizing → s.forced = false
  | .markStopped task => s.drains.lookup task ≠ some .drained
  | _ => True

/-! ## What a step does -/

inductive Effect (s : Coordinator) : Event → Coordinator → Prop
  | quiet {e s'} : s'.state = s.state → s'.answers = s.answers → s'.forced = s.forced → Unfinished s e → Effect s e s'
  | refused {e s'} : s.state ≠ .running → s'.state = s.state → s'.answers = s.answers ++ [false] →
      s'.forced = s.forced → Unfinished s e → Effect s e s'
  | started {e s'} : s.state = .running → s'.state = .shuttingDown → s'.answers = s.answers ++ [true] →
      s'.forced = s.forced → Unfinished s e → Effect s e s'
  | startedForceful {e s'} : s.state = .running → s'.state = .forcefulShuttingDown → s'.answers = s.answers ++ [true] →
      s'.forced = true → Unfinished s e → Effect s e s'
  | escalated {e s'} : s.state ≠ .running → s'.state = .forcefulShuttingDown → s'.answers = s.answers →
      s'.forced = true → Unfinished s e → Effect s e s'
  | drained {e s'} : s.state ≠ .running → s'.state = .draining → s'.answers = s.answers → s'.forced = s.forced →
      (Unfinished s e ↔ s.forced = false) → Effect s e s'
  | stopped {e s'} : s.state ≠ .running → s'.state = .stopped → s'.answers = s.answers → s'.forced = s.forced →
      ¬ Unfinished s e → Effect s e s'

structure Inv (s : Coordinator) : Prop where
  before : s.state = .running → s.answers = [] ∧ s.forced = false ∧ ∀ task, task ∉ s.drains
  after : s.state ≠ .running → s.answers.count true = 1
  loaded : ∀ id second current, s.calls.lookup id = some ⟨second, some current⟩ → current ≠ .running

open Coordinator

theorem inv_init : Inv init := by
  refine ⟨fun _ => ⟨rfl, rfl, notMem_empty⟩, fun h => absurd rfl h, ?_⟩
  intro id second current h
  cases h

section Step

variable {s : Coordinator}

theorem Inv.state_ne_running (h : Inv s) {task : Nat} {phase : DrainTask} (hd : s.drains.lookup task = some phase) :
    s.state ≠ .running := by
  intro hrunning
  have hmem : task ∈ s.drains := lookup_isSome.mp (by rw [hd]; rfl)
  exact (h.before hrunning).2.2 task hmem

theorem effect_tryStart {e : Event} {s' : Coordinator} (hu : Unfinished s e)
    (hstate : s'.state = (s.tryStart .shuttingDown).state) (hanswers : s'.answers = (s.tryStart .shuttingDown).answers)
    (hforced : s'.forced = s.forced) : Effect s e s' := by
  by_cases hrunning : s.state = .running
  · simp only [tryStart, if_pos hrunning] at hstate hanswers
    exact .started hrunning hstate hanswers hforced hu
  · simp only [tryStart, if_neg hrunning] at hstate hanswers
    exact .refused hrunning hstate hanswers hforced hu

theorem effect_step (h : Inv s) (e : Event) : Effect s e (s.step e) := by
  cases e with
  | tryStartShutdown =>
    exact effect_tryStart trivial rfl rfl (s.forced_tryStart _)
  | tryStartForcefulShutdown =>
    by_cases hrunning : s.state = .running
    · refine .startedForceful hrunning ?_ ?_ ?_ trivial <;>
        simp [step, tryStartForcefulShutdown, tryStart, hrunning]
    · refine .refused hrunning ?_ ?_ ?_ trivial <;>
        simp [step, tryStartForcefulShutdown, tryStart, hrunning]
  | escalateToForceful =>
    simp only [step]
    split_ifs
    · exact .quiet rfl rfl rfl trivial
    · exact .quiet rfl rfl rfl trivial
  | escalateLoad =>
    simp only [step]
    split
    · unfold escalateLoad
      split_ifs
      · exact .quiet rfl rfl rfl trivial
      · exact .quiet rfl rfl rfl trivial
    · exact .quiet rfl rfl rfl trivial
  | escalateExchange id =>
    simp only [step]
    split
    · rename_i second current hcall
      unfold escalateExchange
      split_ifs with hsame
      · exact .escalated (hsame ▸ h.loaded id second current hcall) rfl rfl rfl trivial
      · exact .quiet rfl rfl rfl trivial
      · exact .quiet rfl rfl rfl trivial
    · exact .quiet rfl rfl rfl trivial
  | initiateShutdown =>
    simp only [step]
    split_ifs
    · exact .quiet rfl rfl rfl trivial
    · exact effect_tryStart trivial rfl rfl (s.forced_tryStart _)
  | drainPoll =>
    simp only [step]
    split_ifs
    · unfold drainPoll
      split_ifs
      · exact .quiet rfl rfl rfl trivial
      · exact .quiet rfl rfl rfl trivial
    · exact .quiet rfl rfl rfl trivial
  | startDrain =>
    simp only [step]
    split_ifs with hd
    · exact .drained (h.state_ne_running hd) rfl rfl rfl (by simp [Unfinished, hd])
    · exact .quiet rfl rfl rfl (fun hfinal => absurd hfinal hd)
  | markStopped =>
    simp only [step]
    split_ifs with hd
    · exact .stopped (h.state_ne_running hd) rfl rfl rfl (by simp [Unfinished, hd])
    · exact .quiet rfl rfl rfl hd

theorem Effect.of_running {e : Event} {s' : Coordinator} (he : Effect s e s') (hrunning : s'.state = .running) :
    s.state = .running ∧ s'.answers = s.answers ∧ s'.forced = s.forced := by
  cases he with
  | quiet hstate hanswers hforced => exact ⟨hstate.symm.trans hrunning, hanswers, hforced⟩
  | refused hold hstate => exact absurd (hstate.symm.trans hrunning) hold
  | started _ hstate => cases hstate.symm.trans hrunning
  | startedForceful _ hstate => cases hstate.symm.trans hrunning
  | escalated _ hstate => cases hstate.symm.trans hrunning
  | drained _ hstate => cases hstate.symm.trans hrunning
  | stopped _ hstate => cases hstate.symm.trans hrunning

theorem calls_step (s : Coordinator) (e : Event) :
    (s.step e).calls = s.calls ∨ (∃ id, (s.step e).calls = s.calls.erase id) ∨
      ∃ id call, (∀ current, call.loaded = some current → current ≠ .running) ∧
        (s.step e).calls = s.calls.insert id call := by
  cases e with
  | tryStartShutdown | tryStartForcefulShutdown => exact .inl (s.calls_tryStart _)
  | escalateToForceful id =>
    simp only [step]
    split_ifs
    · exact .inl rfl
    · exact .inr (.inr ⟨id, ⟨false, none⟩, by simp, rfl⟩)
  | escalateLoad id =>
    simp only [step]
    split
    · unfold escalateLoad
      split_ifs with hnone
      · exact .inr (.inl ⟨id, rfl⟩)
      · refine .inr (.inr ⟨id, _, ?_, rfl⟩)
        intro current hcurrent
        obtain rfl := Option.some.inj hcurrent
        exact fun hrunning => hnone (.inr hrunning)
    · exact .inl rfl
  | escalateExchange id =>
    simp only [step]
    split
    · unfold escalateExchange
      split_ifs
      · exact .inr (.inl ⟨id, rfl⟩)
      · exact .inr (.inl ⟨id, rfl⟩)
      · exact .inr (.inr ⟨id, ⟨true, none⟩, by simp, rfl⟩)
    · exact .inl rfl
  | initiateShutdown =>
    simp only [step]
    split_ifs
    · exact .inl rfl
    · exact .inl (s.calls_tryStart _)
  | drainPoll =>
    simp only [step, drainPoll]
    split_ifs
    · exact .inl rfl
    · exact .inl rfl
    · exact .inl rfl
  | startDrain | markStopped =>
    simp only [step]
    split_ifs
    · exact .inl rfl
    · exact .inl rfl

theorem Inv.loaded_step (h : Inv s) (e : Event) : ∀ id second current,
    (s.step e).calls.lookup id = some ⟨second, some current⟩ → current ≠ .running := by
  intro id second current hid
  obtain hsame | ⟨j, herase⟩ | ⟨j, call, hcall, hinsert⟩ := calls_step s e
  · exact h.loaded id second current (hsame ▸ hid)
  · rw [herase] at hid
    by_cases hij : id = j
    · rw [hij, lookup_erase] at hid
      cases hid
    · rw [lookup_erase_ne hij] at hid
      exact h.loaded id second current hid
  · rw [hinsert] at hid
    by_cases hij : id = j
    · rw [hij, lookup_insert] at hid
      obtain rfl := Option.some.inj hid
      exact hcall current rfl
    · rw [lookup_insert_ne hij] at hid
      exact h.loaded id second current hid

theorem Inv.drains_step (h : Inv s) {e : Event} (hrunning : (s.step e).state = .running) :
    ∀ task, task ∉ (s.step e).drains := by
  have hbefore := ((effect_step h e).of_running hrunning).1
  have hempty := (h.before hbefore).2.2
  have hnone : ∀ task, s.drains.lookup task = none := fun task => lookup_eq_none.mpr (hempty task)
  have hsame : (s.step e).drains = s.drains := by
    cases e with
    | initiateShutdown task =>
      simp [step, hempty task, tryStart, hbefore] at hrunning
    | tryStartShutdown | tryStartForcefulShutdown => exact s.drains_tryStart _
    | escalateToForceful =>
      simp only [step]
      split_ifs <;> rfl
    | escalateLoad =>
      simp only [step, escalateLoad]
      split
      · split_ifs <;> rfl
      · rfl
    | escalateExchange =>
      simp only [step, escalateExchange]
      split
      · split_ifs <;> rfl
      · rfl
    | drainPoll task => simp [step, hnone task]
    | startDrain task => simp [step, hnone task]
    | markStopped task => simp [step, hnone task]
  rw [hsame]
  exact hempty

theorem Inv.step (h : Inv s) (e : Event) : Inv (s.step e) := by
  refine ⟨fun hrunning => ?_, fun hne => ?_, h.loaded_step e⟩
  · obtain ⟨hbefore, hanswers, hforced⟩ := (effect_step h e).of_running hrunning
    obtain ⟨hnil, hflag, -⟩ := h.before hbefore
    exact ⟨hanswers.trans hnil, hforced.trans hflag, h.drains_step hrunning⟩
  · cases effect_step h e with
    | quiet hstate hanswers =>
      rw [hanswers]
      exact h.after (hstate ▸ hne)
    | refused hold hstate hanswers =>
      rw [hanswers, List.count_append, h.after hold]
      rfl
    | started hold hstate hanswers =>
      rw [hanswers, (h.before hold).1]
      rfl
    | startedForceful hold hstate hanswers =>
      rw [hanswers, (h.before hold).1]
      rfl
    | escalated hold hstate hanswers => rw [hanswers, h.after hold]
    | drained hold hstate hanswers => rw [hanswers, h.after hold]
    | stopped hold hstate hanswers => rw [hanswers, h.after hold]

theorem Inv.oneStarter (h : Inv s) : OneStarter s := by
  by_cases hrunning : s.state = .running
  · exact .inl (h.before hrunning).1
  · exact .inr (h.after hrunning)

theorem Inv.mem_answers (h : Inv s) : true ∈ s.answers ↔ s.state ≠ .running := by
  constructor
  · intro hmem hrunning
    rw [(h.before hrunning).1] at hmem
    cases hmem
  · intro hne
    have hcount := h.after hne
    exact List.count_pos_iff.mp (by omega)

theorem Inv.forward_iff (h : Inv s) :
    Forward s ↔ s.state ≠ .stopped ∧ (s.forced = true → s.state = .forcefulShuttingDown) := by
  constructor
  · intro hf
    refine ⟨fun hstopped => ?_, fun hflag => ?_⟩
    · have hmem : true ∈ s.answers := h.mem_answers.mpr (by rw [hstopped]; decide)
      have hshut := hf.shuttingDown hmem
      rw [isShuttingDown, hstopped] at hshut
      cases hshut
    · have hmode := hf.forceful hflag
      unfold mode at hmode
      revert hmode
      cases s.state <;> decide
  · rintro ⟨hne, hforceful⟩
    refine ⟨h.oneStarter, fun hmem => ?_, fun hflag => ?_⟩
    · have hstarted := h.mem_answers.mp hmem
      unfold isShuttingDown
      revert hne hstarted
      cases s.state <;> decide
    · rw [mode, hforceful hflag]
      rfl

theorem forward_step_iff (h : Inv s) (hf : Forward s) (e : Event) : Forward (s.step e) ↔ Unfinished s e := by
  rw [(h.step e).forward_iff]
  obtain ⟨hne, hforceful⟩ := h.forward_iff.mp hf
  cases effect_step h e with
  | quiet hstate hanswers hforced hu =>
    rw [hstate, hforced]
    exact ⟨fun _ => hu, fun _ => ⟨hne, hforceful⟩⟩
  | refused hold hstate hanswers hforced hu =>
    rw [hstate, hforced]
    exact ⟨fun _ => hu, fun _ => ⟨hne, hforceful⟩⟩
  | started hold hstate hanswers hforced hu =>
    rw [hstate, hforced, (h.before hold).2.1]
    exact ⟨fun _ => hu, fun _ => by decide⟩
  | startedForceful hold hstate hanswers hforced hu =>
    rw [hstate]
    exact ⟨fun _ => hu, fun _ => ⟨by decide, fun _ => rfl⟩⟩
  | escalated hold hstate hanswers hforced hu =>
    rw [hstate]
    exact ⟨fun _ => hu, fun _ => ⟨by decide, fun _ => rfl⟩⟩
  | drained hold hstate hanswers hforced hu =>
    rw [hstate, hforced, hu]
    cases s.forced <;> decide
  | stopped hold hstate hanswers hforced hu =>
    rw [hstate]
    exact ⟨fun hnot => absurd rfl hnot.1, fun hu' => absurd hu' hu⟩

end Step

/-! ## Runs -/

def Throughout (P : Coordinator → Prop) (s : Coordinator) (events : List Event) : Prop :=
  ∀ n, P (Trace.run step s (events.take n))

theorem throughout_cons {P : Coordinator → Prop} {s : Coordinator} {e : Event} {events : List Event} :
    Throughout P s (e :: events) ↔ P s ∧ Throughout P (s.step e) events := by
  constructor
  · intro h
    exact ⟨h 0, fun n => h (n + 1)⟩
  · rintro ⟨h0, hrest⟩ n
    cases n with
    | zero => exact h0
    | succ n => exact hrest n

theorem throughout_forward_iff {s : Coordinator} (h : Inv s) (hf : Forward s) (events : List Event) :
    Throughout Forward s events ↔ Trace.Along step Unfinished s events := by
  induction events generalizing s with
  | nil => exact ⟨fun _ => trivial, fun _ n => by rw [List.take_nil]; exact hf⟩
  | cons e events ih =>
    rw [throughout_cons]
    constructor
    · rintro ⟨-, hrest⟩
      have hnext : Forward (s.step e) := hrest 0
      exact ⟨(forward_step_iff h hf e).mp hnext, (ih (h.step e) hnext).mp hrest⟩
    · rintro ⟨hu, hrest⟩
      have hnext := (forward_step_iff h hf e).mpr hu
      exact ⟨hf, (ih (h.step e) hnext).mpr hrest⟩

theorem forward_init : Forward init := by
  refine ⟨.inl rfl, ?_, ?_⟩
  · intro hmem
    cases hmem
  · intro hflag
    cases hflag

/-- A shutdown only moves forward exactly when no drain task finishes after it was started or made
forceful. -/
theorem moves_forward_iff (events : List Event) :
    Throughout Forward init events ↔ Trace.Along step Unfinished init events :=
  throughout_forward_iff inv_init forward_init events

def escalatedDrain : List Event :=
  [.tryStartShutdown, .initiateShutdown 0, .drainPoll 0 2 false, .escalateToForceful 1, .escalateLoad 1,
   .escalateExchange 1, .drainPoll 0 2 false, .startDrain 0, .markStopped 0]

theorem a_drain_undoes_the_escalation : (Trace.run step init (escalatedDrain.take 6)).mode = .forceful ∧
      (Trace.run step init escalatedDrain).forced = true ∧
      (Trace.run step init escalatedDrain).mode = .graceful ∧ ¬ Throughout Forward init escalatedDrain := by
  have hforced : (Trace.run step init escalatedDrain).forced = true := by decide +kernel
  have hmode : (Trace.run step init escalatedDrain).mode = .graceful := by decide +kernel
  refine ⟨by decide +kernel, hforced, hmode, fun hall => ?_⟩
  have hlast := (hall 9).forceful hforced
  have hgraceful : (Trace.run step init (escalatedDrain.take 9)).mode = .graceful := hmode
  rw [hgraceful] at hlast
  cases hlast

theorem one_starter (events : List Event) :
    let s := Trace.run step init events
    OneStarter s ∧ (true ∈ s.answers ↔ s.state ≠ .running) := by
  have h := Trace.invariant (I := Inv) (fun _ e hs => hs.step e) inv_init events
  exact ⟨h.oneStarter, h.mem_answers⟩

end CloseClaw.Daemon.Shutdown
