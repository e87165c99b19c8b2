/- The phases a workflow handler passes through. -/

import CloseClaw.Session.WorkflowHandler
import CloseClaw.Workflow.EngineRuns

namespace CloseClaw.Session

open Lib Workflow WorkflowHandler WorkflowEngine

structure VerifyInjectParams where
  currentStep : Nat
  allowBlocked : Bool
  verifyRetryLimit : Nat
  phase : Phase

def WorkflowHandler.checkIdleVerifyConditions (h : WorkflowHandler) : Option VerifyInjectParams :=
  if !WorkflowEngine.onSessionIdle h.run then none
  else h.currentStepEffectiveAllowBlocked.map fun allowBlocked =>
    ⟨h.run.currentStep, allowBlocked, h.definition.verifyRetryLimit, h.run.phase⟩

def WorkflowHandler.idleVerify (h : WorkflowHandler) (now : String) : WorkflowHandler :=
  match h.checkIdleVerifyConditions with
  | none => h
  | some params =>
    match params.phase with
    | .executing | .verifying => h.onVerifyInjected params.verifyRetryLimit now
    | _ => h

inductive OwnerPauseKind where
  | notBlocked
  | resolvable
  | terminable
  deriving DecidableEq

def definitionChangedPauseReason : String := "当前步骤在最新定义中已不存在"

def ownerPauseKind (pausedReason : String) : OwnerPauseKind :=
  if pausedReason = "" then .notBlocked
  else if pausedReason = definitionChangedPauseReason then .terminable
  else .resolvable

namespace WorkflowPhases

inductive Ev where
  | tool (content : String) (clock : Clock)
  | idle (now : String)
  | ownerMessage

variable (C : ToolCodec)

def step (h : WorkflowHandler) : Ev → WorkflowHandler
  | .tool content clock => (h.processToolResult C content clock).2
  | .idle now => h.idleVerify now
  | .ownerMessage => if ownerPauseKind h.run.pausedReason = .resolvable then h.onOwnerResolve else h

def action : Ev → Option ToolAction
  | .tool content _ => toolAction C content
  | _ => none

def BlocksOnlyVerifying (h : WorkflowHandler) (ev : Ev) : Prop :=
  ∀ reason, action C ev = some (.blocked reason) → h.run.phase = .verifying ∨
    h.currentStepEffectiveAllowBlocked ≠ some true

inductive Legal (limit : Nat) (run : WorkflowRun) : Ev → Phase → Prop
  | stay {ev : Ev} : Legal limit run ev run.phase
  | inject {now : String} : run.phase = .executing → run.pendingVerify.count + 1 < limit →
    Legal limit run (.idle now) .verifying
  | exhausted {now : String} : run.phase = .verifying → limit ≤ run.pendingVerify.count + 1 →
    Legal limit run (.idle now) .blocked
  | exhaustedAtOnce {now : String} : run.phase = .executing → limit ≤ 1 → Legal limit run (.idle now) .blocked
  | verified {ev : Ev} {phase : Phase} : action C ev = some .verify → run.phase = .verifying →
      phase = .jumping ∨ phase = .executing ∨ phase = .complete → Legal limit run ev phase
  | jumped {ev : Ev} {answers : Option (List (String × Json))} {phase : Phase} : action C ev = some (.jump answers) →
      run.phase = .jumping → phase = .executing ∨ phase = .complete → Legal limit run ev phase
  | blocked {ev : Ev} {reason : String} : action C ev = some (.blocked reason) → run.phase = .verifying →
      Legal limit run ev .blocked
  | resolved : run.phase = .blocked → Legal limit run .ownerMessage .verifying

structure Inv (h : WorkflowHandler) : Prop where
  paused : h.run.pausedReason ≠ "" → h.run.phase = .blocked
  counted : h.run.phase ≠ .blocked → h.run.pendingVerify.count < max h.definition.verifyRetryLimit 1
  reset : h.run.phase ≠ .blocked → h.run.phase ≠ .verifying → h.run.pendingVerify.count = 0

variable {h : WorkflowHandler}

theorem Inv.of_reset (hp : h.run.pausedReason = "") (hc : h.run.pendingVerify.count = 0) : Inv h where
  paused hne := absurd hp hne
  counted _ := by rw [hc]; omega
  reset _ _ := hc

theorem inv_new (wf : Workflow) (now : String) : Inv (.new (start wf now) wf) := .of_reset rfl rfl

theorem Inv.unpaused (hi : Inv h) (hp : h.run.phase ≠ .blocked) : h.run.pausedReason = "" :=
  not_not.mp (mt hi.paused hp)

theorem inv_blocked (hp : h.run.phase = .blocked) : Inv h where
  paused _ := hp
  counted hne := absurd hp hne
  reset hne := absurd hp hne

variable {C}

theorem acts_legal {h' : WorkflowHandler} (hi : Inv h) {ev : Ev} {a : ToolAction}
    {result : JumpResult} (ha : action C ev = some a) (hacts : Acts h.definition h.run a result h'.run)
    (hd : h'.definition = h.definition) (hb : ∀ reason, a = .blocked reason → h.run.phase = .verifying ∨ h' = h) :
    Inv h' ∧ Legal C h.definition.verifyRetryLimit h.run ev h'.run.phase := by
  generalize hr : h'.run = run' at hacts
  cases hacts with
  | same hs =>
    subst hr
    refine ⟨⟨?_, ?_, ?_⟩, hs.phase ▸ .stay⟩
    · rw [hs.pausedReason, hs.phase]; exact hi.paused
    · rw [hs.phase, hs.pendingVerify, hd]; exact hi.counted
    · rw [hs.phase, hs.pendingVerify]; exact hi.reset
  | asks hp _ =>
    have hpause := hi.unpaused (by rw [hp]; exact Phase.noConfusion)
    refine ⟨.of_reset ?_ ?_, .verified ha hp (.inl rfl)⟩
    · rw [hr]; exact hpause
    · rw [hr]; rfl
  | moves hp hadv =>
    subst hr
    have hpause := hi.unpaused (by rw [hp]; exact Phase.noConfusion)
    have hcount : h'.run.pendingVerify.count = 0 := Nat.le_zero.mp hadv.count
    refine ⟨.of_reset (hadv.pausedReason.trans hpause) hcount, .verified ha hp (.inr ?_)⟩
    exact hadv.moved.imp And.left And.left
  | jumps hp hadv =>
    subst hr
    have hpause := hi.unpaused (by rw [hp]; exact Phase.noConfusion)
    have hzero : h.run.pendingVerify.count = 0 :=
      hi.reset (by rw [hp]; exact Phase.noConfusion) (by rw [hp]; exact Phase.noConfusion)
    have hcount : h'.run.pendingVerify.count = 0 := Nat.le_zero.mp (hzero ▸ hadv.count)
    refine ⟨.of_reset (hadv.pausedReason.trans hpause) hcount, .jumped ha hp ?_⟩
    exact hadv.moved.imp And.left And.left
  | blocks =>
    rename_i reason
    refine ⟨inv_blocked (by rw [hr]), ?_⟩
    rcases hb reason rfl with hp | hsame
    · exact .blocked ha hp
    · -- refused: the run was blocked already
      have hphase : h.run.phase = .blocked := by rw [← hsame, hr]
      show Legal C _ h.run ev .blocked
      rw [← hphase]
      exact .stay

theorem handleBlockedResult_refused (hr : h.currentStepEffectiveAllowBlocked ≠ some true)
    (reason : String) : (h.handleBlockedResult reason).2 = h := by
  unfold handleBlockedResult
  split
  · rfl
  · rename_i allowBlocked ha
    rcases handleBlocked_cases h.run h.definition allowBlocked reason with ⟨⟨e, he⟩, -⟩ | ⟨-, hallow, -⟩
    · split
      · rename_i hx
        rw [hx] at he
        cases he
      · rfl
    · exact absurd (hallow ▸ ha) hr

theorem inject_legal (hi : Inv h) (now : String) (hp : h.run.phase = .executing ∨ h.run.phase = .verifying) :
    Inv (h.onVerifyInjected h.definition.verifyRetryLimit now) ∧ Legal C h.definition.verifyRetryLimit h.run (.idle now)
        (h.onVerifyInjected h.definition.verifyRetryLimit now).run.phase := by
  have hpause := hi.unpaused (by rcases hp with hp | hp <;> (rw [hp]; exact Phase.noConfusion))
  rcases onVerifyInjected_cases h.run h.definition.verifyRetryLimit now with
    ⟨hlimit, hphase⟩ | ⟨hlimit, hphase, hreason, hcount⟩
  · refine ⟨inv_blocked (by simpa using hphase), ?_⟩
    rw [onVerifyInjected_run, hphase]
    rcases hp with hp | hp
    · have hzero := hi.reset (by rw [hp]; exact Phase.noConfusion) (by rw [hp]; exact Phase.noConfusion)
      exact .exhaustedAtOnce hp (by omega)
    · exact .exhausted hp hlimit
  · refine ⟨⟨?_, ?_, ?_⟩, ?_⟩
    · rw [onVerifyInjected_run, hreason, hpause]
      intro hne
      exact absurd rfl hne
    · intro _
      rw [onVerifyInjected_run, onVerifyInjected_definition, hcount]
      omega
    · intro _ hne
      rw [onVerifyInjected_run] at hne
      exact absurd hphase hne
    · rw [onVerifyInjected_run, hphase]
      rcases hp with hp | hp
      · exact .inject hp hlimit
      · rw [← hp]; exact .stay

theorem idle_legal (hi : Inv h) (now : String) :
    Inv (h.idleVerify now) ∧ Legal C h.definition.verifyRetryLimit h.run (.idle now) (h.idleVerify now).run.phase := by
  unfold idleVerify
  split
  · exact ⟨hi, .stay⟩
  · rename_i params hparams
    unfold checkIdleVerifyConditions at hparams
    split at hparams
    · cases hparams
    · obtain ⟨allowBlocked, -, rfl⟩ := Option.map_eq_some_iff.mp hparams
      simp only
      split
      · rename_i hp; exact inject_legal hi now (.inl hp)
      · rename_i hp; exact inject_legal hi now (.inr hp)
      · exact ⟨hi, .stay⟩

theorem step_legal (hi : Inv h) (ev : Ev) (hb : BlocksOnlyVerifying C h ev) :
    Inv (step C h ev) ∧ Legal C h.definition.verifyRetryLimit h.run ev (step C h ev).run.phase := by
  cases ev with
  | tool content clock =>
    show Inv (h.processToolResult C content clock).2 ∧ Legal C _ _ _ (h.processToolResult C content clock).2.run.phase
    unfold processToolResult
    split
    · exact ⟨hi, .stay⟩
    · rename_i a ha
      obtain ⟨hacts, hd, -⟩ := act_performs C h clock a
      refine acts_legal hi ha hacts hd ?_
      rintro reason rfl
      exact (hb reason ha).imp id fun hr => handleBlockedResult_refused hr reason
  | idle now => exact idle_legal hi now
  | ownerMessage =>
    show Inv (if ownerPauseKind h.run.pausedReason = .resolvable then h.onOwnerResolve else h) ∧
      Legal C _ _ _ (if ownerPauseKind h.run.pausedReason = .resolvable then h.onOwnerResolve else h).run.phase
    split
    · rename_i hk
      have hne : h.run.pausedReason ≠ "" := by
        intro he
        rw [ownerPauseKind, if_pos he] at hk
        cases hk
      exact ⟨.of_reset rfl rfl, .resolved (hi.paused hne)⟩
    · exact ⟨hi, .stay⟩

theorem step_definition (h : WorkflowHandler) (ev : Ev) : (step C h ev).definition = h.definition := by
  cases ev with
  | tool content clock =>
    show (h.processToolResult C content clock).2.definition = h.definition
    unfold processToolResult
    split
    · rfl
    · exact (act_performs C h clock _).definition
  | idle now =>
    show (h.idleVerify now).definition = h.definition
    unfold idleVerify
    split
    · rfl
    · split <;> simp
  | ownerMessage =>
    show (if ownerPauseKind h.run.pausedReason = .resolvable then h.onOwnerResolve else h).definition = h.definition
    split <;> rfl

end WorkflowPhases

open WorkflowPhases

theorem workflow_phases_follow_the_diagram (C : ToolCodec) (wf : Workflow) (now : String) (evs : List Ev)
    (hb : Trace.Along (step C) (BlocksOnlyVerifying C) (.new (start wf now) wf) evs) :
    let h := Trace.run (step C) (.new (start wf now) wf) evs
    (∀ ev, BlocksOnlyVerifying C h ev → Legal C wf.verifyRetryLimit h.run ev (step C h ev).run.phase) ∧
    (h.run.pausedReason ≠ "" → h.run.phase = .blocked) ∧
    (h.run.phase ≠ .blocked → h.run.pendingVerify.count < max wf.verifyRetryLimit 1) := by
  intro h
  have hinv : Inv h ∧ h.definition = wf := by
    refine Trace.invariant_along (I := fun h => Inv h ∧ h.definition = wf) ?_ ⟨inv_new wf now, rfl⟩ hb
    rintro h ev ⟨hi, hd⟩ hbv
    exact ⟨(step_legal hi ev hbv).1, (step_definition h ev).trans hd⟩
  refine ⟨?_, hinv.1.paused, hinv.2 ▸ hinv.1.counted⟩
  intro ev hbv
  exact hinv.2 ▸ (step_legal hinv.1 ev hbv).2

def nameCodec : ToolCodec := ⟨fun content => some (.obj [("action", .str content), ("answers", .obj [])]), fun _ => none⟩

def blockedTwice : List WorkflowPhases.Ev := [.idle "", .ownerMessage, .tool "workflow_blocked" ⟨"", ""⟩]

theorem blockedTwice_follows_the_diagram : Trace.Along (step nameCodec) (BlocksOnlyVerifying nameCodec)
      (.new (start reviewLoop "") reviewLoop) blockedTwice ∧
    (let h := Trace.run (step nameCodec) (.new (start reviewLoop "") reviewLoop) blockedTwice
    h.run.phase = .blocked ∧
      ∀ ev, BlocksOnlyVerifying nameCodec h ev → Legal nameCodec 1 h.run ev (step nameCodec h ev).run.phase) := by
  have hb : Trace.Along (step nameCodec) (BlocksOnlyVerifying nameCodec)
      (.new (start reviewLoop "") reviewLoop) blockedTwice := by
    refine ⟨?_, ?_, fun _ _ => .inl rfl, trivial⟩
    · intro reason h; cases h
    · intro reason h; cases h
  exact ⟨hb, rfl, (workflow_phases_follow_the_diagram nameCodec reviewLoop "" blockedTwice hb).1⟩

theorem a_limit_of_one_blocks_an_executing_run :
    validateDefinition plainText reviewLoop = .ok () ∧ reviewLoop.verifyRetryLimit = 1 ∧
    (new (start reviewLoop "") reviewLoop).run.phase = .executing ∧
    (WorkflowPhases.step nameCodec (.new (start reviewLoop "") reviewLoop) (.idle "")).run.phase = .blocked :=
  ⟨reviewLoop_validated, rfl, rfl, rfl⟩

end CloseClaw.Session
