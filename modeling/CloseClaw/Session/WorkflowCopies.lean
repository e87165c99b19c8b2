/- The two copies of a workflow run. -/

import CloseClaw.Session.WorkflowSession

namespace CloseClaw.Session

open Lib Workflow ConversationSession

namespace WorkflowHandler

theorem processContentBlocksFrom_unprocessed (C : ToolCodec) (clock : Nat → Clock) (blocks : List ContentBlock)
    (i : Nat)
    (acc : (Bool × JumpResult) × WorkflowHandler) (h : (processContentBlocksFrom C clock i acc blocks).1.1 = false) :
    acc.1.1 = false ∧ (processContentBlocksFrom C clock i acc blocks).2 = acc.2 := by
  induction blocks generalizing i acc with
  | nil => exact ⟨h, rfl⟩
  | cons block blocks ih =>
    cases block with
    | toolResult id content =>
      obtain ⟨hacc, hrest⟩ := ih (i + 1) _ h
      obtain ⟨hbefore, hresult⟩ := Bool.or_eq_false_iff.mp hacc
      refine ⟨hbefore, ?_⟩
      show (processContentBlocksFrom C clock (i + 1) _ blocks).2 = acc.2
      rw [hrest]
      show (acc.2.processToolResult C content (clock i)).2 = acc.2
      unfold processToolResult at hresult ⊢
      split at hresult
      · rfl
      · exact (act_performs C acc.2 (clock i) _).ignored hresult
    | text | thinking | toolUse | media => exact ih (i + 1) acc h

theorem processContentBlocks_unprocessed {C : ToolCodec} {clock : Nat → Clock} {h : WorkflowHandler}
    {blocks : List ContentBlock} (hp : (h.processContentBlocks C clock blocks).1.1 = false) :
    (h.processContentBlocks C clock blocks).2 = h :=
  (processContentBlocksFrom_unprocessed C clock blocks 0 _ hp).2

end WorkflowHandler

namespace WorkflowCopies

inductive Ev where
  | toolResults (load : Loader) (clock : Nat → Clock) (blocks : List ContentBlock)
  | idle (load : Loader) (anyActive : Bool) (now : String)
  | start (env : ControlEnv) (workflowName : String) (now : String)
  | ownerMessage (env : ControlEnv)
  | terminate

variable (C : ToolCodec)

def step (s : ConversationSession) : Ev → ConversationSession
  | .toolResults load clock blocks => (s.processWorkflowToolResults C load clock blocks).2
  | .idle load anyActive now => s.maybeInjectWorkflowVerify load anyActive now
  | .start env workflowName now => s.startWorkflow env workflowName now
  | .ownerMessage env => s.onOwnerMessage env
  | .terminate => s.terminate

def Synced (s : ConversationSession) : Prop := ∀ h, s.workflowHandler = some h → s.workflowRun = some h.run

def Verifies (load : Loader) (anyActive : Bool) (s : ConversationSession) : Prop :=
  anyActive = false ∧ ∃ h params, (s.ensureWorkflowHandler load).workflowHandler = some h ∧
    h.checkIdleVerifyConditions = some params ∧ (params.phase = .executing ∨ params.phase = .verifying)

/-- No idle check injects a verification, and the control acts only where there is no
    handler; what it terminates is not a completed run. -/
def KeepsInStep (s : ConversationSession) : Ev → Prop
  | .toolResults _ _ _ => True
  | .idle load anyActive _ => ¬ Verifies load anyActive s
  | .start _ _ _ => s.workflowHandler = none ∨ s.hasActiveWorkflow = true
  | .ownerMessage _ => s.workflowHandler = none ∨ ownerPauseKind s.pausedReason ≠ .resolvable
  | .terminate => s.workflowHandler = none ∧ ∀ run, s.workflowRun = some run → run.phase ≠ .complete

variable {C} {s : ConversationSession}

theorem synced_of_none (h : s.workflowHandler = none) : Synced s := by
  intro h' hh
  rw [h] at hh
  cases hh

variable {h : WorkflowHandler} (env : ControlEnv)

theorem synced_of_some (hh : s.workflowHandler = some h) (hr : s.workflowRun = some h.run) : Synced s := by
  intro h' hh'
  rw [hh] at hh'
  rw [hr, Option.some.inj hh']

theorem Synced.ensure (hs : Synced s) (load : Loader) : Synced (s.ensureWorkflowHandler load) := by
  unfold ensureWorkflowHandler
  split
  · exact hs
  · exact hs
  · rename_i run hnone hrun
    split
    · exact hs
    · exact synced_of_some rfl hrun

theorem settleBatch_synced (hh : s.workflowHandler = some h) (hr : s.workflowRun = some h.run) (before : Phase)
    (processed : Bool) (result : JumpResult) : Synced (s.settleBatch before processed result h) := by
  unfold settleBatch
  split
  · exact synced_of_some hh hr
  · split
    · unfold dispatchPostJumpPhase
      split
      · split
        · exact synced_of_some hh hr
        · exact synced_of_some rfl rfl
      · exact synced_of_some hh rfl
      · exact synced_of_some hh hr
    · split
      · exact synced_of_some hh hr
      · exact synced_of_some hh hr

theorem Synced.toolResults (hs : Synced s) (load : Loader) (clock : Nat → Clock) (blocks : List ContentBlock) :
    Synced (s.processWorkflowToolResults C load clock blocks).2 := by
  have hens := hs.ensure load
  unfold processWorkflowToolResults
  simp only
  split
  · exact hens
  · split
    · exact hens
    · rename_i h hh
      refine settleBatch_synced rfl ?_ _ _ _
      show (if _ then _ else _) = _
      split
      · rfl
      · rename_i hp
        rw [WorkflowHandler.processContentBlocks_unprocessed (Bool.not_eq_true _ ▸ hp)]
        exact hens h hh

theorem idle_handler {load : Loader} {anyActive : Bool} (now : String) (h : ¬ Verifies load anyActive s) :
    (s.maybeInjectWorkflowVerify load anyActive now).workflowHandler = (s.ensureWorkflowHandler load).workflowHandler ∧
      (s.maybeInjectWorkflowVerify load anyActive now).workflowRun = (s.ensureWorkflowHandler load).workflowRun := by
  unfold maybeInjectWorkflowVerify
  simp only
  split
  · exact ⟨rfl, rfl⟩
  · rename_i handler hh
    split
    · exact ⟨rfl, rfl⟩
    · rename_i params hparams
      have hidle : anyActive = false ∧ handler.checkIdleVerifyConditions = some params := by
        cases anyActive with
        | true => cases hparams
        | false => exact ⟨rfl, hparams⟩
      split
      · split
        · exact ⟨rfl, rfl⟩
        · exact ⟨rfl, rfl⟩
      · rename_i hp
        exact absurd ⟨hidle.1, handler, params, hh, hidle.2, .inl hp⟩ h
      · rename_i hp
        exact absurd ⟨hidle.1, handler, params, hh, hidle.2, .inr hp⟩ h
      · exact ⟨rfl, rfl⟩

theorem startWorkflow_handler (workflowName now : String) (s : ConversationSession) :
    (s.startWorkflow env workflowName now).workflowHandler = s.workflowHandler := by
  unfold startWorkflow
  split
  · rfl
  · split
    · rfl
    · simp only
      split
      · rfl
      · split <;> rfl

theorem activeWorkflowRunPhase_isSome : s.activeWorkflowRunPhase.isSome = s.hasActiveWorkflow := by
  unfold activeWorkflowRunPhase hasActiveWorkflow
  cases s.workflowRun with
  | none => rfl
  | some run => by_cases hp : run.phase = .complete <;> simp [hp]

theorem onOwnerMessage_handler (s : ConversationSession) :
    (s.onOwnerMessage env).workflowHandler = s.workflowHandler := by
  have hrefresh : ∀ run wf st, (s.refreshGoalIfChanged env run wf st).2.workflowHandler = s.workflowHandler := by
    intro run wf st
    unfold refreshGoalIfChanged
    simp only
    split
    · rfl
    · split <;> rfl
  unfold onOwnerMessage
  split
  · rfl
  · split
    · rfl
    · split
      · rfl
      · split
        · rfl
        · rename_i st _
          split
          · rename_i hx
            exact (congrArg (fun r => r.2.workflowHandler) hx).symm.trans (hrefresh _ _ _)
          · rename_i hx
            have hkept := (congrArg (fun r => r.2.workflowHandler) hx).symm.trans (hrefresh _ _ _)
            simp only
            split
            · exact hkept
            · exact hkept

theorem step_synced (hs : Synced s) (ev : Ev) (hk : KeepsInStep s ev) : Synced (step C s ev) := by
  cases ev with
  | toolResults load clock blocks => exact hs.toolResults load clock blocks
  | idle load anyActive now =>
    obtain ⟨hh, hr⟩ := idle_handler now hk
    intro h hsome
    show (s.maybeInjectWorkflowVerify load anyActive now).workflowRun = some h.run
    rw [hr]
    exact hs.ensure load h (hh ▸ hsome)
  | start env workflowName now =>
    rcases hk with hnone | hactive
    · exact synced_of_none ((startWorkflow_handler env workflowName now s).trans hnone)
    · show Synced (s.startWorkflow env workflowName now)
      rw [startWorkflow, activeWorkflowRunPhase_isSome, if_pos hactive]
      exact hs
  | ownerMessage env =>
    rcases hk with hnone | hkind
    · exact synced_of_none ((onOwnerMessage_handler env s).trans hnone)
    · show Synced (s.onOwnerMessage env)
      rw [onOwnerMessage, if_pos hkind]
      exact hs
  | terminate =>
    refine synced_of_none ?_
    show s.terminate.workflowHandler = none
    unfold terminate
    split
    · exact hk.1
    · exact hk.1

theorem terminate_empty (hk : KeepsInStep s .terminate) :
    s.terminate.workflowRun = none ∧ s.terminate.workflowHandler = none := by
  unfold terminate
  split
  · rename_i hnone
    refine ⟨?_, hk.1⟩
    cases hr : s.workflowRun with
    | none => rfl
    | some run => simp [activeWorkflowRunPhase, hr, hk.2 run hr] at hnone
  · exact ⟨rfl, hk.1⟩

def IsStart : Ev → Prop
  | .start _ _ _ => True
  | _ => False

theorem step_empty (hr : s.workflowRun = none) (hh : s.workflowHandler = none) {ev : Ev} (he : ¬ IsStart ev) :
    step C s ev = s := by
  have hens : ∀ load, s.ensureWorkflowHandler load = s := by
    intro load
    rw [ensureWorkflowHandler, hr, hh]
  cases ev with
  | toolResults =>
    simp [step, processWorkflowToolResults, hens, hasActiveWorkflow, hr, hh]
  | idle => simp [step, maybeInjectWorkflowVerify, hens, hh]
  | start => exact absurd trivial he
  | ownerMessage => simp [step, onOwnerMessage, pausedReason, hr, ownerPauseKind]
  | terminate => simp [step, terminate, activeWorkflowRunPhase, hr]

theorem run_empty (hr : s.workflowRun = none) (hh : s.workflowHandler = none) (later : List Ev)
    (hl : ∀ ev ∈ later, ¬ IsStart ev) : Trace.run (step C) s later = s := by
  induction later with
  | nil => rfl
  | cons ev later ih =>
    rw [Trace.run_cons, step_empty hr hh (hl ev List.mem_cons_self)]
    exact ih fun e he => hl e (List.mem_cons_of_mem ev he)

structure Lifts (env : ControlEnv) (s : ConversationSession) (run : WorkflowRun) : Prop where
  stored : s.workflowRun = some run
  kind : ownerPauseKind run.pausedReason = .resolvable
  found : ∃ wf step, env.load run.definitionName = some wf ∧ wf.steps[run.currentStep]? = some step
  pushed : env.goalPushed = true ∧ env.verifyPushed = true

theorem onOwnerMessage_lifts {env : ControlEnv} {run : WorkflowRun} (h : Lifts env s run) :
    ∃ resolved, (s.onOwnerMessage env).workflowRun = some resolved ∧ resolved.phase = .verifying ∧
      resolved.pausedReason = "" := by
  obtain ⟨wf, st, hload, hstep⟩ := h.found
  have hkind : ¬ ownerPauseKind s.pausedReason ≠ .resolvable := by
    rw [pausedReason, h.stored]
    exact not_not.mpr h.kind
  have hrefresh : ∃ run', (s.refreshGoalIfChanged env run wf st).1 = some run' := by
    unfold refreshGoalIfChanged
    simp only [h.pushed.1]
    split
    · exact ⟨_, rfl⟩
    · exact ⟨_, rfl⟩
  obtain ⟨run', hrun'⟩ := hrefresh
  rw [onOwnerMessage, if_neg hkind]
  simp only [h.stored, hload, hstep]
  split
  · rename_i hx
    rw [hx] at hrun'
    cases hrun'
  · simp only [h.pushed.2, Bool.not_true, Bool.false_eq_true, if_false]
    exact ⟨_, rfl, rfl, rfl⟩

end WorkflowCopies

open WorkflowCopies

/-- In every run from equal copies whose steps all keep them in step the copies are equal. -/
theorem workflow_copies_stay_equal (C : ToolCodec) (s₀ : ConversationSession) (h₀ : Synced s₀) (evs : List Ev)
    (hk : Trace.Along (step C) KeepsInStep s₀ evs) :
    let s := Trace.run (step C) s₀ evs
    Synced s ∧
    (KeepsInStep s .terminate →
      s.terminate.workflowRun = none ∧ s.terminate.workflowHandler = none ∧
      ∀ later, (∀ ev ∈ later, ¬ IsStart ev) → Trace.run (step C) s.terminate later = s.terminate) ∧
    (∀ env run, KeepsInStep s (.ownerMessage env) → Lifts env s run →
      ∀ load h, ((s.onOwnerMessage env).ensureWorkflowHandler load).workflowHandler = some h →
        h.run.phase = .verifying ∧ (s.onOwnerMessage env).workflowRun = some h.run) := by
  intro s
  have hs : Synced s := Trace.invariant_along (fun _ ev hs hk => step_synced hs ev hk) h₀ hk
  refine ⟨hs, ?_, ?_⟩
  · intro hterm
    obtain ⟨hr, hh⟩ := terminate_empty hterm
    exact ⟨hr, hh, fun later hl => run_empty hr hh later hl⟩
  · intro env run hkeep hlift load h hh
    obtain ⟨resolved, hstored, hphase, -⟩ := onOwnerMessage_lifts hlift
    have hsync : Synced (s.onOwnerMessage env) := step_synced (C := C) hs (.ownerMessage env) hkeep
    have hrun : ((s.onOwnerMessage env).ensureWorkflowHandler load).workflowRun =
      (s.onOwnerMessage env).workflowRun := by
      unfold ensureWorkflowHandler
      split
      · rfl
      · rfl
      · split <;> rfl
    have heq := hsync.ensure load h hh
    rw [hrun] at heq
    refine ⟨?_, heq⟩
    rw [← Option.some.inj (hstored.symm.trans heq)]
    exact hphase

def plainSession : ConversationSession := ⟨"s1", [], [], .default, none, none⟩

def reviewLoader : Loader := fun _ => some reviewLoop

def startAndReply : List WorkflowCopies.Ev :=
  [.start ⟨reviewLoader, true, true, true⟩ "Review" "", .toolResults reviewLoader (fun _ => ⟨"", ""⟩) [.text "ok"]]

theorem startAndReply_stays_equal : Trace.Along (step nameCodec) KeepsInStep plainSession startAndReply ∧
    (let s := Trace.run (step nameCodec) plainSession startAndReply
    s.workflowHandler.isSome = true ∧ Synced s) := by
  have hk : Trace.Along (step nameCodec) KeepsInStep plainSession startAndReply := ⟨.inl rfl, trivial, trivial⟩
  exact ⟨hk, rfl, (workflow_copies_stay_equal nameCodec plainSession (synced_of_none rfl) startAndReply hk).1⟩

/-- The first idle check counts its verification in the handler alone. -/
theorem an_idle_verification_separates_the_copies :
    let s := Trace.run (step nameCodec) plainSession
      [.start ⟨reviewLoader, true, true, true⟩ "Review" "", .idle reviewLoader false ""]
    s.workflowHandler.map (fun h => h.run.phase) = some .blocked ∧
      s.workflowRun.map WorkflowRun.phase = some .executing ∧
      ¬ Synced s := by
  refine ⟨rfl, rfl, ?_⟩
  intro hs
  have heq := hs _ rfl
  cases congrArg (Option.map WorkflowRun.phase) heq

end CloseClaw.Session
