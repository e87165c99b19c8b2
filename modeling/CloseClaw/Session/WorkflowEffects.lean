/- Which batches of tool results leave the transcript the phase they reach asks for
   (`EffectsMatch`). -/

import CloseClaw.Session.WorkflowCopies

namespace CloseClaw.Session

open Lib Workflow List Text Transcript WorkflowHandler

variable (step : Step)

theorem buildJumpMessage_start : startsWith (buildJumpMessage step) jumpMessageStart = true := by
  unfold buildJumpMessage
  iterate 7 refine startsWith_append ?_ _
  decide

theorem buildGoalMessage_start (hint : GoalHint) :
    startsWith (buildGoalMessage step hint) "[workflow goal]" = true := by
  cases hint with
  | normal =>
    unfold buildGoalMessage
    iterate 5 refine startsWith_append ?_ _
    decide
  | reexecute =>
    unfold buildGoalMessage
    iterate 6 refine startsWith_append ?_ _
    decide

theorem rejectionMessage_start (s : ConversationSession) : startsWith s.rejectionMessage "⚠️" = true := by
  unfold ConversationSession.rejectionMessage
  iterate 3 refine startsWith_append ?_ _
  decide

theorem ne_of_startsWith {a b p : String} (ha : startsWith a p = true) (hb : startsWith b p = false) : a ≠ b := by
  rintro rfl
  rw [ha] at hb
  cases hb

theorem buildGoalMessage_not_jump (hint : GoalHint) :
    startsWith (buildGoalMessage step hint) jumpMessageStart = false :=
  startsWith_false (buildGoalMessage_start step hint) (by decide) (by decide)

theorem buildGoalMessage_not_verify (hint : GoalHint) :
    startsWith (buildGoalMessage step hint) verifyMessageStart = false :=
  startsWith_false (buildGoalMessage_start step hint) (by decide) (by decide)

theorem buildJumpMessage_not_verify : startsWith (buildJumpMessage step) verifyMessageStart = false :=
  startsWith_false (buildJumpMessage_start step) (by decide) (by decide)

theorem rejectionMessage_not_jump (s : ConversationSession) : startsWith s.rejectionMessage jumpMessageStart = false :=
  startsWith_false (rejectionMessage_start s) (by decide) (by decide)

theorem ne_empty_of_startsWith {a p : String} (h : startsWith a p = true) (hp : startsWith "" p = false) : a ≠ "" :=
  ne_of_startsWith h hp

namespace ConversationSession

/-! ## Control messages through the effects -/

variable {s : ConversationSession} {text msg : String}

theorem occurrences_inject_other (h : msg ≠ text) :
    occurrences (s.injectWorkflowMessage msg).messages text = occurrences s.messages text := by
  have hne : (msg == text) = false := by simpa using h
  simp [injectWorkflowMessage, Transcript.injectWorkflowMessage, occurrences, countP_append, hne]

theorem occurrences_eraseVerification (hv : startsWith text verifyMessageStart = false) (hne : text ≠ "") :
    occurrences s.eraseVerification.messages text = occurrences s.messages text := by
  simp only [eraseVerification]
  rw [occurrences_removeWorkflowToolExchange _ hne]
  exact occurrences_keep hv

theorem occurrences_eraseJump (hj : startsWith text jumpMessageStart = false) (hne : text ≠ "") :
    occurrences s.eraseJump.messages text = occurrences s.messages text := by
  simp only [eraseJump]
  rw [occurrences_removeWorkflowToolExchange _ hne]
  exact occurrences_keep hj

theorem occurrences_eraseJump_jump (hj : startsWith text jumpMessageStart = true) (hne : text ≠ "") :
    occurrences s.eraseJump.messages text = 0 := by
  simp only [eraseJump]
  rw [occurrences_removeWorkflowToolExchange _ hne]
  exact occurrences_remove hj

end ConversationSession

/-! ## What a batch does to the run -/

def batchActions (C : ToolCodec) (blocks : List ContentBlock) : List ToolAction :=
  blocks.filterMap fun block => match block with
    | .toolResult _ content => toolAction C content
    | _ => none

namespace WorkflowHandler

theorem processContentBlocksFrom_no_action {C : ToolCodec} {clock : Nat → Clock} {blocks : List ContentBlock}
    (h : batchActions C blocks = []) (i : Nat) (acc : (Bool × JumpResult) × WorkflowHandler) :
    processContentBlocksFrom C clock i acc blocks = acc := by
  induction blocks generalizing i acc with
  | nil => rfl
  | cons block blocks ih =>
    obtain ⟨hblock, hrest⟩ := filterMap_eq_nil_iff.mp h |> forall_mem_cons.mp
    have hrest : batchActions C blocks = [] := filterMap_eq_nil_iff.mpr hrest
    cases block with
    | toolResult id content =>
      have hnone : toolAction C content = none := hblock
      rw [processContentBlocksFrom, processToolResult, hnone]
      simp only [Bool.or_false]
      exact ih hrest (i + 1) _
    | text | thinking | toolUse | media => exact ih hrest (i + 1) acc

structure BatchInv (before : Phase) (result : JumpResult) (h : WorkflowHandler) : Prop where
  fromJumping : before = .jumping → result ≠ .jumped ∧ h.run.phase ≠ .verifying
  toJumping : before ≠ .jumping → h.run.phase = .jumping → result = .jumped
  asked : result = .jumped → h.run.currentStep < h.definition.steps.length
  entered : before ≠ .executing → h.run.phase = .executing → h.run.currentStep < h.definition.steps.length

theorem BatchInv.start (h : WorkflowHandler) : BatchInv h.run.phase .notJumped h where
  fromJumping hp := ⟨JumpResult.noConfusion, by rw [hp]; exact Phase.noConfusion⟩
  toJumping hne hp := absurd hp hne
  asked hr := by cases hr
  entered hne hp := absurd hp hne

variable {h : WorkflowHandler}

variable (C : ToolCodec) {i : Nat} {before : Phase} {result : JumpResult} (clock : Nat → Clock) {msg : String}
  {h' : WorkflowHandler}

theorem BatchInv.advanced {latest : JumpResult} {run : WorkflowRun} (hb : BatchInv before result h)
    (hadv : Advanced h.definition run h'.run) (hstep : run.currentStep = h.run.currentStep)
    (hd : h'.definition = h.definition) (hl : latest = .jumped → result = .jumped) : BatchInv before latest h' where
  fromJumping hbefore := by
    refine ⟨fun hj => (hb.fromJumping hbefore).1 (hl hj), ?_⟩
    rcases hadv.moved with hm | hm <;> (rw [hm.1]; exact Phase.noConfusion)
  toJumping _ hj := by rcases hadv.moved with hm | hm <;> (rw [hm.1] at hj; cases hj)
  asked hres := by
    rcases hadv.moved with hm | hm
    · rw [hd]; exact hm.2
    · rw [hd, hm.2, hstep]; exact hb.asked (hl hres)
  entered _ hex := by
    rcases hadv.moved with hm | hm
    · rw [hd]; exact hm.2
    · rw [hm.1] at hex
      cases hex

theorem BatchInv.acts {after : JumpResult} {a : ToolAction} (hb : BatchInv before result h)
    (hacts : Acts h.definition h.run a after h'.run) (hd : h'.definition = h.definition) :
    BatchInv before (JumpResult.latest result after) h' := by
  generalize hr : h'.run = run' at hacts
  cases hacts with
  | same hs =>
    subst hr
    refine ⟨?_, ?_, ?_, ?_⟩
    · intro hp
      rw [hs.phase]
      exact hb.fromJumping hp
    · intro hne
      rw [hs.phase]
      exact hb.toJumping hne
    · rw [hs.currentStep, hd]
      exact hb.asked
    · rw [hs.phase, hs.currentStep, hd]
      exact hb.entered
  | asks hp hi =>
    have hstep : h'.run.currentStep < h'.definition.steps.length := by rw [hr, hd]; exact hi
    have hphase : h'.run.phase = .jumping := by rw [hr]
    refine ⟨?_, fun _ _ => rfl, fun _ => hstep, ?_⟩
    · intro hbefore
      exact absurd hp (hb.fromJumping hbefore).2
    · intro _ hex
      rw [hphase] at hex
      cases hex
  | moves _ hadv =>
    subst hr
    exact hb.advanced hadv rfl hd fun hj => hj
  | jumps _ hadv =>
    subst hr
    refine hb.advanced hadv rfl hd ?_
    split
    · intro h; cases h
    · intro h; exact h
  | blocks =>
    have hphase : h'.run.phase = .blocked := by rw [hr]
    have hstep : h'.run.currentStep = h.run.currentStep := by rw [hr]
    refine ⟨?_, ?_, ?_, ?_⟩
    · intro hbefore
      exact ⟨(hb.fromJumping hbefore).1, by rw [hphase]; exact Phase.noConfusion⟩
    · intro _ hj
      rw [hphase] at hj
      cases hj
    · rw [hstep, hd]
      exact hb.asked
    · intro _ hex
      rw [hphase] at hex
      cases hex

theorem batchInv_from (blocks : List ContentBlock) (i : Nat) (acc : (Bool × JumpResult) × WorkflowHandler)
    (hb : BatchInv before acc.1.2 acc.2) :
    BatchInv before (processContentBlocksFrom C clock i acc blocks).1.2
      (processContentBlocksFrom C clock i acc blocks).2 := by
  induction blocks generalizing i acc with
  | nil => exact hb
  | cons block blocks ih =>
    cases block with
    | toolResult id content =>
      refine ih (i + 1) _ ?_
      show BatchInv before (JumpResult.latest acc.1.2 (acc.2.processToolResult C content (clock i)).1.2)
        (acc.2.processToolResult C content (clock i)).2
      unfold processToolResult
      split
      · exact hb
      · rename_i a _
        obtain ⟨hacts, hd, -⟩ := act_performs C acc.2 (clock i) a
        exact hb.acts hacts hd
    | text | thinking | toolUse | media => exact ih (i + 1) acc hb

theorem batchInv (h : WorkflowHandler) (blocks : List ContentBlock) :
    BatchInv h.run.phase (h.processContentBlocks C clock blocks).1.2 (h.processContentBlocks C clock blocks).2 :=
  batchInv_from C clock blocks 0 _ (BatchInv.start h)

theorem jumpMessage_inRange (hi : h.run.currentStep < h.definition.steps.length) :
    ∃ step, h.jumpMessageForStep h.run.currentStep = some (buildJumpMessage step) :=
  ⟨h.definition.steps[h.run.currentStep], by rw [jumpMessageForStep, List.getElem?_eq_getElem hi]; rfl⟩

theorem goalMessage_inRange (hi : h.run.currentStep < h.definition.steps.length) (hint : GoalHint) :
    ∃ step, h.goalMessageForStep h.run.currentStep hint = some (buildGoalMessage step hint) :=
  ⟨h.definition.steps[h.run.currentStep], by rw [goalMessageForStep, List.getElem?_eq_getElem hi]; rfl⟩

theorem jumpMessage_some (hm : h.jumpMessageForStep i = some msg) : ∃ step, msg = buildJumpMessage step := by
  obtain ⟨step, -, he⟩ := Option.map_eq_some_iff.mp hm
  exact ⟨step, he.symm⟩

theorem goalMessage_some {hint : GoalHint} (hm : h.goalMessageForStep i hint = some msg) :
    ∃ step, msg = buildGoalMessage step hint := by
  obtain ⟨step, -, he⟩ := Option.map_eq_some_iff.mp hm
  exact ⟨step, he.symm⟩

end WorkflowHandler

namespace WorkflowEffects

open ConversationSession

structure Running (load : Loader) (s : ConversationSession) (h : WorkflowHandler) : Prop where
  handler : (s.ensureWorkflowHandler load).workflowHandler = some h
  active : s.hasActiveWorkflow = true
  phase : h.run.phase ≠ .complete

variable (C : ToolCodec) (load : Loader) (clock : Nat → Clock)

def reached (h : WorkflowHandler) (blocks : List ContentBlock) : WorkflowHandler :=
  if blocks.any (isWorkflowStartBlock C) then h else (h.processContentBlocks C clock blocks).2

structure EffectsMatch (s : ConversationSession) (h : WorkflowHandler) (blocks : List ContentBlock) : Prop where
  unchanged : batchActions C blocks = [] → (s.processWorkflowToolResults C load clock blocks).2.messages = s.messages
  jumping : (reached C clock h blocks).run.phase = .jumping →
    ∃ msg, (reached C clock h blocks).jumpMessageForStep (reached C clock h blocks).run.currentStep = some msg ∧
      (s.processWorkflowToolResults C load clock blocks).2.messages.getLast? = some (workflowMessage msg) ∧
      occurrences (s.processWorkflowToolResults C load clock blocks).2.messages msg = 1
  executing : (reached C clock h blocks).run.phase = .executing → h.run.phase ≠ .executing →
    ∃ msg, (reached C clock h blocks).goalMessageForStep (reached C clock h blocks).run.currentStep
        (reached C clock h blocks).run.pendingGoalHint = some msg ∧
      occurrences (s.processWorkflowToolResults C load clock blocks).2.messages msg = occurrences s.messages msg + 1
  complete : (reached C clock h blocks).run.phase = .complete →
    (s.processWorkflowToolResults C load clock blocks).2.CleanedUp

/-- From the jumping phase the batch takes a transition to a step, or blocks; from another one it takes
none, and asks jump questions that do not stand in the transcript yet. -/
def EffectsFollow (s : ConversationSession) (h : WorkflowHandler) (blocks : List ContentBlock) : Prop :=
  if blocks.any (isWorkflowStartBlock C) then h.run.phase ≠ .jumping
  else if h.run.phase = .jumping then
    (reached C clock h blocks).run.phase = .executing ∨ (reached C clock h blocks).run.phase = .blocked
  else
    (reached C clock h blocks).run.phase ≠ .complete ∧
    ((reached C clock h blocks).run.phase = .executing → h.run.phase = .executing) ∧
    ((reached C clock h blocks).run.phase = .jumping →
      ∀ msg, (reached C clock h blocks).jumpMessageForStep (reached C clock h blocks).run.currentStep = some msg →
        occurrences s.messages msg = 0)

variable {C load clock} {s : ConversationSession} {h : WorkflowHandler} {blocks : List ContentBlock}

theorem ensure_messages : (s.ensureWorkflowHandler load).messages = s.messages := by
  unfold ensureWorkflowHandler
  split
  · rfl
  · rfl
  · split <;> rfl

theorem ensure_hasActiveWorkflow : (s.ensureWorkflowHandler load).hasActiveWorkflow = s.hasActiveWorkflow := by
  unfold ensureWorkflowHandler
  split
  · rfl
  · rfl
  · split <;> rfl

theorem process_rejected (hr : Running load s h) (hstart : blocks.any (isWorkflowStartBlock C) = true) :
    (s.processWorkflowToolResults C load clock blocks).2 =
      (s.ensureWorkflowHandler load).injectWorkflowMessage (s.ensureWorkflowHandler load).rejectionMessage := by
  have hact : (s.ensureWorkflowHandler load).hasActiveWorkflow = true := ensure_hasActiveWorkflow.trans hr.active
  simp [processWorkflowToolResults, hact, hstart]

def synced (C : ToolCodec) (load : Loader) (clock : Nat → Clock) (s : ConversationSession) (h : WorkflowHandler)
    (blocks : List ContentBlock) : ConversationSession :=
  { s.ensureWorkflowHandler load with
    workflowHandler := some (h.processContentBlocks C clock blocks).2
    workflowRun := if (h.processContentBlocks C clock blocks).1.1 then some (h.processContentBlocks C clock blocks).2.run
      else (s.ensureWorkflowHandler load).workflowRun }

theorem synced_messages : (synced C load clock s h blocks).messages = s.messages := ensure_messages

theorem process_batch (clock : Nat → Clock) (hr : Running load s h)
    (hstart : blocks.any (isWorkflowStartBlock C) = false) :
    (s.processWorkflowToolResults C load clock blocks).2 =
      (synced C load clock s h blocks).settleBatch h.run.phase (h.processContentBlocks C clock blocks).1.1
        (h.processContentBlocks C clock blocks).1.2 (h.processContentBlocks C clock blocks).2 := by
  simp only [processWorkflowToolResults, hstart, Bool.and_false, Bool.false_eq_true, if_false, hr.handler]
  rfl

/-! ## The three ways a batch is settled -/

section

variable {before : Phase} {processed : Bool} {result : JumpResult} {h' : WorkflowHandler}

theorem settleBatch_jumped {msg : String} (hm : h'.jumpMessageForStep h'.run.currentStep = some msg) :
    s.settleBatch before processed .jumped h' = s.eraseVerification.injectWorkflowMessage msg := by
  simp only [settleBatch, if_true, hm]

theorem settleBatch_from_jumping (hres : result ≠ .jumped) :
    s.settleBatch .jumping processed result h' = s.eraseJump.dispatchPostJumpPhase h' := by
  simp only [settleBatch, if_neg hres, if_true]

theorem settleBatch_elsewhere (s : ConversationSession) (processed : Bool) (h' : WorkflowHandler)
    (hres : result ≠ .jumped) (hb : before ≠ .jumping) :
    s.settleBatch before processed result h' = s ∨
      (processed = true ∧ s.settleBatch before processed result h' = s.eraseVerification) := by
  simp only [settleBatch, if_neg hres, if_neg hb]
  split
  · rename_i hc
    exact .inr ⟨hc.1, rfl⟩
  · exact .inl rfl

theorem settleBatch_not_cleanedUp (hh : s.workflowHandler = some h') :
    ¬ (s.settleBatch before processed result h').CleanedUp := by
  intro hc
  have hnone := hc.1
  unfold settleBatch at hnone
  split at hnone
  · exact absurd (hh.symm.trans hnone) (Option.some_ne_none _)
  · split at hnone
    · unfold dispatchPostJumpPhase at hnone
      split at hnone
      · split at hnone
        · exact absurd (hh.symm.trans hnone) (Option.some_ne_none _)
        · cases hnone
      · exact absurd (hh.symm.trans hnone) (Option.some_ne_none _)
      · exact absurd (hh.symm.trans hnone) (Option.some_ne_none _)
    · split at hnone
      · exact absurd (hh.symm.trans hnone) (Option.some_ne_none _)
      · exact absurd (hh.symm.trans hnone) (Option.some_ne_none _)

end

theorem batchActions_of_start (hstart : blocks.any (isWorkflowStartBlock C) = true) : batchActions C blocks ≠ [] := by
  obtain ⟨block, hm, hb⟩ := any_eq_true.mp hstart
  intro hnil
  have hnone := filterMap_eq_nil_iff.mp hnil block hm
  cases block with
  | toolResult id content =>
    have hnone : toolAction C content = none := hnone
    simp [isWorkflowStartBlock, hnone] at hb
  | text | thinking | toolUse | media => cases hb

theorem processContentBlocks_no_action (hnil : batchActions C blocks = []) :
    h.processContentBlocks C clock blocks = ((false, .notJumped), h) :=
  processContentBlocksFrom_no_action hnil 0 _

theorem effects_rejected (hr : Running load s h) (hstart : blocks.any (isWorkflowStartBlock C) = true) :
    EffectsMatch C load clock s h blocks ↔ h.run.phase ≠ .jumping := by
  have hsame : reached C clock h blocks = h := if_pos hstart
  constructor
  · intro hm hp
    obtain ⟨msg, hmsg, hlast, -⟩ := hm.jumping (hsame.symm ▸ hp)
    rw [process_rejected hr hstart] at hlast
    -- the transcript ends with the rejection
    have heq : (s.ensureWorkflowHandler load).rejectionMessage = msg := by
      have hl : some (workflowMessage (s.ensureWorkflowHandler load).rejectionMessage) = some (workflowMessage msg) :=
        getLast?_injectWorkflowMessage.symm.trans hlast
      exact congrArg SessionMessage.firstText (Option.some.inj hl)
    obtain ⟨step, rfl⟩ := jumpMessage_some hmsg
    exact ne_of_startsWith (buildJumpMessage_start step) (rejectionMessage_not_jump _) heq.symm
  · intro hp
    refine ⟨fun hnil => absurd hnil (batchActions_of_start hstart), ?_, ?_, ?_⟩
    · intro hj
      exact absurd (hsame ▸ hj) hp
    · intro he hne
      exact absurd (hsame ▸ he) hne
    · intro hc
      exact absurd (hsame ▸ hc) hr.phase

theorem dispatch_executing {h' : WorkflowHandler} {msg : String} (hp : h'.run.phase = .executing)
    (hg : h'.goalMessageForStep h'.run.currentStep h'.run.pendingGoalHint = some msg) :
    (s.dispatchPostJumpPhase h').messages = Transcript.injectWorkflowMessage s.messages msg := by
  simp only [dispatchPostJumpPhase, hp, hg]
  rfl

theorem dispatch_jumping {h' : WorkflowHandler} (hp : h'.run.phase = .jumping) : s.dispatchPostJumpPhase h' = s := by
  simp only [dispatchPostJumpPhase, hp]

theorem process_not_cleanedUp (hr : Running load s h) (hstart : blocks.any (isWorkflowStartBlock C) = false) :
    ¬ (s.processWorkflowToolResults C load clock blocks).2.CleanedUp := by
  rw [process_batch clock hr hstart]
  exact settleBatch_not_cleanedUp rfl

theorem reached_batch (hstart : blocks.any (isWorkflowStartBlock C) = false) :
    reached C clock h blocks = (h.processContentBlocks C clock blocks).2 := by
  rw [reached, hstart]
  rfl

theorem process_from_jumping (clock : Nat → Clock) (hr : Running load s h)
    (hstart : blocks.any (isWorkflowStartBlock C) = false) (hp : h.run.phase = .jumping) :
    (s.processWorkflowToolResults C load clock blocks).2 =
      (synced C load clock s h blocks).eraseJump.dispatchPostJumpPhase (h.processContentBlocks C clock blocks).2 := by
  rw [process_batch clock hr hstart, hp]
  exact settleBatch_from_jumping ((batchInv C clock h blocks).fromJumping hp).1

theorem effects_from_jumping (hr : Running load s h) (hstart : blocks.any (isWorkflowStartBlock C) = false)
    (hp : h.run.phase = .jumping) : EffectsMatch C load clock s h blocks ↔
      (reached C clock h blocks).run.phase = .executing ∨ (reached C clock h blocks).run.phase = .blocked := by
  have hinv := batchInv C clock h blocks
  have hset := process_from_jumping clock hr hstart hp
  constructor
  · intro hm
    cases hphase : (reached C clock h blocks).run.phase with
    | executing => exact .inl rfl
    | blocked => exact .inr rfl
    | verifying =>
      rw [reached_batch hstart] at hphase
      exact absurd hphase (hinv.fromJumping hp).2
    | complete => exact absurd (hm.complete hphase) (process_not_cleanedUp hr hstart)
    | jumping =>
      -- the jump messages have been removed
      obtain ⟨msg, hmsg, -, hocc⟩ := hm.jumping hphase
      obtain ⟨step, rfl⟩ := jumpMessage_some hmsg
      rw [reached_batch hstart] at hphase
      have hstart' := buildJumpMessage_start step
      rw [hset, dispatch_jumping hphase,
        occurrences_eraseJump_jump hstart' (ne_empty_of_startsWith hstart' (by decide))] at hocc
      cases hocc
  · intro hor
    have hne : (reached C clock h blocks).run.phase ≠ .jumping := by
      rcases hor with he | he <;> (rw [he]; exact Phase.noConfusion)
    refine ⟨?_, fun hj => absurd hj hne, ?_, ?_⟩
    · intro hnil
      rw [reached_batch hstart, processContentBlocks_no_action hnil] at hne
      exact absurd hp hne
    · intro he _
      rw [reached_batch hstart] at he ⊢
      have hstep := hinv.entered (by rw [hp]; exact Phase.noConfusion) he
      obtain ⟨step, hgoal⟩ := goalMessage_inRange hstep (h.processContentBlocks C clock blocks).2.run.pendingGoalHint
      have hg := buildGoalMessage_start step (h.processContentBlocks C clock blocks).2.run.pendingGoalHint
      refine ⟨_, hgoal, ?_⟩
      rw [hset, dispatch_executing he hgoal, occurrences_injectWorkflowMessage,
        occurrences_eraseJump (buildGoalMessage_not_jump step _) (ne_empty_of_startsWith hg (by decide)),
        synced_messages]
    · intro hc
      rcases hor with he | he <;> (rw [he] at hc; cases hc)

theorem occurrences_goal_elsewhere (hr : Running load s h) (hstart : blocks.any (isWorkflowStartBlock C) = false)
    (hp : h.run.phase ≠ .jumping) (step : Step) (hint : GoalHint) :
    occurrences (s.processWorkflowToolResults C load clock blocks).2.messages (buildGoalMessage step hint) =
      occurrences s.messages (buildGoalMessage step hint) := by
  have hinv := batchInv C clock h blocks
  have hg := buildGoalMessage_start step hint
  have herase : occurrences (synced C load clock s h blocks).eraseVerification.messages (buildGoalMessage step hint) =
      occurrences s.messages (buildGoalMessage step hint) := by
    rw [occurrences_eraseVerification (buildGoalMessage_not_verify step hint) (ne_empty_of_startsWith hg (by decide)),
      synced_messages]
  rw [process_batch clock hr hstart]
  by_cases hj : (h.processContentBlocks C clock blocks).1.2 = .jumped
  · obtain ⟨jstep, hmsg⟩ := jumpMessage_inRange (hinv.asked hj)
    rw [hj, settleBatch_jumped hmsg, occurrences_inject_other, herase]
    exact ne_of_startsWith (buildJumpMessage_start jstep) (buildGoalMessage_not_jump step hint)
  · rcases settleBatch_elsewhere (synced C load clock s h blocks) _ _ hj hp with heq | ⟨-, heq⟩
    · rw [heq, synced_messages]
    · rw [heq, herase]

theorem process_asks (hr : Running load s h) (hstart : blocks.any (isWorkflowStartBlock C) = false)
    (hp : h.run.phase ≠ .jumping) (hphase : (reached C clock h blocks).run.phase = .jumping) :
    ∃ step, (reached C clock h blocks).jumpMessageForStep (reached C clock h blocks).run.currentStep =
        some (buildJumpMessage step) ∧
      (s.processWorkflowToolResults C load clock blocks).2.messages.getLast? =
        some (workflowMessage (buildJumpMessage step)) ∧
      occurrences (s.processWorkflowToolResults C load clock blocks).2.messages (buildJumpMessage step) =
        occurrences s.messages (buildJumpMessage step) + 1 := by
  have hinv := batchInv C clock h blocks
  rw [reached_batch hstart] at hphase ⊢
  have hj := hinv.toJumping hp hphase
  obtain ⟨step, hmsg⟩ := jumpMessage_inRange (hinv.asked hj)
  have hs := buildJumpMessage_start step
  refine ⟨step, hmsg, ?_⟩
  rw [process_batch clock hr hstart, hj, settleBatch_jumped hmsg]
  refine ⟨getLast?_injectWorkflowMessage, ?_⟩
  show occurrences (Transcript.injectWorkflowMessage _ _) _ = _
  rw [occurrences_injectWorkflowMessage,
    occurrences_eraseVerification (buildJumpMessage_not_verify step) (ne_empty_of_startsWith hs (by decide)),
    synced_messages]

theorem effects_elsewhere (hr : Running load s h) (hstart : blocks.any (isWorkflowStartBlock C) = false)
    (hp : h.run.phase ≠ .jumping) : EffectsMatch C load clock s h blocks ↔
      (reached C clock h blocks).run.phase ≠ .complete ∧
      ((reached C clock h blocks).run.phase = .executing → h.run.phase = .executing) ∧
      ((reached C clock h blocks).run.phase = .jumping →
        ∀ msg, (reached C clock h blocks).jumpMessageForStep (reached C clock h blocks).run.currentStep = some msg →
          occurrences s.messages msg = 0) := by
  constructor
  · intro hm
    refine ⟨fun hc => process_not_cleanedUp hr hstart (hm.complete hc), ?_, ?_⟩
    · intro he
      by_contra hne
      obtain ⟨msg, hmsg, hocc⟩ := hm.executing he hne
      obtain ⟨step, rfl⟩ := goalMessage_some hmsg
      rw [occurrences_goal_elsewhere hr hstart hp] at hocc
      omega
    · intro hphase msg hmsg
      obtain ⟨step, hstep, -, hcount⟩ := process_asks hr hstart hp hphase
      obtain ⟨msg', hmsg', -, hone⟩ := hm.jumping hphase
      rw [Option.some.inj (hmsg.symm.trans hstep)]
      rw [Option.some.inj (hmsg'.symm.trans hstep)] at hone
      omega
  · rintro ⟨hcomplete, hexecuting, hjumping⟩
    refine ⟨?_, ?_, fun he hne => absurd (hexecuting he) hne, fun hc => absurd hc hcomplete⟩
    · intro hnil
      rw [process_batch clock hr hstart, processContentBlocks_no_action hnil]
      have hres : JumpResult.notJumped ≠ .jumped := JumpResult.noConfusion
      rcases settleBatch_elsewhere (synced C load clock s h blocks) false h hres hp with heq | ⟨hf, -⟩
      · rw [heq, synced_messages]
      · cases hf
    · intro hphase
      obtain ⟨step, hstep, hlast, hcount⟩ := process_asks hr hstart hp hphase
      exact ⟨_, hstep, hlast, by rw [hcount, hjumping hphase _ hstep]⟩

end WorkflowEffects

open WorkflowEffects

/-- The session is as the phase reached asks for exactly if the batch is one the code's dispatch
is right for. -/
theorem workflow_effects_match_iff {C : ToolCodec} {load : Loader} {clock : Nat → Clock} {s : ConversationSession}
    {h : WorkflowHandler} (hr : Running load s h) (blocks : List ContentBlock) :
    EffectsMatch C load clock s h blocks ↔ EffectsFollow C clock s h blocks := by
  unfold EffectsFollow
  split
  · rename_i hstart
    exact effects_rejected hr hstart
  · rename_i hstart
    have hstart := Bool.not_eq_true _ ▸ hstart
    split
    · rename_i hp
      exact effects_from_jumping hr hstart hp
    · rename_i hp
      exact effects_elsewhere hr hstart hp

def waitingRun : WorkflowRun := { WorkflowEngine.start reviewLoop "" with phase := .jumping }

def waitingHandler : WorkflowHandler := .new waitingRun reviewLoop

def waitingSession : ConversationSession :=
  { plainSession with
    messages := [workflowMessage (buildJumpMessage draftStep)]
    workflowRun := some waitingRun }

theorem waitingSession_running : Running reviewLoader waitingSession waitingHandler := ⟨rfl, rfl, Phase.noConfusion⟩

theorem answered_review_effects_match : Running reviewLoader waitingSession waitingHandler ∧
    EffectsMatch nameCodec reviewLoader (fun _ => ⟨"", ""⟩) waitingSession waitingHandler
      [.toolResult "call" "workflow_jump"] :=
  ⟨waitingSession_running, (workflow_effects_match_iff waitingSession_running _).mpr (.inl rfl)⟩

theorem a_plain_reply_removes_the_jump_message : Running reviewLoader waitingSession waitingHandler ∧
    batchActions nameCodec [.text "let me think"] = [] ∧ waitingSession.messages.length = 1 ∧
    (waitingSession.processWorkflowToolResults nameCodec reviewLoader (fun _ => ⟨"", ""⟩)
      [.text "let me think"]).2.messages = [] := by
  refine ⟨waitingSession_running, rfl, rfl, ?_⟩
  rw [process_from_jumping _ waitingSession_running rfl rfl, processContentBlocks_no_action rfl, dispatch_jumping rfl]
  have hgone : removeWorkflowJumpMessages waitingSession.messages = [] := by
    simp [waitingSession, removeWorkflowJumpMessages, removeWorkflowMessagesWithPrefix, buildJumpMessage_start]
  rw [ConversationSession.eraseJump, synced_messages, hgone]
  rfl

end CloseClaw.Session
