/- A transcript and what the workflow code removes from it (`workflow_lifecycle.rs`,
   `workflow_transcript_cleanup.rs`). -/

import CloseClaw.Lib.Text

namespace CloseClaw.Session

open Lib List

inductive ContentBlock where
  | text (t : String)
  | thinking (thinking : String) (signature : Option String)
  | toolUse (id name input : String)
  | toolResult (toolCallId content : String)
  | media (name url : String)
  deriving DecidableEq

structure SessionMessage where
  role : String
  contentBlocks : List ContentBlock
  deriving DecidableEq

namespace ContentBlock

def asText : ContentBlock → Option String
  | .text t => some t
  | _ => none

def callOf (toolNames : List String) : ContentBlock → Option String
  | .toolUse id name _ => if toolNames.contains name then some id else none
  | _ => none

def survives (toolNames removedIds : List String) : ContentBlock → Bool
  | .toolUse id name _ => !(toolNames.contains name && removedIds.contains id)
  | .toolResult toolCallId _ => !removedIds.contains toolCallId
  | _ => true

end ContentBlock

def workflowMessage (content : String) : SessionMessage := ⟨"workflow", [.text content]⟩

open ContentBlock

def SessionMessage.firstText (m : SessionMessage) : String := (m.contentBlocks.filterMap asText).headD ""

namespace Transcript

def removeWorkflowMessagesWithPrefix (messages : List SessionMessage) (start : String) : List SessionMessage :=
  messages.filter fun m => m.role != "workflow" || !Text.startsWith m.firstText start

def verifyMessageStart : String := "Verify Step"

def jumpMessageStart : String := "Jump Step"

def removeWorkflowVerifyMessages (messages : List SessionMessage) : List SessionMessage :=
  removeWorkflowMessagesWithPrefix messages verifyMessageStart

def removeWorkflowJumpMessages (messages : List SessionMessage) : List SessionMessage :=
  removeWorkflowMessagesWithPrefix messages jumpMessageStart

def removeWorkflowMessages (messages : List SessionMessage) : List SessionMessage :=
  messages.filter fun m => m.role != "workflow"

def removeWorkflowToolExchange (messages : List SessionMessage) (toolNames : List String) : List SessionMessage :=
  let removedIds := messages.flatMap fun m => m.contentBlocks.filterMap (callOf toolNames)
  if removedIds = [] then messages
  else
    (messages.map fun m =>
      { m with contentBlocks := m.contentBlocks.filter (survives toolNames removedIds) }).filter
      fun m => !m.contentBlocks.isEmpty

def injectWorkflowMessage (messages : List SessionMessage) (content : String) : List SessionMessage :=
  messages ++ [workflowMessage content]

def occurrences (messages : List SessionMessage) (text : String) : Nat :=
  messages.countP fun m => m.role == "workflow" && m.firstText == text

variable {messages : List SessionMessage} {text start : String}

@[simp] theorem role_workflowMessage (text : String) : (workflowMessage text).role = "workflow" := rfl

@[simp] theorem firstText_workflowMessage (text : String) : (workflowMessage text).firstText = text := rfl

@[simp] theorem occurrences_injectWorkflowMessage :
    occurrences (injectWorkflowMessage messages text) text = occurrences messages text + 1 := by
  simp [occurrences, injectWorkflowMessage, countP_append]

@[simp] theorem getLast?_injectWorkflowMessage :
    (injectWorkflowMessage messages text).getLast? = some (workflowMessage text) := List.getLast?_concat ..

theorem occurrences_keep (h : Text.startsWith text start = false) :
    occurrences (removeWorkflowMessagesWithPrefix messages start) text = occurrences messages text := by
  rw [occurrences, occurrences, removeWorkflowMessagesWithPrefix, countP_filter]
  refine countP_congr ?_
  intro m _
  simp only [Bool.and_eq_true, Bool.or_eq_true, beq_iff_eq, bne_iff_ne, Bool.not_eq_true']
  constructor
  · intro hm; exact hm.1
  · intro hm; exact ⟨hm, .inr (hm.2 ▸ h)⟩

theorem occurrences_remove (h : Text.startsWith text start = true) :
    occurrences (removeWorkflowMessagesWithPrefix messages start) text = 0 := by
  rw [occurrences, countP_eq_zero]
  intro m hm hc
  have hkept := (mem_filter.mp hm).2
  simp only [Bool.and_eq_true, beq_iff_eq] at hc
  simp [hc.1, hc.2, h] at hkept

theorem firstText_survives (m : SessionMessage) (toolNames removedIds : List String) :
    SessionMessage.firstText { m with contentBlocks := m.contentBlocks.filter (survives toolNames removedIds) }
      = m.firstText := by
  have hblocks : (m.contentBlocks.filter (survives toolNames removedIds)).filterMap asText
      = m.contentBlocks.filterMap asText := by
    rw [filterMap_filter]
    refine filterMap_congr ?_
    intro b _
    cases b with
    | text | thinking | media => rfl
    | toolUse | toolResult => exact ite_self none
  simp only [SessionMessage.firstText, hblocks]

theorem occurrences_removeWorkflowToolExchange (toolNames : List String) (h : text ≠ "") :
    occurrences (removeWorkflowToolExchange messages toolNames) text = occurrences messages text := by
  unfold removeWorkflowToolExchange
  simp only
  split
  · rfl
  · rw [occurrences, occurrences, countP_filter, countP_map]
    refine countP_congr ?_
    intro m _
    simp only [Function.comp_apply, firstText_survives, Bool.and_eq_true, beq_iff_eq, Bool.not_eq_true']
    constructor
    · intro hm; exact hm.1
    · intro hm
      refine ⟨hm, ?_⟩
      rw [isEmpty_eq_false_iff]
      intro hnil
      -- a message without blocks has no text
      have hempty := firstText_survives m toolNames
        (messages.flatMap fun m => m.contentBlocks.filterMap (callOf toolNames))
      rw [hnil] at hempty
      exact h (hm.2.symm.trans hempty.symm)

def blocks (messages : List SessionMessage) : List ContentBlock := messages.flatMap (·.contentBlocks)

def removedIds (messages : List SessionMessage) (toolNames : List String) : List String :=
  (blocks messages).filterMap (callOf toolNames)

def kept (messages : List SessionMessage) (toolNames : List String) : ContentBlock → Bool :=
  survives toolNames (removedIds messages toolNames)

def nameFor (id : String) : ContentBlock → Option String
  | .toolUse id' name _ => if id' = id then some name else none
  | _ => none

def OfWorkflow (toolNames : List String) (before : List ContentBlock) : ContentBlock → Prop
  | .toolUse _ name _ => name ∈ toolNames
  | .toolResult id _ => ∃ name ∈ toolNames, (before.filterMap (nameFor id)).getLast? = some name
  | _ => False

def WellFormed (messages : List SessionMessage) : Prop :=
  ∀ before id content after, blocks messages = before ++ .toolResult id content :: after →
    ∃ name input, .toolUse id name input ∈ before

structure StaysValid (messages : List SessionMessage) (toolNames : List String) : Prop where
  answered : ∀ before id name input after, blocks messages = before ++ .toolUse id name input :: after →
    kept messages toolNames (.toolUse id name input) = true → (∃ content, .toolResult id content ∈ after) →
    ∃ content, .toolResult id content ∈ after.filter (kept messages toolNames)
  called : ∀ before id content after, blocks messages = before ++ .toolResult id content :: after →
    kept messages toolNames (.toolResult id content) = true →
    ∃ name input, .toolUse id name input ∈ before.filter (kept messages toolNames)
  others : ∀ before b after, blocks messages = before ++ b :: after → ¬ OfWorkflow toolNames before b →
    kept messages toolNames b = true
  nonempty : ∀ m ∈ removeWorkflowToolExchange messages toolNames, m.contentBlocks ≠ []

/-- No other call that is answered has the id of a removed one, and there is one to remove or
    no message to be left empty. -/
def Untangled (messages : List SessionMessage) (toolNames : List String) : Prop :=
  (∀ before id name input after, blocks messages = before ++ .toolUse id name input :: after → name ∉ toolNames →
    (∃ content, .toolResult id content ∈ after) → id ∉ removedIds messages toolNames) ∧
  (removedIds messages toolNames = [] → ∀ m ∈ messages, m.contentBlocks ≠ [])

variable {toolNames : List String}

theorem removeWorkflowToolExchange_eq : removeWorkflowToolExchange messages toolNames =
    if removedIds messages toolNames = [] then messages
    else (messages.map fun m => { m with contentBlocks := m.contentBlocks.filter (kept messages toolNames) }).filter
      fun m => !m.contentBlocks.isEmpty := by
  simp only [removeWorkflowToolExchange, kept, removedIds, blocks, filterMap_flatMap]

theorem blocks_filter_nonempty (messages : List SessionMessage) :
    blocks (messages.filter fun m => !m.contentBlocks.isEmpty) = blocks messages := by
  induction messages with
  | nil => rfl
  | cons m =>
    by_cases hm : m.contentBlocks = []
    · simp_all [blocks]
    · simp_all [blocks]

theorem blocks_removeWorkflowToolExchange :
    blocks (removeWorkflowToolExchange messages toolNames) = (blocks messages).filter (kept messages toolNames) := by
  rw [removeWorkflowToolExchange_eq]
  split_ifs with hnone
  · refine (filter_eq_self.mpr ?_).symm
    intro b _
    cases b <;> simp [kept, hnone, survives]
  · rw [blocks_filter_nonempty, blocks, blocks, flatMap_map, filter_flatMap]

theorem kept_toolUse {id name input : String} (h : .toolUse id name input ∈ blocks messages) :
    kept messages toolNames (.toolUse id name input) = true ↔ name ∉ toolNames := by
  have hid : name ∈ toolNames → id ∈ removedIds messages toolNames := by
    intro hname
    exact mem_filterMap.mpr ⟨_, h, by simp [callOf, hname]⟩
  by_cases hname : name ∈ toolNames
  · simp [kept, survives, hname, hid hname]
  · simp [kept, survives, hname]

theorem kept_toolResult {id content : String} :
    kept messages toolNames (.toolResult id content) = true ↔ id ∉ removedIds messages toolNames := by
  simp [kept, survives]

theorem Untangled.others (hu : Untangled messages toolNames) (hw : WellFormed messages) {before after : List ContentBlock}
    {b : ContentBlock} (hsplit : blocks messages = before ++ b :: after) (hb : ¬ OfWorkflow toolNames before b) :
    kept messages toolNames b = true := by
  cases b with
  | text | thinking | media => rfl
  | toolUse => exact (kept_toolUse (by simp [hsplit])).mpr hb
  | toolResult id content =>
    -- the last call with the id is of another tool, and is answered
    obtain ⟨first, firstInput, hfirst⟩ := hw before id content after hsplit
    cases hlast : (before.filterMap (nameFor id)).getLast? with
    | none =>
      rw [List.getLast?_eq_none_iff] at hlast
      exact absurd (mem_filterMap.mpr ⟨_, hfirst, if_pos rfl⟩) (hlast ▸ not_mem_nil)
    | some =>
      obtain ⟨use, huse, hname⟩ := mem_filterMap.mp (List.mem_of_getLast? hlast)
      cases use with
      | toolUse id' name' input =>
        simp only [nameFor] at hname
        split_ifs at hname with hid
        subst hid
        obtain ⟨p, q, hbefore⟩ := append_of_mem huse
        have hcall : blocks messages = p ++ .toolUse id' name' input :: (q ++ .toolResult id' content :: after) := by
          rw [hsplit, hbefore, append_assoc, cons_append]
        rw [kept_toolResult]
        exact hu.1 p _ _ _ _ hcall (fun hmem => hb ⟨name', hmem, hlast.trans hname.symm⟩) ⟨content, by simp⟩
      | _ => cases hname

/-- The removal leaves a valid transcript exactly when it is untangled. -/
theorem removal_stays_valid_iff (hw : WellFormed messages) (toolNames : List String) :
    blocks (removeWorkflowToolExchange messages toolNames) = (blocks messages).filter (kept messages toolNames) ∧
      (StaysValid messages toolNames ↔ Untangled messages toolNames) := by
  refine ⟨blocks_removeWorkflowToolExchange, ?_, ?_⟩
  · intro hv
    refine ⟨?_, ?_⟩
    · intro before id name input after hsplit hname hresult
      obtain ⟨content, hkept⟩ := hv.answered before id name input after hsplit
        ((kept_toolUse (by simp [hsplit])).mpr hname) hresult
      exact kept_toolResult.mp (mem_filter.mp hkept).2
    · intro hnone m hm
      have hnonempty := hv.nonempty
      rw [removeWorkflowToolExchange_eq, if_pos hnone] at hnonempty
      exact hnonempty m hm
  · intro hu
    refine ⟨?_, ?_, fun before b after => hu.others hw, ?_⟩
    · intro before id name input after hsplit hkept hresult
      have hname := (kept_toolUse (by simp [hsplit])).mp hkept
      have hid := hu.1 before id name input after hsplit hname hresult
      obtain ⟨content, hcontent⟩ := hresult
      exact ⟨content, mem_filter.mpr ⟨hcontent, kept_toolResult.mpr hid⟩⟩
    · intro before id content after hsplit hkept
      obtain ⟨name, input, huse⟩ := hw before id content after hsplit
      have hmem : .toolUse id name input ∈ blocks messages := by simp [hsplit, huse]
      refine ⟨name, input, mem_filter.mpr ⟨huse, (kept_toolUse hmem).mpr ?_⟩⟩
      intro hname
      exact kept_toolResult.mp hkept (mem_filterMap.mpr ⟨_, hmem, by simp [callOf, hname]⟩)
    · rw [removeWorkflowToolExchange_eq]
      split_ifs with hnone
      · exact hu.2 hnone
      · intro m hm
        simpa using (mem_filter.mp hm).2

def sharedId : List SessionMessage :=
  [⟨"assistant", [.toolUse "1" "read" ""]⟩, ⟨"user", [.toolResult "1" "notes"]⟩,
   ⟨"assistant", [.toolUse "1" "workflow_verify" ""]⟩, ⟨"user", [.toolResult "1" "ok"]⟩]

theorem sharedId_wellFormed : WellFormed sharedId := by
  intro before id content after h
  rcases before with _ | ⟨_, _ | ⟨_, _ | ⟨_, _ | ⟨_, before⟩⟩⟩⟩ <;> simp [blocks, sharedId] at h
  · obtain ⟨rfl, ⟨rfl, -⟩, -⟩ := h
    exact ⟨"read", "", by simp⟩
  · obtain ⟨rfl, -, -, ⟨rfl, -⟩, -⟩ := h
    exact ⟨"read", "", by simp⟩

theorem sharedId_stays_valid_iff : StaysValid sharedId ["workflow_jump"] ↔ Untangled sharedId ["workflow_jump"] :=
  (removal_stays_valid_iff sharedId_wellFormed _).2

theorem an_ordinary_result_is_removed : WellFormed sharedId ∧
      removeWorkflowToolExchange sharedId ["workflow_verify"] = [⟨"assistant", [.toolUse "1" "read" ""]⟩] ∧
      ¬ StaysValid sharedId ["workflow_verify"] := by
  refine ⟨sharedId_wellFormed, by decide, ?_⟩
  intro hv
  obtain ⟨content, hkept⟩ := hv.answered [] "1" "read" "" _ rfl (by decide) ⟨"notes", by decide⟩
  have hid := kept_toolResult.mp (mem_filter.mp hkept).2
  exact hid (by decide)

end Transcript

open List

inductive TranscriptOp where
  | append
  | rewrite
  | partialRewrite

def TranscriptOp.requiresSnapshot : TranscriptOp → Bool
  | .append => false
  | .rewrite | .partialRewrite => true

inductive SnapshotKind where
  | incremental (leafEntryId : String)
  | fullRewrite
  deriving DecidableEq

inductive SnapshotStatus where
  | pending
  | complete
  deriving DecidableEq

structure Snapshot where
  id : String
  reason : String
  messages : List SessionMessage
  op : TranscriptOp
  snapshotKind : SnapshotKind
  status : SnapshotStatus
  isPreRollback : Bool

def Snapshot.content (snap : Snapshot) : List SessionMessage × SnapshotKind := (snap.messages, snap.snapshotKind)

namespace RuntimeSnapshotManager

def maxSnapshots : Nat := 25

def push (snapshots : List Snapshot) (snap : Snapshot) : List Snapshot :=
  (if maxSnapshots ≤ snapshots.length then snapshots.tail else snapshots) ++ [snap]

def createSnapshot (snapshots : List Snapshot) (messages : List SessionMessage) (op : TranscriptOp)
    (reason id : String) : List Snapshot :=
  if op.requiresSnapshot then push snapshots ⟨id, reason, messages, op, .fullRewrite, .pending, false⟩ else snapshots

def markComplete (id : String) : List Snapshot → List Snapshot
  | [] => []
  | snap :: rest => if snap.id = id then { snap with status := .complete } :: rest else snap :: markComplete id rest

def preRollback (snapshots : List Snapshot) (messages : List SessionMessage) (id : String) : List Snapshot :=
  if snapshots.getLast?.any (·.isPreRollback) then snapshots
  else push snapshots ⟨id, "pre-rollback", messages, .rewrite, .fullRewrite, .pending, true⟩

def rollback (snapshots : List Snapshot) (messages : List SessionMessage) (id : String) :
    Option ((List SessionMessage × SnapshotKind) × List Snapshot) :=
  snapshots.getLast?.map fun snap => (snap.content, preRollback snapshots.dropLast messages id)

theorem map_markComplete {β : Type} {f : Snapshot → β} (hf : ∀ snap, f { snap with status := .complete } = f snap)
    (id : String) (snapshots : List Snapshot) : (markComplete id snapshots).map f = snapshots.map f := by
  induction snapshots with
  | nil => rfl
  | cons snap rest ih =>
    unfold markComplete
    split
    · rw [map_cons, map_cons, hf]
    · rw [map_cons, map_cons, ih]

theorem getLast_push (snapshots : List Snapshot) (snap : Snapshot) : (push snapshots snap).getLast? = some snap :=
  List.getLast?_concat

end RuntimeSnapshotManager

structure Conversation where
  messages : List SessionMessage
  snapshots : List Snapshot

namespace Conversation

open RuntimeSnapshotManager

def appendTranscript (s : Conversation) (m : SessionMessage) : Conversation := { s with messages := s.messages ++ [m] }

def applyTranscriptOp (s : Conversation) (op : TranscriptOp) (id : String) (messages : List SessionMessage) :
    Conversation :=
  ⟨messages, createSnapshot s.snapshots s.messages op "transcript-op" id⟩

def snapshotCurrentState (s : Conversation) (op : TranscriptOp) (reason id : String) : Conversation :=
  { s with snapshots := createSnapshot s.snapshots s.messages op reason id }

def markCompleteSnapshot (s : Conversation) (id : String) : Conversation :=
  { s with snapshots := markComplete id s.snapshots }

def rollbackTranscript (s : Conversation) (id : String) : Conversation :=
  match rollback s.snapshots s.messages id with
  | some ((messages, .fullRewrite), snapshots) => ⟨messages, snapshots⟩
  | some ((_, .incremental _), snapshots) => { s with snapshots := snapshots }
  | none => s

end Conversation

inductive TranscriptWrite where
  | append (m : SessionMessage)
  | snapshot (id : String)
  | markComplete (id : String)

namespace TranscriptWrite

def apply (s : Conversation) : TranscriptWrite → Conversation
  | .append m => s.appendTranscript m
  | .snapshot id => s.snapshotCurrentState .partialRewrite "system-prompt-update" id
  | .markComplete id => s.markCompleteSnapshot id

def appended : List TranscriptWrite → List SessionMessage
  | [] => []
  | .append m :: ws => m :: appended ws
  | .snapshot _ :: ws | .markComplete _ :: ws => appended ws

def unsaved (tail : List SessionMessage) : List TranscriptWrite → List SessionMessage
  | [] => tail
  | .append m :: ws => unsaved (tail ++ [m]) ws
  | .snapshot _ :: ws => unsaved [] ws
  | .markComplete _ :: ws => unsaved tail ws

end TranscriptWrite

open TranscriptWrite

open RuntimeSnapshotManager

namespace Conversation

def writes (s : Conversation) (ws : List TranscriptWrite) : Conversation := ws.foldl apply s

@[simp] theorem messages_writes (s : Conversation) (ws : List TranscriptWrite) :
    (s.writes ws).messages = s.messages ++ appended ws := by
  induction ws generalizing s with
  | nil => exact (append_nil _).symm
  | cons w ws ih =>
    refine (ih (w.apply s)).trans ?_
    cases w with
    | append => exact append_assoc _ _ _
    | snapshot | markComplete => rfl

def Saved (s : Conversation) (tail : List SessionMessage) : Prop :=
  ∃ messages, (s.snapshots.map Snapshot.content).getLast? = some (messages, .fullRewrite) ∧
    s.messages = messages ++ tail

theorem saved_snapshotCurrentState (s : Conversation) {op : TranscriptOp} (h : op.requiresSnapshot = true)
    (reason id : String) : (s.snapshotCurrentState op reason id).Saved [] := by
  refine ⟨s.messages, ?_, (append_nil _).symm⟩
  rw [snapshotCurrentState, createSnapshot, if_pos h, List.getLast?_map, getLast_push]
  rfl

variable {s : Conversation} {tail : List SessionMessage}

theorem Saved.apply (h : s.Saved tail) (w : TranscriptWrite) : (w.apply s).Saved (unsaved tail [w]) := by
  obtain ⟨messages, hlast, heq⟩ := h
  cases w with
  | append m =>
    refine ⟨messages, hlast, ?_⟩
    show s.messages ++ [m] = messages ++ (tail ++ [m])
    rw [heq, append_assoc]
  | snapshot => exact saved_snapshotCurrentState s rfl _ _
  | markComplete id =>
    refine ⟨messages, ?_, heq⟩
    exact (congrArg List.getLast? (map_markComplete (fun _ => rfl) id s.snapshots)).trans hlast

theorem Saved.writes (h : s.Saved tail) (ws : List TranscriptWrite) : (s.writes ws).Saved (unsaved tail ws) := by
  induction ws generalizing s tail with
  | nil => exact h
  | cons w ws ih =>
    have hw := ih (h.apply w)
    cases w with
    | append | snapshot | markComplete => exact hw

theorem Saved.messages_rollback (h : s.Saved tail) (id : String) :
    (s.rollbackTranscript id).messages ++ tail = s.messages := by
  obtain ⟨messages, hlast, heq⟩ := h
  rw [List.getLast?_map] at hlast
  obtain ⟨snap, hsnap, hcontent⟩ := Option.map_eq_some_iff.mp hlast
  rw [rollbackTranscript, rollback, hsnap, Option.map_some, hcontent]
  exact heq.symm

end Conversation

end CloseClaw.Session
