/- The columns of a checkpoint (`archive_support.rs`), beside the fields that decide where it is
   stored. Times are whole seconds. -/

import CloseClaw.LLM.Request
import CloseClaw.Lib.Serde
import CloseClaw.Permission.Types
import CloseClaw.ProcessorChain.Outbound
import CloseClaw.Session.Reload

namespace CloseClaw.Session

open Lib Lib.Serde
open LLM.Request (ReasoningLevel)
open Permission (SessionMode)
open ProcessorChain (VerbosityLevel)

inductive ReasoningMode where
  | direct
  | plan
  | stream
  | hidden

structure ReasoningModeState where
  currentStep : UInt32
  totalSteps : UInt32
  stepMessages : List String
  isComplete : Bool

def ReasoningModeState.default : ReasoningModeState := ⟨0, 0, [], false⟩

inductive PlanPhase where
  | research
  | design
  | review
  | finalPlan

structure PlanState where
  phase : PlanPhase
  planFilePath : String

structure CheckpointFields (Out : Type) where
  modeState : ReasoningModeState
  outboundPending : List Out
  reasoningMode : ReasoningMode
  createdAt : Int
  lastUserActivityAt : Option Int
  platform : Option String
  peerId : Option String
  userAppends : List String
  threadId : Option String
  accountId : Option String
  senderId : Option String
  parentSessionId : Option String
  depth : UInt32
  planState : Option PlanState
  sessionMode : SessionMode
  reasoningLevel : ReasoningLevel
  verbosityLevel : VerbosityLevel
  effectiveMaxSpawnDepth : Option UInt32
  replyRef : Option String
  workflowRun : Option Json

abbrev RowSlot (Out : Type) := Slot (CheckpointFields Out)

abbrev RowDisk (Out : Type) := Disk (CheckpointFields Out)

abbrev RowCheckpoint (Msg Out : Type) := SessionCheckpoint Msg (CheckpointFields Out)

abbrev RowCodec (Msg Out : Type) := StoreCodec Msg (CheckpointFields Out)

structure SessionColumns where
  channel : String
  chatId : String
  createdAt : Int
  metadata : Option String
  threadId : Option String
  senderId : Option String
  platform : Option String
  peerId : Option String
  accountId : Option String
  parentSessionId : Option String
  depth : Option UInt32
  planState : Option String
  lastUserActivityAt : Option Int

open ReasoningModeState

def ReasoningModeState.serde : Serde ReasoningModeState where
  ser s := .obj [("current_step", u32.ser s.currentStep), ("total_steps", u32.ser s.totalSteps),
    ("step_messages", (vec string).ser s.stepMessages), ("is_complete", bool.ser s.isComplete)]
  de j := match structFields [["current_step"], ["total_steps"], ["step_messages"], ["is_complete"]] j with
    | some [current, total, messages, complete] => do
      return ⟨← required u32 current, ← required u32 total, ← required (vec string) messages, ← required bool complete⟩
    | _ => none
  de_ser s := by
    show (required u32 (some (u32.ser s.currentStep))).bind (fun current =>
      (required u32 (some (u32.ser s.totalSteps))).bind fun total =>
      (required (vec string) (some ((vec string).ser s.stepMessages))).bind fun messages =>
      (required bool (some (bool.ser s.isComplete))).bind fun complete =>
        some (mk current total messages complete)) = _
    simp only [required_ser, Option.bind_some]

def PlanPhase.name : PlanPhase → String
  | .research => "research"
  | .design => "design"
  | .review => "review"
  | .finalPlan => "final_plan"

def PlanPhase.ofName : String → Option PlanPhase
  | "research" => some .research
  | "design" => some .design
  | "review" => some .review
  | "final_plan" => some .finalPlan
  | _ => none

def PlanPhase.serde : Serde PlanPhase := unitVariant name ofName (by intro p; cases p <;> rfl)

def PlanState.serde : Serde PlanState where
  ser p := .obj [("phase", PlanPhase.serde.ser p.phase), ("plan_file_path", string.ser p.planFilePath)]
  de := struct₂ ["phase"] ["plan_file_path"] (defaulted PlanPhase.serde .research) (defaulted string "") .mk
  de_ser _ := struct₂_eq rfl (defaulted_ser ..) (defaulted_ser ..)

def reasoningModeToStr : ReasoningMode → String
  | .direct => "direct"
  | .plan => "plan"
  | .stream => "stream"
  | .hidden => "hidden"

def parseReasoningMode : String → ReasoningMode
  | "plan" => .plan
  | "stream" => .stream
  | "hidden" => .hidden
  | _ => .direct

def sessionModeToStr : SessionMode → String
  | .normal => "normal"
  | .plan => "plan"
  | .auto => "auto"

def sessionModeOfStr (s : String) : Option SessionMode :=
  match String.ofList (s.toList.map Char.toLower) with
  | "normal" => some .normal
  | "plan" => some .plan
  | "auto" => some .auto
  | _ => none

variable {Msg Out α : Type} (J : JsonText) (O : Serde Out)

def buildMetadataJson (f : CheckpointFields Out) : String :=
  J.write (.obj [("reasoning_mode", .str (reasoningModeToStr f.reasoningMode)),
    ("mode_state", .str (J.toString serde f.modeState)),
    ("outbound_pending", .str (J.toString (vec O) f.outboundPending)),
    ("user_appends", .str (J.toString (vec string) f.userAppends)),
    ("session_mode", .str (sessionModeToStr f.sessionMode))])

structure ParsedMetadata (Out : Type) where
  modeState : ReasoningModeState
  reasoningModeRaw : String
  userAppends : List String
  sessionMode : SessionMode
  outboundPending : List Out

def jsonIn (S : Serde α) (default : String) (j : Json) : Option α := J.fromStr S (j.asStr.getD default)

def parseMetadata : Option String → Option (ParsedMetadata Out)
  | none => some ⟨.default, "direct", [], .normal, []⟩
  | some text => (J.read text).map fun v =>
    { modeState := ((v.get "mode_state").bind (jsonIn J serde "\x7b\x7d")).getD .default
      reasoningModeRaw := (((v.get "reasoning_mode").or (v.get "mode")).bind Json.asStr).getD "direct"
      userAppends := (((v.get "user_appends").or (v.get "system_appends")).bind (jsonIn J (vec string) "[]")).getD []
      sessionMode := match (v.get "session_mode").bind Json.asStr with
        | some s => (sessionModeOfStr s).getD .normal
        | none => .normal
      outboundPending := ((v.get "outbound_pending").bind (jsonIn J (vec O) "[]")).getD [] }

def insertColumns (f : CheckpointFields Out) : SessionColumns where
  channel := f.platform.getD ""
  chatId := f.peerId.getD ""
  createdAt := f.createdAt
  metadata := some (buildMetadataJson J O f)
  threadId := f.threadId
  senderId := f.senderId
  platform := f.platform
  peerId := f.peerId
  accountId := f.accountId
  parentSessionId := f.parentSessionId
  depth := some f.depth
  planState := f.planState.map (J.toString PlanState.serde)
  lastUserActivityAt := f.lastUserActivityAt

def resolveName (new : Option String) (old : String) : Option String :=
  if new.any (!·.isEmpty) then new else if old.isEmpty then none else some old

def readColumns (cols : SessionColumns) : Option (CheckpointFields Out) :=
  (parseMetadata J O cols.metadata).map fun parsed =>
    { modeState := parsed.modeState
      outboundPending := parsed.outboundPending
      reasoningMode := parseReasoningMode parsed.reasoningModeRaw
      createdAt := cols.createdAt
      lastUserActivityAt := cols.lastUserActivityAt
      platform := resolveName cols.platform cols.channel
      peerId := resolveName cols.peerId cols.chatId
      userAppends := parsed.userAppends
      threadId := cols.threadId
      accountId := cols.accountId
      senderId := cols.senderId
      parentSessionId := cols.parentSessionId
      depth := cols.depth.getD 0
      planState := cols.planState.bind (J.fromStr PlanState.serde)
      sessionMode := parsed.sessionMode
      reasoningLevel := .high
      verbosityLevel := .full
      effectiveMaxSpawnDepth := none
      replyRef := none
      workflowRun := none }

def named (name : Option String) : Option String := name.filter (!·.isEmpty)

def CheckpointFields.kept (f : CheckpointFields Out) : CheckpointFields Out :=
  { f with
    platform := named f.platform
    peerId := named f.peerId
    reasoningLevel := .high
    verbosityLevel := .full
    effectiveMaxSpawnDepth := none
    replyRef := none
    workflowRun := none }

def rowStore (C : RowCodec Msg Out) : RowCodec Msg Out :=
  { C with reload := fun f => (readColumns J O (insertColumns J O f)).getD f }

def SessionCheckpoint.kept (c : RowCheckpoint Msg Out) : RowCheckpoint Msg Out :=
  { c with
    lastMessageAt := c.lastMessageAt.filter fun t => decide (0 < t)
    agentId := named (some (c.agentId.getD "unknown"))
    role := some (c.role.getD .mainAgent)
    pendingOperations := []
    rest := c.rest.kept }

variable {J O} {C : RowCodec Msg Out} {now : Int} {s : RowSlot Out} {c : RowCheckpoint Msg Out}

def anonymousNote : RowCheckpoint Bool String where
  sessionId := "s1"
  status := .active
  lastMessageAt := some 0
  agentId := none
  role := none
  pendingOperations := []
  pendingMessages := [true]
  rest :=
    { modeState := .default, outboundPending := [], reasoningMode := .direct, createdAt := 0, lastUserActivityAt := none,
      platform := some "", peerId := none, userAppends := [], threadId := none, accountId := none, senderId := none,
      parentSessionId := none, depth := 0, planState := none, sessionMode := .normal, reasoningLevel := .high,
      verbosityLevel := .full, effectiveMaxSpawnDepth := none, replyRef := none, workflowRun := none }

noncomputable def noteRows : RowCodec Bool String :=
  rowStore JsonText.numbered string { noteStore with reload := id }

open Lib

variable {Msg Out : Type}

def SessionRow.idleSince (r : SessionRow (CheckpointFields Out)) : Int := r.rest.lastUserActivityAt.getD r.lastMessageAt

def idleCutoff (now idleMinutes : Int) : Int := now - idleMinutes * 60 * 1000

def Slot.isIdle (now : Int) (agentId : String) (role : AgentRole) (idleMinutes : Int) (s : RowSlot Out) : Bool :=
  s.row.any fun r => r.agentId == agentId && r.role == role && r.status == .active &&
    decide (r.idleSince < idleCutoff now idleMinutes)

def Disk.listIdleSessionsForAgent (d : RowDisk Out) (now : Int) (agentId : String) (role : AgentRole)
    (idleMinutes : Int) : List String :=
  d.idsWhere (Slot.isIdle now agentId role idleMinutes)

def savedDisk (C : RowCodec Msg Out) (saves : List (RowCheckpoint Msg Out × Int)) : RowDisk Out :=
  Trace.run (fun d e => storeCheckpoint C e.2 d e.1) ∅ saves

def lastSaved (saves : List (RowCheckpoint Msg Out × Int)) (id : String) : Option (RowCheckpoint Msg Out) :=
  Trace.run (fun last e => if e.1.sessionId = id then some e.1 else last) none saves

def SessionCheckpoint.idleSince (c : RowCheckpoint Msg Out) : Int := c.rest.lastUserActivityAt.getD (c.lastMessageAt.getD 0)

theorem row_savedDisk (C : RowCodec Msg Out) (saves : List (RowCheckpoint Msg Out × Int)) (id : String) :
    ((savedDisk C saves).slot id).row = (lastSaved saves id).map sessionRow := by
  induction saves using List.reverseRecOn with
  | nil => rfl
  | append_singleton saves e ih =>
    simp only [savedDisk, lastSaved, Trace.run_append, Trace.run_cons, Trace.run_nil] at ih ⊢
    rw [storeCheckpoint, Disk.slot_set]
    by_cases hid : e.1.sessionId = id
    · rw [if_pos hid.symm, if_pos hid]
      rfl
    · rw [if_neg (Ne.symm hid), if_neg hid]
      exact ih

def ActiveFor (agentId : String) (role : AgentRole) (c : RowCheckpoint Msg Out) : Prop :=
  c.status = .active ∧ c.agentId.getD "unknown" = agentId ∧ c.role.getD .mainAgent = role

theorem mem_listIdle_iff {C : RowCodec Msg Out} {saves : List (RowCheckpoint Msg Out × Int)} {now m : Int}
    {agentId id : String} {role : AgentRole} :
    id ∈ (savedDisk C saves).listIdleSessionsForAgent now agentId role m ↔
      ∃ c, lastSaved saves id = some c ∧ ActiveFor agentId role c ∧ c.idleSince < idleCutoff now m := by
  rw [Disk.listIdleSessionsForAgent, Disk.mem_idsWhere rfl, Slot.isIdle, row_savedDisk]
  cases lastSaved saves id with
  | none => simp
  | some =>
    simp only [Option.map_some, Option.any_some, Bool.and_eq_true, beq_iff_eq, decide_eq_true_eq, Option.some.injEq,
      exists_eq_left']
    constructor
    · rintro ⟨⟨⟨hagent, hrole⟩, hstatus⟩, htime⟩
      exact ⟨⟨hstatus, hagent, hrole⟩, htime⟩
    · rintro ⟨⟨hstatus, hagent, hrole⟩, htime⟩
      exact ⟨⟨⟨hagent, hrole⟩, hstatus⟩, htime⟩

/-- Where no user was seen, the last message counts. -/
theorem idle_listing_of_an_agent (C : RowCodec Msg Out) (saves : List (RowCheckpoint Msg Out × Int)) (now : Int)
    (agentId : String) (role : AgentRole) (idleMinutes : Int) :
    (∀ id ∈ (savedDisk C saves).listIdleSessionsForAgent now agentId role idleMinutes,
      ∃ c, lastSaved saves id = some c ∧ ActiveFor agentId role c) ∧
    (0 < idleCutoff now idleMinutes → ∀ id c, lastSaved saves id = some c → ActiveFor agentId role c →
      c.idleSince * 1000 ≤ idleCutoff now idleMinutes →
        id ∈ (savedDisk C saves).listIdleSessionsForAgent now agentId role idleMinutes) := by
  constructor
  · intro id hid
    obtain ⟨c, hc, hactive, -⟩ := mem_listIdle_iff.mp hid
    exact ⟨c, hc, hactive⟩
  · intro hcut id c hc hactive hidle
    refine mem_listIdle_iff.mpr ⟨c, hc, hactive, ?_⟩
    omega

def watchedNote (user message : Int) : RowCheckpoint Bool String :=
  { anonymousNote with
    agentId := some "a"
    lastMessageAt := some message
    rest := { anonymousNote.rest with lastUserActivityAt := some user } }

theorem a_session_with_a_fresh_message_is_listed :
    "s1" ∈ (savedDisk noteRows [(watchedNote (1000000000 - 3600) (1000000000 - 60), 1000000000000)]).listIdleSessionsForAgent
      1000000000000 "a" .mainAgent 30 ∧ ¬ (1000000000 - 60) * 1000 ≤ idleCutoff 1000000000000 30 := by
  refine ⟨mem_listIdle_iff.mpr ⟨_, rfl, ⟨rfl, rfl, rfl⟩, ?_⟩, ?_⟩ <;> decide

end CloseClaw.Session
