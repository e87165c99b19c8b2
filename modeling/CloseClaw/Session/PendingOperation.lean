/- The operations a checkpoint records as not finished. -/

import CloseClaw.Gateway.ChildAnnounce

namespace CloseClaw.Session

open List
open Gateway.ChildAnnounce (ChildSessionState)

inductive PendingOperationType where
  | toolCall
  | subSessionSpawn
  | outboundMessage
  deriving DecidableEq

inductive PendingOperationDetail where
  | toolCall (toolName argsSummary : String)
  | subSessionSpawn (childSessionId agentId taskSummary : String)
  | outboundMessage (targetChannel messageId deliveryStatus : String)
  deriving DecidableEq

structure PendingOperation where
  opId : String
  opType : PendingOperationType
  detail : PendingOperationDetail
  createdAt : Int
  deriving DecidableEq

inductive ToolExecState where
  | pending
  | runningForeground
  | runningBackground
  | completed
  | failed
  | terminated
  | timedOut
  deriving DecidableEq

def ToolExecState.isRunning : ToolExecState → Bool
  | .runningForeground | .runningBackground => true
  | _ => false

def ToolExecState.isUnfinished : ToolExecState → Bool
  | .pending | .runningForeground | .runningBackground => true
  | _ => false

theorem ToolExecState.isUnfinished_of_isRunning {s : ToolExecState} (h : s.isRunning = true) :
    s.isUnfinished = true := by
  cases s with
  | runningForeground | runningBackground => rfl
  | pending | completed | failed | terminated | timedOut => cases h

structure ToolEntry where
  callId : String
  state : ToolExecState
  detail : Option PendingOperationDetail
  deriving DecidableEq

structure ChildEntry where
  childId : String
  state : ChildSessionState
  detail : Option PendingOperationDetail

def ToolEntry.operation (now : Int) (t : ToolEntry) : PendingOperation :=
  ⟨t.callId, .toolCall, t.detail.getD (.toolCall t.callId ""), now⟩

def ChildEntry.operation (now : Int) (c : ChildEntry) : PendingOperation :=
  ⟨c.childId, .subSessionSpawn, c.detail.getD (.subSessionSpawn c.childId "" ""), now⟩

def collectPendingToolCalls (now : Int) (tools : List ToolEntry) : List PendingOperation :=
  (tools.filter fun t => t.state.isUnfinished).map (ToolEntry.operation now)

def collectPendingChildren (now : Int) (children : List ChildEntry) : List PendingOperation :=
  (children.filter fun c => c.state == .running).map (ChildEntry.operation now)

def collectPendingOperations (now : Int) (tools : List ToolEntry) (children : List ChildEntry) :
    List PendingOperation :=
  collectPendingToolCalls now tools ++ collectPendingChildren now children

def HasOperation (ops : List PendingOperation) (opType : PendingOperationType) (id : String) : Prop :=
  ∃ op ∈ ops, op.opType = opType ∧ op.opId = id

instance HasOperation.decidable (ops : List PendingOperation) (opType : PendingOperationType) (id : String) :
    Decidable (HasOperation ops opType id) :=
  inferInstanceAs (Decidable (∃ op ∈ ops, _))

variable {tools : List ToolEntry} {children : List ChildEntry}

variable {now : Int} {id : String}

theorem hasOperation_collected_toolCall :
    HasOperation (collectPendingOperations now tools children) .toolCall id ↔
      ∃ t ∈ tools, t.state.isUnfinished = true ∧ t.callId = id := by
  constructor
  · rintro ⟨op, hmem, htype, hid⟩
    obtain htool | hchild := mem_append.mp hmem
    · obtain ⟨t, ht, rfl⟩ := mem_map.mp htool
      obtain ⟨hin, hstate⟩ := mem_filter.mp ht
      exact ⟨t, hin, hstate, hid⟩
    · obtain ⟨c, -, rfl⟩ := mem_map.mp hchild
      cases htype
  · rintro ⟨t, hin, hstate, hid⟩
    refine ⟨t.operation now, mem_append_left _ ?_, rfl, hid⟩
    exact mem_map.mpr ⟨t, mem_filter.mpr ⟨hin, hstate⟩, rfl⟩

theorem hasOperation_collected_subSession :
    HasOperation (collectPendingOperations now tools children) .subSessionSpawn id ↔
      ∃ c ∈ children, c.state = .running ∧ c.childId = id := by
  constructor
  · rintro ⟨op, hmem, htype, hid⟩
    obtain htool | hchild := mem_append.mp hmem
    · obtain ⟨t, -, rfl⟩ := mem_map.mp htool
      cases htype
    · obtain ⟨c, hc, rfl⟩ := mem_map.mp hchild
      obtain ⟨hin, hstate⟩ := mem_filter.mp hc
      exact ⟨c, hin, beq_iff_eq.mp hstate, hid⟩
  · rintro ⟨c, hin, hstate, hid⟩
    refine ⟨c.operation now, mem_append_right _ ?_, rfl, hid⟩
    exact mem_map.mpr ⟨c, mem_filter.mpr ⟨hin, beq_iff_eq.mpr hstate⟩, rfl⟩

theorem collectPendingOperations_eq_nil : collectPendingOperations now tools children = [] ↔
      (∀ t ∈ tools, t.state.isUnfinished = false) ∧ ∀ c ∈ children, c.state ≠ .running := by
  simp [collectPendingOperations, collectPendingToolCalls, collectPendingChildren]

end CloseClaw.Session
