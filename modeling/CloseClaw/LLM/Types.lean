/- Responses and stream events (`llm/src/types.rs`). -/

import CloseClaw.Session.Transcript
import Mathlib.Data.List.AList

namespace CloseClaw.LLM

open Session (ContentBlock)

inductive RawContentBlock where
  | text (s : String)
  | thinking (thinking : String) (signature : Option String)
  | toolUse (id name input : String)
  | toolResult (toolCallId content : String)

def RawContentBlock.into : RawContentBlock → ContentBlock
  | .text s => .text s
  | .thinking s signature => .thinking s signature
  | .toolUse id name input => .toolUse id name input
  | .toolResult toolCallId content => .toolResult toolCallId content

structure Usage where
  promptTokens : UInt32
  completionTokens : UInt32
  totalTokens : Option UInt32
  reasoningTokens : Option UInt32
  cacheReadTokens : Option UInt32
  cacheWriteTokens : Option UInt32
  deriving DecidableEq

structure InternalResponse where
  contentBlocks : List RawContentBlock
  usage : Usage
  finishReason : Option String

structure UnifiedResponse where
  contentBlocks : List ContentBlock
  usage : Usage
  finishReason : Option String
  retryAttempts : UInt32

inductive ContentBlockType where
  | text
  | thinking
  | toolUse
  | toolResult
  | media
  deriving DecidableEq

inductive ContentDelta where
  | text (text : String)
  | thinking (thinking : String) (signature : Option String)
  | toolUseId (id : String)
  | toolUseName (name : String)
  | toolUseInputChunk (input : String)
  | toolResultText (text : String)
  | mediaRef (name url : String)
  deriving DecidableEq

def ContentDelta.blockType : ContentDelta → ContentBlockType
  | .text _ => .text
  | .thinking _ _ => .thinking
  | .toolUseId _ | .toolUseName _ | .toolUseInputChunk _ => .toolUse
  | .toolResultText _ => .toolResult
  | .mediaRef _ _ => .media

inductive StreamEvent where
  | blockStart (index : Nat) (blockType : ContentBlockType)
  | blockDelta (index : Nat) (delta : ContentDelta)
  | blockEnd (index : Nat) (blockType : ContentBlockType)
  | messageEnd (usage : Option Usage) (finishReason : Option String)
  | error (message : String)
  deriving DecidableEq

def toolUse? : ContentBlock → Option (String × String × String)
  | .toolUse id name input => some (id, name, input)
  | _ => none

def thinking? : ContentBlock → Option String
  | .thinking thinking _ => some thinking
  | _ => none

def toolUses (blocks : List ContentBlock) : List (String × String × String) := blocks.filterMap toolUse?

def allText (blocks : List ContentBlock) : String := String.join (blocks.filterMap ContentBlock.asText)

def allThinking (blocks : List ContentBlock) : String := String.join (blocks.filterMap thinking?)

@[simp] theorem toolUses_nil : toolUses [] = [] := rfl

@[simp] theorem allText_nil : allText [] = "" := rfl

@[simp] theorem allThinking_nil : allThinking [] = "" := rfl

variable (b : ContentBlock) (blocks : List ContentBlock)

theorem toolUses_cons : toolUses (b :: blocks) = (toolUse? b).toList ++ toolUses blocks := by
  unfold toolUses
  cases h : toolUse? b <;> simp [h]

theorem toolUses_append (more : List ContentBlock) : toolUses (blocks ++ more) = toolUses blocks ++ toolUses more :=
  List.filterMap_append

theorem allText_append (more : List ContentBlock) : allText (blocks ++ more) = allText blocks ++ allText more := by
  rw [allText, List.filterMap_append, String.join_append, allText, allText]

theorem join_filterMap_cons {β : Type} (part : β → Option String) (b : β) (blocks : List β) :
    String.join ((b :: blocks).filterMap part) = (part b).getD "" ++ String.join (blocks.filterMap part) := by
  cases h : part b <;> simp [h]

theorem allText_cons : allText (b :: blocks) = b.asText.getD "" ++ allText blocks := join_filterMap_cons ..

theorem allThinking_cons :
    allThinking (b :: blocks) = (thinking? b).getD "" ++ allThinking blocks := join_filterMap_cons ..

open List
structure StreamingContentAssembler where
  contentBlocks : List ContentBlock
  activeBlocks : AList fun _ : Nat => Nat
  usage : Option Usage

namespace StreamingContentAssembler

def new : StreamingContentAssembler := ⟨[], ∅, none⟩

def emptyBlock : ContentBlockType → ContentBlock
  | .text => .text ""
  | .thinking => .thinking "" none
  | .toolUse => .toolUse "" "" ""
  | .toolResult => .toolResult "" ""
  | .media => .media "" ""

def applyDelta (block : ContentBlock) (delta : ContentDelta) : ContentBlock :=
  match delta, block with
  | .text text, .text t => .text (t ++ text)
  | .thinking more signature, .thinking th sig => .thinking (th ++ more) (sig.or signature)
  | .toolUseId id, .toolUse _ name input => .toolUse id name input
  | .toolUseName name, .toolUse id _ input => .toolUse id name input
  | .toolUseInputChunk chunk, .toolUse id name input => .toolUse id name (input ++ chunk)
  | .toolResultText text, .toolResult id content => .toolResult id (content ++ text)
  | .mediaRef name url, _ => .media name url
  | _, block => block

def processEvent (a : StreamingContentAssembler) : StreamEvent → StreamingContentAssembler
  | .blockStart index blockType =>
    { a with
      contentBlocks := a.contentBlocks ++ [emptyBlock blockType]
      activeBlocks := a.activeBlocks.insert index a.contentBlocks.length }
  | .blockDelta index delta =>
    match a.activeBlocks.lookup index with
    | some pos => { a with contentBlocks := a.contentBlocks.modify pos (applyDelta · delta) }
    | none => a
  | .blockEnd index _ => { a with activeBlocks := a.activeBlocks.erase index }
  | .messageEnd usage _ => { a with usage := usage }
  | .error _ => a

end StreamingContentAssembler

open StreamingContentAssembler

def assemble (events : List StreamEvent) : StreamingContentAssembler := events.foldl processEvent new

section Block

variable {a : StreamingContentAssembler} {i pos : Nat}

theorem modify_last {α : Type} (pre : List α) (x : α) (f : α → α) :
    (pre ++ [x]).modify pre.length f = pre ++ [f x] := by
  induction pre with
  | nil => rfl
  | cons y pre ih => simpa using ih

theorem foldl_deltas {pre : List ContentBlock} {b : ContentBlock} (deltas : List ContentDelta)
    (hblocks : a.contentBlocks = pre ++ [b]) (hactive : a.activeBlocks.lookup i = some pre.length) :
    (deltas.map (StreamEvent.blockDelta i)).foldl processEvent a
      = { a with contentBlocks := pre ++ [deltas.foldl applyDelta b] } := by
  induction deltas generalizing a b with
  | nil => simp [← hblocks]
  | cons d deltas ih =>
    have hstep : processEvent a (.blockDelta i d) = { a with contentBlocks := pre ++ [applyDelta b d] } := by
      simp only [processEvent, hactive, hblocks, modify_last]
    rw [map_cons, foldl_cons, hstep, foldl_cons]
    exact ih (a := { a with contentBlocks := pre ++ [applyDelta b d] }) rfl hactive

theorem erase_insert_of_notMem {m : AList fun _ : Nat => Nat} (h : i ∉ m) : (m.insert i pos).erase i = m := by
  apply AList.ext
  show List.kerase i (m.insert i pos).entries = m.entries
  rw [AList.entries_insert_of_notMem h]
  exact kerase_cons_eq rfl

theorem assemble_block (ty : ContentBlockType) (deltas : List ContentDelta) (h : i ∉ a.activeBlocks) :
    (StreamEvent.blockStart i ty :: (deltas.map (StreamEvent.blockDelta i) ++ [StreamEvent.blockEnd i ty])).foldl
        processEvent a = { a with contentBlocks := a.contentBlocks ++ [deltas.foldl applyDelta (emptyBlock ty)] } := by
  rw [foldl_cons, foldl_append]
  have hdeltas := foldl_deltas (a := processEvent a (.blockStart i ty)) deltas rfl (AList.lookup_insert _)
  rw [hdeltas]
  simp only [processEvent, foldl_cons, foldl_nil, erase_insert_of_notMem h]

end Block

end CloseClaw.LLM
