/- An answer given as a stream (`unified_fallback.rs`). -/

import CloseClaw.LLM.Types
import CloseClaw.Lib.Json

namespace CloseClaw.LLM

open List
open Session (ContentBlock)
open Lib (Json)
open StreamingContentAssembler (applyDelta emptyBlock processEvent)

def streamedType : ContentBlock → Option ContentBlockType
  | .text _ => some .text
  | .thinking _ _ => some .thinking
  | .toolUse _ _ _ => some .toolUse
  | .toolResult _ _ => none
  | .media _ _ => none

def callJson (id name input : String) : String :=
  "\x7b\"id\":" ++ Json.quote id ++ ",\"input\":" ++ Json.quote input ++ ",\"name\":" ++ Json.quote name ++ "\x7d"

def blockDeltas : ContentBlock → List ContentDelta
  | .text text => text.toList.map fun ch => .text (String.singleton ch)
  | .thinking thinking signature => [.thinking thinking signature]
  | .toolUse id name input => [.toolUseInputChunk (callJson id name input)]
  | .toolResult _ _ => []
  | .media _ _ => []

def blockEvents (block : ContentBlock) (i : Nat) : List StreamEvent :=
  match streamedType block with
  | some ty => .blockStart i ty :: ((blockDeltas block).map (StreamEvent.blockDelta i) ++ [.blockEnd i ty])
  | none => []

def responseToStream (response : UnifiedResponse) : List StreamEvent :=
  (response.contentBlocks.zipIdx.flatMap fun entry => blockEvents entry.1 entry.2) ++
    [.messageEnd (some response.usage) response.finishReason]

def degraded (block : ContentBlock) : Option ContentBlock :=
  (streamedType block).map fun ty => (blockDeltas block).foldl applyDelta (emptyBlock ty)

theorem foldl_text_deltas (cs : List Char) (t : String) :
    (cs.map fun ch => ContentDelta.text (String.singleton ch)).foldl applyDelta (.text t)
      = .text (t ++ String.ofList cs) := by
  induction cs generalizing t with
  | nil => simp
  | cons c cs ih =>
    rw [map_cons, foldl_cons]
    show List.foldl applyDelta (.text (t ++ String.singleton c)) _ = _
    rw [ih]
    congr 1
    apply String.toList_inj.mp
    simp

@[simp] theorem degraded_text (t : String) : degraded (.text t) = some (.text t) := by
  have hdeltas := foldl_text_deltas t.toList ""
  simp only [String.empty_append, String.ofList_toList] at hdeltas
  simp [degraded, streamedType, blockDeltas, emptyBlock, hdeltas]

@[simp] theorem degraded_thinking (thinking : String) (signature : Option String) :
    degraded (.thinking thinking signature) = some (.thinking thinking signature) := by
  simp [degraded, streamedType, blockDeltas, emptyBlock, applyDelta]

variable (id : String) (blocks : List ContentBlock) (name : String) {a : StreamingContentAssembler} (input : String)

@[simp] theorem degraded_toolUse :
    degraded (.toolUse id name input) = some (.toolUse "" "" (callJson id name input)) := by
  simp [degraded, streamedType, blockDeltas, emptyBlock, applyDelta]

theorem length_lt_callJson : input.length < (callJson id name input).length := by
  have hquote := Json.length_lt_quote input
  simp only [callJson, String.length_append]
  omega

theorem degraded_eq_self_iff {block : ContentBlock} (h : (streamedType block).isSome = true) :
    degraded block = some block ↔ toolUse? block = none := by
  cases block with
  | text | thinking => simp [toolUse?]
  | toolUse id name input =>
    simp only [degraded_toolUse, toolUse?, reduceCtorEq, iff_false, Option.some.injEq, ContentBlock.toolUse.injEq]
    rintro ⟨-, -, hinput⟩
    have hlong := length_lt_callJson id name input
    rw [hinput] at hlong
    omega
  | toolResult | media => cases h

theorem foldl_blockEvents (h : a.activeBlocks = ∅) (block : ContentBlock) (i : Nat) :
    (blockEvents block i).foldl processEvent a
      = { a with contentBlocks := a.contentBlocks ++ (degraded block).toList } := by
  unfold blockEvents degraded
  cases streamedType block with
  | none => simp
  | some ty =>
    have hclosed : i ∉ a.activeBlocks := by
      rw [h]
      exact AList.notMem_empty i
    exact assemble_block ty (blockDeltas block) hclosed

theorem foldl_blocks (k : Nat) (h : a.activeBlocks = ∅) :
    ((blocks.zipIdx k).flatMap fun entry => blockEvents entry.1 entry.2).foldl processEvent a
      = { a with contentBlocks := a.contentBlocks ++ blocks.filterMap degraded } := by
  induction blocks generalizing k a with
  | nil => simp
  | cons block blocks ih =>
    have hrest := ih (k + 1) (a := { a with contentBlocks := a.contentBlocks ++ (degraded block).toList }) h
    rw [zipIdx_cons, flatMap_cons, foldl_append, foldl_blockEvents h block k, hrest]
    cases hb : degraded block <;> simp [hb]

theorem assemble_responseToStream (response : UnifiedResponse) : assemble (responseToStream response)
      = ⟨response.contentBlocks.filterMap degraded, ∅, some response.usage⟩ := by
  have hblocks := foldl_blocks response.contentBlocks 0 (a := StreamingContentAssembler.new) rfl
  rw [assemble, responseToStream, foldl_append, hblocks]
  rfl

structure Faithful (response : UnifiedResponse) (events : List StreamEvent) : Prop where
  contentBlocks : (assemble events).contentBlocks
    = response.contentBlocks.filter fun block => (streamedType block).isSome
  usage : (assemble events).usage = some response.usage
  finishReason : events.getLast? = some (.messageEnd (some response.usage) response.finishReason)

theorem filterMap_degraded_eq_iff :
    blocks.filterMap degraded = blocks.filter (fun block => (streamedType block).isSome)
      ↔ ∀ block ∈ blocks, toolUse? block = none := by
  induction blocks with
  | nil => simp
  | cons block blocks ih =>
    by_cases hs : (streamedType block).isSome = true
    · have hself := degraded_eq_self_iff hs
      obtain ⟨b, hb⟩ : ∃ b, degraded block = some b := by
        obtain ⟨ty, hty⟩ := Option.isSome_iff_exists.mp hs
        exact ⟨_, by rw [degraded, hty]; rfl⟩
      rw [hb, Option.some.injEq] at hself
      rw [filterMap_cons_some hb, filter_cons_of_pos (by simpa using hs), List.cons.injEq, hself, ih,
        forall_mem_cons]
    · have hnone : streamedType block = none := by simpa using hs
      have htool : toolUse? block = none := by
        cases block <;> first | rfl | cases hnone
      have hdegraded : degraded block = none := by rw [degraded, hnone]; rfl
      rw [filterMap_cons_none hdegraded, filter_cons_of_neg (by simpa using hs), ih, forall_mem_cons]
      simp [htool]

theorem degraded_stream_faithful_iff (response : UnifiedResponse) :
    Faithful response (responseToStream response) ↔ ∀ block ∈ response.contentBlocks, toolUse? block = none := by
  rw [← filterMap_degraded_eq_iff]
  constructor
  · intro hf
    have hblocks := hf.contentBlocks
    rwa [assemble_responseToStream] at hblocks
  · intro hblocks
    refine ⟨?_, ?_, ?_⟩
    · rw [assemble_responseToStream]
      exact hblocks
    · rw [assemble_responseToStream]
    · exact List.getLast?_concat ..

def listCall : UnifiedResponse :=
  { contentBlocks := [.toolUse "call_1" "bash" "ls"]
    usage := ⟨7, 3, none, none, none, none⟩
    finishReason := some "tool_calls"
    retryAttempts := 0 }

theorem a_degraded_call_loses_its_name : (assemble (responseToStream listCall)).contentBlocks
        = [.toolUse "" "" "\x7b\"id\":\"call_1\",\"input\":\"ls\",\"name\":\"bash\"\x7d"] ∧
      ¬ Faithful listCall (responseToStream listCall) := by
  have hout : (assemble (responseToStream listCall)).contentBlocks
      = [.toolUse "" "" "\x7b\"id\":\"call_1\",\"input\":\"ls\",\"name\":\"bash\"\x7d"] := by decide +kernel
  refine ⟨hout, fun hf => ?_⟩
  have hblocks := hf.contentBlocks
  rw [hout] at hblocks
  revert hblocks
  decide

end CloseClaw.LLM
