/- An assembled answer depends on its content only. -/

import CloseClaw.LLM.Types
import CloseClaw.Lib.KeyedCells
import Mathlib.Logic.Relation

namespace CloseClaw.LLM

open Lib List StreamingContentAssembler KeyedCells.Store StreamEvent KeyedCells.Event
open Session (ContentBlock)

def StreamEvent.index? : StreamEvent → Option Nat
  | .blockStart i _ => some i
  | .blockDelta i _ => some i
  | .blockEnd i _ => some i
  | .messageEnd .. => none
  | .error _ => none

def StreamEvent.isBlockStart : StreamEvent → Bool
  | .blockStart .. => true
  | _ => false

inductive Joins : ContentDelta → ContentDelta → ContentDelta → Prop
  | text (a b : String) : Joins (.text a) (.text b) (.text (a ++ b))
  | thinking (a b : String) (s t : Option String) :
      Joins (.thinking a s) (.thinking b t) (.thinking (a ++ b) (s.or t))
  | toolUseInputChunk (a b : String) :
      Joins (.toolUseInputChunk a) (.toolUseInputChunk b) (.toolUseInputChunk (a ++ b))
  | toolResultText (a b : String) : Joins (.toolResultText a) (.toolResultText b) (.toolResultText (a ++ b))

structure Interleaved (es es' : List StreamEvent) : Prop where
  events : ∀ i, es.filter (fun e => e.index? = some i) = es'.filter (fun e => e.index? = some i)
  starts : es.filter isBlockStart = es'.filter isBlockStart

inductive Rewritten : List StreamEvent → List StreamEvent → Prop
  | joined (before after : List StreamEvent) (i : Nat) {d d' both : ContentDelta} : Joins d d' both →
      Rewritten (before ++ .blockDelta i d :: .blockDelta i d' :: after) (before ++ .blockDelta i both :: after)
  | interleaved {es es' : List StreamEvent} : Interleaved es es' → Rewritten es es'

def SameContent : List StreamEvent → List StreamEvent → Prop := Relation.EqvGen Rewritten

variable {d : ContentDelta} (es : List StreamEvent) {d' both : ContentDelta}

theorem applyDelta_joins (h : Joins d d' both) (b : ContentBlock) :
    applyDelta (applyDelta b d) d' = applyDelta b both := by
  cases h <;> cases b <;> simp [applyDelta, String.append_assoc, Option.or_assoc]

theorem processEvent_joins (a : StreamingContentAssembler) (i : Nat) (h : Joins d d' both) :
    processEvent (processEvent a (.blockDelta i d)) (.blockDelta i d') = processEvent a (.blockDelta i both) := by
  cases hk : a.activeBlocks.lookup i with
  | none => simp only [processEvent, hk]
  | some =>
    simp only [processEvent, hk, modify_modify_eq]
    have hboth : (applyDelta · d') ∘ (applyDelta · d) = (applyDelta · both) := funext fun b => applyDelta_joins h b
    rw [hboth]

def toCell : StreamEvent → Option (KeyedCells.Event Nat ContentBlock)
  | .blockStart i ty => some (.start i (emptyBlock ty))
  | .blockDelta i d => some (.update i (applyDelta · d))
  | .blockEnd i _ => some (.stop i)
  | .messageEnd .. => none
  | .error _ => none

structure Stores (a : StreamingContentAssembler) (s : KeyedCells.Store Nat ContentBlock) : Prop where
  cells : a.contentBlocks = s.cells
  opened : ∀ i, a.activeBlocks.lookup i = s.opened i

theorem Stores.processEvent {a : StreamingContentAssembler} {s : KeyedCells.Store Nat ContentBlock} (h : Stores a s)
    (e : StreamEvent) : Stores (processEvent a e) ((toCell e).toList.foldl step s) := by
  cases e with
  | blockStart i =>
    refine ⟨by simp [StreamingContentAssembler.processEvent, toCell, step, h.cells], ?_⟩
    intro j
    by_cases hj : j = i
    · subst hj
      simp [StreamingContentAssembler.processEvent, toCell, step, h.cells]
    · simp [StreamingContentAssembler.processEvent, toCell, step, AList.lookup_insert_ne hj, hj, h.opened j]
  | blockDelta i =>
    have hi := h.opened i
    cases hk : s.opened i <;> rw [hk] at hi <;>
      simp only [StreamingContentAssembler.processEvent, hi, toCell, Option.toList_some, foldl_cons, foldl_nil,
        step, KeyedCells.alter, hk, h.cells]
    · exact h
    · exact ⟨rfl, h.opened⟩
  | blockEnd i =>
    refine ⟨h.cells, ?_⟩
    intro j
    by_cases hj : j = i
    · subst hj
      simp [StreamingContentAssembler.processEvent, toCell, step]
    · simp [StreamingContentAssembler.processEvent, toCell, step, AList.lookup_erase_ne hj, hj, h.opened j]
  | messageEnd => exact ⟨h.cells, h.opened⟩
  | error => exact h

theorem Stores.run {a : StreamingContentAssembler} {s : KeyedCells.Store Nat ContentBlock} (h : Stores a s)
    (es : List StreamEvent) :
    Stores (es.foldl StreamingContentAssembler.processEvent a) ((es.filterMap toCell).foldl step s) := by
  induction es generalizing a s with
  | nil => exact h
  | cons e es ih =>
    have hstep := ih (h.processEvent e)
    cases he : toCell e <;> simpa [he] using hstep

theorem assemble_cells : (assemble es).contentBlocks = (run (es.filterMap toCell)).cells := by
  have hnew : Stores new empty := ⟨rfl, fun _ => rfl⟩
  exact (hnew.run es).cells

theorem eventsOf_filterMap (i : Nat) (es : List StreamEvent) :
    KeyedCells.eventsOf i (es.filterMap toCell) = (es.filter fun e => e.index? = some i).filterMap toCell := by
  rw [KeyedCells.eventsOf, filter_filterMap, filterMap_filter]
  congr 1
  funext e
  cases e with
  | blockStart j => by_cases hj : j = i <;> simp [toCell, index?, key, hj]
  | blockDelta j => by_cases hj : j = i <;> simp [toCell, index?, key, hj]
  | blockEnd j => by_cases hj : j = i <;> simp [toCell, index?, key, hj]
  | messageEnd | error => rfl

theorem starts_filterMap : (es.filterMap toCell).filter isStart = (es.filter isBlockStart).filterMap toCell := by
  rw [filter_filterMap, filterMap_filter]
  congr 1
  funext e
  cases e <;> rfl

theorem Interleaved.assemble {es es' : List StreamEvent} (h : Interleaved es es') :
    (assemble es).contentBlocks = (assemble es').contentBlocks := by
  rw [assemble_cells, assemble_cells]
  refine congrArg cells (KeyedCells.run_eq ?_ ?_)
  · rw [starts_filterMap, starts_filterMap, h.starts]
  · intro i
    rw [eventsOf_filterMap, eventsOf_filterMap, h.events i]

theorem Rewritten.assemble {es es' : List StreamEvent} (h : Rewritten es es') :
    (assemble es).contentBlocks = (assemble es').contentBlocks := by
  cases h with
  | joined before after i hjoins =>
    simp only [LLM.assemble, foldl_append, foldl_cons, processEvent_joins _ i hjoins]
  | interleaved hmoved => exact hmoved.assemble

/-- Streams that say the same are assembled to the same blocks. -/
theorem assembly_depends_on_content {es es' : List StreamEvent} (h : SameContent es es') :
    (assemble es).contentBlocks = (assemble es').contentBlocks := by
  induction h with
  | rel es es' hstep => exact hstep.assemble
  | refl => rfl
  | symm es es' _ ih => exact ih.symm
  | trans es es' es'' _ _ ih ih' => exact ih.trans ih'

def mixedStream : List StreamEvent :=
  [.blockStart 0 .text, .blockDelta 0 (.text "He"), .blockStart 1 .toolUse, .blockDelta 1 (.toolUseInputChunk "1"),
    .blockDelta 0 (.text "llo"), .blockEnd 0 .text, .blockEnd 1 .toolUse]

def plainStream : List StreamEvent :=
  [.blockStart 0 .text, .blockStart 1 .toolUse, .blockDelta 0 (.text "He"), .blockDelta 0 (.text "llo"),
    .blockEnd 0 .text, .blockDelta 1 (.toolUseInputChunk "1"), .blockEnd 1 .toolUse]

theorem interleaved_mixed_plain : Interleaved mixedStream plainStream where
  events := by
    intro i
    by_cases h0 : 0 = i
    · subst h0
      rfl
    · by_cases h1 : 1 = i
      · subst h1
        rfl
      · simp [mixedStream, plainStream, index?, h0, h1]
  starts := rfl

theorem assembly_depends_on_content_mixed : (assemble mixedStream).contentBlocks =
      (assemble [.blockStart 0 .text, .blockStart 1 .toolUse, .blockDelta 0 (.text "Hello"), .blockEnd 0 .text,
        .blockDelta 1 (.toolUseInputChunk "1"), .blockEnd 1 .toolUse]).contentBlocks :=
  assembly_depends_on_content
    (.trans _ plainStream _ (.rel _ _ (.interleaved interleaved_mixed_plain))
      (.rel _ _ (.joined [.blockStart 0 .text, .blockStart 1 .toolUse]
        [.blockEnd 0 .text, .blockDelta 1 (.toolUseInputChunk "1"), .blockEnd 1 .toolUse] 0 (.text "He" "llo"))))

end CloseClaw.LLM
