/- What the assembler has of an OpenAI stream. -/

import CloseClaw.LLM.OpenAiStream
import CloseClaw.LLM.Types

namespace CloseClaw.LLM.OpenAi

open Lib List
open Session (ContentBlock)
open StreamingContentAssembler (applyDelta emptyBlock processEvent)

abbrev Call := String × String × String

def Call.extend (args : String) (c : Call) : Call := (c.1, c.2.1, c.2.2 ++ args)

def extendLast (calls : List Call) (args : String) : List Call := calls.modify (calls.length - 1) (Call.extend args)

theorem extend_empty (c : Call) : Call.extend "" c = c := by
  simp [Call.extend]

structure Tally where
  text : String
  calls : List Call
  active : Option ContentBlockType

namespace Tally

def endForToolCalls (t : Tally) (delta : Json) : Tally :=
  if (toolCalls? delta).isSome && t.active != some .toolUse then { t with active := none } else t

def addText (t : Tally) (text : String) : Tally :=
  if t.active = some .toolUse then t else { t with text := t.text ++ text, active := some .text }

def contentDelta (t : Tally) (delta : Json) : Tally × Bool :=
  match content? delta with
  | none => (t, true)
  | some text => if text = "" then (t, false) else (t.addText text, true)

def reasoningDelta (t : Tally) (delta : Json) : Tally × Bool :=
  match reasoning? delta with
  | none => (t, true)
  | some thinking =>
    if thinking = "" then (t, false)
    else if t.active = some .text then (t, false)
    else ({ t with active := some .thinking }, true)

def toolCall (t : Tally) (tc : Json) : Tally :=
  match toolCallId tc with
  | some id =>
    { t with
      calls := t.calls ++ [(id, (toolCallName tc).getD "", (toolCallArguments tc).getD "")]
      active := some .toolUse }
  | none =>
    if t.active = some .toolUse then { t with calls := extendLast t.calls ((toolCallArguments tc).getD "") } else t

def reasoningAndCalls (t : Tally) (delta : Json) : Tally × Bool :=
  match t.reasoningDelta delta with
  | (t, false) => (t, false)
  | (t, true) => (((toolCalls? delta).getD []).foldl toolCall t, true)

def processDelta (t : Tally) (delta : Json) : Tally × Bool :=
  match (t.endForToolCalls delta).contentDelta delta with
  | (t, false) => (t, false)
  | (t, true) => t.reasoningAndCalls delta

end Tally

/-! ## The last block -/

def kindOf : ContentBlock → ContentBlockType
  | .text _ => .text
  | .thinking _ _ => .thinking
  | .toolUse _ _ _ => .toolUse
  | .toolResult _ _ => .toolResult
  | .media _ _ => .media

@[simp] theorem kindOf_emptyBlock (ty : ContentBlockType) : kindOf (emptyBlock ty) = ty := by
  cases ty <;> rfl

theorem assemble_concat (events : List StreamEvent) (e : StreamEvent) :
    assemble (events ++ [e]) = (assemble events).processEvent e := by
  rw [assemble, foldl_concat, assemble]

namespace Parser

variable {s : Parser}

def blocks (s : Parser) : List ContentBlock := (assemble s.events).contentBlocks

def tally (s : Parser) : Tally := ⟨allText s.blocks, toolUses s.blocks, s.activeBlockType⟩

def Aligned (s : Parser) : Prop :=
  ∀ i ty, s.block = some (i, ty) → ∃ pre b, s.blocks = pre ++ [b] ∧ kindOf b = ty ∧
    (assemble s.events).activeBlocks.lookup i = some pre.length

theorem aligned_of_none (h : s.block = none) : Aligned s := by
  intro i ty hi
  rw [h] at hi
  cases hi

theorem blocks_startBlock (s : Parser) (ty : ContentBlockType) :
    (s.startBlock ty).blocks = s.blocks ++ [emptyBlock ty] ∧ Aligned (s.startBlock ty) := by
  have hasm : assemble (s.startBlock ty).events = (assemble s.events).processEvent (.blockStart s.nextBlockIndex ty) :=
    assemble_concat ..
  refine ⟨by rw [blocks, hasm]; rfl, ?_⟩
  intro i ty' hi
  cases hi
  refine ⟨s.blocks, emptyBlock ty, by rw [blocks, hasm]; rfl, kindOf_emptyBlock ty, ?_⟩
  rw [hasm]
  exact AList.lookup_insert _

theorem blocks_endBlock (s : Parser) (ty : ContentBlockType) : (s.endBlock ty).blocks = s.blocks := by
  cases hb : s.block with
  | none => simp only [endBlock, hb]
  | some => simp only [endBlock, hb, blocks, assemble_concat, processEvent]

variable (b : ContentBlock) {i : Nat}

theorem blocks_blockDelta (ha : Aligned s) {ty : ContentBlockType} (h : s.block = some (i, ty))
    (delta : ContentDelta) (hkeep : ∀ b, kindOf (applyDelta b delta) = kindOf b) :
    (∃ pre b, s.blocks = pre ++ [b] ∧ kindOf b = ty ∧ (s.blockDelta delta).blocks = pre ++ [applyDelta b delta]) ∧
      Aligned (s.blockDelta delta) := by
  obtain ⟨pre, b, hblocks, hkind, hactive⟩ := ha i ty h
  have hevents : (s.blockDelta delta).events = s.events ++ [.blockDelta i delta] := by simp only [blockDelta, h]
  have hasm : assemble (s.blockDelta delta).events
      = { assemble s.events with contentBlocks := pre ++ [applyDelta b delta] } := by
    rw [hevents, assemble_concat]
    have hlast : (assemble s.events).contentBlocks = pre ++ [b] := hblocks
    simp only [processEvent, hactive, hlast, modify_last]
  refine ⟨⟨pre, b, hblocks, hkind, by rw [blocks, hasm]⟩, ?_⟩
  intro j ty' hj
  rw [block_blockDelta, h] at hj
  cases hj
  exact ⟨pre, applyDelta b delta, by rw [blocks, hasm], (hkeep b).trans hkind, by rw [hasm]; exact hactive⟩

/-! ## The tally after each function -/

theorem tally_startBlock (s : Parser) (ty : ContentBlockType) : (s.startBlock ty).tally
      = ⟨s.tally.text ++ allText [emptyBlock ty], s.tally.calls ++ toolUses [emptyBlock ty], some ty⟩ := by
  rw [tally, (blocks_startBlock s ty).1, allText_append, toolUses_append]
  rfl

theorem tally_endBlock (s : Parser) (ty : ContentBlockType) :
    (s.endBlock ty).tally = { s.tally with active := none } := by
  rw [tally, blocks_endBlock, activeBlockType, block_endBlock]
  rfl

theorem activeBlockType_blockDelta (delta : ContentDelta) :
    (s.blockDelta delta).activeBlockType = s.activeBlockType := by
  rw [activeBlockType, block_blockDelta, activeBlockType]

theorem kindOf_applyDelta_text (text : String) : kindOf (applyDelta b (.text text)) = kindOf b := by
  cases b <;> rfl

theorem kindOf_applyDelta_thinking (more : String) (signature : Option String) :
    kindOf (applyDelta b (.thinking more signature)) = kindOf b := by
  cases b <;> rfl

theorem kindOf_applyDelta_toolUse {delta : ContentDelta} (h : delta.blockType = .toolUse) (b : ContentBlock) :
    kindOf (applyDelta b delta) = kindOf b := by
  cases delta with
  | toolUseId | toolUseName | toolUseInputChunk => cases b <;> rfl
  | _ => cases h

theorem tally_textDelta (ha : Aligned s) (h : s.block = some (i, .text)) (text : String) :
    (s.blockDelta (.text text)).tally = { s.tally with text := s.tally.text ++ text } ∧
      Aligned (s.blockDelta (.text text)) := by
  obtain ⟨⟨pre, b, hblocks, hkind, hout⟩, halign⟩ := blocks_blockDelta ha h (.text text) (kindOf_applyDelta_text · text)
  refine ⟨?_, halign⟩
  cases b with
  | text =>
    simp only [tally, hout, hblocks, allText_append, toolUses_append, activeBlockType_blockDelta]
    simp [applyDelta, allText_cons, ContentBlock.asText, toolUses_cons, toolUse?, String.append_assoc]
  | _ => cases hkind

theorem tally_textDelta_tool (ha : Aligned s) (h : s.block = some (i, .toolUse)) (text : String) :
    (s.blockDelta (.text text)).tally = s.tally ∧ Aligned (s.blockDelta (.text text)) := by
  obtain ⟨⟨pre, b, hblocks, hkind, hout⟩, halign⟩ := blocks_blockDelta ha h (.text text) (kindOf_applyDelta_text · text)
  refine ⟨?_, halign⟩
  cases b with
  | toolUse => simp only [tally, hout, hblocks, activeBlockType_blockDelta, applyDelta]
  | _ => cases hkind

theorem tally_thinkingDelta (ha : Aligned s) (h : s.block = some (i, .thinking)) (more : String) :
    (s.blockDelta (.thinking more none)).tally = s.tally ∧ Aligned (s.blockDelta (.thinking more none)) := by
  obtain ⟨⟨pre, b, hblocks, hkind, hout⟩, halign⟩ :=
    blocks_blockDelta ha h (.thinking more none) (kindOf_applyDelta_thinking · more none)
  refine ⟨?_, halign⟩
  cases b with
  | thinking =>
    simp only [tally, hout, hblocks, allText_append, toolUses_append, activeBlockType_blockDelta]
    rfl
  | _ => cases hkind

def applyToCall (c : Call) : ContentDelta → Call
  | .toolUseId id => (id, c.2.1, c.2.2)
  | .toolUseName name => (c.1, name, c.2.2)
  | .toolUseInputChunk input => Call.extend input c
  | _ => c

structure OnCall (s : Parser) (text : String) (pre : List Call) (c : Call) : Prop where
  aligned : Aligned s
  block : ∃ i, s.block = some (i, .toolUse)
  tally : s.tally = ⟨text, pre ++ [c], some .toolUse⟩

theorem onCall_of_block (ha : Aligned s) (h : s.block = some (i, .toolUse)) :
    ∃ pre c, OnCall s s.tally.text pre c := by
  obtain ⟨pre, b, hblocks, hkind, -⟩ := ha i _ h
  have hactive : s.activeBlockType = some .toolUse := activeBlockType_eq_some.mpr ⟨i, h⟩
  cases b with
  | toolUse id name input =>
    refine ⟨toolUses pre, (id, name, input), ha, ⟨i, h⟩, ?_⟩
    rw [Parser.tally, hblocks, toolUses_append, hactive]
    rfl
  | _ => cases hkind

theorem OnCall.blockDelta {text : String} {pre : List Call} {c : Call} (hc : OnCall s text pre c) {delta : ContentDelta}
    (hd : delta.blockType = .toolUse) : OnCall (s.blockDelta delta) text pre (applyToCall c delta) := by
  obtain ⟨i, hi⟩ := hc.block
  obtain ⟨⟨blocks, b, hblocks, hkind, hout⟩, halign⟩ :=
    blocks_blockDelta hc.aligned hi delta (kindOf_applyDelta_toolUse hd)
  refine ⟨halign, ⟨i, by rw [block_blockDelta, hi]⟩, ?_⟩
  cases b with
  | toolUse id name input =>
    have htally := hc.tally
    rw [Parser.tally, hblocks, toolUses_append, allText_append, Tally.mk.injEq] at htally
    obtain ⟨htext, hcalls, hactive⟩ := htally
    obtain ⟨hpre, hlast⟩ := append_inj' hcalls rfl
    obtain rfl : (id, name, input) = c := singleton_inj.mp hlast
    rw [Parser.tally, hout, toolUses_append, allText_append, activeBlockType_blockDelta, hactive, hpre, ← htext]
    cases delta with
    | toolUseId | toolUseName | toolUseInputChunk => rfl
    | _ => cases hd
  | _ => cases hkind

theorem OnCall.inputDelta {text : String} {pre : List Call} {c : Call} (hc : OnCall s text pre c) (tc : Json) :
    OnCall (s.inputDelta tc) text pre (Call.extend ((toolCallArguments tc).getD "") c) := by
  unfold Parser.inputDelta
  cases toolCallArguments tc with
  | none => rw [Option.getD_none, extend_empty]; exact hc
  | some => exact hc.blockDelta rfl

theorem OnCall.nameDelta {text id input : String} {pre : List Call}
    (hc : OnCall s text pre (id, "", input)) (tc : Json) :
    OnCall (s.nameDelta tc) text pre (id, (toolCallName tc).getD "", input) := by
  unfold Parser.nameDelta
  cases toolCallName tc with
  | none => exact hc
  | some => exact hc.blockDelta rfl

theorem extendLast_concat (pre : List Call) (c : Call) (args : String) :
    extendLast (pre ++ [c]) args = pre ++ [Call.extend args c] := by
  have hlen : (pre ++ [c]).length - 1 = pre.length := by simp
  rw [extendLast, hlen, modify_last]

theorem tally_toolCall (ha : Aligned s) (tc : Json) :
    (s.toolCall tc).tally = s.tally.toolCall tc ∧ Aligned (s.toolCall tc) := by
  cases hid : toolCallId tc with
  | some id =>
    have hstart : OnCall (s.startBlock .toolUse) s.tally.text s.tally.calls ("", "", "") := by
      refine ⟨(blocks_startBlock s _).2, ⟨_, rfl⟩, ?_⟩
      rw [tally_startBlock]
      simp [emptyBlock, allText_cons, ContentBlock.asText, toolUses_cons, toolUse?]
    have hnamed : OnCall ((s.startBlock .toolUse).blockDelta (.toolUseId id)) s.tally.text s.tally.calls (id, "", "") :=
      hstart.blockDelta rfl
    have hcall := (hnamed.nameDelta tc).inputDelta tc
    simp only [toolCall, Tally.toolCall, hid]
    refine ⟨?_, hcall.aligned⟩
    rw [hcall.tally]
    simp [Call.extend]
  | none =>
    simp only [toolCall, Tally.toolCall, hid]
    have hsame : s.tally.active = s.activeBlockType := rfl
    rw [hsame]
    by_cases hactive : s.activeBlockType = some .toolUse
    · rw [if_pos hactive, if_pos hactive]
      obtain ⟨i, hi⟩ := activeBlockType_eq_some.mp hactive
      obtain ⟨pre, c, hc⟩ := onCall_of_block ha hi
      have hnext := hc.inputDelta tc
      refine ⟨?_, hnext.aligned⟩
      rw [hnext.tally, hc.tally, extendLast_concat, hactive]
    · rw [if_neg hactive, if_neg hactive]
      exact ⟨rfl, ha⟩

theorem tally_toolCalls (ha : Aligned s) (calls : List Json) :
    (calls.foldl toolCall s).tally = calls.foldl Tally.toolCall s.tally ∧ Aligned (calls.foldl toolCall s) := by
  induction calls generalizing s with
  | nil => exact ⟨rfl, ha⟩
  | cons tc calls ih =>
    obtain ⟨hcall, halign⟩ := tally_toolCall ha tc
    rw [foldl_cons, foldl_cons, ← hcall]
    exact ih halign

theorem tally_endForToolCalls (ha : Aligned s) (delta : Json) :
    (s.endForToolCalls delta).tally = s.tally.endForToolCalls delta ∧ Aligned (s.endForToolCalls delta) := by
  unfold endForToolCalls Tally.endForToolCalls
  have hsame : s.tally.active = s.activeBlockType := rfl
  rw [hsame]
  split
  · exact ⟨tally_endBlock s _, aligned_of_none (block_endBlock _)⟩
  · exact ⟨rfl, ha⟩

theorem tally_blockForText (ha : Aligned s) (h : s.activeBlockType ≠ some .toolUse) (hk : Known s) :
    (∃ i, s.endThinking.blockForText.block = some (i, .text)) ∧
      s.endThinking.blockForText.tally = { s.tally with active := some .text } ∧
      Aligned s.endThinking.blockForText := by
  have hopen : ∀ s₀ : Parser, s₀.tally = { s.tally with active := none } →
      (s₀.startBlock .text).tally = { s.tally with active := some .text } := by
    intro s₀ hs₀
    rw [tally_startBlock, hs₀]
    simp [emptyBlock, allText_cons, ContentBlock.asText, toolUses_cons, toolUse?]
  by_cases hthinking : s.activeBlockType = some .thinking
  · have hnew : s.endThinking.blockForText = (s.endBlock .thinking).startBlock .text := by
      rw [endThinking, if_pos hthinking]
      exact if_pos (block_endBlock _)
    rw [hnew]
    exact ⟨⟨_, rfl⟩, hopen _ (tally_endBlock s _), (blocks_startBlock _ _).2⟩
  · have hend : s.endThinking = s := if_neg hthinking
    rw [hend]
    cases hb : s.block with
    | none =>
      have hnew : s.blockForText = s.startBlock .text := if_pos hb
      rw [hnew]
      have hnone : s.tally = { s.tally with active := none } := by
        rw [tally, activeBlockType, hb]
        rfl
      exact ⟨⟨_, rfl⟩, hopen s hnone, (blocks_startBlock _ _).2⟩
    | some block =>
      obtain ⟨i, ty⟩ := block
      have hactive : s.activeBlockType = some ty := activeBlockType_eq_some.mpr ⟨i, hb⟩
      have hsame : s.blockForText = s := if_neg (by simp [hb])
      rw [hsame]
      rcases hk i ty hb with rfl | rfl | rfl
      · exact ⟨⟨i, hb⟩, by rw [tally, hactive], ha⟩
      · exact absurd hactive hthinking
      · exact absurd hactive h

theorem tally_contentDelta (ha : Aligned s) (hk : Known s) (delta : Json) :
    (s.contentDelta delta).1.tally = (s.tally.contentDelta delta).1 ∧
      (s.contentDelta delta).2 = (s.tally.contentDelta delta).2 ∧ Aligned (s.contentDelta delta).1 := by
  unfold contentDelta Tally.contentDelta
  cases content? delta with
  | none => exact ⟨rfl, rfl, ha⟩
  | some text =>
    by_cases hempty : text = ""
    · simp only [if_pos hempty]
      exact ⟨trivial, trivial, ha⟩
    · simp only [if_neg hempty]
      have hsame : s.tally.active = s.activeBlockType := rfl
      rw [Tally.addText, hsame]
      by_cases htool : s.activeBlockType = some .toolUse
      · obtain ⟨i, hi⟩ := activeBlockType_eq_some.mp htool
        have hstay : s.endThinking.blockForText = s := by
          rw [endThinking, if_neg (by simp [htool]), blockForText, if_neg (by simp [hi])]
        rw [hstay, if_pos htool]
        obtain ⟨hdelta, halign⟩ := tally_textDelta_tool ha hi text
        exact ⟨hdelta, trivial, halign⟩
      · rw [if_neg htool]
        obtain ⟨⟨i, hi⟩, htally, halign⟩ := tally_blockForText ha htool hk
        obtain ⟨hdelta, hlast⟩ := tally_textDelta halign hi text
        rw [htally] at hdelta
        exact ⟨hdelta, trivial, hlast⟩

theorem tally_reasoningDelta (ha : Aligned s) (delta : Json) :
    (s.reasoningDelta delta).1.tally = (s.tally.reasoningDelta delta).1 ∧
      (s.reasoningDelta delta).2 = (s.tally.reasoningDelta delta).2 ∧ Aligned (s.reasoningDelta delta).1 := by
  unfold reasoningDelta Tally.reasoningDelta
  have hsame : s.tally.active = s.activeBlockType := rfl
  rw [hsame]
  cases reasoning? delta with
  | none => exact ⟨rfl, rfl, ha⟩
  | some thinking =>
    by_cases hempty : thinking = ""
    · simp only [if_pos hempty]
      exact ⟨trivial, trivial, ha⟩
    · by_cases htext : s.activeBlockType = some .text
      · simp only [if_neg hempty, if_pos htext]
        exact ⟨trivial, trivial, ha⟩
      · simp only [if_neg hempty, if_neg htext]
        by_cases hthinking : s.activeBlockType = some .thinking
        · obtain ⟨i, hi⟩ := activeBlockType_eq_some.mp hthinking
          have hstay : s.blockForThinking = s := if_pos hthinking
          rw [hstay]
          obtain ⟨hdelta, halign⟩ := tally_thinkingDelta ha hi thinking
          refine ⟨?_, trivial, halign⟩
          rw [hdelta, tally, hthinking]
        · have hnew : s.blockForThinking = s.endCurrent.startBlock .thinking := if_neg hthinking
          rw [hnew]
          obtain ⟨hdelta, halign⟩ := tally_thinkingDelta (blocks_startBlock s.endCurrent .thinking).2 rfl thinking
          refine ⟨?_, trivial, halign⟩
          rw [hdelta, tally_startBlock, endCurrent, tally_endBlock]
          simp [emptyBlock, allText_cons, ContentBlock.asText, toolUses_cons, toolUse?]

theorem tally_reasoningAndCalls (ha : Aligned s) (delta : Json) :
    (s.reasoningAndCalls delta).1.tally = (s.tally.reasoningAndCalls delta).1 ∧
      Aligned (s.reasoningAndCalls delta).1 := by
  obtain ⟨hreason, hread, ha₁⟩ := tally_reasoningDelta ha delta
  unfold reasoningAndCalls Tally.reasoningAndCalls
  generalize s.reasoningDelta delta = out at hreason hread ha₁
  obtain ⟨s₁, read⟩ := out
  generalize s.tally.reasoningDelta delta = tout at hreason hread
  obtain ⟨t₁, tread⟩ := tout
  obtain rfl : read = tread := hread
  obtain rfl : s₁.tally = t₁ := hreason
  cases read with
  | false => exact ⟨rfl, ha₁⟩
  | true => exact tally_toolCalls ha₁ _

theorem tally_processDelta (ha : Aligned s) (hk : Known s) (delta : Json) :
    (s.processDelta delta).1.tally = (s.tally.processDelta delta).1 ∧ Aligned (s.processDelta delta).1 := by
  obtain ⟨hend, ha₀⟩ := tally_endForToolCalls ha delta
  obtain ⟨hcontent, hread, ha₁⟩ := tally_contentDelta ha₀ (known_endForToolCalls hk delta) delta
  rw [hend] at hcontent hread
  unfold processDelta Tally.processDelta
  generalize (s.endForToolCalls delta).contentDelta delta = out at hcontent hread ha₁
  obtain ⟨s₁, read⟩ := out
  generalize (s.tally.endForToolCalls delta).contentDelta delta = tout at hcontent hread
  obtain ⟨t₁, tread⟩ := tout
  obtain rfl : read = tread := hread
  obtain rfl : s₁.tally = t₁ := hcontent
  cases read with
  | false => exact ⟨rfl, ha₁⟩
  | true => exact tally_reasoningAndCalls ha₁ delta

end Parser

end CloseClaw.LLM.OpenAi
