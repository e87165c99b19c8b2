/- The interpreters of parsed answers (`llm/src/interpreter.rs`). -/

import CloseClaw.LLM.Types

namespace CloseClaw.LLM

open List
open Session (ContentBlock)

structure CollectedBlocks where
  textParts : List String
  thinkingParts : List String
  lastSignature : Option String

def CollectedBlocks.push (collectSignature : Bool) (c : CollectedBlocks) : RawContentBlock → CollectedBlocks
  | .text s => { c with textParts := c.textParts ++ [s] }
  | .thinking s signature =>
    { c with
      thinkingParts := c.thinkingParts ++ [s]
      lastSignature := if collectSignature && signature.isSome then signature else c.lastSignature }
  | .toolUse id name input =>
    { c with textParts := c.textParts ++ ["id:" ++ id ++ " name:" ++ name ++ " input:" ++ input] }
  | .toolResult toolCallId content =>
    { c with textParts := c.textParts ++ ["tool_call_id:" ++ toolCallId ++ " content:" ++ content] }

open CollectedBlocks

def collectBlocks (response : InternalResponse) (collectSignature : Bool) : CollectedBlocks × Usage :=
  (response.contentBlocks.foldl (push collectSignature) ⟨[], [], none⟩, response.usage)

/-! ## Merging -/

def allEmpty (parts : List String) : Bool := parts.all fun s => s == ""

def mergedContent (collected : CollectedBlocks) (preserveSignature alwaysEmitSignatureBlock : Bool) :
    List ContentBlock :=
  if allEmpty collected.textParts && !collected.thinkingParts.isEmpty then
    ContentBlock.text (String.join collected.thinkingParts) ::
      (if alwaysEmitSignatureBlock && collected.lastSignature.isSome then
        [ContentBlock.thinking "" collected.lastSignature]
      else [])
  else
    (if allEmpty collected.textParts then [] else [ContentBlock.text (String.join collected.textParts)]) ++
      (if collected.thinkingParts.isEmpty then []
      else [ContentBlock.thinking (String.join collected.thinkingParts)
        (if preserveSignature then collected.lastSignature else none)])

def mergeBlocks (collected : CollectedBlocks) (usage : Usage)
    (preserveSignature alwaysEmitSignatureBlock clearCacheTokens : Bool) : UnifiedResponse :=
  { contentBlocks := mergedContent collected preserveSignature alwaysEmitSignatureBlock
    usage := if clearCacheTokens then { usage with cacheReadTokens := none, cacheWriteTokens := none } else usage
    finishReason := none
    retryAttempts := 0 }

def interpretOpenaiCompatible (response : InternalResponse) (preserveSignature clearCacheTokens : Bool) :
    UnifiedResponse :=
  let (collected, usage) := collectBlocks response preserveSignature
  { mergeBlocks collected usage preserveSignature false clearCacheTokens with finishReason := response.finishReason }

/-! ## The interpreters and their registry -/

inductive ModelInterpreter where
  | default
  | minimax
  | glm
  | deepSeek
  | anthropic
  | mimo
  deriving DecidableEq

def ModelInterpreter.interpretResponse (response : InternalResponse) : ModelInterpreter → UnifiedResponse
  | .default =>
    { contentBlocks := response.contentBlocks.map RawContentBlock.into
      usage := response.usage
      finishReason := response.finishReason
      retryAttempts := 0 }
  | .minimax => interpretOpenaiCompatible response true false
  | .glm => interpretOpenaiCompatible response false true
  | .deepSeek => interpretOpenaiCompatible response true true
  | .anthropic =>
    let (collected, usage) := collectBlocks response true
    { mergeBlocks collected usage true true false with finishReason := response.finishReason }
  | .mimo => interpretOpenaiCompatible response false false

def patternMatches : List Char → List Char → Bool
  | [], text => text.isEmpty
  | p :: pattern, text =>
    if p = '*' then text.tails.any (patternMatches pattern)
    else match text with
      | [] => false
      | c :: text => p == c && patternMatches pattern text

structure InterpreterRegistry where
  entries : List (String × ModelInterpreter)

def InterpreterRegistry.resolve (registry : InterpreterRegistry) (providerId model : String) : ModelInterpreter :=
  let target := providerId ++ "/" ++ model
  match registry.entries.find? fun entry => patternMatches entry.1.toList target.toList with
  | some entry => entry.2
  | none => .default

def assembleRegistry (providerId : String) : InterpreterRegistry :=
  match providerId with
  | "anthropic" => ⟨[("anthropic/*", .anthropic)]⟩
  | "minimax" => ⟨[("minimax/*", .minimax)]⟩
  | "deepseek" => ⟨[("deepseek/*", .deepSeek)]⟩
  | "glm" => ⟨[("glm/*", .glm)]⟩
  | "mimo" => ⟨[("mimo/*", .mimo)]⟩
  | _ => ⟨[]⟩

def interpretFor (providerId model : String) (response : InternalResponse) : UnifiedResponse :=
  ((assembleRegistry providerId).resolve providerId model).interpretResponse response

/-! ## What a collection holds -/

def RawContentBlock.textPart : RawContentBlock → Option String
  | .text s => some s
  | .thinking _ _ => none
  | .toolUse id name input => some ("id:" ++ id ++ " name:" ++ name ++ " input:" ++ input)
  | .toolResult toolCallId content => some ("tool_call_id:" ++ toolCallId ++ " content:" ++ content)

def RawContentBlock.thinkingPart : RawContentBlock → Option String
  | .thinking s _ => some s
  | _ => none

def RawContentBlock.isTool : RawContentBlock → Bool
  | .toolUse _ _ _ | .toolResult _ _ => true
  | _ => false

theorem push_parts (collectSignature : Bool) (c : CollectedBlocks) (b : RawContentBlock) :
    (c.push collectSignature b).textParts = c.textParts ++ b.textPart.toList ∧
      (c.push collectSignature b).thinkingParts = c.thinkingParts ++ b.thinkingPart.toList := by
  cases b <;> simp [push, RawContentBlock.textPart, RawContentBlock.thinkingPart]

theorem foldl_push_parts (collectSignature : Bool) (blocks : List RawContentBlock) (c : CollectedBlocks) :
    (blocks.foldl (push collectSignature) c).textParts
        = c.textParts ++ blocks.filterMap RawContentBlock.textPart ∧
      (blocks.foldl (push collectSignature) c).thinkingParts
        = c.thinkingParts ++ blocks.filterMap RawContentBlock.thinkingPart := by
  induction blocks generalizing c with
  | nil => simp
  | cons b blocks ih =>
    obtain ⟨htext, hthinking⟩ := push_parts collectSignature c b
    obtain ⟨ihtext, ihthinking⟩ := ih (c.push collectSignature b)
    rw [foldl_cons, ihtext, ihthinking, htext, hthinking]
    constructor
    · cases hb : b.textPart <;> simp [hb]
    · cases hb : b.thinkingPart <;> simp [hb]

variable (response : InternalResponse)

theorem collectBlocks_textParts (collectSignature : Bool) : (collectBlocks response collectSignature).1.textParts
      = response.contentBlocks.filterMap RawContentBlock.textPart := by
  simp [collectBlocks, foldl_push_parts]

theorem collectBlocks_thinkingParts (collectSignature : Bool) :
    (collectBlocks response collectSignature).1.thinkingParts
      = response.contentBlocks.filterMap RawContentBlock.thinkingPart := by
  simp [collectBlocks, foldl_push_parts]

/-! ## What a merge puts out -/

section Merge

variable {collected : CollectedBlocks} (preserveSignature alwaysEmitSignatureBlock : Bool)

theorem join_eq_empty_iff {parts : List String} : String.join parts = "" ↔ allEmpty parts = true := by
  induction parts with
  | nil => simp [allEmpty]
  | cons s parts ih =>
    rw [String.join_cons, String.append_eq_empty_iff, ih]
    simp [allEmpty]

theorem toolUses_mergedContent :
    toolUses (mergedContent collected preserveSignature alwaysEmitSignatureBlock) = [] := by
  unfold mergedContent
  split_ifs <;> rfl

theorem mergedContent_promoted (htext : allEmpty collected.textParts = true)
    (hthinking : collected.thinkingParts ≠ []) :
    allText (mergedContent collected preserveSignature alwaysEmitSignatureBlock) = String.join collected.thinkingParts ∧
      allThinking (mergedContent collected preserveSignature alwaysEmitSignatureBlock) = "" := by
  have hcond : (allEmpty collected.textParts && !collected.thinkingParts.isEmpty) = true := by simp [htext, hthinking]
  simp only [mergedContent, hcond, if_true]
  split_ifs <;> simp [allText_cons, allThinking_cons, ContentBlock.asText, thinking?]

theorem mergedContent_separate (h : allEmpty collected.textParts = false ∨ collected.thinkingParts = []) :
    allText (mergedContent collected preserveSignature alwaysEmitSignatureBlock) = String.join collected.textParts ∧
      allThinking (mergedContent collected preserveSignature alwaysEmitSignatureBlock)
        = String.join collected.thinkingParts := by
  have hcond : ¬ (allEmpty collected.textParts && !collected.thinkingParts.isEmpty) = true := by
    rcases h with h | h <;> simp [h]
  simp only [mergedContent, if_neg hcond]
  constructor
  · by_cases htext : allEmpty collected.textParts = true
    · rw [join_eq_empty_iff.mpr htext, if_pos htext, nil_append]
      split <;> simp [allText_cons, ContentBlock.asText]
    · rw [if_neg htext, singleton_append, allText_cons]
      split <;> simp [allText_cons, ContentBlock.asText]
  · by_cases hthinking : collected.thinkingParts = []
    · rw [hthinking]
      split <;> simp [allThinking_cons, thinking?]
    · rw [if_neg (List.isEmpty_iff.not.mpr hthinking)]
      split <;> simp [allThinking_cons, thinking?]

end Merge

/-! ## Kinds kept -/

/-- Tool calls, text and thoughts are the same, but thoughts without text may come out as text. -/
structure KindsKept (blocks out : List ContentBlock) : Prop where
  toolUse : toolUses out = toolUses blocks
  contents : (allText out = allText blocks ∧ allThinking out = allThinking blocks) ∨
    (allText blocks = "" ∧ allThinking blocks ≠ "" ∧ allText out = allThinking blocks ∧ allThinking out = "")

section Collected

variable {response : InternalResponse} {preserveSignature alwaysEmitSignatureBlock collectSignature : Bool}

theorem allThinking_into (blocks : List RawContentBlock) :
    allThinking (blocks.map RawContentBlock.into) = String.join (blocks.filterMap RawContentBlock.thinkingPart) := by
  rw [allThinking, filterMap_map]
  congr 1
  refine filterMap_congr ?_
  intro b _
  cases b <;> rfl

theorem allText_into {blocks : List RawContentBlock} (h : ∀ b ∈ blocks, b.isTool = false) :
    allText (blocks.map RawContentBlock.into) = String.join (blocks.filterMap RawContentBlock.textPart) := by
  rw [allText, filterMap_map]
  congr 1
  refine filterMap_congr ?_
  intro b hb
  cases b with
  | text | thinking => rfl
  | toolUse | toolResult => cases h _ hb

theorem length_textPart (b : RawContentBlock) :
    (b.into.asText.getD "").length + (if b.isTool then 1 else 0) ≤ (b.textPart.getD "").length := by
  cases b with
  | text | thinking => exact Nat.le_refl _
  | toolUse | toolResult =>
    have hid : "id:".length = 3 := rfl
    have hcall : "tool_call_id:".length = 13 := rfl
    simp only [RawContentBlock.into, ContentBlock.asText, RawContentBlock.textPart, RawContentBlock.isTool,
      Option.getD_none, Option.getD_some, String.length_append, String.length_empty, if_true]
    omega

theorem length_allText_into (blocks : List RawContentBlock) :
    (allText (blocks.map RawContentBlock.into)).length + blocks.countP RawContentBlock.isTool
      ≤ (String.join (blocks.filterMap RawContentBlock.textPart)).length := by
  induction blocks with
  | nil => exact Nat.le_refl _
  | cons b =>
    have hb := length_textPart b
    rw [map_cons, allText_cons, join_filterMap_cons, countP_cons, String.length_append, String.length_append]
    omega

theorem toolUses_into_eq_nil {blocks : List RawContentBlock} (h : ∀ b ∈ blocks, b.isTool = false) :
    toolUses (blocks.map RawContentBlock.into) = [] := by
  rw [toolUses, filterMap_eq_nil_iff]
  intro b hb
  obtain ⟨raw, hraw, rfl⟩ := mem_map.mp hb
  cases raw with
  | text | thinking => rfl
  | toolUse | toolResult => cases h _ hraw

theorem kindsKept_mergedContent_iff : KindsKept (response.contentBlocks.map RawContentBlock.into)
        (mergedContent (collectBlocks response collectSignature).1 preserveSignature alwaysEmitSignatureBlock)
      ↔ ∀ b ∈ response.contentBlocks, b.isTool = false := by
  have htextParts := collectBlocks_textParts response collectSignature
  have hthinkingParts := collectBlocks_thinkingParts response collectSignature
  have hthinking := allThinking_into response.contentBlocks
  constructor
  · intro hk
    by_contra hno
    -- some tool block is there, so the collected text is not empty and too long
    have htool : 0 < response.contentBlocks.countP RawContentBlock.isTool := by
      rw [countP_pos_iff]
      push Not at hno
      obtain ⟨b, hb, hbt⟩ := hno
      exact ⟨b, hb, by simpa using hbt⟩
    have hlong := length_allText_into response.contentBlocks
    have hne : allEmpty (collectBlocks response collectSignature).1.textParts = false := by
      rw [Bool.eq_false_iff]
      intro hempty
      rw [htextParts, ← join_eq_empty_iff] at hempty
      rw [hempty] at hlong
      simp only [String.length_empty] at hlong
      omega
    obtain ⟨hout, houtThinking⟩ := mergedContent_separate preserveSignature alwaysEmitSignatureBlock (.inl hne)
    rw [htextParts] at hout
    rw [hthinkingParts, ← hthinking] at houtThinking
    rcases hk.contents with ⟨hsame, -⟩ | ⟨-, hthoughts, -, hnone⟩
    · rw [hout] at hsame
      rw [← hsame] at hlong
      omega
    · exact hthoughts (houtThinking ▸ hnone)
  · intro hno
    have htext := allText_into hno
    refine ⟨by rw [toolUses_mergedContent, toolUses_into_eq_nil hno], ?_⟩
    by_cases hcase : allEmpty (collectBlocks response collectSignature).1.textParts = true ∧
        (collectBlocks response collectSignature).1.thinkingParts ≠ []
    · obtain ⟨hout, houtThinking⟩ := mergedContent_promoted preserveSignature alwaysEmitSignatureBlock hcase.1 hcase.2
      rw [hthinkingParts, ← hthinking] at hout
      have hempty : allText (response.contentBlocks.map RawContentBlock.into) = "" := by
        rw [htext, join_eq_empty_iff, ← htextParts]
        exact hcase.1
      by_cases hthoughts : allThinking (response.contentBlocks.map RawContentBlock.into) = ""
      · exact .inl ⟨by rw [hout, hthoughts, hempty], by rw [houtThinking, hthoughts]⟩
      · exact .inr ⟨hempty, hthoughts, hout, houtThinking⟩
    · have hsep : allEmpty (collectBlocks response collectSignature).1.textParts = false ∨
          (collectBlocks response collectSignature).1.thinkingParts = [] := by
        by_cases hempty : allEmpty (collectBlocks response collectSignature).1.textParts = true
        · exact .inr (not_not.mp fun hne => hcase ⟨hempty, hne⟩)
        · exact .inl (Bool.eq_false_iff.mpr hempty)
      obtain ⟨hout, houtThinking⟩ := mergedContent_separate preserveSignature alwaysEmitSignatureBlock hsep
      rw [htextParts, ← htext] at hout
      rw [hthinkingParts, ← hthinking] at houtThinking
      exact .inl ⟨hout, houtThinking⟩

end Collected

/-! ## The interpreter of a provider -/

def collectingProviders : List String := ["anthropic", "minimax", "deepseek", "glm", "mimo"]

theorem patternMatches_star {start : List Char} (hstar : '*' ∉ start) (text : List Char) :
    patternMatches (start ++ ['*']) (start ++ text) = true := by
  induction start with
  | nil =>
    simp only [nil_append, patternMatches, if_true, any_eq_true]
    exact ⟨[], by simp, rfl⟩
  | cons c start ih =>
    obtain ⟨hc, hrest⟩ := ne_and_not_mem_of_not_mem_cons hstar
    simp only [cons_append, patternMatches, if_neg (Ne.symm hc), beq_self_eq_true, Bool.true_and]
    exact ih hrest

variable {providerId : String} (model : String)

theorem resolve_entry {pattern : String} (interpreter : ModelInterpreter) (model : String)
    (hpattern : pattern.toList = (providerId ++ "/").toList ++ ['*']) (hstar : '*' ∉ (providerId ++ "/").toList) :
    InterpreterRegistry.resolve ⟨[(pattern, interpreter)]⟩ providerId model = interpreter := by
  have hmatch : patternMatches pattern.toList (providerId ++ "/" ++ model).toList = true := by
    have htarget : (providerId ++ "/" ++ model).toList = (providerId ++ "/").toList ++ model.toList :=
      String.toList_append
    rw [hpattern, htarget]
    exact patternMatches_star hstar model.toList
  simp only [InterpreterRegistry.resolve, List.find?_cons, hmatch]

theorem resolve_ne_default (h : providerId ∈ collectingProviders) :
    (assembleRegistry providerId).resolve providerId model ≠ .default := by
  simp only [collectingProviders, mem_cons, not_mem_nil, or_false] at h
  rcases h with rfl | rfl | rfl | rfl | rfl
  · rw [assembleRegistry, resolve_entry .anthropic model (by decide) (by decide)]
    decide
  · rw [assembleRegistry, resolve_entry .minimax model (by decide) (by decide)]
    decide
  · rw [assembleRegistry, resolve_entry .deepSeek model (by decide) (by decide)]
    decide
  · rw [assembleRegistry, resolve_entry .glm model (by decide) (by decide)]
    decide
  · rw [assembleRegistry, resolve_entry .mimo model (by decide) (by decide)]
    decide

theorem resolve_eq_default (h : providerId ∉ collectingProviders) :
    (assembleRegistry providerId).resolve providerId model = .default := by
  simp only [collectingProviders, mem_cons, not_mem_nil, or_false, not_or] at h
  have hempty : assembleRegistry providerId = ⟨[]⟩ := by
    unfold assembleRegistry
    split <;> simp_all
  rw [hempty]
  rfl

theorem contentBlocks_interpretResponse {interpreter : ModelInterpreter}
    (h : interpreter ≠ .default) : ∃ collectSignature preserveSignature alwaysEmitSignatureBlock,
      (interpreter.interpretResponse response).contentBlocks
        = mergedContent (collectBlocks response collectSignature).1 preserveSignature alwaysEmitSignatureBlock := by
  cases interpreter with
  | default => exact absurd rfl h
  | minimax | deepSeek => exact ⟨true, true, false, rfl⟩
  | glm | mimo => exact ⟨false, false, false, rfl⟩
  | anthropic => exact ⟨true, true, true, rfl⟩

theorem interpreted_kinds_kept_iff (providerId model : String) (response : InternalResponse) :
    KindsKept (response.contentBlocks.map RawContentBlock.into) (interpretFor providerId model response).contentBlocks
      ↔ providerId ∉ collectingProviders ∨ ∀ b ∈ response.contentBlocks, b.isTool = false := by
  by_cases hp : providerId ∈ collectingProviders
  · obtain ⟨collectSignature, preserveSignature, alwaysEmitSignatureBlock, hblocks⟩ :=
      contentBlocks_interpretResponse response (resolve_ne_default model hp)
    rw [interpretFor, hblocks, kindsKept_mergedContent_iff]
    simp [hp]
  · rw [interpretFor, resolve_eq_default model hp]
    exact ⟨fun _ => .inl hp, fun _ => ⟨rfl, .inl ⟨rfl, rfl⟩⟩⟩

def bashCall : InternalResponse :=
  { contentBlocks := [.toolUse "call_1" "bash" "ls"]
    usage := ⟨7, 3, none, none, none, none⟩
    finishReason := some "tool_use" }

theorem a_tool_call_becomes_text :
    (interpretFor "anthropic" "claude" bashCall).contentBlocks = [.text "id:call_1 name:bash input:ls"] ∧
      ¬ KindsKept (bashCall.contentBlocks.map RawContentBlock.into)
        (interpretFor "anthropic" "claude" bashCall).contentBlocks := by
  have hout : (interpretFor "anthropic" "claude" bashCall).contentBlocks = [.text "id:call_1 name:bash input:ls"] := by
    decide +kernel
  refine ⟨hout, fun hk => ?_⟩
  have htools := hk.toolUse
  rw [hout] at htools
  revert htools
  decide

end CloseClaw.LLM
