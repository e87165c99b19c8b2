/- What the outbound chain makes of an answer (`processor_chain/src/registry.rs`). -/

import Mathlib.Data.List.AList
import Mathlib.Data.List.Sort
import CloseClaw.Lib.LineFormat
import CloseClaw.Session.Transcript

namespace CloseClaw.ProcessorChain

open Lib Lib.LineFormat List
open Session (ContentBlock)

abbrev Metadata := AList fun _ : String => String

structure ProcessedMessage where
  contentBlocks : List ContentBlock
  metadata : Metadata

def ProcessedMessage.textContent (m : ProcessedMessage) : Option String := m.contentBlocks.findSome? ContentBlock.asText

structure MessageContext where
  content : String
  metadata : Metadata
  skip : Bool
  contentBlocks : List ContentBlock

inductive ProcessError where
  | processorFailed (name source : String)

structure Processor where
  name : String
  priority : Nat
  process : MessageContext → Except ProcessError (Option ProcessedMessage)

/-! ## The registry -/

def runOutbound (exclude : List String) : List Processor → MessageContext → MessageContext
  | [], ctx => ctx
  | p :: ps, ctx =>
    if ctx.skip then ctx
    else if exclude.contains p.name then runOutbound exclude ps ctx
    else
      match p.process ctx with
      | .ok (some out) =>
        runOutbound exclude ps
          { ctx with
            content := out.textContent.getD ""
            contentBlocks := out.contentBlocks
            metadata := out.metadata ∪ ctx.metadata }
      | .ok none => { ctx with skip := true }
      -- the context stays as it was before the failure
      | .error _ => runOutbound exclude ps ctx

def processOutboundFiltered (outbound : List Processor) (exclude : List String) (llmOutput : ProcessedMessage) :
    ProcessedMessage :=
  if outbound.isEmpty then llmOutput
  else
    let hadContentBlocks := !llmOutput.contentBlocks.isEmpty
    let sorted := outbound.insertionSort fun p q => p.priority ≤ q.priority
    let ctx := runOutbound exclude sorted
      ⟨llmOutput.textContent.getD "", llmOutput.metadata, false, llmOutput.contentBlocks⟩
    { contentBlocks :=
        if ctx.skip then []
        else if ctx.contentBlocks.isEmpty && !hadContentBlocks then [.text ctx.content]
        else ctx.contentBlocks
      metadata := ctx.metadata }

def processOutbound (outbound : List Processor) (llmOutput : ProcessedMessage) : ProcessedMessage :=
  processOutboundFiltered outbound [] llmOutput

/-! ## The verbosity filter -/

inductive VerbosityLevel where
  | full
  | normal
  | off

def VerbosityLevel.fromStr : String → Except String VerbosityLevel
  | "full" => .ok .full
  | "normal" => .ok .normal
  | "off" => .ok .off
  | s => .error ("invalid verbosity level: " ++ s)

namespace VerbosityFilter

def isThinking : ContentBlock → Bool
  | .thinking .. => true
  | _ => false

def isTool : ContentBlock → Bool
  | .toolUse .. | .toolResult .. => true
  | _ => false

def filter (blocks : List ContentBlock) : VerbosityLevel → List ContentBlock
  | .full => blocks
  | .normal => blocks.filter fun b => !isThinking b
  | .off => blocks.filter fun b => !(isThinking b || isTool b)

def shouldKeepBlock (block : ContentBlock) : VerbosityLevel → Bool
  | .full => true
  | .normal => !isThinking block
  | .off => !(isThinking block || isTool block)

theorem filter_eq (blocks : List ContentBlock) (level : VerbosityLevel) :
    filter blocks level = blocks.filter (shouldKeepBlock · level) := by
  cases level with
  | full => exact (filter_eq_self.mpr fun _ _ => rfl).symm
  | normal | off => rfl

variable {b : ContentBlock}

theorem shouldKeepBlock_thinking (hb : isThinking b = true) {level : VerbosityLevel}
    (hlevel : level ≠ .full) : shouldKeepBlock b level = false := by
  cases level with
  | full => exact absurd rfl hlevel
  | normal | off => simp [shouldKeepBlock, hb]

theorem shouldKeepBlock_tool (hb : isTool b = true) : shouldKeepBlock b .off = false := by
  simp [shouldKeepBlock, hb]

theorem asText_of_isThinking (hb : isThinking b = true) : b.asText = none := by
  cases b <;> simp_all [isThinking, ContentBlock.asText]

theorem asText_of_isTool (hb : isTool b = true) : b.asText = none := by
  cases b <;> simp_all [isTool, ContentBlock.asText]

def verbosityFromMetadata (metadata : Metadata) : VerbosityLevel :=
  ((metadata.lookup "verbosity_level").bind fun v => (VerbosityLevel.fromStr v).toOption).getD .full

def process (ctx : MessageContext) : Except ProcessError (Option ProcessedMessage) :=
  let level := verbosityFromMetadata ctx.metadata
  let filtered := if ctx.contentBlocks.isEmpty then [.text ctx.content] else filter ctx.contentBlocks level
  .ok (some ⟨filtered, ctx.metadata⟩)

end VerbosityFilter

open VerbosityFilter

def verbosityFilter : Processor := ⟨"verbosity_filter", 5, process⟩

/-! ## The instruction parser -/

structure DslInstruction where
  instructionType : String
  params : AList fun _ : String => String
  deriving DecidableEq

namespace DslParser

def extractBracketContent (trimmed : List Char) : Option (List Char) :=
  match trimmed.dropWhile (· ≠ '[') with
  | [] => none
  | _ :: after => if after.dropLast.isEmpty then none else some after.dropLast

def splitOnce (sep : Char) (l : List Char) : Option (List Char × List Char) :=
  match l.dropWhile (· ≠ sep) with
  | [] => none
  | _ :: after => some (l.takeWhile (· ≠ sep), after)

def insertParam (params : AList fun _ : String => String) (param : List Char) : AList fun _ : String => String :=
  match splitOnce ':' (Text.trim param) with
  | some (key, val) => params.insert (String.ofList (Text.trim key)) (String.ofList (Text.trim val))
  | none => params

def parseParams (trimmed : List Char) : Option (AList fun _ : String => String) := do
  let inner ← extractBracketContent trimmed
  let params := (inner.splitOn ';').foldl insertParam ∅
  if (params.lookup "label").isNone || (params.lookup "action").isNone then none else some params

def parseButton (trimmed : List Char) : Option DslInstruction :=
  (parseParams trimmed).map fun params =>
    ⟨"button", if (params.lookup "value").isNone then params.insert "value" "" else params⟩

def parseSelector (trimmed : List Char) : Option DslInstruction :=
  (parseParams trimmed).map fun params => ⟨"selector", params⟩

def parseDslLine (line : List Char) : Option DslInstruction :=
  let trimmed := Text.trim line
  if trimmed.getLast? ≠ some ']' then none
  else if "::button[".toList.isPrefixOf trimmed then parseButton trimmed
  else if "::selector[".toList.isPrefixOf trimmed then parseSelector trimmed
  else none

def parse (content : String) : List DslInstruction × String :=
  ((lines content.toList).filterMap parseDslLine,
    String.ofList (join ((lines content.toList).filter fun line => (parseDslLine line).isNone)))

def stripBlock : ContentBlock → Option ContentBlock
  | .text s => if (parse s).2 = "" then none else some (.text (parse s).2)
  | block => some block

def blockInstructions : ContentBlock → List DslInstruction
  | .text s => (parse s).1
  | _ => []

def parseContentBlocksWithResult (blocks : List ContentBlock) : List DslInstruction × List ContentBlock :=
  (blocks.flatMap blockInstructions, blocks.filterMap stripBlock)

def process (toJson : List DslInstruction → String) (ctx : MessageContext) :
    Except ProcessError (Option ProcessedMessage) :=
  let (instructions, updatedBlocks) :=
    if ctx.contentBlocks.isEmpty then
      ((parse ctx.content).1, if (parse ctx.content).2 = "" then [] else [.text (parse ctx.content).2])
    else parseContentBlocksWithResult ctx.contentBlocks
  let metadata := if instructions.isEmpty then ctx.metadata else ctx.metadata.insert "dsl_result" (toJson instructions)
  .ok (some ⟨if updatedBlocks.isEmpty then [.text ctx.content] else updatedBlocks, metadata⟩)

end DslParser

def dslParser (toJson : List DslInstruction → String) : Processor := ⟨"DslParser", 10, DslParser.process toJson⟩

/-! ## The log of outbound messages -/

structure RawLogConfig where
  enabled : Bool
  dir : Option String

def OutboundRawLog.process (config : RawLogConfig) (writeLog : MessageContext → Except String Unit)
    (ctx : MessageContext) : Except ProcessError (Option ProcessedMessage) := do
  if config.enabled && config.dir.isSome then
    (writeLog ctx).mapError (ProcessError.processorFailed "outbound_raw_log")
  return some ⟨ctx.contentBlocks, ctx.metadata⟩

def outboundRawLog (config : RawLogConfig) (writeLog : MessageContext → Except String Unit) : Processor :=
  ⟨"outbound_raw_log", 20, OutboundRawLog.process config writeLog⟩

def standardOutbound (toJson : List DslInstruction → String) (writeLog : MessageContext → Except String Unit)
    (rawLogDir : Option String) : List Processor :=
  [verbosityFilter, dslParser toJson] ++
    match rawLogDir with
    | some dir => [outboundRawLog ⟨true, some dir⟩ writeLog]
    | none => []

/-! ## What instruction lines are taken out -/

namespace DslParser

theorem parseDslLine_stripReturn (l : List Char) : parseDslLine (stripReturn l) = parseDslLine l := by
  simp only [parseDslLine, trim_stripReturn]

theorem parseDslLine_of_mem_clean {content : String} {line : List Char} (h : line ∈ lines (parse content).2.toList) :
    parseDslLine line = none := by
  have hlines : ∀ l ∈ (lines content.toList).filter (fun l => (parseDslLine l).isNone), '\n' ∉ l := by
    intro l hl
    exact newline_not_mem_of_mem_lines (mem_of_mem_filter hl)
  rw [parse, String.toList_ofList] at h
  obtain ⟨l, hl, hline⟩ := mem_lines_join hlines h
  have hnone : parseDslLine l = none := Option.isNone_iff_eq_none.mp (mem_filter.mp hl).2
  rcases hline with rfl | rfl
  · exact hnone
  · rw [parseDslLine_stripReturn, hnone]

theorem parse_empty : parse "" = ([], "") := by decide +kernel

abbrev stripped (blocks : List ContentBlock) : List ContentBlock := blocks.filterMap stripBlock

theorem eq_of_stripBlock {a b : ContentBlock} (h : stripBlock a = some b) :
    (∃ s, b = .text (parse s).2) ∨ (b.asText = none ∧ b = a) := by
  cases a with
  | text s =>
    rw [stripBlock] at h
    split at h
    · contradiction
    · exact .inl ⟨s, (Option.some.inj h).symm⟩
  | thinking | toolUse | toolResult | media =>
    cases h
    exact .inr ⟨rfl, rfl⟩

theorem mem_of_mem_stripped {blocks : List ContentBlock} {b : ContentBlock} (h : b ∈ stripped blocks)
    (hb : b.asText = none) : b ∈ blocks := by
  obtain ⟨a, ha, hab⟩ := mem_filterMap.mp h
  rcases eq_of_stripBlock hab with ⟨s, rfl⟩ | ⟨_, rfl⟩
  · cases hb
  · exact ha

theorem parseDslLine_of_mem_stripped {blocks : List ContentBlock} {t : String} (h : .text t ∈ stripped blocks)
    {line : List Char} (hline : line ∈ lines t.toList) : parseDslLine line = none := by
  obtain ⟨a, _, hab⟩ := mem_filterMap.mp h
  rcases eq_of_stripBlock hab with ⟨s, hs⟩ | ⟨hnone, _⟩
  · cases hs
    exact parseDslLine_of_mem_clean hline
  · cases hnone

end DslParser

/-! ## What the standard chain delivers -/

section Standard

variable (toJson : List DslInstruction → String) (writeLog : MessageContext → Except String Unit)
  (rawLogDir : Option String)

def firstText (blocks : List ContentBlock) : String := (blocks.findSome? ContentBlock.asText).getD ""

def kept (m : ProcessedMessage) : List ContentBlock :=
  if m.contentBlocks.isEmpty then [.text ""]
  else m.contentBlocks.filter (shouldKeepBlock · (verbosityFromMetadata m.metadata))

def parsed (blocks : List ContentBlock) : List ContentBlock :=
  if (DslParser.stripped blocks).isEmpty then [.text (firstText blocks)] else DslParser.stripped blocks

theorem parsed_ne_nil (blocks : List ContentBlock) : parsed blocks ≠ [] := by
  unfold parsed
  split
  · exact cons_ne_nil _ _
  · rename_i h
    simpa using h

theorem verbosityFilter_process (m : ProcessedMessage) :
    verbosityFilter.process ⟨m.textContent.getD "", m.metadata, false, m.contentBlocks⟩ =
      .ok (some ⟨kept m, m.metadata⟩) := by
  obtain ⟨blocks, metadata⟩ := m
  cases blocks with
  | nil => rfl
  | cons => simp [verbosityFilter, process, filter_eq, kept]

theorem dslParser_process (blocks : List ContentBlock) (metadata : Metadata) :
    ∃ metadata', (dslParser toJson).process ⟨firstText blocks, metadata, false, blocks⟩ =
      .ok (some ⟨parsed blocks, metadata'⟩) := by
  cases blocks with
  | nil => exact ⟨metadata, by simp [dslParser, DslParser.process, firstText, DslParser.parse_empty, parsed]⟩
  | cons => exact ⟨_, rfl⟩

theorem runOutbound_cons {p : Processor} {content : String} {metadata : Metadata} {blocks : List ContentBlock}
    {out : ProcessedMessage} (ps : List Processor) (h : p.process ⟨content, metadata, false, blocks⟩ = .ok (some out)) :
    runOutbound [] (p :: ps) ⟨content, metadata, false, blocks⟩ =
      runOutbound [] ps ⟨firstText out.contentBlocks, out.metadata ∪ metadata, false, out.contentBlocks⟩ := by
  simp only [runOutbound, h]
  rfl

theorem runOutbound_rawLog (dir : String) (ctx : MessageContext) :
    (runOutbound [] [outboundRawLog ⟨true, some dir⟩ writeLog] ctx).contentBlocks = ctx.contentBlocks ∧
      (runOutbound [] [outboundRawLog ⟨true, some dir⟩ writeLog] ctx).skip = ctx.skip := by
  by_cases hskip : ctx.skip = true
  · simp [runOutbound, hskip]
  · cases hw : writeLog ctx with
    | ok | error => simp [runOutbound, hskip, outboundRawLog, OutboundRawLog.process, hw, Except.mapError]

theorem insertionSort_standard :
    ((standardOutbound toJson writeLog rawLogDir).insertionSort fun p q => p.priority ≤ q.priority) =
      standardOutbound toJson writeLog rawLogDir := by
  cases rawLogDir with
  | none | some => rfl

theorem runOutbound_standard (m : ProcessedMessage) :
    let ctx := runOutbound [] (standardOutbound toJson writeLog rawLogDir)
      ⟨m.textContent.getD "", m.metadata, false, m.contentBlocks⟩
    ctx.contentBlocks = parsed (kept m) ∧ ctx.skip = false := by
  intro ctx
  obtain ⟨_, hdsl⟩ := dslParser_process toJson (kept m) (m.metadata ∪ m.metadata)
  have hctx : ctx = runOutbound [] _ _ :=
    (runOutbound_cons _ (verbosityFilter_process m)).trans (runOutbound_cons _ hdsl)
  rw [hctx]
  cases rawLogDir with
  | none => exact ⟨rfl, rfl⟩
  | some dir => exact runOutbound_rawLog writeLog dir _

theorem processOutbound_standard (m : ProcessedMessage) :
    (processOutbound (standardOutbound toJson writeLog rawLogDir) m).contentBlocks = parsed (kept m) := by
  obtain ⟨hblocks, hskip⟩ := runOutbound_standard toJson writeLog rawLogDir m
  have hne : (standardOutbound toJson writeLog rawLogDir).isEmpty = false := rfl
  have hsome : (parsed (kept m)).isEmpty = false := by simpa using parsed_ne_nil (kept m)
  simp only [processOutbound, processOutboundFiltered, hne, insertionSort_standard, hskip, hblocks, hsome,
    Bool.false_and, Bool.false_eq_true, if_false]

end Standard

def Delivers (b : ContentBlock) : Prop := DslParser.stripBlock b ≠ none

instance decidableDelivers (b : ContentBlock) : Decidable (Delivers b) := inferInstanceAs (Decidable (_ ≠ _))

variable {blocks : List ContentBlock}

theorem stripped_eq_nil_iff : DslParser.stripped blocks = [] ↔ ∀ b ∈ blocks, ¬Delivers b := by
  simp [Delivers]

theorem kept_of_ne_nil {m : ProcessedMessage} (h : m.contentBlocks ≠ []) :
    kept m = m.contentBlocks.filter (shouldKeepBlock · (verbosityFromMetadata m.metadata)) := by
  have hne : m.contentBlocks.isEmpty = false := by simpa using h
  simp [kept, hne]

theorem parsed_of_delivers (h : ∃ b ∈ blocks, Delivers b) : parsed blocks = DslParser.stripped blocks := by
  have hne : DslParser.stripped blocks ≠ [] := by
    intro hnil
    obtain ⟨b, hb, hdel⟩ := h
    exact stripped_eq_nil_iff.mp hnil b hb hdel
  have hsome : (DslParser.stripped blocks).isEmpty = false := by simpa using hne
  simp [parsed, hsome]

theorem parsed_of_not_delivers (h : ∀ b ∈ blocks, ¬Delivers b) : parsed blocks = [.text (firstText blocks)] := by
  have hnil : (DslParser.stripped blocks).isEmpty = true := by simpa using stripped_eq_nil_iff.mpr h
  simp [parsed, hnil]

theorem parsed_empty : parsed [.text ""] = [.text ""] := by decide +kernel

theorem shouldKeepBlock_of_mem_parsed {m : ProcessedMessage} {b : ContentBlock} (h : b ∈ parsed (kept m))
    (hb : b.asText = none) : shouldKeepBlock b (verbosityFromMetadata m.metadata) = true := by
  have hkept : b ∈ kept m := by
    unfold parsed at h
    split at h
    · rw [mem_singleton.mp h] at hb
      cases hb
    · exact DslParser.mem_of_mem_stripped h hb
  by_cases hne : m.contentBlocks = []
  · have hone : kept m = [.text ""] := by simp [kept, hne]
    rw [hone, mem_singleton] at hkept
    rw [hkept] at hb
    cases hb
  · rw [kept_of_ne_nil hne] at hkept
    exact (mem_filter.mp hkept).2

/-- The filter keeps to its level, and no instruction line is delivered when a block is left
beside them. -/
theorem outbound_blocks (toJson : List DslInstruction → String) (writeLog : MessageContext → Except String Unit)
    (rawLogDir : Option String) (blocks : List ContentBlock) (metadata : Metadata) :
    let level := verbosityFromMetadata metadata
    let keptBlocks := blocks.filter (shouldKeepBlock · level)
    let delivered := (processOutbound (standardOutbound toJson writeLog rawLogDir) ⟨blocks, metadata⟩).contentBlocks
    (level ≠ .full → ∀ b ∈ delivered, isThinking b = false) ∧
      (level = .off → ∀ b ∈ delivered, isTool b = false) ∧
      ((∃ b ∈ keptBlocks, Delivers b) →
        ∀ t, .text t ∈ delivered → ∀ line ∈ lines t.toList, DslParser.parseDslLine line = none) ∧
      ((∀ b ∈ keptBlocks, ¬Delivers b) → keptBlocks ≠ [] ∨ blocks = [] →
        delivered = [.text (firstText keptBlocks)]) := by
  intro level keptBlocks delivered
  have hdelivered : delivered = parsed (kept ⟨blocks, metadata⟩) := processOutbound_standard toJson writeLog rawLogDir _
  have hkeep : ∀ b ∈ delivered, b.asText = none → shouldKeepBlock b level = true := by
    intro b hb
    rw [hdelivered] at hb
    exact shouldKeepBlock_of_mem_parsed hb
  have hkept : blocks ≠ [] → delivered = parsed keptBlocks := fun hne => by rw [hdelivered, kept_of_ne_nil hne]
  refine ⟨?_, ?_, ?_, ?_⟩
  · intro hlevel b hb
    refine Bool.eq_false_iff.mpr fun hthinking => ?_
    have := hkeep b hb (asText_of_isThinking hthinking)
    rw [shouldKeepBlock_thinking hthinking hlevel] at this
    cases this
  · intro hlevel b hb
    refine Bool.eq_false_iff.mpr fun htool => ?_
    have := hkeep b hb (asText_of_isTool htool)
    rw [hlevel, shouldKeepBlock_tool htool] at this
    cases this
  · intro hsome t ht line hline
    have hne : blocks ≠ [] := by
      rintro rfl
      simp [keptBlocks] at hsome
    rw [hkept hne, parsed_of_delivers hsome] at ht
    exact DslParser.parseDslLine_of_mem_stripped ht hline
  · intro hnone hor
    by_cases hne : blocks = []
    · subst hne
      rw [hdelivered]
      exact parsed_empty
    · rw [hkept hne, parsed_of_not_delivers hnone]

theorem instruction_alone_is_delivered :
    let delivered := (processOutbound (standardOutbound (fun _ => "") (fun _ => .ok ()) none)
      ⟨[.text "::button[label:OK;action:submit;value:yes]"], ∅⟩).contentBlocks
    delivered = [.text "::button[label:OK;action:submit;value:yes]"] ∧
      (DslParser.parseDslLine "::button[label:OK;action:submit;value:yes]".toList).isSome ∧
      (DslParser.parse "::button[label:OK;action:submit;value:yes]").2 = "" := by
  decide +kernel

end CloseClaw.ProcessorChain
