/- The parser of OpenAI chat streams (`protocol/openai.rs`), whose functions `Writes` follows as a
   `BlockStream.Writer`. -/

import CloseClaw.LLM.Types
import CloseClaw.Lib.Json
import CloseClaw.Lib.BlockStream

namespace CloseClaw.LLM.OpenAi

open Lib List Json
open Lib.BlockStream (BlockEvent Balanced Writer Op)

def content? (delta : Json) : Option String := (delta.get "content").bind asStr

def reasoning? (delta : Json) : Option String := (delta.get "reasoning_content").bind asStr

def toolCalls? (delta : Json) : Option (List Json) := (delta.get "tool_calls").bind asArray

def toolCallId (tc : Json) : Option String := (tc.get "id").bind asStr

def toolCallName (tc : Json) : Option String :=
  (((tc.get "function").bind (get · "name")).bind asStr).filter (· ≠ "")

def toolCallArguments (tc : Json) : Option String :=
  (((tc.get "function").bind (get · "arguments")).bind asStr).filter (· ≠ "")

def tokens? (j : Option Json) (key : String) : Option UInt32 :=
  ((j.bind (get · key)).bind asU64).map UInt32.ofNat

def parseUsage (body : Json) : Usage :=
  let usageObj := body.get "usage"
  { promptTokens := (tokens? usageObj "prompt_tokens").getD 0
    completionTokens := (tokens? usageObj "completion_tokens").getD 0
    totalTokens := tokens? usageObj "total_tokens"
    cacheReadTokens := tokens? (usageObj.bind (get · "prompt_tokens_details")) "cached_tokens"
    cacheWriteTokens := none
    reasoningTokens := tokens? (usageObj.bind (get · "completion_tokens_details")) "reasoning_tokens" }

/-! ## The parser -/

inductive SseChunk where
  | done
  | malformed
  | json (parsed : Json)

structure Parser where
  block : Option (Nat × ContentBlockType)
  nextBlockIndex : Nat
  usage : Option Usage
  stopped : Bool
  messageEndYielded : Bool
  events : List StreamEvent

namespace Parser

def init : Parser := ⟨none, 0, none, false, false, []⟩

def activeBlockType (s : Parser) : Option ContentBlockType := s.block.map (·.2)

def startBlock (s : Parser) (ty : ContentBlockType) : Parser :=
  { s with
    block := some (s.nextBlockIndex, ty)
    nextBlockIndex := s.nextBlockIndex + 1
    events := s.events ++ [.blockStart s.nextBlockIndex ty] }

def blockDelta (s : Parser) (delta : ContentDelta) : Parser :=
  match s.block with
  | some (i, _) => { s with events := s.events ++ [.blockDelta i delta] }
  | none => s

def endBlock (s : Parser) (ty : ContentBlockType) : Parser :=
  match s.block with
  | some (i, _) => { s with block := none, events := s.events ++ [.blockEnd i ty] }
  | none => s

def endCurrent (s : Parser) : Parser := s.endBlock (s.activeBlockType.getD .text)

def endForToolCalls (s : Parser) (delta : Json) : Parser :=
  if (toolCalls? delta).isSome && s.activeBlockType != some .toolUse then s.endCurrent else s

def endThinking (s : Parser) : Parser := if s.activeBlockType = some .thinking then s.endBlock .thinking else s

def blockForText (s : Parser) : Parser := if s.block = none then s.startBlock .text else s

def contentDelta (s : Parser) (delta : Json) : Parser × Bool :=
  match content? delta with
  | none => (s, true)
  | some text =>
    if text = "" then (s, false)
    else (s.endThinking.blockForText.blockDelta (.text text), true)

def blockForThinking (s : Parser) : Parser :=
  if s.activeBlockType = some .thinking then s else s.endCurrent.startBlock .thinking

def reasoningDelta (s : Parser) (delta : Json) : Parser × Bool :=
  match reasoning? delta with
  | none => (s, true)
  | some thinking =>
    if thinking = "" then (s, false)
    else if s.activeBlockType = some .text then (s, false)
    else (s.blockForThinking.blockDelta (.thinking thinking none), true)

def inputDelta (s : Parser) (tc : Json) : Parser :=
  match toolCallArguments tc with
  | some args => s.blockDelta (.toolUseInputChunk args)
  | none => s

def nameDelta (s : Parser) (tc : Json) : Parser :=
  match toolCallName tc with
  | some name => s.blockDelta (.toolUseName name)
  | none => s

/-- A call with an id starts a block; without one it goes on with the current tool
    block, whatever its `index` says. -/
def toolCall (s : Parser) (tc : Json) : Parser :=
  match toolCallId tc with
  | some id => (((s.startBlock .toolUse).blockDelta (.toolUseId id)).nameDelta tc).inputDelta tc
  | none => if s.activeBlockType = some .toolUse then s.inputDelta tc else s

def toolCallsDelta (s : Parser) (delta : Json) : Parser := ((toolCalls? delta).getD []).foldl toolCall s

def reasoningAndCalls (s : Parser) (delta : Json) : Parser × Bool :=
  match s.reasoningDelta delta with
  | (s, false) => (s, false)
  | (s, true) => (s.toolCallsDelta delta, true)

def processDelta (s : Parser) (delta : Json) : Parser × Bool :=
  match (s.endForToolCalls delta).contentDelta delta with
  | (s, false) => (s, false)
  | (s, true) => s.reasoningAndCalls delta

def messageEnd (s : Parser) (finishReason : String) : Parser :=
  { s with messageEndYielded := true, events := s.events ++ [.messageEnd s.usage (some finishReason)] }

def finishChunk (s : Parser) (choice : Json) : Parser :=
  if (choice.get "finish_reason").bind asStr = some "tool_calls" then
    { (s.endBlock .toolUse).messageEnd "tool_calls" with stopped := true }
  else s

def processChoice (s : Parser) (choice : Json) : Parser :=
  match choice.get "delta" with
  | some delta =>
    match s.processDelta delta with
    | (s, false) => s
    | (s, true) => s.finishChunk choice
  | none => s.finishChunk choice

def readUsage (s : Parser) (parsed : Json) : Parser :=
  if (parsed.get "usage").isSome then { s with usage := some (parseUsage parsed) } else s

def firstChoice (parsed : Json) : Option Json := ((parsed.get "choices").bind asArray).bind List.head?

def step (s : Parser) (chunk : SseChunk) : Parser :=
  if s.stopped then s
  else match chunk with
    | .done => { s with stopped := true }
    | .malformed => s
    | .json parsed =>
      match firstChoice parsed with
      | some choice => (s.readUsage parsed).processChoice choice
      | none => s.readUsage parsed

def finish (s : Parser) : Parser := if s.messageEndYielded then s else s.endCurrent.messageEnd "stop"

end Parser

def parseSseStream (chunks : List SseChunk) : List StreamEvent :=
  (Trace.run Parser.step Parser.init chunks).finish.events

/-! ## Well-formed events -/

def blockEvent? : StreamEvent → Option (BlockEvent ContentBlockType)
  | .blockStart i ty => some (.start i ty)
  | .blockDelta i delta => some (.piece i delta.blockType)
  | .blockEnd i _ => some (.stop i)
  | .messageEnd _ _ => none
  | .error _ => none

def isMessageEnd : StreamEvent → Bool
  | .messageEnd _ _ => true
  | _ => false

def EndsOnce (events : List StreamEvent) : Prop :=
  ∃ pre last, events = pre ++ [last] ∧ isMessageEnd last = true ∧ ∀ e ∈ pre, isMessageEnd e = false

structure WellFormed (events : List StreamEvent) : Prop where
  blocks : Balanced (events.filterMap blockEvent?)
  ended : EndsOnce events

/-! ## Careful chunks -/

def newCalls (delta : Json) : Nat := ((toolCalls? delta).getD []).countP fun tc => (toolCallId tc).isSome

def PassedOver (delta : Json) : Prop :=
  content? delta = some "" ∨ reasoning? delta = some "" ∨
    ((content? delta).isSome = true ∧ (reasoning? delta).isSome = true)

/-- Text does not come while a tool block is open; a new call comes alone, without text,
    and not while a tool block is open. -/
structure CarefulDelta (active : Option ContentBlockType) (delta : Json) : Prop where
  text : ∀ text, content? delta = some text → text ≠ "" → active ≠ some .toolUse
  calls : PassedOver delta ∨ newCalls delta = 0 ∨
    (newCalls delta = 1 ∧ content? delta = none ∧ reasoning? delta = none ∧ active ≠ some .toolUse)

def Careful (s : Parser) : SseChunk → Prop
  | .json parsed => s.stopped = true ∨
      ∀ delta, (Parser.firstChoice parsed).bind (get · "delta") = some delta → CarefulDelta s.activeBlockType delta
  | _ => True

/-! ## The parser as a writer of blocks -/

open ContentDelta

namespace Parser

variable {s s₁ s₂ : Parser} {p q : Prop}

def writer (s : Parser) : Writer ContentBlockType := ⟨s.block, s.nextBlockIndex, s.events.filterMap blockEvent?⟩

def Known (s : Parser) : Prop := ∀ i ty, s.block = some (i, ty) → ty = .text ∨ ty = .thinking ∨ ty = .toolUse

structure Writes (s s₁ : Parser) (p : Prop) : Prop where
  ops : ∃ ops, s₁.writer = Trace.run Writer.step s.writer ops ∧ (Trace.Along Writer.step Writer.Clean s.writer ops ↔ p)
  quiet : ∃ more, s₁.events = s.events ++ more ∧ ∀ e ∈ more, isMessageEnd e = false
  stopped : s₁.stopped = s.stopped
  yielded : s₁.messageEndYielded = s.messageEndYielded

theorem Writes.refl (s : Parser) : Writes s s True := ⟨⟨[], rfl, Iff.rfl⟩, ⟨[], by simp, by simp⟩, rfl, rfl⟩

theorem Writes.trans (h₁ : Writes s s₁ p) (h₂ : Writes s₁ s₂ q) : Writes s s₂ (p ∧ q) := by
  obtain ⟨ops₁, hrun₁, hclean₁⟩ := h₁.ops
  obtain ⟨ops₂, hrun₂, hclean₂⟩ := h₂.ops
  obtain ⟨more₁, hevents₁, hquiet₁⟩ := h₁.quiet
  obtain ⟨more₂, hevents₂, hquiet₂⟩ := h₂.quiet
  refine ⟨⟨ops₁ ++ ops₂, ?_, ?_⟩, ⟨more₁ ++ more₂, ?_, ?_⟩, h₂.stopped.trans h₁.stopped, h₂.yielded.trans h₁.yielded⟩
  · rw [Trace.run_append, ← hrun₁, hrun₂]
  · rw [Trace.along_append, hclean₁, ← hrun₁, hclean₂]
  · rw [hevents₂, hevents₁, append_assoc]
  · intro e he
    rcases mem_append.mp he with he | he
    · exact hquiet₁ e he
    · exact hquiet₂ e he

theorem Writes.congr (h : Writes s s₁ p) (hpq : p ↔ q) : Writes s s₁ q := propext hpq ▸ h

theorem Writes.single {op : Op ContentBlockType} {e : StreamEvent} (hw : s₁.writer = s.writer.step op)
    (he : s₁.events = s.events ++ [e]) (hm : isMessageEnd e = false) (hs : s₁.stopped = s.stopped)
    (hy : s₁.messageEndYielded = s.messageEndYielded) : Writes s s₁ (Writer.Clean s.writer op) :=
  ⟨⟨[op], hw, by simp [Trace.Along]⟩, ⟨[e], he, by simpa using hm⟩, hs, hy⟩

theorem writes_startBlock (s : Parser) (ty : ContentBlockType) : Writes s (s.startBlock ty) (s.block = none) := by
  have hw : (s.startBlock ty).writer = s.writer.step (.start ty) := by
    simp [writer, startBlock, Writer.step, blockEvent?]
  exact Writes.single hw rfl rfl rfl rfl

variable {i : Nat} (ty : ContentBlockType) (tc : Json)

theorem writes_blockDelta {ty : ContentBlockType} (h : s.block = some (i, ty)) (delta : ContentDelta) :
    Writes s (s.blockDelta delta) (ty = delta.blockType) := by
  have hstep : s.blockDelta delta = { s with events := s.events ++ [.blockDelta i delta] } := by
    simp only [blockDelta, h]
  have hw : (s.blockDelta delta).writer = s.writer.step (.piece delta.blockType) := by
    rw [hstep]
    simp [writer, Writer.step, h, blockEvent?]
  have hwrites := Writes.single hw (by rw [hstep]) rfl (by rw [hstep]) (by rw [hstep])
  exact hwrites.congr (by simp [Writer.Clean, writer, h])

theorem writes_endBlock (s : Parser) (ty : ContentBlockType) : Writes s (s.endBlock ty) True := by
  cases hb : s.block with
  | none => simpa only [endBlock, hb] using Writes.refl s
  | some block =>
    obtain ⟨i, kind⟩ := block
    have hstep : s.endBlock ty = { s with block := none, events := s.events ++ [.blockEnd i ty] } := by
      simp only [endBlock, hb]
    have hw : (s.endBlock ty).writer = s.writer.step .stop := by
      rw [hstep]
      simp [writer, Writer.step, hb, blockEvent?]
    exact Writes.single hw (by rw [hstep]) rfl (by rw [hstep]) (by rw [hstep])

/-! ## The block after each function -/

@[simp] theorem block_startBlock : (s.startBlock ty).block = some (s.nextBlockIndex, ty) := rfl

@[simp] theorem block_blockDelta (delta : ContentDelta) : (s.blockDelta delta).block = s.block := by
  unfold blockDelta
  split <;> simp_all

@[simp] theorem block_endBlock : (s.endBlock ty).block = none := by
  unfold endBlock
  split <;> simp_all

@[simp] theorem block_endCurrent : s.endCurrent.block = none := block_endBlock _

@[simp] theorem block_nameDelta : (s.nameDelta tc).block = s.block := by
  unfold nameDelta
  split <;> simp

@[simp] theorem block_inputDelta : (s.inputDelta tc).block = s.block := by
  unfold inputDelta
  split <;> simp

theorem activeBlockType_eq_some {ty : ContentBlockType} :
    s.activeBlockType = some ty ↔ ∃ i, s.block = some (i, ty) := by
  simp [activeBlockType]

theorem known_of_block (h : Known s) (hb : s₁.block = s.block) : Known s₁ := by
  intro i ty hi
  exact h i ty (hb ▸ hi)

theorem known_of_none (hb : s.block = none) : Known s := by
  intro i ty hi
  rw [hb] at hi
  cases hi

theorem known_of_some {ty : ContentBlockType} (hb : s.block = some (i, ty))
    (hty : ty = .text ∨ ty = .thinking ∨ ty = .toolUse) : Known s := by
  intro j ty' hj
  rw [hb] at hj
  cases hj
  exact hty

/-! ## Each function of the parser -/

theorem writes_endForToolCalls (s : Parser) (delta : Json) : Writes s (s.endForToolCalls delta) True := by
  unfold endForToolCalls
  split
  · exact writes_endBlock s _
  · exact Writes.refl s

theorem block_endForToolCalls (s : Parser) (delta : Json) : (s.endForToolCalls delta).block
      = if (toolCalls? delta).isSome && s.activeBlockType != some .toolUse then none else s.block := by
  unfold endForToolCalls
  split <;> simp

theorem writes_blockForText (s : Parser) : Writes s s.endThinking.blockForText True ∧
    ∃ i ty, s.endThinking.blockForText.block = some (i, ty) ∧
      ((ty = .text ∧ s.activeBlockType ≠ some .toolUse) ∨ (s.block = some (i, ty) ∧ ty ≠ .thinking)) := by
  by_cases hthinking : s.activeBlockType = some .thinking
  · have hopen : s.endThinking.blockForText = (s.endBlock .thinking).startBlock .text := by
      rw [endThinking, if_pos hthinking]
      exact if_pos (block_endBlock _)
    rw [hopen]
    refine ⟨((writes_endBlock s _).trans (writes_startBlock _ _)).congr (by simp), _, .text, rfl, .inl ⟨rfl, ?_⟩⟩
    rw [hthinking]
    decide
  · have hend : s.endThinking = s := if_neg hthinking
    rw [hend]
    cases hb : s.block with
    | none =>
      have hopen : s.blockForText = s.startBlock .text := if_pos hb
      rw [hopen]
      exact ⟨(writes_startBlock s _).congr (by simp [hb]), _, .text, rfl, .inl ⟨rfl, by simp [activeBlockType, hb]⟩⟩
    | some block =>
      obtain ⟨i, ty⟩ := block
      have hopen : s.blockForText = s := if_neg (by simp [hb])
      rw [hopen]
      refine ⟨Writes.refl s, i, ty, hb, .inr ⟨rfl, ?_⟩⟩
      rintro rfl
      exact hthinking (activeBlockType_eq_some.mpr ⟨i, hb⟩)

theorem writes_contentDelta (hk : Known s) (delta : Json) : Writes s (s.contentDelta delta).1
        (∀ text, content? delta = some text → text ≠ "" → s.activeBlockType ≠ some .toolUse) ∧
      Known (s.contentDelta delta).1 := by
  unfold contentDelta
  cases hc : content? delta with
  | none => exact ⟨(Writes.refl s).congr (by simp), hk⟩
  | some text =>
    by_cases hempty : text = ""
    · subst hempty
      simp only [if_true]
      exact ⟨(Writes.refl s).congr (by simp), hk⟩
    · simp only [if_neg hempty]
      obtain ⟨hblock, i, ty, hi, hty⟩ := writes_blockForText s
      have hdelta := hblock.trans (writes_blockDelta hi (.text text))
      rcases hty with ⟨rfl, hactive⟩ | ⟨hs, hne⟩
      · exact ⟨hdelta.congr (by simp [blockType, hactive]), known_of_some (by simpa using hi) (.inl rfl)⟩
      · have hactive : s.activeBlockType = some ty := activeBlockType_eq_some.mpr ⟨i, hs⟩
        refine ⟨hdelta.congr ?_, known_of_some (by simpa using hi) (hk i ty hs)⟩
        rcases hk i ty hs with rfl | rfl | rfl
        · simp [blockType, hactive]
        · exact absurd rfl hne
        · simp [blockType, hactive, hempty]

theorem block_contentDelta (hk : Known s) {delta : Json} {text : String} (hc : content? delta = some text)
    (hne : text ≠ "") : (s.contentDelta delta).1.block ≠ none ∧
      (s.activeBlockType ≠ some .toolUse → (s.contentDelta delta).1.activeBlockType = some .text) := by
  obtain ⟨-, i, ty, hi, hty⟩ := writes_blockForText s
  have hout : (s.contentDelta delta).1.block = some (i, ty) := by simp [contentDelta, hc, hne, hi]
  refine ⟨by simp [hout], ?_⟩
  intro hactive
  rcases hty with ⟨rfl, -⟩ | ⟨hs, hthinking⟩
  · exact activeBlockType_eq_some.mpr ⟨i, hout⟩
  · rcases hk i ty hs with rfl | rfl | rfl
    · exact activeBlockType_eq_some.mpr ⟨i, hout⟩
    · exact absurd rfl hthinking
    · exact absurd (activeBlockType_eq_some.mpr ⟨i, hs⟩) hactive

theorem writes_blockForThinking (s : Parser) :
    Writes s s.blockForThinking True ∧ ∃ i, s.blockForThinking.block = some (i, .thinking) := by
  by_cases hthinking : s.activeBlockType = some .thinking
  · rw [blockForThinking, if_pos hthinking]
    exact ⟨Writes.refl s, activeBlockType_eq_some.mp hthinking⟩
  · rw [blockForThinking, if_neg hthinking]
    exact ⟨((writes_endBlock s _).trans (writes_startBlock _ _)).congr (by simp), _, rfl⟩

theorem writes_reasoningDelta (hk : Known s) (delta : Json) :
    Writes s (s.reasoningDelta delta).1 True ∧ Known (s.reasoningDelta delta).1 := by
  unfold reasoningDelta
  cases hr : reasoning? delta with
  | none => exact ⟨Writes.refl s, hk⟩
  | some thinking =>
    by_cases hempty : thinking = ""
    · simp only [if_pos hempty]
      exact ⟨Writes.refl s, hk⟩
    · by_cases htext : s.activeBlockType = some .text
      · simp only [if_neg hempty, if_pos htext]
        exact ⟨Writes.refl s, hk⟩
      · simp only [if_neg hempty, if_neg htext]
        obtain ⟨hblock, i, hi⟩ := writes_blockForThinking s
        have hdelta := hblock.trans (writes_blockDelta hi (.thinking thinking none))
        exact ⟨hdelta.congr (by simp [blockType]), known_of_some (by simpa using hi) (.inr (.inl rfl))⟩

/-! ## Tool calls -/

theorem writes_nameDelta (h : s.block = some (i, .toolUse)) (tc : Json) : Writes s (s.nameDelta tc) True := by
  unfold nameDelta
  split
  · exact (writes_blockDelta h _).congr (by simp [blockType])
  · exact Writes.refl s

theorem writes_inputDelta (h : s.block = some (i, .toolUse)) (tc : Json) : Writes s (s.inputDelta tc) True := by
  unfold inputDelta
  split
  · exact (writes_blockDelta h _).congr (by simp [blockType])
  · exact Writes.refl s

theorem writes_toolCall_some {tc : Json} {id : String} (h : toolCallId tc = some id) :
    Writes s (s.toolCall tc) (s.block = none) ∧ ∃ i, (s.toolCall tc).block = some (i, .toolUse) := by
  simp only [toolCall, h]
  have hstart := writes_startBlock s .toolUse
  have hid := writes_blockDelta (block_startBlock (s := s) .toolUse) (.toolUseId id)
  have hname := writes_nameDelta (s := (s.startBlock .toolUse).blockDelta (.toolUseId id)) (by simp; rfl) tc
  have hinput := writes_inputDelta (s := ((s.startBlock .toolUse).blockDelta (.toolUseId id)).nameDelta tc)
    (by simp; rfl) tc
  refine ⟨(((hstart.trans hid).trans hname).trans hinput).congr (by simp [blockType]), ?_⟩
  exact ⟨s.nextBlockIndex, by simp⟩

theorem writes_toolCall_none {tc : Json} (h : toolCallId tc = none) :
    Writes s (s.toolCall tc) True ∧ (s.toolCall tc).block = s.block := by
  simp only [toolCall, h]
  by_cases hactive : s.activeBlockType = some .toolUse
  · obtain ⟨i, hi⟩ := activeBlockType_eq_some.mp hactive
    simp only [if_pos hactive]
    exact ⟨writes_inputDelta hi tc, by simp⟩
  · simp only [if_neg hactive]
    exact ⟨Writes.refl s, trivial⟩

theorem writes_toolCalls (hk : Known s) (calls : List Json) : Writes s (calls.foldl toolCall s)
        (calls.countP (fun tc => (toolCallId tc).isSome) = 0 ∨
          (calls.countP (fun tc => (toolCallId tc).isSome) = 1 ∧ s.block = none)) ∧ Known (calls.foldl toolCall s) := by
  induction calls generalizing s with
  | nil => exact ⟨(Writes.refl s).congr (by simp), hk⟩
  | cons tc calls ih =>
    rw [foldl_cons]
    cases hid : toolCallId tc with
    | none =>
      obtain ⟨hcall, hblock⟩ := writes_toolCall_none (s := s) hid
      obtain ⟨hrest, hknown⟩ := ih (known_of_block hk hblock)
      exact ⟨(hcall.trans hrest).congr (by simp [hid, hblock]), hknown⟩
    | some =>
      obtain ⟨hcall, i, hi⟩ := writes_toolCall_some (s := s) hid
      obtain ⟨hrest, hknown⟩ := ih (known_of_some hi (.inr (.inr rfl)))
      refine ⟨(hcall.trans hrest).congr ?_, hknown⟩
      simp only [countP_cons, hid, hi]
      simp [and_comm]

/-! ## A chunk -/

theorem writes_reasoningAndCalls (hk : Known s) (delta : Json) : Writes s (s.reasoningAndCalls delta).1
        (reasoning? delta = some "" ∨ ((reasoning? delta).isSome = true ∧ s.activeBlockType = some .text) ∨
          newCalls delta = 0 ∨ (newCalls delta = 1 ∧ reasoning? delta = none ∧ s.block = none)) ∧
      Known (s.reasoningAndCalls delta).1 := by
  unfold reasoningAndCalls
  obtain ⟨hreason, hknown⟩ := writes_reasoningDelta hk delta
  cases hr : reasoning? delta with
  | none =>
    have hsame : s.reasoningDelta delta = (s, true) := by simp only [reasoningDelta, hr]
    obtain ⟨hcalls, hlast⟩ := writes_toolCalls hk ((toolCalls? delta).getD [])
    rw [hsame]
    exact ⟨hcalls.congr (by simp [newCalls]), hlast⟩
  | some thinking =>
    by_cases hcut : thinking = "" ∨ s.activeBlockType = some .text
    · have hsame : s.reasoningDelta delta = (s, false) := by
        rcases hcut with rfl | htext
        · simp only [reasoningDelta, hr, if_true]
        · simp only [reasoningDelta, hr, htext, if_true, ite_self]
      rw [hsame]
      refine ⟨(Writes.refl s).congr ?_, hk⟩
      rcases hcut with rfl | htext
      · simp
      · simp [htext]
    · obtain ⟨hne, htext⟩ := not_or.mp hcut
      obtain ⟨-, i, hi⟩ := writes_blockForThinking s
      have hout : s.reasoningDelta delta = (s.blockForThinking.blockDelta (.thinking thinking none), true) := by
        simp only [reasoningDelta, hr, if_neg hne, if_neg htext]
      rw [hout] at hreason hknown ⊢
      obtain ⟨hcalls, hlast⟩ := writes_toolCalls hknown ((toolCalls? delta).getD [])
      refine ⟨(hreason.trans hcalls).congr ?_, hlast⟩
      simp [newCalls, hi, hne, htext]

theorem block_before_calls (s : Parser) {delta : Json} (h : newCalls delta ≠ 0) :
    (s.activeBlockType ≠ some .toolUse → (s.endForToolCalls delta).block = none) ∧
      (s.activeBlockType = some .toolUse → (s.endForToolCalls delta).block = s.block) := by
  have hsome : (toolCalls? delta).isSome = true := by
    by_contra hnone
    have hcalls : toolCalls? delta = none := by simpa using hnone
    exact h (by simp [newCalls, hcalls])
  rw [block_endForToolCalls, hsome]
  exact ⟨fun hactive => by simp [hactive], fun hactive => by simp [hactive]⟩

theorem known_endForToolCalls (hk : Known s) (delta : Json) : Known (s.endForToolCalls delta) := by
  have hblock := block_endForToolCalls s delta
  split_ifs at hblock
  · exact known_of_none hblock
  · exact known_of_block hk hblock

theorem toolUse_endForToolCalls (s : Parser) (delta : Json) :
    (s.endForToolCalls delta).activeBlockType = some .toolUse ↔ s.activeBlockType = some .toolUse := by
  have hblock := block_endForToolCalls s delta
  split_ifs at hblock with hcond
  · have hne : s.activeBlockType ≠ some .toolUse := by simpa using (Bool.and_eq_true_iff.mp hcond).2
    rw [activeBlockType, hblock]
    simpa using hne
  · rw [activeBlockType, activeBlockType, hblock]

theorem carefulDelta_of_no_content {delta : Json} (hc : content? delta = none) : (reasoning? delta = some "" ∨
        ((reasoning? delta).isSome = true ∧ (s.endForToolCalls delta).activeBlockType = some .text) ∨
        newCalls delta = 0 ∨ (newCalls delta = 1 ∧ reasoning? delta = none ∧ (s.endForToolCalls delta).block = none))
      ↔ CarefulDelta s.activeBlockType delta := by
  have hpassed : PassedOver delta ↔ reasoning? delta = some "" := by simp [PassedOver, hc]
  by_cases hnew : newCalls delta = 0
  · simp only [hnew, true_or, or_true, true_iff]
    exact ⟨by simp [hc], .inr (.inl hnew)⟩
  · obtain ⟨hfree, hheld⟩ := block_before_calls s hnew
    by_cases hactive : s.activeBlockType = some .toolUse
    · obtain ⟨i, hi⟩ := activeBlockType_eq_some.mp hactive
      have hsame := (toolUse_endForToolCalls s delta).mpr hactive
      constructor
      · rintro (hr | ⟨-, htext⟩ | h0 | ⟨-, -, hb⟩)
        · exact ⟨by simp [hc], .inl (hpassed.mpr hr)⟩
        · rw [hsame] at htext
          cases htext
        · exact absurd h0 hnew
        · rw [hheld hactive, hi] at hb
          cases hb
      · rintro ⟨-, hp | h0 | ⟨-, -, -, hne⟩⟩
        · exact .inl (hpassed.mp hp)
        · exact absurd h0 hnew
        · exact absurd hactive hne
    · have hb := hfree hactive
      have hnone : (s.endForToolCalls delta).activeBlockType = none := by rw [activeBlockType, hb]; rfl
      constructor
      · rintro (hr | ⟨-, htext⟩ | h0 | ⟨h1, hr, -⟩)
        · exact ⟨by simp [hc], .inl (hpassed.mpr hr)⟩
        · rw [hnone] at htext
          cases htext
        · exact absurd h0 hnew
        · exact ⟨by simp [hc], .inr (.inr ⟨h1, hc, hr, hactive⟩)⟩
      · rintro ⟨-, hp | h0 | ⟨h1, -, hr, -⟩⟩
        · exact .inl (hpassed.mp hp)
        · exact absurd h0 hnew
        · exact .inr (.inr (.inr ⟨h1, hr, hb⟩))

theorem writes_processDelta (hk : Known s) (delta : Json) :
    Writes s (s.processDelta delta).1 (CarefulDelta s.activeBlockType delta) ∧ Known (s.processDelta delta).1 := by
  have hend := writes_endForToolCalls s delta
  have hk₀ := known_endForToolCalls hk delta
  unfold processDelta
  cases hc : content? delta with
  | none =>
    have hsame : (s.endForToolCalls delta).contentDelta delta = (s.endForToolCalls delta, true) := by
      simp only [contentDelta, hc]
    rw [hsame]
    obtain ⟨hrest, hlast⟩ := writes_reasoningAndCalls hk₀ delta
    exact ⟨(hend.trans hrest).congr (by rw [true_and, carefulDelta_of_no_content hc]), hlast⟩
  | some text =>
    by_cases hempty : text = ""
    · subst hempty
      have hsame : (s.endForToolCalls delta).contentDelta delta = (s.endForToolCalls delta, false) := by
        simp only [contentDelta, hc, if_true]
      rw [hsame]
      exact ⟨hend.congr ⟨fun _ => ⟨by simp [hc], .inl (.inl hc)⟩, fun _ => trivial⟩, hk₀⟩
    · obtain ⟨hcontent, hk₁⟩ := writes_contentDelta hk₀ delta
      obtain ⟨hopen, htext⟩ := block_contentDelta hk₀ hc hempty
      obtain ⟨s₁, hout⟩ : ∃ s₁, (s.endForToolCalls delta).contentDelta delta = (s₁, true) := by
        simp [contentDelta, hc, hempty]
      rw [hout] at hcontent hk₁ hopen htext ⊢
      obtain ⟨hrest, hlast⟩ := writes_reasoningAndCalls hk₁ delta
      refine ⟨((hend.trans hcontent).trans hrest).congr ?_, hlast⟩
      rw [Ne, toolUse_endForToolCalls] at htext
      simp only [hc, Option.some.injEq, forall_eq', toolUse_endForToolCalls, Ne, hopen, and_false, or_false, true_and]
      constructor
      · rintro ⟨hclean, hcalls⟩
        refine ⟨by simpa [hc] using hclean, ?_⟩
        rcases hcalls with hr | ⟨hr, -⟩ | h0
        · exact .inl (.inr (.inl hr))
        · exact .inl (.inr (.inr ⟨by simp [hc], hr⟩))
        · exact .inr (.inl h0)
      · rintro ⟨hclean, hcalls⟩
        have hactive := hclean text hc hempty
        refine ⟨fun _ => hactive, ?_⟩
        rcases hcalls with (hempty' | hr | ⟨-, hr⟩) | h0 | ⟨-, hnone, -⟩
        · exact absurd (Option.some.inj (hc.symm.trans hempty')) hempty
        · exact .inl hr
        · exact .inr (.inl ⟨hr, htext hactive⟩)
        · exact .inr (.inr h0)
        · rw [hc] at hnone
          cases hnone

/-! ## Runs -/

structure Stage (s : Parser) (p : Prop) : Prop where
  ops : ∃ ops, s.writer = Trace.run Writer.step Writer.empty ops ∧
    (Trace.Along Writer.step Writer.Clean Writer.empty ops ↔ p)
  known : Known s
  ended : s.messageEndYielded = true → s.stopped = true ∧ s.block = none ∧ EndsOnce s.events
  going : s.messageEndYielded = false → ∀ e ∈ s.events, isMessageEnd e = false

theorem stage_init : Stage init True := ⟨⟨[], rfl, Iff.rfl⟩, known_of_none rfl, by simp [init], by simp [init]⟩

theorem Stage.congr (h : Stage s p) (hpq : p ↔ q) : Stage s q := propext hpq ▸ h

theorem Stage.not_yielded (h : Stage s p) (hs : s.stopped = false) : s.messageEndYielded = false := by
  cases hy : s.messageEndYielded with
  | false => rfl
  | true =>
    have hstopped := (h.ended hy).1
    rw [hs] at hstopped
    cases hstopped

theorem Stage.writes (h : Stage s p) (hy : s.messageEndYielded = false) (hw : Writes s s₁ q) (hk : Known s₁) :
    Stage s₁ (p ∧ q) := by
  obtain ⟨ops, hrun, hclean⟩ := h.ops
  obtain ⟨ops₁, hrun₁, hclean₁⟩ := hw.ops
  obtain ⟨more, hmore, hquiet⟩ := hw.quiet
  have hy₁ : s₁.messageEndYielded = false := hw.yielded.trans hy
  refine ⟨⟨ops ++ ops₁, ?_, ?_⟩, hk, ?_, ?_⟩
  · rw [Trace.run_append, ← hrun, hrun₁]
  · rw [Trace.along_append, hclean, ← hrun, hclean₁]
  · intro htrue
    rw [hy₁] at htrue
    cases htrue
  · intro _ e he
    rw [hmore] at he
    rcases mem_append.mp he with he | he
    · exact h.going hy e he
    · exact hquiet e he

theorem Stage.finishChunk (h : Stage s p) (hy : s.messageEndYielded = false) (choice : Json) :
    Stage (s.finishChunk choice) p := by
  unfold Parser.finishChunk
  split
  · have hend : Stage (s.endBlock .toolUse) (p ∧ True) :=
      h.writes hy (writes_endBlock s .toolUse) (known_of_none (block_endBlock _))
    obtain ⟨ops, hrun, hclean⟩ := hend.ops
    have hgoing := hend.going ((writes_endBlock s .toolUse).yielded.trans hy)
    refine ⟨⟨ops, ?_, hclean.trans (by simp)⟩, known_of_none (block_endBlock _), ?_, ?_⟩
    · rw [← hrun]
      simp [writer, messageEnd, blockEvent?]
    · intro _
      exact ⟨rfl, block_endBlock _, _, _, rfl, rfl, hgoing⟩
    · intro hfalse
      cases hfalse
  · exact h

theorem writes_readUsage (s : Parser) (parsed : Json) : Writes s (s.readUsage parsed) True := by
  unfold readUsage
  split
  · exact ⟨⟨[], rfl, Iff.rfl⟩, ⟨[], by simp, by simp⟩, rfl, rfl⟩
  · exact Writes.refl s

theorem block_readUsage (s : Parser) (parsed : Json) : (s.readUsage parsed).block = s.block := by
  unfold readUsage
  split <;> rfl

theorem Stage.processChoice (h : Stage s p) (hs : s.stopped = false) (choice : Json) : Stage (s.processChoice choice)
      (p ∧ ∀ delta, choice.get "delta" = some delta → CarefulDelta s.activeBlockType delta) := by
  have hy := h.not_yielded hs
  unfold Parser.processChoice
  cases hd : choice.get "delta" with
  | none => exact (h.finishChunk hy choice).congr (by simp)
  | some delta =>
    obtain ⟨hw, hk⟩ := writes_processDelta h.known delta
    have hstage := h.writes hy hw hk
    have hy₁ := hw.yielded.trans hy
    have hcareful : (p ∧ CarefulDelta s.activeBlockType delta) ↔
        p ∧ ∀ delta₁, some delta = some delta₁ → CarefulDelta s.activeBlockType delta₁ := by simp
    rw [← hcareful]
    cases hout : s.processDelta delta with
    | mk s₁ read =>
      rw [hout] at hstage hy₁
      simp only [hout]
      cases read with
      | false => exact hstage
      | true => exact hstage.finishChunk hy₁ choice

theorem Stage.step (h : Stage s p) (chunk : SseChunk) : Stage (s.step chunk) (p ∧ Careful s chunk) := by
  by_cases hs : s.stopped = true
  · have hsame : s.step chunk = s := by simp only [Parser.step, hs, if_true]
    rw [hsame]
    cases chunk <;> exact h.congr (by simp [Careful, hs])
  · have hs' : s.stopped = false := by simpa using hs
    have hy := h.not_yielded hs'
    cases chunk with
    | done =>
      simp only [Parser.step, hs', Careful, and_true]
      exact ⟨h.ops, h.known, fun hyes => absurd (hyes.symm.trans hy) (by decide), h.going⟩
    | malformed =>
      have hstep : s.step .malformed = s := by simp [Parser.step]
      rw [hstep]
      exact h.congr (by simp [Careful])
    | json parsed =>
      have husage := h.writes hy (writes_readUsage s parsed) (known_of_block h.known (block_readUsage s parsed))
      have hactive : (s.readUsage parsed).activeBlockType = s.activeBlockType := by
        rw [activeBlockType, block_readUsage, activeBlockType]
      cases hf : firstChoice parsed with
      | none =>
        have hstep : s.step (.json parsed) = s.readUsage parsed := by simp [Parser.step, hs', hf]
        rw [hstep]
        exact husage.congr (by simp [Careful, hf])
      | some choice =>
        have hstep : s.step (.json parsed) = (s.readUsage parsed).processChoice choice := by simp [Parser.step, hs', hf]
        rw [hstep]
        have hchoice := husage.processChoice ((writes_readUsage s parsed).stopped.trans hs') choice
        exact hchoice.congr (by simp [Careful, hf, hactive, hs'])

theorem Stage.run (h : Stage s p) (chunks : List SseChunk) :
    Stage (Trace.run Parser.step s chunks) (p ∧ Trace.Along Parser.step Careful s chunks) := by
  induction chunks generalizing s p with
  | nil => exact h.congr (by simp [Trace.Along])
  | cons chunk chunks ih => exact (ih (h.step chunk)).congr (by simp [Trace.Along, and_assoc])

/-! ## The end of the stream -/

theorem Stage.finish_blocks (h : Stage s p) : s.finish.events.filterMap blockEvent? = (s.writer.step .stop).events := by
  unfold Parser.finish
  split
  · rename_i hy
    have hb : s.writer.block = none := (h.ended hy).2.1
    simp only [Writer.step, hb]
    rfl
  · cases hb : s.block with
    | none | some => simp [messageEnd, endCurrent, endBlock, writer, Writer.step, hb, blockEvent?]

theorem Stage.finish_ended (h : Stage s p) : EndsOnce s.finish.events := by
  unfold Parser.finish
  split
  · rename_i hy
    exact (h.ended hy).2.2
  · rename_i hy
    have hy' : s.messageEndYielded = false := by simpa using hy
    have hend := h.writes hy' (writes_endBlock s (s.activeBlockType.getD .text)) (known_of_none (block_endBlock _))
    exact ⟨_, _, rfl, rfl, hend.going ((writes_endBlock s _).yielded.trans hy')⟩

end Parser

/-- The events are well formed exactly when every chunk is careful. -/
theorem well_formed_iff (chunks : List SseChunk) :
    WellFormed (parseSseStream chunks) ↔ Trace.Along Parser.step Careful Parser.init chunks := by
  have hstage := Parser.stage_init.run chunks
  obtain ⟨ops, hrun, hclean⟩ := hstage.ops
  have hbalanced : Balanced ((parseSseStream chunks).filterMap blockEvent?)
      ↔ Trace.Along Parser.step Careful Parser.init chunks := by
    rw [parseSseStream, hstage.finish_blocks, hrun, Writer.balanced_run_iff, hclean, true_and]
  constructor
  · intro hwf
    exact hbalanced.mp hwf.blocks
  · intro hcareful
    exact ⟨hbalanced.mpr hcareful, hstage.finish_ended⟩

def chunkOf (delta : List (String × Json)) (finishReason : Json) : SseChunk :=
  .json (.obj [("choices", .arr [.obj [("delta", .obj delta), ("finish_reason", finishReason)]])])

def firstPiece (index id name arguments : String) : Json :=
  .obj [("index", .num index), ("id", .str id), ("function", .obj [("name", .str name), ("arguments", .str arguments)])]

def textBesideCall : List SseChunk :=
  [chunkOf [("content", .str "One moment."), ("tool_calls", .arr [firstPiece "0" "call_a" "read" "a.txt"])] .null,
   chunkOf [] (.str "tool_calls")]

theorem a_call_beside_text_leaves_the_text_open : parseSseStream textBesideCall =
        [.blockStart 0 .text, .blockDelta 0 (.text "One moment."),
         .blockStart 1 .toolUse, .blockDelta 1 (.toolUseId "call_a"), .blockDelta 1 (.toolUseName "read"),
         .blockDelta 1 (.toolUseInputChunk "a.txt"), .blockEnd 1 .toolUse,
         .messageEnd none (some "tool_calls")] ∧ ¬ WellFormed (parseSseStream textBesideCall) := by
  have hevents : parseSseStream textBesideCall = [.blockStart 0 .text, .blockDelta 0 (.text "One moment."),
       .blockStart 1 .toolUse, .blockDelta 1 (.toolUseId "call_a"), .blockDelta 1 (.toolUseName "read"),
       .blockDelta 1 (.toolUseInputChunk "a.txt"), .blockEnd 1 .toolUse,
       .messageEnd none (some "tool_calls")] := by decide +kernel
  refine ⟨hevents, fun hwf => ?_⟩
  have hfirst := hwf.blocks 0
  rw [hevents] at hfirst
  have hopened : BlockStream.Opened ContentBlockType.text [.start .text, .piece .text] := ⟨1, rfl⟩
  rcases hfirst with hnil | hcomplete
  · cases hnil
  · exact hopened.not_complete hcomplete

end CloseClaw.LLM.OpenAi
