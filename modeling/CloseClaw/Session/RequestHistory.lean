/- The messages a request makes of a transcript (`session_llm_request_build.rs`). -/

import Mathlib.Data.List.DropRight
import CloseClaw.LLM.Request

namespace CloseClaw.Session.RequestHistory

open List
open LLM.Request (ContentBlock InternalMessage)

structure SessionMessage where
  role : String
  contentBlocks : List ContentBlock

def isThinking : ContentBlock → Bool
  | .thinking _ _ => true
  | _ => false

/-! ## Cleaning -/

def SessionMessage.isOrphan (msg : SessionMessage) : Bool :=
  msg.role == "assistant" && msg.contentBlocks.all isThinking

def withoutOrphans (messages : List SessionMessage) : List SessionMessage := messages.filter fun m => !m.isOrphan

def trimmedBlocks (blocks : List ContentBlock) : List ContentBlock :=
  let kept := blocks.rdropWhile isThinking
  if kept.isEmpty then [.text ""] else kept

def SessionMessage.trimmed (msg : SessionMessage) : SessionMessage :=
  { msg with contentBlocks := trimmedBlocks msg.contentBlocks }

def trimFirstAssistant : List SessionMessage → List SessionMessage
  | [] => []
  | m :: rest => if m.role = "assistant" then m.trimmed :: rest else m :: trimFirstAssistant rest

def trimLastAssistant (messages : List SessionMessage) : List SessionMessage :=
  (trimFirstAssistant messages.reverse).reverse

def cleanThinkingContent (messages : List SessionMessage) : List SessionMessage :=
  trimLastAssistant (withoutOrphans messages)

/-! ## Conversion -/

def formatContentBlock : ContentBlock → List String
  | .text t => [t]
  | .thinking t _ => ["<thinking>" ++ t ++ "</thinking>"]
  | .toolUse _ name input => ["[tool:" ++ name ++ "] " ++ input]
  | .image name _ => ["[image: " ++ name ++ "]"]
  | .audio name _ => ["[audio: " ++ name ++ "]"]
  | .file name _ => ["[file: " ++ name ++ "]"]
  | .toolResult _ _ => []

def isToolResult : ContentBlock → Bool
  | .toolResult _ _ => true
  | _ => false

def isImage : ContentBlock → Bool
  | .image _ _ => true
  | _ => false

def fragments (blocks : List ContentBlock) : List String :=
  ((blocks.filter fun b => !isToolResult b).filter fun b => !isImage b).flatMap formatContentBlock

def images (blocks : List ContentBlock) : List ContentBlock := (blocks.filter fun b => !isToolResult b).filter isImage

def convertMessage (msg : SessionMessage) : InternalMessage where
  role := msg.role
  content := "\n".intercalate (fragments msg.contentBlocks)
  contentBlocks := if (images msg.contentBlocks).isEmpty then none else some (images msg.contentBlocks)
  toolCallId := none

def toolMessage : ContentBlock → Option InternalMessage
  | .toolResult toolCallId content => some ⟨"tool", content, none, some toolCallId⟩
  | _ => none

def toolMessages (messages : List SessionMessage) : List InternalMessage :=
  messages.flatMap fun m => m.contentBlocks.filterMap toolMessage

def convertHistoryToInternal (messages : List SessionMessage) : List InternalMessage :=
  messages.map convertMessage ++ toolMessages messages

def requestHistory (transcript : List SessionMessage) : List InternalMessage :=
  convertHistoryToInternal (cleanThinkingContent transcript)

/-! ## Trimming -/

def SessionMessage.endsThinking (msg : SessionMessage) : Bool := (msg.contentBlocks.getLast?.map isThinking).getD false

def lastAssistant (messages : List SessionMessage) : Option SessionMessage :=
  messages.reverse.find? fun m => m.role == "assistant"

variable (l : List SessionMessage)

theorem trimFirstAssistant_append (more : List SessionMessage) : trimFirstAssistant (l ++ more)
      = if l.any (fun m => m.role == "assistant") then trimFirstAssistant l ++ more else l ++ trimFirstAssistant more := by
  induction l with
  | nil => simp
  | cons m l ih =>
    by_cases hm : m.role = "assistant"
    · simp [trimFirstAssistant, hm]
    · simp only [cons_append, trimFirstAssistant, if_neg hm, ih, any_cons, beq_eq_false_iff_ne.mpr hm, Bool.false_or]
      split <;> rfl

theorem trimLastAssistant_append (more : List SessionMessage) : trimLastAssistant (l ++ more)
      = if more.any (fun m => m.role == "assistant") then l ++ trimLastAssistant more
        else trimLastAssistant l ++ more := by
  unfold trimLastAssistant
  rw [reverse_append, trimFirstAssistant_append, any_reverse]
  split <;> simp

theorem length_trimLastAssistant : (trimLastAssistant l).length = l.length := by
  have hfirst : ∀ l : List SessionMessage, (trimFirstAssistant l).length = l.length := by
    intro l
    induction l with
    | nil => rfl
    | cons m l ih =>
      unfold trimFirstAssistant
      split <;> simp [ih]
  simp [trimLastAssistant, hfirst]

open SessionMessage

theorem endsThinking_eq_false_iff {msg : SessionMessage} :
    msg.endsThinking = false ↔ msg.contentBlocks.rtakeWhile isThinking = [] := by
  rw [rtakeWhile_eq_nil_iff, endsThinking]
  by_cases hne : msg.contentBlocks = []
  · simp [hne]
  · simp [List.getLast?_eq_some_getLast hne, hne]

variable {blocks : List ContentBlock}

theorem isThinking_of_mem_rtakeWhile {b : ContentBlock} (hb : b ∈ blocks.rtakeWhile isThinking) :
    ∃ t sig, b = .thinking t sig := by
  have h := mem_rtakeWhile_imp hb
  cases b <;> simp_all [isThinking]

theorem toolMessage_of_thinking : (blocks.rtakeWhile isThinking).filterMap toolMessage = [] := by
  rw [filterMap_eq_nil_iff]
  intro b hb
  obtain ⟨t, sig, rfl⟩ := isThinking_of_mem_rtakeWhile hb
  rfl

theorem toolMessage_trimmedBlocks (blocks : List ContentBlock) :
    (trimmedBlocks blocks).filterMap toolMessage = blocks.filterMap toolMessage := by
  have hsplit : blocks.filterMap toolMessage = (blocks.rdropWhile isThinking).filterMap toolMessage := by
    conv_lhs => rw [← rdropWhile_append_rtakeWhile (p := isThinking) (l := blocks)]
    rw [filterMap_append, toolMessage_of_thinking, append_nil]
  rw [hsplit]
  unfold trimmedBlocks
  simp only
  split
  case isTrue hempty =>
    rw [List.isEmpty_iff.mp hempty]
    rfl
  case isFalse => rfl

theorem toolMessages_trimLastAssistant : toolMessages (trimLastAssistant l) = toolMessages l := by
  have hfirst : ∀ l : List SessionMessage, (trimFirstAssistant l).map (fun m => m.contentBlocks.filterMap toolMessage)
      = l.map fun m => m.contentBlocks.filterMap toolMessage := by
    intro l
    induction l with
    | nil => rfl
    | cons m l ih =>
      unfold trimFirstAssistant
      split
      · simp [trimmed, toolMessage_trimmedBlocks]
      · simp [ih]
  have hlast := hfirst l.reverse
  unfold toolMessages trimLastAssistant
  rw [flatMap_def, flatMap_def, map_reverse, hlast, map_reverse, reverse_reverse]

/-! ## Texts -/

theorem fragments_append (a b : List ContentBlock) : fragments (a ++ b) = fragments a ++ fragments b := by
  simp [fragments]

theorem fragments_thinking (h : ∀ b ∈ blocks, ∃ t sig, b = .thinking t sig) :
    (fragments blocks = [] → blocks = []) ∧ ∀ s ∈ fragments blocks, 0 < s.length := by
  induction blocks with
  | nil => simp [fragments]
  | cons b blocks ih =>
    obtain ⟨t, sig, rfl⟩ := h b (by simp)
    have hcons : fragments (.thinking t sig :: blocks) = ("<thinking>" ++ t ++ "</thinking>") :: fragments blocks := rfl
    rw [hcons]
    refine ⟨fun hnil => (by cases hnil), fun s hs => ?_⟩
    rcases mem_cons.mp hs with rfl | hs
    · have hopen : "<thinking>".length = 10 := rfl
      rw [String.length_append, String.length_append]
      omega
    · exact (ih fun b' hb' => h b' (by simp [hb'])).2 s hs

theorem length_intercalate_lt {a b : List String} (hne : b ≠ []) (hpos : ∀ s ∈ b, 0 < s.length) :
    ("\n".intercalate a).length < ("\n".intercalate (a ++ b)).length := by
  by_cases ha : a = []
  · cases b with
    | nil => exact absurd rfl hne
    | cons s b =>
      have hs := hpos s (by simp)
      cases b with
      | nil => simpa [ha] using hs
      | cons =>
        simp only [ha, String.intercalate_nil, nil_append, String.intercalate_cons_cons, String.length_append,
          String.length_empty]
        omega
  · rw [String.intercalate_append_of_ne_nil ha hne, String.length_append, String.length_append]
    have hsep : "\n".length = 1 := rfl
    omega

theorem convertMessage_trimmed {msg : SessionMessage} (hkept : msg.contentBlocks.all isThinking = false) :
    convertMessage msg.trimmed = convertMessage msg ↔ msg.endsThinking = false := by
  have hne : msg.contentBlocks.rdropWhile isThinking ≠ [] := by
    intro hnil
    rw [rdropWhile_eq_nil_iff] at hnil
    rw [all_eq_false] at hkept
    obtain ⟨b, hb, hnot⟩ := hkept
    exact hnot (hnil b hb)
  have htrim : trimmedBlocks msg.contentBlocks = msg.contentBlocks.rdropWhile isThinking := by
    simp [trimmedBlocks, hne]
  rw [endsThinking_eq_false_iff]
  have hsplit := rdropWhile_append_rtakeWhile (p := isThinking) (l := msg.contentBlocks)
  constructor
  · intro heq
    by_contra hend
    have hcontent := congrArg InternalMessage.content heq
    have hfrag : fragments msg.contentBlocks = fragments (msg.contentBlocks.rdropWhile isThinking) ++
        fragments (msg.contentBlocks.rtakeWhile isThinking) := by rw [← fragments_append, hsplit]
    have hthinking : ∀ b ∈ msg.contentBlocks.rtakeWhile isThinking, ∃ t sig, b = .thinking t sig :=
      fun b hb => isThinking_of_mem_rtakeWhile hb
    obtain ⟨hnil, hpos⟩ := fragments_thinking hthinking
    have hlt := length_intercalate_lt (a := fragments (msg.contentBlocks.rdropWhile isThinking))
      (fun hf => hend (hnil hf)) hpos
    rw [← hfrag, ← htrim] at hlt
    have hsame : ("\n".intercalate (fragments (trimmedBlocks msg.contentBlocks))).length
        = ("\n".intercalate (fragments msg.contentBlocks)).length := congrArg String.length hcontent
    omega
  · intro hend
    rw [hend, append_nil] at hsplit
    have hsame : msg.trimmed = msg := by
      unfold trimmed
      rw [htrim, hsplit]
    rw [hsame]

theorem map_trimLastAssistant {l : List SessionMessage} (hkept : ∀ m ∈ l, m.isOrphan = false) :
    (trimLastAssistant l).map convertMessage = l.map convertMessage ↔
      ∀ m, lastAssistant l = some m → m.endsThinking = false := by
  have hfirst : ∀ l : List SessionMessage, (∀ m ∈ l, m.isOrphan = false) →
      ((trimFirstAssistant l).map convertMessage = l.map convertMessage ↔
        ∀ m, l.find? (fun m => m.role == "assistant") = some m → m.endsThinking = false) := by
    intro l
    induction l with
    | nil => simp [trimFirstAssistant]
    | cons m l ih =>
      intro hkept
      by_cases hm : m.role = "assistant"
      · have hall : m.contentBlocks.all isThinking = false := by
          simpa [isOrphan, hm] using hkept m (by simp)
        simp [trimFirstAssistant, hm, convertMessage_trimmed hall]
      · have hrest := ih fun x hx => hkept x (by simp [hx])
        simpa [trimFirstAssistant, hm, List.find?_cons, beq_eq_false_iff_ne.mpr hm] using hrest
  unfold trimLastAssistant lastAssistant
  rw [← hfirst l.reverse fun m hm => hkept m (mem_reverse.mp hm), map_reverse, map_reverse, reverse_eq_iff]

/-! ## Extensions -/

variable (a b : List SessionMessage)

theorem withoutOrphans_append : withoutOrphans (a ++ b) = withoutOrphans a ++ withoutOrphans b := filter_append ..

theorem isOrphan_of_mem_withoutOrphans {l : List SessionMessage} : ∀ m ∈ withoutOrphans l, m.isOrphan = false := by
  intro m hm
  simpa using (mem_filter.mp hm).2

theorem toolMessages_append : toolMessages (a ++ b) = toolMessages a ++ toolMessages b :=
  flatMap_append

theorem toolMessages_withoutOrphans : toolMessages (withoutOrphans l) = toolMessages l := by
  induction l with
  | nil => rfl
  | cons m l ih =>
    by_cases hm : m.isOrphan
    · have hnone : m.contentBlocks.filterMap toolMessage = [] := by
        rw [filterMap_eq_nil_iff]
        intro b hb
        have hall : m.contentBlocks.all isThinking = true := (Bool.and_eq_true_iff.mp hm).2
        have hthink := all_eq_true.mp hall b hb
        cases b <;> first | rfl | cases hthink
      rw [withoutOrphans, filter_cons_of_neg (by simp [hm])]
      show toolMessages (withoutOrphans l) = m.contentBlocks.filterMap toolMessage ++ toolMessages l
      rw [hnone, ih, nil_append]
    · rw [withoutOrphans, filter_cons_of_pos (by simp [hm])]
      show m.contentBlocks.filterMap toolMessage ++ toolMessages (withoutOrphans l) = _
      rw [ih]
      rfl

theorem toolMessages_eq_nil_iff {l : List SessionMessage} :
    toolMessages l = [] ↔ ∀ m ∈ l, ∀ b ∈ m.contentBlocks, isToolResult b = false := by
  have hone : ∀ b : ContentBlock, toolMessage b = none ↔ isToolResult b = false := by
    intro b
    cases b <;> simp [toolMessage, isToolResult]
  simp [toolMessages, flatMap_eq_nil_iff, filterMap_eq_nil_iff, hone]

theorem append_prefix_append {α : Type} {a a' b b' : List α} (hlen : a.length = a'.length) :
    a ++ b <+: a' ++ b' ↔ a = a' ∧ b <+: b' := by
  constructor
  · intro h
    obtain ⟨t, ht⟩ := h
    rw [append_assoc] at ht
    obtain ⟨rfl, hb⟩ := append_inj ht hlen
    exact ⟨rfl, t, hb⟩
  · intro h
    obtain ⟨rfl, t, rfl⟩ := h
    exact ⟨t, by simp⟩

theorem toolMessages_prefix_iff {l : List SessionMessage} {newer : List SessionMessage} {rest : List InternalMessage} :
    toolMessages l <+: newer.map convertMessage ++ (toolMessages l ++ rest) ↔ toolMessages l = [] ∨ newer = [] := by
  constructor
  · intro h
    cases newer with
    | nil => exact .inr rfl
    | cons =>
      refine .inl ?_
      cases htools : toolMessages l with
      | nil => rfl
      | cons t =>
        rw [htools, map_cons, cons_append, cons_prefix_cons] at h
        -- a converted message has no call id, a tool result has one
        have hmem : t ∈ toolMessages l := by rw [htools]; simp
        obtain ⟨m', -, hm'⟩ := mem_flatMap.mp hmem
        obtain ⟨b, -, hb⟩ := mem_filterMap.mp hm'
        rw [h.1] at hb
        cases b <;> simp [toolMessage, convertMessage] at hb
  · intro h
    rcases h with h | rfl
    · simp [h]
    · exact prefix_append _ _

theorem requestHistory_eq (transcript : List SessionMessage) : requestHistory transcript
      = (trimLastAssistant (withoutOrphans transcript)).map convertMessage ++ toolMessages transcript := by
  rw [requestHistory, convertHistoryToInternal, cleanThinkingContent, toolMessages_trimLastAssistant,
    toolMessages_withoutOrphans]

/-- The history of a transcript that grows is rewritten where a tool result moves or thinking
comes back. -/
theorem history_extends_iff (transcript more : List SessionMessage) :
    requestHistory transcript <+: requestHistory (transcript ++ more) ↔
      ((∀ m ∈ transcript, ∀ b ∈ m.contentBlocks, isToolResult b = false) ∨ withoutOrphans more = []) ∧
      ((∀ m ∈ withoutOrphans more, m.role ≠ "assistant") ∨
        ∀ m, lastAssistant (withoutOrphans transcript) = some m → m.endsThinking = false) := by
  have htrim := map_trimLastAssistant (l := withoutOrphans transcript) isOrphan_of_mem_withoutOrphans
  rw [requestHistory_eq, requestHistory_eq, withoutOrphans_append, trimLastAssistant_append, toolMessages_append,
    ← toolMessages_eq_nil_iff, and_comm]
  by_cases hassistant : ∃ m ∈ withoutOrphans more, m.role = "assistant"
  · have hany : (withoutOrphans more).any (fun m => m.role == "assistant") = true := by simpa using hassistant
    have hnot : ¬∀ m ∈ withoutOrphans more, m.role ≠ "assistant" := by
      intro hall
      obtain ⟨m, hm, hrole⟩ := hassistant
      exact hall m hm hrole
    have hnil : trimLastAssistant (withoutOrphans more) = [] ↔ withoutOrphans more = [] := by
      rw [← length_eq_zero_iff, length_trimLastAssistant, length_eq_zero_iff]
    rw [if_pos hany, map_append, append_assoc, append_prefix_append (by simp [length_trimLastAssistant]),
      htrim, toolMessages_prefix_iff, hnil]
    simp only [hnot, false_or]
  · have hall : ∀ m ∈ withoutOrphans more, m.role ≠ "assistant" := fun m hm hrole => hassistant ⟨m, hm, hrole⟩
    have hany : ¬(withoutOrphans more).any (fun m => m.role == "assistant") = true := by simpa using hall
    rw [if_neg hany, map_append, append_assoc, append_prefix_append rfl, toolMessages_prefix_iff]
    exact ⟨fun h => ⟨.inl hall, h.2⟩, fun h => ⟨rfl, h.2⟩⟩

def toolTurn : List SessionMessage := [⟨"user", [.text "q"]⟩, ⟨"tool", [.toolResult "call_1" "42"]⟩]

def thinkingTurn : List SessionMessage := [⟨"assistant", [.text "a", .thinking "why" none]⟩]

def answerTurn : List SessionMessage := [⟨"assistant", [.text "done"]⟩]

theorem a_grown_transcript_rewrites_its_history : ¬requestHistory toolTurn <+: requestHistory (toolTurn ++ answerTurn) ∧
      ¬requestHistory thinkingTurn <+: requestHistory (thinkingTurn ++ answerTurn) := by
  decide +kernel

end CloseClaw.Session.RequestHistory
