/- Does the system prompt reach the model? -/

import CloseClaw.Lib.Text
import CloseClaw.LLM.Request

namespace CloseClaw.LLM.Request

open Lib List AList Protocol Text CacheAdapter SystemBlock

/-- The texts are the whole static prompt, up to white space between and around them, and
    then the dynamic prompt as it is. -/
def HoldsPrompt (request : InternalRequest) (texts : List String) : Prop :=
  ∃ shown, texts = shown ++ nonEmpty request.systemDynamic ∧
    Excerpts isWhitespace (shown.map String.toList) (request.systemStatic.getD "").toList

def systemTexts : Json → List String
  | .str s => [s]
  | .arr items => items.filterMap fun b => (b.get "text").bind Json.asStr
  | _ => []

namespace Protocol

def promptField : Protocol → String
  | .anthropic => "system"
  | .openai => "messages"

def Carries (request : InternalRequest) (field : Option Json) : Protocol → Prop
  | .anthropic => HoldsPrompt request ((field.map systemTexts).getD [])
  | .openai => ∃ texts, HoldsPrompt request texts ∧
      field = some (.arr (texts.map systemMessage ++ request.messages.map openai.buildMessage))

end Protocol

def PromptDelivered (lowercase : String → String) (providerId : String) (streaming : Bool) (request : InternalRequest) :
    Prop :=
  let protocol := (assembleComponents providerId).1
  protocol.Carries request ((sentBody lowercase providerId streaming request).lookup protocol.promptField)

/-! ## The prompt in pieces -/

theorem trim_excerpt (l : List Char) : ∃ before after, l = before ++ (trim l ++ after) ∧
    (∀ c ∈ before, isWhitespace c = true) ∧ ∀ c ∈ after, isWhitespace c = true := by
  have htail : ∀ m : List Char, m = (m.reverse.dropWhile isWhitespace).reverse ++
      (m.reverse.takeWhile isWhitespace).reverse := by
    intro m
    rw [← reverse_append, takeWhile_append_dropWhile, reverse_reverse]
  refine ⟨l.takeWhile isWhitespace, ((l.dropWhile isWhitespace).reverse.takeWhile isWhitespace).reverse,
    ?_, fun c hc => mem_takeWhile_imp hc, fun c hc => mem_takeWhile_imp (mem_reverse.mp hc)⟩
  unfold trim
  rw [← htail, takeWhile_append_dropWhile]

theorem excerpts_splitSections (section_ l : List Char) :
    Excerpts isWhitespace (((splitSections section_ l).map trim).filter fun s => !s.isEmpty)
      (section_.reverse ++ l) := by
  -- a trimmed section before the excerpts of the rest; an empty one is left out
  have hpiece : ∀ (p gap rest : List Char) (ps : List (List Char)), (∀ c ∈ gap, isWhitespace c = true) →
      Excerpts isWhitespace (ps.filter fun s => !s.isEmpty) rest →
      Excerpts isWhitespace ((trim p :: ps).filter fun s => !s.isEmpty) (p ++ (gap ++ rest)) := by
    intro p gap rest ps hgap hrest
    obtain ⟨before, after, hp, hbefore, hafter⟩ := trim_excerpt p
    have hsplit : p ++ (gap ++ rest) = before ++ (trim p ++ (after ++ (gap ++ rest))) := by
      rw [← append_assoc (trim p), ← append_assoc before, ← hp]
    rw [hsplit]
    by_cases hempty : trim p = []
    · rw [filter_cons_of_neg (by simp [hempty]), hempty, nil_append]
      exact ((hrest.gap hgap).gap hafter).gap hbefore
    · rw [filter_cons_of_pos (by simpa using hempty)]
      exact Excerpts.cons hbefore hafter (hrest.gap hgap)
  have hlast : ∀ p : List Char, Excerpts isWhitespace ([trim p].filter fun s => !s.isEmpty) p := by
    intro p
    have h := hpiece p [] [] [] (by simp) (by simp [Excerpts])
    rwa [append_nil, append_nil] at h
  induction section_, l using splitSections.induct with
  | case1 =>
    rw [splitSections, append_nil]
    exact hlast _
  | case2 =>
    rw [splitSections, ← reverse_cons]
    exact hlast _
  | case3 section_ c d rest hblank ih =>
    obtain ⟨rfl, rfl⟩ := hblank
    rw [splitSections, if_pos ⟨rfl, rfl⟩, map_cons]
    have hnewlines : ∀ c ∈ ['\n', '\n'], isWhitespace c = true := by
      intro c hc
      obtain rfl : c = '\n' := by simpa using hc
      rfl
    exact hpiece section_.reverse ['\n', '\n'] rest _ hnewlines ih
  | case4 section_ c d rest hblank ih =>
    rw [splitSections, if_neg hblank]
    have hmove : section_.reverse ++ c :: d :: rest = (c :: section_).reverse ++ d :: rest := by simp
    rw [hmove]
    exact ih

theorem nonEmpty_eq_nil_of_blank {prompt : Option String} (h : prompt.getD "" = "") : nonEmpty prompt = [] := by
  cases prompt with
  | none => rfl
  | some t =>
    obtain rfl : t = "" := h
    rfl

theorem nonEmpty_of_ne {prompt : Option String} (h : prompt.getD "" ≠ "") : nonEmpty prompt = [prompt.getD ""] := by
  cases prompt with
  | none => exact absurd rfl h
  | some t => simp [nonEmpty, Option.filter, show t ≠ "" from h]

variable (request : InternalRequest)

theorem holdsPrompt_promptBlocks : HoldsPrompt request ((promptBlocks request).map text) := by
  refine ⟨((nonEmpty request.systemStatic).flatMap sections).map String.ofList, ?_, ?_⟩
  · simp only [promptBlocks, map_append, map_flatMap, map_map, Function.comp_def, map_id']
  · by_cases hempty : request.systemStatic.getD "" = ""
    · simp [nonEmpty_eq_nil_of_blank hempty, hempty, Excerpts]
    · have h := excerpts_splitSections [] (request.systemStatic.getD "").toList
      simpa [nonEmpty_of_ne hempty, sections, Function.comp_def] using h

theorem holdsPrompt_promptTexts : HoldsPrompt request (promptTexts request) := by
  refine ⟨nonEmpty request.systemStatic, rfl, ?_⟩
  by_cases hempty : request.systemStatic.getD "" = ""
  · simp [nonEmpty_eq_nil_of_blank hempty, hempty, Excerpts]
  · rw [nonEmpty_of_ne hempty]
    exact Excerpts.whole _

/-! ## What the plugins leave alone -/

structure SamePrompt (a b : InternalRequest) : Prop where
  messages : b.messages = a.messages
  systemStatic : b.systemStatic = a.systemStatic
  systemDynamic : b.systemDynamic = a.systemDynamic
  systemBlocks : b.systemBlocks = a.systemBlocks
  extra : ∀ protocol : Protocol, b.extraBody.lookup protocol.promptField = a.extraBody.lookup protocol.promptField

namespace SamePrompt

variable (a : InternalRequest)

theorem refl : SamePrompt a a := ⟨rfl, rfl, rfl, rfl, fun _ => rfl⟩

theorem trans {a b c : InternalRequest} (h : SamePrompt a b) (h' : SamePrompt b c) : SamePrompt a c :=
  ⟨h'.messages.trans h.messages, h'.systemStatic.trans h.systemStatic, h'.systemDynamic.trans h.systemDynamic,
    h'.systemBlocks.trans h.systemBlocks, fun protocol => (h'.extra protocol).trans (h.extra protocol)⟩

theorem insert_extra {key : String} (value : Json) (hkey : ∀ protocol : Protocol, protocol.promptField ≠ key) :
    SamePrompt a { a with extraBody := a.extraBody.insert key value } :=
  ⟨rfl, rfl, rfl, rfl, fun protocol => lookup_insert_ne (hkey protocol)⟩

theorem withThinking (enabled : Bool) (a : InternalRequest) : SamePrompt a (ModelPlugin.withThinking enabled a) :=
  insert_extra a _ fun protocol => by cases protocol <;> decide

theorem insertReasoningSplit : SamePrompt a (Request.insertReasoningSplit a) := by
  unfold Request.insertReasoningSplit
  split
  · exact insert_extra a _ fun protocol => by cases protocol <;> decide
  · exact refl a

theorem beforeRequest (plugin : ModelPlugin) (a : InternalRequest) : SamePrompt a (plugin.beforeRequest a) := by
  cases plugin with
  | anthropic => exact refl a
  | minimaxM3 => exact (withThinking _ a).trans (insertReasoningSplit _)
  | minimaxM2 => exact insertReasoningSplit a
  | deepseek => exact insert_extra a _ fun protocol => by cases protocol <;> decide
  | glm | mimo => exact withThinking _ a

theorem runAll (lowercase : String → String) (model : String) (plugins : List ModelPlugin) (a : InternalRequest) :
    SamePrompt a (ModelPlugin.runAll lowercase model plugins a) := by
  unfold ModelPlugin.runAll
  induction plugins generalizing a with
  | nil => exact refl a
  | cons plugin plugins ih =>
    rw [foldl_cons]
    refine trans ?_ (ih _)
    split
    · exact beforeRequest plugin a
    · exact refl a

end SamePrompt

/-! ## What the protocols put into the fields -/

theorem lookup_insertAll (extra body : JsonMap) (key : String) :
    (insertAll extra body).lookup key = (extra.lookup key).or (body.lookup key) := by
  have hfold : ∀ (entries : List (Sigma fun _ : String => Json)) (b : JsonMap), entries.NodupKeys →
      (entries.foldl (fun b entry => b.insert entry.1 entry.2) b).lookup key
        = (entries.dlookup key).or (b.lookup key) := by
    intro entries
    induction entries with
    | nil => exact fun b _ => by simp
    | cons entry entries ih =>
      intro b hnodup
      obtain ⟨hnew, hrest⟩ := nodupKeys_cons.mp hnodup
      rw [foldl_cons, ih _ hrest]
      obtain ⟨k, v⟩ := entry
      by_cases hkey : key = k
      · subst hkey
        rw [dlookup_eq_none.mpr hnew, lookup_insert, dlookup_cons_eq]
        rfl
      · rw [dlookup_cons_ne _ _ hkey, lookup_insert_ne hkey]
  exact hfold extra.entries body extra.nodupKeys

section Fields
variable {key : String} (body : JsonMap)

theorem lookup_insertMaxTokens (maxTokens : Option UInt32) (hkey : key ≠ "max_tokens") :
    (insertMaxTokens maxTokens body).lookup key = body.lookup key := by
  cases maxTokens with
  | none => rfl
  | some => exact lookup_insert_ne hkey

theorem lookup_insertTemperature (temperature : Temperature) (hkey : key ≠ "temperature") :
    (insertTemperature temperature body).lookup key = body.lookup key := by
  unfold insertTemperature
  split
  · rfl
  · exact lookup_insert_ne hkey

theorem lookup_insertStreamOptions (stream : Bool) (hkey : key ≠ "stream_options") :
    (insertStreamOptions stream body).lookup key = body.lookup key := by
  unfold insertStreamOptions
  split
  · exact lookup_insert_ne hkey
  · rfl

theorem lookup_insertTools (tools : Option (List ToolDefinition)) (hkey : key ≠ "tools") :
    (insertTools tools body).lookup key = body.lookup key := by
  unfold insertTools
  split
  · exact lookup_insert_ne hkey
  · rfl

theorem lookup_insertSystem (blocks : Option (List SystemBlock)) (hnew : body.lookup "system" = none) :
    ((insertSystem blocks body).lookup "system").map systemTexts
      = if blocks.getD [] = [] then none else some ((blocks.getD []).map text) := by
  match blocks with
  | none => simp [insertSystem, hnew]
  | some [] => simp [insertSystem, hnew]
  | some (b :: blocks) =>
    have htexts : systemTexts (.arr (buildSystemArray (b :: blocks))) = (b :: blocks).map text := by
      rw [systemTexts, buildSystemArray, filterMap_map, ← filterMap_eq_map]
      exact filterMap_congr fun b _ => rfl
    simp [insertSystem, htexts]

end Fields

theorem texts_buildAnthropic : (((buildAnthropic request).lookup "system").map systemTexts).getD []
      = ((request.extraBody.lookup "system").map systemTexts).getD ((request.systemBlocks.getD []).map text) := by
  have hsystem := lookup_insertSystem (insertTemperature request.temperature (insertMaxTokens request.maxTokens
    (AList.insert "messages" (.arr (markLastMessage (request.messages.map anthropic.buildMessage)))
      (AList.insert "model" (.str request.model) ∅)))) request.systemBlocks (by
        rw [lookup_insertTemperature _ _ (by decide), lookup_insertMaxTokens _ _ (by decide),
          lookup_insert_ne (by decide), lookup_insert_ne (by decide), lookup_empty])
  unfold buildAnthropic
  simp only
  rw [lookup_insertTools _ _ (by decide), lookup_insertAll]
  cases request.extraBody.lookup "system" with
  | some => rfl
  | none =>
    rw [Option.none_or, hsystem]
    split
    case isTrue hnil => simp [hnil]
    case isFalse => rfl

theorem lookup_buildOpenAi : (buildOpenAi request).lookup "messages" = (request.extraBody.lookup "messages").or
          (some (.arr (buildSystemMessages request ++ request.messages.map openai.buildMessage))) := by
  unfold buildOpenAi
  simp only
  rw [lookup_insertAll, lookup_insertMaxTokens _ _ (by decide), lookup_insertStreamOptions _ _ (by decide),
    lookup_insert_ne (by decide), lookup_insert_ne (by decide), lookup_insert]

/-! ## Delivery -/

section Delivery
variable (lowercase : String → String) (providerId : String) (streaming : Bool) (request : InternalRequest)

def preparedRequest : InternalRequest :=
  let prepared := ModelPlugin.runAll lowercase request.model (assembleComponents providerId).2
    ((forProvider providerId).apply request)
  if streaming then { prepared with stream := true } else prepared

theorem samePrompt_preparedRequest : SamePrompt ((forProvider providerId).apply request)
      (preparedRequest lowercase providerId streaming request) := by
  have h := SamePrompt.runAll lowercase request.model (assembleComponents providerId).2
    ((forProvider providerId).apply request)
  unfold preparedRequest
  simp only
  split
  · exact ⟨h.messages, h.systemStatic, h.systemDynamic, h.systemBlocks, h.extra⟩
  · exact h

theorem apply_keeps (adapter : CacheAdapter) :
    (adapter.apply request).messages = request.messages ∧ (adapter.apply request).systemStatic = request.systemStatic ∧
      (adapter.apply request).systemDynamic = request.systemDynamic ∧
      (adapter.apply request).extraBody = request.extraBody := by
  cases adapter <;> exact ⟨rfl, rfl, rfl, rfl⟩

theorem holdsPrompt_adapted_iff : HoldsPrompt request (((anthropic.apply request).systemBlocks.getD []).map text) ↔
      (promptBlocks request = [] → HoldsPrompt request ((request.systemBlocks.getD []).map text)) := by
  by_cases hblocks : promptBlocks request = []
  · simp [apply, hblocks]
  · have hholds := holdsPrompt_promptBlocks request
    simp [apply, hblocks, hholds]

theorem pairing : (providerId = "deepseek" ∧ (assembleComponents providerId).1 = .anthropic ∧
      forProvider providerId = .noop) ∨
    (providerId ≠ "deepseek" ∧ (assembleComponents providerId).1 = .anthropic ∧
      forProvider providerId = .anthropic) ∨
    (providerId ≠ "deepseek" ∧ (assembleComponents providerId).1 = .openai) := by
  by_cases ha : providerId = "anthropic"
  · subst ha
    exact .inr (.inl ⟨by decide, rfl, rfl⟩)
  by_cases hm : providerId = "minimax"
  · subst hm
    exact .inr (.inl ⟨by decide, rfl, rfl⟩)
  by_cases hd : providerId = "deepseek"
  · subst hd
    exact .inl ⟨rfl, rfl, rfl⟩
  · refine .inr (.inr ⟨hd, ?_⟩)
    unfold assembleComponents
    rw [if_neg ha, if_neg hm, if_neg hd]
    split
    · rfl
    · split <;> rfl

theorem delivered_anthropic_iff (hprotocol : (assembleComponents providerId).1 = .anthropic) :
    PromptDelivered lowercase providerId streaming request ↔
      HoldsPrompt request (((request.extraBody.lookup "system").map systemTexts).getD
        ((((forProvider providerId).apply request).systemBlocks.getD []).map text)) := by
  obtain ⟨-, -, -, hextra⟩ := apply_keeps request (forProvider providerId)
  have hsame := samePrompt_preparedRequest lowercase providerId streaming request
  have hbody : sentBody lowercase providerId streaming request
      = buildAnthropic (preparedRequest lowercase providerId streaming request) := by
    unfold sentBody
    simp only [hprotocol]
    rfl
  unfold PromptDelivered
  simp only
  rw [hprotocol, hbody]
  show HoldsPrompt request _ ↔ _
  have hfield : (preparedRequest lowercase providerId streaming request).extraBody.lookup "system"
      = request.extraBody.lookup "system" := by rw [← hextra]; exact hsame.extra .anthropic
  rw [show promptField .anthropic = "system" from rfl, texts_buildAnthropic, hfield, hsame.systemBlocks]

theorem delivered_openai_iff (hprotocol : (assembleComponents providerId).1 = .openai) :
    PromptDelivered lowercase providerId streaming request ↔
      ∀ v, request.extraBody.lookup "messages" = some v → openai.Carries request (some v) := by
  obtain ⟨hmessages, hstatic, hdynamic, hextra⟩ := apply_keeps request (forProvider providerId)
  have hsame := samePrompt_preparedRequest lowercase providerId streaming request
  have hbody : sentBody lowercase providerId streaming request
      = buildOpenAi (preparedRequest lowercase providerId streaming request) := by
    unfold sentBody
    simp only [hprotocol]
    rfl
  have hsystem : buildSystemMessages (preparedRequest lowercase providerId streaming request)
      = (promptTexts request).map systemMessage := by
    unfold buildSystemMessages promptTexts
    rw [hsame.systemStatic, hsame.systemDynamic, hstatic, hdynamic]
  have hlookup : (sentBody lowercase providerId streaming request).lookup "messages"
      = (request.extraBody.lookup "messages").or (some (.arr ((promptTexts request).map systemMessage ++
          request.messages.map openai.buildMessage))) := by
    have hfield : (preparedRequest lowercase providerId streaming request).extraBody.lookup "messages"
        = request.extraBody.lookup "messages" := by rw [← hextra]; exact hsame.extra .openai
    rw [hbody, lookup_buildOpenAi, hsystem, hsame.messages, hmessages, hfield]
  unfold PromptDelivered
  simp only
  rw [hprotocol, show promptField .openai = "messages" from rfl, hlookup]
  cases request.extraBody.lookup "messages" with
  | some => simp
  | none => simpa using ⟨_, holdsPrompt_promptTexts request, rfl⟩

end Delivery

/-- The body carries both prompts, each once, exactly when what `extra_body` or the request puts
in their place does. -/
theorem prompt_delivered_iff (lowercase : String → String) (providerId : String) (streaming : Bool)
    (request : InternalRequest) :
    PromptDelivered lowercase providerId streaming request ↔
      (∀ v, request.extraBody.lookup (assembleComponents providerId).1.promptField = some v →
        (assembleComponents providerId).1.Carries request (some v)) ∧
      (request.extraBody.lookup (assembleComponents providerId).1.promptField = none →
        providerId = "deepseek" ∨ ((assembleComponents providerId).1 = .anthropic ∧ promptBlocks request = []) →
        HoldsPrompt request ((request.systemBlocks.getD []).map text)) := by
  rcases pairing providerId with ⟨hdeepseek, hprotocol, hadapter⟩ | ⟨hother, hprotocol, hadapter⟩ | ⟨hother, hprotocol⟩
  · rw [delivered_anthropic_iff lowercase providerId streaming request hprotocol, hadapter, hprotocol]
    rw [show promptField .anthropic = "system" from rfl]
    cases request.extraBody.lookup "system" with
    | some => simp [Carries]
    | none => simp [apply, hdeepseek]
  · rw [delivered_anthropic_iff lowercase providerId streaming request hprotocol, hadapter, hprotocol]
    rw [show promptField .anthropic = "system" from rfl]
    cases request.extraBody.lookup "system" with
    | some => simp [Carries]
    | none => simpa [hother] using holdsPrompt_adapted_iff request
  · rw [delivered_openai_iff lowercase providerId streaming request hprotocol, hprotocol]
    simp [hother, promptField]

def promptedRequest : InternalRequest where
  model := "deepseek-chat"
  messages := [⟨"user", "hello", none, none⟩]
  temperature := ⟨.num "0.7", false⟩
  maxTokens := none
  stream := false
  extraBody := ∅
  systemStatic := some "You are an agent."
  systemDynamic := none
  systemBlocks := none
  tools := none
  reasoningLevel := .high

theorem a_deepseek_request_has_no_prompt : ¬PromptDelivered id "deepseek" true promptedRequest := by
  intro h
  rw [delivered_anthropic_iff id "deepseek" true promptedRequest rfl] at h
  obtain ⟨shown, hshown, hexcerpts⟩ := h
  obtain rfl : shown = [] := by
    have hnil : ([] : List String) = shown ++ [] := hshown
    simpa using hnil.symm
  exact absurd (hexcerpts 'Y' (by decide)) (by decide)

end CloseClaw.LLM.Request
