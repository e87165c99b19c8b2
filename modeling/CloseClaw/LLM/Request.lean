/- From a request to the body that is sent (`llm/src/protocol`, `call_chain.rs`, `client.rs`).
   `str::to_lowercase` is taken as given (`lowercase`). -/

import Mathlib.Data.List.AList
import CloseClaw.Lib.Json
import CloseClaw.Lib.Text

namespace CloseClaw.LLM.Request

open Lib

abbrev JsonMap := AList fun _ : String => Json

inductive ContentBlock where
  | text (t : String)
  | thinking (thinking : String) (signature : Option String)
  | toolUse (id name input : String)
  | toolResult (toolCallId content : String)
  | image (name url : String)
  | audio (name url : String)
  | file (name url : String)
  deriving DecidableEq

structure InternalMessage where
  role : String
  content : String
  contentBlocks : Option (List ContentBlock)
  toolCallId : Option String
  deriving DecidableEq

structure SystemBlock where
  text : String
  cache : Bool

structure ToolDefinition where
  name : String
  description : String
  inputSchema : Option Json
  cache : Bool

inductive ReasoningLevel where
  | off
  | low
  | medium
  | high
  | max
  deriving DecidableEq

structure Temperature where
  json : Json
  isZero : Bool

structure InternalRequest where
  model : String
  messages : List InternalMessage
  temperature : Temperature
  maxTokens : Option UInt32
  stream : Bool
  extraBody : JsonMap
  systemStatic : Option String
  systemDynamic : Option String
  systemBlocks : Option (List SystemBlock)
  tools : Option (List ToolDefinition)
  reasoningLevel : ReasoningLevel

def splitSections (section_ : List Char) : List Char → List (List Char)
  | [] => [section_.reverse]
  | [c] => [(c :: section_).reverse]
  | c :: d :: rest =>
    if c = '\n' ∧ d = '\n' then section_.reverse :: splitSections [] rest
    else splitSections (c :: section_) (d :: rest)

def sections (staticText : String) : List (List Char) :=
  ((splitSections [] staticText.toList).map Text.trim).filter fun s => !s.isEmpty

def nonEmpty (prompt : Option String) : List String := (prompt.filter fun t => t ≠ "").toList

def promptBlocks (request : InternalRequest) : List SystemBlock :=
  ((nonEmpty request.systemStatic).flatMap fun staticText =>
    (sections staticText).map fun s => ⟨String.ofList s, true⟩) ++
  (nonEmpty request.systemDynamic).map fun dynamicText => ⟨dynamicText, false⟩

inductive CacheAdapter where
  | noop
  | anthropic

def CacheAdapter.apply : CacheAdapter → InternalRequest → InternalRequest
  | .noop, request => request
  | .anthropic, request =>
    let blocks := promptBlocks request
    { request with
      systemBlocks := if blocks.isEmpty then request.systemBlocks else some blocks
      tools := request.tools.map (List.map fun tool => { tool with cache := true }) }

def CacheAdapter.forProvider (providerId : String) : CacheAdapter :=
  if providerId = "anthropic" then .anthropic else if providerId = "minimax" then .anthropic else .noop

inductive ModelPlugin where
  | anthropic
  | minimaxM3
  | minimaxM2
  | deepseek
  | glm
  | mimo

def thinkingType (enabled : Bool) : Json := .obj [("type", .str (if enabled then "enabled" else "disabled"))]

def hasToolExchange (request : InternalRequest) : Bool :=
  request.tools.isSome && request.messages.any fun m => m.toolCallId.isSome

def insertReasoningSplit (request : InternalRequest) : InternalRequest :=
  if hasToolExchange request then
    { request with extraBody := request.extraBody.insert "reasoning_split" (.bool true) }
  else request

namespace ModelPlugin

variable (lowercase : String → String)

def appliesTo (model : String) : ModelPlugin → Bool
  | .minimaxM3 => Text.startsWith (lowercase model) "minimax-m3"
  | .minimaxM2 => Text.startsWith (lowercase model) "minimax" && !Text.startsWith (lowercase model) "minimax-m3"
  | _ => true

def withThinking (enabled : Bool) (request : InternalRequest) : InternalRequest :=
  { request with extraBody := request.extraBody.insert "thinking" (thinkingType enabled) }

def beforeRequest (request : InternalRequest) : ModelPlugin → InternalRequest
  | .anthropic => request
  | .minimaxM3 =>
    insertReasoningSplit
      (withThinking (decide (request.reasoningLevel = .high ∨ request.reasoningLevel = .max)) request)
  | .minimaxM2 => insertReasoningSplit request
  | .deepseek =>
    let effort :=
      match request.reasoningLevel with
      | .off | .low => "low"
      | .medium => "base"
      | .high | .max => "high"
    { request with extraBody := request.extraBody.insert "reasoning_effort" (.str effort) }
  | .glm => withThinking (decide (request.reasoningLevel ≠ .off ∧ request.reasoningLevel ≠ .low)) request
  | .mimo => withThinking (decide (request.reasoningLevel ≠ .off)) request

def runAll (model : String) (plugins : List ModelPlugin) (request : InternalRequest) : InternalRequest :=
  plugins.foldl (fun r plugin => if plugin.appliesTo lowercase model then plugin.beforeRequest r else r) request

end ModelPlugin

inductive Protocol where
  | anthropic
  | openai

def stripStart (start l : List Char) : Option (List Char) :=
  if start <+: l then some (l.drop start.length) else none

def splitOnce (sep : Char) (l : List Char) : Option (List Char × List Char) :=
  match l.dropWhile (· ≠ sep) with
  | [] => none
  | _ :: after => some (l.takeWhile (· ≠ sep), after)

def parseDataUri (url : String) : Option (String × String) := do
  let rest ← stripStart "data:".toList url.toList
  let (mediaType, encoded) ← splitOnce ';' rest
  let data ← stripStart "base64,".toList encoded
  pure (String.ofList mediaType, String.ofList data)

namespace Protocol

def toolResult (toolCallId content : String) : Protocol → Json
  | .anthropic =>
    .obj [("role", .str "user"),
      ("content", .arr [.obj [("type", .str "tool_result"), ("tool_use_id", .str toolCallId), ("content", .str content)]])]
  | .openai => .obj [("role", .str "tool"), ("tool_call_id", .str toolCallId), ("content", .str content)]

def imageBlock (url : String) : Protocol → Option Json
  | .anthropic => (parseDataUri url).map fun d =>
    .obj [("type", .str "image"),
      ("source", .obj [("type", .str "base64"), ("media_type", .str d.1), ("data", .str d.2)])]
  | .openai => some (.obj [("type", .str "image_url"), ("image_url", .obj [("url", .str url)])])

def contentBlock (protocol : Protocol) : ContentBlock → Option Json
  | .text t => some (.obj [("type", .str "text"), ("text", .str t)])
  | .image _ url => protocol.imageBlock url
  | _ => none

def buildMessage (protocol : Protocol) (msg : InternalMessage) : Json :=
  match msg.toolCallId with
  | some toolCallId => protocol.toolResult toolCallId msg.content
  | none =>
    match msg.contentBlocks with
    | some (b :: blocks) =>
      .obj [("role", .str msg.role), ("content", .arr ((b :: blocks).filterMap protocol.contentBlock))]
    | _ => .obj [("role", .str msg.role), ("content", .str msg.content)]

end Protocol

def ephemeral : Json := .obj [("type", .str "ephemeral")]

def withField (key : String) (value : Json) : Json → Json
  | .obj fields => .obj ((key, value) :: fields.filter fun f => f.1 ≠ key)
  | j => j

def markedContent : Json → Option Json
  | .str text => some (.arr [.obj [("type", .str "text"), ("text", .str text), ("cache_control", ephemeral)]])
  | .arr items => items.getLast?.map fun b => .arr (items.dropLast ++ [withField "cache_control" ephemeral b])
  | _ => none

def markMessage (msg : Json) : Json :=
  match (msg.get "content").bind markedContent with
  | some content => withField "content" content msg
  | none => msg

def markLastMessage (messages : List Json) : List Json :=
  match messages.getLast? with
  | some msg => messages.dropLast ++ [markMessage msg]
  | none => []

def cacheMark (cache : Bool) : List (String × Json) := if cache then [("cache_control", ephemeral)] else []

def buildSystemArray (blocks : List SystemBlock) : List Json :=
  blocks.map fun b => .obj ([("type", .str "text"), ("text", .str b.text)] ++ cacheMark b.cache)

def buildToolsArray (tools : List ToolDefinition) : List Json :=
  tools.map fun tool =>
    .obj ([("name", .str tool.name), ("description", .str tool.description)] ++
      (match tool.inputSchema with
        | some schema => [("input_schema", schema)]
        | none => []) ++ cacheMark tool.cache)

def insertMaxTokens (maxTokens : Option UInt32) (body : JsonMap) : JsonMap :=
  match maxTokens with
  | some n => body.insert "max_tokens" (.num (toString n.toNat))
  | none => body

def insertTemperature (temperature : Temperature) (body : JsonMap) : JsonMap :=
  if temperature.isZero then body else body.insert "temperature" temperature.json

def insertSystem (blocks : Option (List SystemBlock)) (body : JsonMap) : JsonMap :=
  match blocks with
  | some (b :: blocks) => body.insert "system" (.arr (buildSystemArray (b :: blocks)))
  | _ => body

def insertTools (tools : Option (List ToolDefinition)) (body : JsonMap) : JsonMap :=
  match tools with
  | some (t :: tools) => body.insert "tools" (.arr (buildToolsArray (t :: tools)))
  | _ => body

def insertAll (extra : JsonMap) (body : JsonMap) : JsonMap :=
  extra.entries.foldl (fun b entry => b.insert entry.1 entry.2) body

namespace Protocol

def buildAnthropic (request : InternalRequest) : JsonMap :=
  let messages := markLastMessage (request.messages.map Protocol.anthropic.buildMessage)
  let body := AList.insert "messages" (.arr messages) (AList.insert "model" (.str request.model) ∅)
  let body := insertTemperature request.temperature (insertMaxTokens request.maxTokens body)
  let body := insertAll request.extraBody (insertSystem request.systemBlocks body)
  insertTools request.tools body

def systemMessage (text : String) : Json := .obj [("role", .str "system"), ("content", .str text)]

def promptTexts (request : InternalRequest) : List String :=
  nonEmpty request.systemStatic ++ nonEmpty request.systemDynamic

def buildSystemMessages (request : InternalRequest) : List Json := (promptTexts request).map systemMessage

def insertStreamOptions (stream : Bool) (body : JsonMap) : JsonMap :=
  if stream then body.insert "stream_options" (.obj [("include_usage", .bool true)]) else body

def buildOpenAi (request : InternalRequest) : JsonMap :=
  let messages := buildSystemMessages request ++ request.messages.map Protocol.openai.buildMessage
  let body := AList.insert "messages" (.arr messages) (AList.insert "model" (.str request.model) ∅)
  let body := AList.insert "stream" (.bool request.stream) (AList.insert "temperature" request.temperature.json body)
  let body := insertMaxTokens request.maxTokens (insertStreamOptions request.stream body)
  insertAll request.extraBody body

def buildRequest : Protocol → InternalRequest → JsonMap
  | .anthropic => buildAnthropic
  | .openai => buildOpenAi

end Protocol

def assembleComponents (providerId : String) : Protocol × List ModelPlugin :=
  if providerId = "anthropic" then (.anthropic, [.anthropic])
  else if providerId = "minimax" then (.anthropic, [.minimaxM3, .minimaxM2])
  else if providerId = "deepseek" then (.anthropic, [.deepseek])
  else if providerId = "glm" then (.openai, [.glm])
  else if providerId = "mimo" then (.openai, [.mimo])
  else (.openai, [])

def sentBody (lowercase : String → String) (providerId : String) (streaming : Bool) (request : InternalRequest) : JsonMap :=
  let components := assembleComponents providerId
  let adapted := (CacheAdapter.forProvider providerId).apply request
  let prepared := ModelPlugin.runAll lowercase request.model components.2 adapted
  components.1.buildRequest (if streaming then { prepared with stream := true } else prepared)

end CloseClaw.LLM.Request
