/- What becomes of a message that had to wait. -/

import CloseClaw.Session.Transcript

namespace CloseClaw.Gateway.QueuedTurn

open Lib Session

structure InboundMessage where
  content : String
  blocks : Option (List ContentBlock)

def parseSlash (content : String) : Option (String × String) :=
  match Text.trim content.toList with
  | '/' :: rest =>
    let cmd := rest.takeWhile (!Text.isWhitespace ·)
    if cmd.isEmpty then none
    else some (String.ofList cmd, String.ofList ((rest.drop cmd.length).dropWhile Text.isWhitespace))
  | _ => none

structure SlashRouter where
  hasHandler : String → Bool
  immediate : String → String → Bool

structure Tools where
  permits : ContentBlock → Bool
  call : ContentBlock → String
  denied : String

structure Request where
  messages : List SessionMessage
  content : String
  preAppended : Bool
  stream : Bool

structure Env where
  slashDispatcher : Option SlashRouter
  model : Request → Option (List ContentBlock)
  toolRegistry : Option Tools
  supportsImages : Bool
  streamEnabled : Bool

structure Conversation where
  messages : List SessionMessage
  sent : List (List ContentBlock)
  toolCalls : List ContentBlock
  commands : List (String × String)
  deriving DecidableEq

inductive Route where
  | unknownCommand (cmd : String)
  | command (cmd args : String)
  | queue
  | llm

def route (env : Env) (busy : Bool) (m : InboundMessage) : Route :=
  let plain := if busy then .queue else .llm
  match env.slashDispatcher with
  | none => plain
  | some router =>
    if Text.startsWith m.content "/" then
      match parseSlash m.content with
      | none => plain
      | some (cmd, args) =>
        if !router.hasHandler cmd then .unknownCommand cmd
        else if !router.immediate cmd args && busy then .queue
        else .command cmd args
    else plain

def isToolUse : ContentBlock → Bool
  | .toolUse .. => true
  | _ => false

def Tools.runs (tools : Tools) (gateway : Bool) (call : ContentBlock) : Bool := !gateway || tools.permits call

def Tools.result (tools : Tools) (gateway : Bool) : ContentBlock → ContentBlock
  | .toolUse id name input =>
    .toolResult id (if tools.runs gateway (.toolUse id name input) then tools.call
      (.toolUse id name input) else tools.denied)
  | b => b

def maybeDispatchToolCalls (env : Env) (gateway : Bool) (reply : List ContentBlock) :
    List ContentBlock × List ContentBlock :=
  match env.toolRegistry with
  | none => (reply, [])
  | some tools =>
    let calls := reply.filter isToolUse
    (reply.filter (!isToolUse ·) ++ calls.map (tools.result gateway), calls.filter (tools.runs gateway))

def appendResponse (messages : List SessionMessage) (blocks : List ContentBlock) : List SessionMessage :=
  if blocks.isEmpty then messages else messages ++ [⟨"assistant", blocks⟩]

def turn (env : Env) (c : Conversation) (content : String) (preAppended gateway stream : Bool) : Conversation :=
  match env.model ⟨c.messages, content, preAppended, stream⟩ with
  | none => c
  | some reply =>
    let (blocks, calls) := maybeDispatchToolCalls env gateway reply
    { c with
      messages := appendResponse c.messages blocks
      sent := if gateway then c.sent ++ [if stream then reply else blocks] else c.sent
      toolCalls := c.toolCalls ++ calls }

def userMessage (env : Env) (m : InboundMessage) : SessionMessage :=
  match m.blocks with
  | some blocks => ⟨"user", if env.supportsImages then blocks else [.text m.content]⟩
  | none => ⟨"user", [.text m.content]⟩

def drainPending (env : Env) (c : Conversation) (content : String) :
    Conversation := turn env c content false false false

def treat (env : Env) (busy : Bool) (c : Conversation) (m : InboundMessage) : Conversation :=
  match route env busy m with
  | .unknownCommand cmd => { c with sent := c.sent ++ [[.text ("未知指令：/" ++ cmd ++ "。输入 /help 查看所有可用指令。")]] }
  | .command cmd args => { c with commands := c.commands ++ [(cmd, args)] }
  | .queue => drainPending env c m.content
  | .llm => turn env { c with messages := c.messages ++ [userMessage env m] } m.content true true env.streamEnabled

variable (env : Env) (c : Conversation) (content : String)

variable (preAppended : Bool) (m : InboundMessage) (gateway stream : Bool)

theorem turn_commands : (turn env c content preAppended gateway stream).commands = c.commands := by
  unfold turn
  split <;> rfl

theorem turn_messages :
    ∃ more, (turn env c content preAppended gateway stream).messages = c.messages ++ more ∧
      ∀ msg ∈ more, msg.role = "assistant" := by
  unfold turn
  split
  · exact ⟨[], by simp, by simp⟩
  · dsimp only [appendResponse]
    split
    · exact ⟨[], by simp, by simp⟩
    · exact ⟨_, rfl, by simp⟩

theorem drainPending_sent : (drainPending env c content).sent = c.sent := by
  unfold drainPending turn
  split <;> rfl

theorem userMessage_role : (userMessage env m).role = "user" := by
  unfold userMessage
  split <;> rfl

theorem route_idle (busy : Bool) (m : InboundMessage) :
    route env false m ≠ .queue ∧ (route env busy m ≠ .queue → route env busy m = route env false m) := by
  unfold route
  cases env.slashDispatcher with
  | none => cases busy <;> simp
  | some =>
    dsimp only
    split
    · split
      · cases busy <;> simp
      · split
        · simp
        · cases busy <;> simp
    · cases busy <;> simp

structure LikeDirect (env : Env) (c : Conversation) (m : InboundMessage) (c' : Conversation) : Prop where
  messages : c'.messages = (treat env false c m).messages
  sent : c'.sent = (treat env false c m).sent
  toolCalls : c'.toolCalls = (treat env false c m).toolCalls
  commands : c'.commands = (treat env false c m).commands

theorem drainPending_messages_ne (stream : Bool) : (drainPending env c m.content).messages ≠
      (turn env { c with messages := c.messages ++ [userMessage env m] } m.content true true stream).messages := by
  intro heq
  obtain ⟨reply, hreply, hrole⟩ := turn_messages env c m.content false false false
  obtain ⟨reply', hreply', -⟩ :=
    turn_messages env { c with messages := c.messages ++ [userMessage env m] } m.content true true stream
  rw [drainPending, hreply, hreply', List.append_assoc] at heq
  have hmem : userMessage env m ∈ reply := by
    rw [List.append_cancel_left heq]
    exact List.mem_cons_self
  have := (hrole _ hmem).symm.trans (userMessage_role env m)
  exact absurd this (by decide)

theorem queued_like_direct_iff (env : Env) (busy : Bool) (c : Conversation) (m : InboundMessage) :
    LikeDirect env c m (treat env busy c m) ↔ route env busy m ≠ .queue := by
  obtain ⟨hidle, hsame⟩ := route_idle env busy m
  constructor
  · intro h hqueue
    have htreat : treat env busy c m = drainPending env c m.content := by rw [treat, hqueue]
    cases hroute : route env false m with
    | queue => exact hidle hroute
    | unknownCommand =>
      -- the reply to an unknown command is sent at once
      have hsent := h.sent
      rw [htreat, drainPending_sent, treat, hroute] at hsent
      simp at hsent
    | command =>
      have hcommands := h.commands
      rw [htreat, drainPending, turn_commands, treat, hroute] at hcommands
      simp at hcommands
    | llm =>
      have hmessages := h.messages
      rw [htreat, treat, hroute] at hmessages
      exact drainPending_messages_ne env c m env.streamEnabled hmessages
  · intro hroute
    have heq : treat env busy c m = treat env false c m := by rw [treat, treat, hsame hroute]
    rw [heq]
    exact ⟨rfl, rfl, rfl, rfl⟩

def rmEnv : Env where
  slashDispatcher := some ⟨fun cmd => cmd == "compact", fun _ _ => false⟩
  model := fun _ => some [.text "on it", .toolUse "1" "Bash" "rm"]
  toolRegistry := some ⟨fun _ => false, fun _ => "removed", "denied"⟩
  supportsImages := true
  streamEnabled := false

def fresh : Conversation := ⟨[], [], [], []⟩

theorem queued_message_lost : treat rmEnv false fresh ⟨"clean up", none⟩ =
        ⟨[⟨"user", [.text "clean up"]⟩, ⟨"assistant", [.text "on it", .toolResult "1" "denied"]⟩],
          [[.text "on it", .toolResult "1" "denied"]], [], []⟩ ∧
      treat rmEnv true fresh ⟨"clean up", none⟩ =
        ⟨[⟨"assistant", [.text "on it", .toolResult "1" "removed"]⟩], [], [.toolUse "1" "Bash" "rm"], []⟩ ∧
      treat rmEnv false fresh ⟨"/compact", none⟩ = ⟨[], [], [], [("compact", "")]⟩ ∧
      (treat rmEnv true fresh ⟨"/compact", none⟩).commands = [] := by
  decide +kernel

end CloseClaw.Gateway.QueuedTurn
