/- Which tools an agent is told about and which it may call (`tools/src/registry.rs`). The tools
   section's grouping and cut are left out. -/

import CloseClaw.Permission.Types

namespace CloseClaw.Tools.Registry

open Permission (SessionMode)

structure ToolFlags where
  isConcurrencySafe : Bool
  isReadOnly : Bool
  isDestructive : Bool
  isExpensive : Bool
  isDeferredByDefault : Bool

structure Tool where
  name : String
  group : String
  summary : String
  detail : String
  inputSchema : String
  flags : ToolFlags

structure ToolDescriptor where
  name : String
  group : String
  summary : String
  detail : String
  inputSchema : String
  flags : ToolFlags

def buildDescriptor (t : Tool) : ToolDescriptor := ⟨t.name, t.group, t.summary, t.detail, t.inputSchema, t.flags⟩

def listed (allowed : Option (List String)) (disallowed : List String) (name : String) : Bool :=
  allowed.all (·.contains name) && !disallowed.contains name

def getToolDescriptors (tools : List Tool) (agentTools agentDisallowedTools : Option (List String)) :
    List ToolDescriptor :=
  let allowed := agentTools.filter fun t => !(t.isEmpty || t.length == 1 && t.head? == some "*")
  let disallowed := agentDisallowedTools.getD []
  (tools.filter fun t => listed allowed disallowed t.name).map buildDescriptor

def planModeAlwaysVisible : List String := ["sessions_spawn", "ModeExecutionTrigger", "Write", "Edit"]

def planModeToolVisible (t : Tool) : Bool := t.flags.isReadOnly || planModeAlwaysVisible.contains t.name

structure PromptGenerationContext where
  tools : Option (List String)
  disallowedTools : Option (List String)
  sessionMode : Option SessionMode

def toolsSection (tools : List Tool) (ctx : PromptGenerationContext) : List Tool :=
  let allowed := ctx.tools.filter fun t => t != ["*"] && !t.isEmpty
  let disallowed := ctx.disallowedTools.getD []
  let isPlanMode := ctx.sessionMode == some .plan
  tools.filter fun t => listed allowed disallowed t.name && !(isPlanMode && !planModeToolVisible t)

def denyMarker : String := "agent tools config"

def judgeAgentToolAllowed (tools disallowedTools : Option (List String)) (toolName : String) : Except String Unit :=
  if disallowedTools.any fun d => d.contains toolName then
    .error ("tool `" ++ toolName ++ "` denied by " ++ denyMarker ++ ": listed in agent disallowedTools blacklist")
  else
    let restrictingWl := tools.filter fun wl => !wl.isEmpty && !wl.contains "*"
    if restrictingWl.any fun wl => !wl.contains toolName then
      .error ("tool `" ++ toolName ++ "` denied by " ++ denyMarker ++ ": not in agent tools whitelist")
    else .ok ()

variable {tools : Option (List String)} {name : String}

theorem judge_ok_iff {disallowedTools : Option (List String)} :
    judgeAgentToolAllowed tools disallowedTools name = .ok () ↔
      name ∉ disallowedTools.getD [] ∧ ∀ wl, tools = some wl → wl = [] ∨ "*" ∈ wl ∨ name ∈ wl := by
  have hdeny : (disallowedTools.any fun d => d.contains name) = true ↔ name ∈ disallowedTools.getD [] := by
    cases disallowedTools <;> simp
  have hwl : ((tools.filter fun wl => !wl.isEmpty && !wl.contains "*").any fun wl => !wl.contains name) = true ↔
      ¬∀ wl, tools = some wl → wl = [] ∨ "*" ∈ wl ∨ name ∈ wl := by
    cases tools with
    | none => simp
    | some wl => by_cases h : wl = [] ∨ "*" ∈ wl <;> grind
  simp only [judgeAgentToolAllowed, hdeny, hwl]
  split_ifs <;> simp_all

theorem listed_iff_judge (disallowedTools : Option (List String)) {p : List String → Bool}
    (hp : ∀ wl, p wl = true ↔ wl ≠ [] ∧ wl ≠ ["*"]) (hstar : ∀ wl, tools = some wl → "*" ∈ wl → wl = ["*"]) :
    listed (tools.filter p) (disallowedTools.getD []) name = true ↔
      judgeAgentToolAllowed tools disallowedTools name = .ok () := by
  rw [judge_ok_iff]
  cases tools with
  | none => simp [listed]
  | some wl =>
    have hwl := hp wl
    have hone := hstar wl rfl
    by_cases h : p wl = true
    · have hno : "*" ∉ wl := fun hmem => (hwl.mp h).2 (hone hmem)
      simp [listed, Option.filter, h, hno, (hwl.mp h).1, and_comm]
    · have hany : wl = [] ∨ "*" ∈ wl := by
        by_contra hnot
        exact h (hwl.mpr ⟨fun e => hnot (.inl e), fun e => hnot (.inr (by simp [e]))⟩)
      simp only [listed, Option.filter, h, Bool.false_eq_true, if_false]
      simp [hany, ← or_assoc]

theorem listed_iff_callable (tools : List Tool) (ctx : PromptGenerationContext)
    (hstar : ∀ wl, ctx.tools = some wl → "*" ∈ wl → wl = ["*"]) (t : Tool) (ht : t ∈ tools) :
    (buildDescriptor t ∈ getToolDescriptors tools ctx.tools ctx.disallowedTools ↔
        judgeAgentToolAllowed ctx.tools ctx.disallowedTools t.name = .ok ()) ∧
      (t ∈ toolsSection tools ctx ↔ judgeAgentToolAllowed ctx.tools ctx.disallowedTools t.name = .ok () ∧
        (ctx.sessionMode = some .plan → planModeToolVisible t = true)) := by
  constructor
  · rw [← listed_iff_judge ctx.disallowedTools
      (p := fun t => !(t.isEmpty || t.length == 1 && t.head? == some "*")) (fun wl => ?_) hstar]
    · rw [getToolDescriptors, List.mem_map]
      constructor
      · rintro ⟨t', ht', hsame⟩
        have hname : t'.name = t.name := congrArg ToolDescriptor.name hsame
        exact hname ▸ (List.mem_filter.mp ht').2
      · intro h
        exact ⟨t, List.mem_filter.mpr ⟨ht, h⟩, rfl⟩
    · rcases wl with _ | ⟨a, _ | ⟨b, wl⟩⟩ <;> simp
  · rw [← listed_iff_judge ctx.disallowedTools (p := fun t => t != ["*"] && !t.isEmpty) (fun wl => ?_) hstar]
    · rw [toolsSection, List.mem_filter]
      by_cases hplan : ctx.sessionMode = some .plan <;> simp [ht, hplan]
    · simp [and_comm]

def bashTool : Tool := ⟨"Bash", "exec", "", "", "", ⟨false, false, true, false, false⟩⟩

theorem bash_is_listed : buildDescriptor bashTool ∈ getToolDescriptors [bashTool] (some ["*"]) none ∧
      bashTool ∈ toolsSection [bashTool] ⟨some ["*"], none, none⟩ := by
  have h := listed_iff_callable [bashTool] ⟨some ["*"], none, none⟩ (fun wl hwl _ => (Option.some.inj hwl).symm)
    bashTool (by simp)
  exact ⟨h.1.mpr (by decide), h.2.mpr ⟨by decide, by simp⟩⟩

theorem plan_mode_hides_a_callable_tool : judgeAgentToolAllowed none none bashTool.name = .ok () ∧
      bashTool ∉ toolsSection [bashTool] ⟨none, none, some .plan⟩ := by
  have hnone : toolsSection [bashTool] ⟨none, none, some .plan⟩ = [] := by decide +kernel
  exact ⟨by decide, by simp [hnone]⟩

end CloseClaw.Tools.Registry
