/- What a whitelist rule covers (`whitelist.rs`). -/

import CloseClaw.Permission.GlobLanguage
import CloseClaw.Permission.Whitelist

namespace CloseClaw.Permission

def sameVariant : PermissionRequestBody → PermissionRequestBody → Bool
  | .fileOp .., .fileOp .. => true
  | .commandExec .., .commandExec .. => true
  | .netOp .., .netOp .. => true
  | .toolCall .., .toolCall .. => true
  | .interAgentMsg .., .interAgentMsg .. => true
  | .configWrite .., .configWrite .. => true
  | .slashCommand .., .slashCommand .. => true
  | .messageSend .., .messageSend .. => true
  | _, _ => false

def sameParams : PermissionRequestBody → PermissionRequestBody → Bool
  | .fileOp _ path op, .fileOp _ path' op' => path == path' && op == op'
  | .commandExec _ cmd args, .commandExec _ cmd' args' => cmd == cmd' && args == args'
  | .netOp _ host port, .netOp _ host' port' => host == host' && port == port'
  | .toolCall _ skill method, .toolCall _ skill' method' => skill == skill' && method == method'
  | .interAgentMsg _ dst, .interAgentMsg _ dst' => dst == dst'
  | .configWrite _ file, .configWrite _ file' => file == file'
  | .slashCommand _ command, .slashCommand _ command' => command == command'
  | .messageSend _ direction target, .messageSend _ direction' target' => direction == direction' && target == target'
  | _, _ => false

attribute [local simp] sameParams

def ExactParams : PermissionRequestBody → Prop
  | .fileOp _ path _ => NoWildcard path
  | .commandExec _ cmd args => NoWildcard cmd ∧ args = []
  | .netOp _ host _ => NoWildcard host
  | .interAgentMsg _ dst => NoWildcard dst
  | .messageSend _ direction target => direction ≠ .both ∧ NoWildcard target
  | .toolCall .. | .configWrite .. | .slashCommand .. => True

def CoversExactly (action : Action) (body : PermissionRequestBody) : Prop :=
  ∀ body', sameVariant body body' = true → (actionMatchesRequest action body' = true ↔ sameParams body body' = true)

variable (agent : String) {agent' : String}

theorem matches_file {op path path' op' : String} :
    actionMatchesRequest (.file op [path]) (.fileOp agent' path' op') = true ↔ op = op' ∧ globMatch path path' = true := by
  simp [actionMatchesRequest]

theorem matches_command {cmd cmd' : String} {args args' : List String} :
    actionMatchesRequest (.command cmd (.allowed args)) (.commandExec agent' cmd' args') = true ↔
      globMatch cmd cmd' = true ∧ ∀ arg ∈ args', ∃ a ∈ args, globMatch a arg = true := by
  simp [actionMatchesRequest]

theorem matches_network {host host' : String} {port port' : UInt16} :
    actionMatchesRequest (.network [host] [port]) (.netOp agent' host' port') = true ↔
      globMatch host host' = true ∧ port' = port := by
  simp [actionMatchesRequest]

theorem matches_interAgent {dst src' dst' : String} :
    actionMatchesRequest (.interAgent [dst]) (.interAgentMsg src' dst') = true ↔ globMatch dst dst' = true := by
  simp [actionMatchesRequest]

theorem matches_message {target target' : String} {direction direction' : MessageDirection} :
    actionMatchesRequest (.message direction [target]) (.messageSend agent' direction' target') = true ↔
      (direction = .both ∨ direction = direction') ∧ globMatch target target' = true := by
  simp [actionMatchesRequest]

theorem coversExactly_file (path op : String) :
    CoversExactly (.file op [path]) (.fileOp agent path op) ↔ NoWildcard path := by
  rw [← globMatch_iff_eq_iff]
  constructor
  · intro h text
    have hsame := h (.fileOp agent text op) rfl
    rw [matches_file] at hsame
    simpa [sameParams, eq_comm (a := path)] using hsame
  · intro h body' hvar
    cases body' with
    | fileOp agent' path' =>
      rw [matches_file, h path']
      simp [sameParams, and_comm, eq_comm (a := path)]
    | _ => cases hvar

theorem coversExactly_command (cmd : String) (args : List String) :
    CoversExactly (.command cmd (.allowed args)) (.commandExec agent cmd args) ↔ NoWildcard cmd ∧ args = [] := by
  rw [← globMatch_iff_eq_iff]
  constructor
  · intro h
    have hself := (h (.commandExec agent cmd args) rfl).mpr (by simp [sameParams])
    rw [matches_command] at hself
    have hbare := (h (.commandExec agent cmd []) rfl).mp (matches_command.mpr ⟨hself.1, by simp⟩)
    have hargs : args = [] := by simpa [sameParams] using hbare
    subst hargs
    refine ⟨fun text => ?_, rfl⟩
    have hsame := h (.commandExec agent text []) rfl
    rw [matches_command] at hsame
    simpa [sameParams, eq_comm (a := cmd)] using hsame
  · intro h body' hvar
    obtain ⟨h, rfl⟩ := h
    cases body' with
    | commandExec agent' cmd' =>
      rw [matches_command, h cmd']
      simp [sameParams, eq_comm (a := cmd), ← List.eq_nil_iff_forall_not_mem]
    | _ => cases hvar

theorem coversExactly_network (host : String) (port : UInt16) :
    CoversExactly (.network [host] [port]) (.netOp agent host port) ↔ NoWildcard host := by
  rw [← globMatch_iff_eq_iff]
  constructor
  · intro h text
    have hsame := h (.netOp agent text port) rfl
    rw [matches_network] at hsame
    simpa [sameParams, eq_comm (a := host)] using hsame
  · intro h body' hvar
    cases body' with
    | netOp agent' host' =>
      rw [matches_network, h host']
      simp [sameParams, eq_comm (a := host), eq_comm (a := port)]
    | _ => cases hvar

theorem coversExactly_toolCall (skill method : String) :
    CoversExactly (.toolCall skill [method]) (.toolCall agent skill method) := by
  intro body' hvar
  cases body' with
  | toolCall => simp [actionMatchesRequest, sameParams, eq_comm (a := method)]
  | _ => cases hvar

theorem coversExactly_interAgent (src dst : String) :
    CoversExactly (.interAgent [dst]) (.interAgentMsg src dst) ↔ NoWildcard dst := by
  rw [← globMatch_iff_eq_iff]
  constructor
  · intro h text
    have hsame := h (.interAgentMsg src text) rfl
    rw [matches_interAgent] at hsame
    simpa [sameParams, eq_comm (a := dst)] using hsame
  · intro h body' hvar
    cases body' with
    | interAgentMsg src' dst' =>
      rw [matches_interAgent, h dst']
      simp [sameParams, eq_comm (a := dst)]
    | _ => cases hvar

theorem coversExactly_message (target : String) (direction : MessageDirection) :
    CoversExactly (.message direction [target]) (.messageSend agent direction target) ↔
      direction ≠ .both ∧ NoWildcard target := by
  rw [← globMatch_iff_eq_iff]
  constructor
  · intro h
    have hself := (h (.messageSend agent direction target) rfl).mpr (by simp [sameParams])
    rw [matches_message] at hself
    have hdir : direction ≠ .both := by
      intro hboth
      have hsend := (h (.messageSend agent .send target) rfl).mp (matches_message.mpr ⟨.inl hboth, hself.2⟩)
      rw [hboth] at hsend
      simp [sameParams] at hsend
    refine ⟨hdir, fun text => ?_⟩
    have hsame := h (.messageSend agent direction text) rfl
    rw [matches_message] at hsame
    simpa [sameParams, eq_comm (a := target)] using hsame
  · intro h body' hvar
    cases body' with
    | messageSend agent' direction' target' =>
      rw [matches_message, h.2 target']
      simp [sameParams, h.1, eq_comm (a := target)]
    | _ => cases hvar

/-- A rule covers its operation alone exactly when its texts have no wildcard, and it is no
command with arguments and no message both ways. -/
theorem whitelist_exact_iff (body : PermissionRequestBody) :
    (∀ action, requestBodyToAction body = some action → CoversExactly action body) ↔ ExactParams body := by
  cases body with
  | fileOp agent path op => simpa [requestBodyToAction, ExactParams] using coversExactly_file agent path op
  | commandExec agent cmd args => simpa [requestBodyToAction, ExactParams] using coversExactly_command agent cmd args
  | netOp agent host port => simpa [requestBodyToAction, ExactParams] using coversExactly_network agent host port
  | toolCall agent skill method =>
    simpa [requestBodyToAction, ExactParams] using coversExactly_toolCall agent skill method
  | interAgentMsg src dst => simpa [requestBodyToAction, ExactParams] using coversExactly_interAgent src dst
  | configWrite | slashCommand => simp [requestBodyToAction, ExactParams]
  | messageSend agent direction target =>
    simpa [requestBodyToAction, ExactParams] using coversExactly_message agent target direction

theorem a_whitelisted_star_covers_other_files :
    ¬∀ (body : PermissionRequestBody) (action : Action), requestBodyToAction body = some action →
      CoversExactly action body := by
  intro h
  have hcovers := h (.fileOp "a" "/data/*" "read") _ rfl (.fileOp "a" "/data/key" "read") rfl
  have hmatch : globMatch "/data/*" "/data/key" = true := by simp [globMatch, globMatchVec]
  have hsame := hcovers.mp (matches_file.mpr ⟨rfl, hmatch⟩)
  revert hsame
  decide

end CloseClaw.Permission
