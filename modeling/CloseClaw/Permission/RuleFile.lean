/- `permissions.json` as `serde` reads and writes it (`engine_types.rs`), and the rule that is
   appended to it (`whitelist.rs`). -/

import CloseClaw.Lib.Serde
import CloseClaw.Permission.Whitelist

namespace CloseClaw.Permission

open Lib Lib.Serde Effect JsonText
open Lib.RustPath (PathBuf)

def Effect.name : Effect → String
  | .deny => "deny"
  | .allow => "allow"

def Effect.ofName : String → Option Effect
  | "deny" => some .deny
  | "allow" => some .allow
  | _ => none

def Effect.serde : Serde Effect := unitVariant name ofName (by intro e; cases e <;> rfl)

def MatchType.name : MatchType → String
  | .exact => "exact"
  | .glob => "glob"

def MatchType.ofName : String → Option MatchType
  | "exact" => some .exact
  | "glob" => some .glob
  | _ => none

def MatchType.serde : Serde MatchType := unitVariant name ofName (by intro m; cases m <;> rfl)

def MessageDirection.name : MessageDirection → String
  | .send => "send"
  | .receive => "receive"
  | .both => "both"

def MessageDirection.ofName : String → Option MessageDirection
  | "send" => some .send
  | "receive" => some .receive
  | "both" => some .both
  | _ => none

def MessageDirection.serde : Serde MessageDirection := unitVariant name ofName (by intro d; cases d <;> rfl)

def strings : Serde (List String) := vec string

/-! ## Actions -/

namespace CommandArgs

def ser : CommandArgs → Json
  | .any => .null
  | .allowed args => .obj [("allowed", strings.ser args)]
  | .blocked args => .obj [("blocked", strings.ser args)]

def de : Json → Option CommandArgs
  | .null => some .any
  | .obj entries =>
    (((entry ["allowed"] entries).bind (required strings)).map .allowed).or
      (((entry ["blocked"] entries).bind (required strings)).map .blocked)
  | _ => none

theorem de_ser (args : CommandArgs) : de args.ser = some args := by
  cases args with
  | any => rfl
  | allowed xs =>
    have hentry : entry ["allowed"] [("allowed", strings.ser xs)] = some (some (strings.ser xs)) := rfl
    simp [ser, de, hentry]
  | blocked xs =>
    have hother : entry ["allowed"] [("blocked", strings.ser xs)] = some none := rfl
    have hentry : entry ["blocked"] [("blocked", strings.ser xs)] = some (some (strings.ser xs)) := rfl
    simp [ser, de, hother, hentry, required, strings.de_ser]

def serde : Serde CommandArgs := ⟨ser, de, de_ser⟩

end CommandArgs

namespace Action

def ser : Action → Json
  | .file operation paths => .obj [("type", .str "file"), ("operation", string.ser operation), ("paths", strings.ser paths)]
  | .command cmd args => .obj [("type", .str "command"), ("command", string.ser cmd), ("args", CommandArgs.serde.ser args)]
  | .network hosts ports => .obj [("type", .str "network"), ("hosts", strings.ser hosts), ("ports", (vec u16).ser ports)]
  | .toolCall skill methods => .obj [("type", .str "tool_call"), ("skill", string.ser skill), ("methods", strings.ser methods)]
  | .interAgent agents => .obj [("type", .str "inter_agent"), ("agents", strings.ser agents)]
  | .configWrite files => .obj [("type", .str "config_write"), ("files", strings.ser files)]
  | .message direction targets =>
    .obj [("type", .str "message"), ("direction", MessageDirection.serde.ser direction), ("targets", strings.ser targets)]
  | .all => .obj [("type", .str "all")]

def ofVariant (variant : String) (body : Json) : Option Action :=
  match variant with
  | "file" => struct₂ ["operation"] ["paths"] (required string) (required strings) .file body
  | "command" => struct₂ ["command"] ["args"] (required string) (defaulted CommandArgs.serde .any) .command body
  | "network" => struct₂ ["hosts"] ["ports"] (defaulted strings []) (defaulted (vec u16) []) .network body
  | "tool_call" => struct₂ ["skill"] ["methods"] (required string) (defaulted strings []) .toolCall body
  | "inter_agent" => struct₁ ["agents"] (defaulted strings []) .interAgent body
  | "config_write" => struct₁ ["files"] (defaulted strings []) .configWrite body
  | "message" => struct₂ ["direction"] ["targets"] (required MessageDirection.serde) (defaulted strings []) .message body
  | "all" => some .all
  | _ => none

def de (j : Json) : Option Action := (internallyTagged "type" j).bind fun tagged => ofVariant tagged.1 tagged.2

theorem de_ser (action : Action) : de action.ser = some action := by
  cases action with rw [de, ser, internallyTagged_obj (by simp), Option.bind_some, ofVariant]
  | file => exact struct₂_eq rfl (required_ser ..) (required_ser ..)
  | command | toolCall | message => exact struct₂_eq rfl (required_ser ..) (defaulted_ser ..)
  | network => exact struct₂_eq rfl (defaulted_ser ..) (defaulted_ser ..)
  | interAgent | configWrite => exact struct₁_eq rfl (defaulted_ser ..)

def serde : Serde Action := ⟨ser, de, de_ser⟩

end Action

/-! ## Subjects -/

namespace Subject

def ser : Subject → Json
  | .agentOnly agent matchType => .obj [("match_mode", .str "agent_only"),
      ("fields", .obj [("agent", string.ser agent), ("match_type", MatchType.serde.ser matchType)])]
  | .userAndAgent userId agent userMatch agentMatch => .obj [("match_mode", .str "user_and_agent"),
      ("fields", .obj [("user_id", string.ser userId), ("agent", string.ser agent),
        ("user_match", MatchType.serde.ser userMatch), ("agent_match", MatchType.serde.ser agentMatch)])]
  | .userOnly userId matchType => .obj [("match_mode", .str "user_only"),
      ("fields", .obj [("user_id", string.ser userId), ("match_type", MatchType.serde.ser matchType)])]

def optMatch : Serde (Option MatchType) := MatchType.serde.option fun _ h => by cases h

def de (j : Json) : Option Subject :=
  let value := j.toValue
  let inner := (value.get "fields").getD value
  match (value.get "match_mode").bind Json.asStr with
  | some "user_and_agent" =>
    match structFields [["user_id"], ["agent"], ["user_match"], ["agent_match"]] inner with
    | some [userId, agent, userMatch, agentMatch] => do
      return .userAndAgent (← required string userId) (← required string agent)
        (← defaulted MatchType.serde .exact userMatch) (← defaulted MatchType.serde .exact agentMatch)
    | _ => none
  | some "user_only" =>
    struct₂ ["user_id"] ["match_type", "match"] (required string) (defaulted optMatch none)
      (fun userId matchType => .userOnly userId (matchType.getD .exact)) inner
  | _ =>
    struct₂ ["agent"] ["match_type", "match"] (required string) (defaulted optMatch none)
      (fun agent matchType => .agentOnly agent (matchType.getD .exact)) inner

theorem defaulted_optMatch (m : MatchType) :
    defaulted optMatch none (some (MatchType.serde.ser m)) = some (some m) := optMatch.de_ser (some m)

theorem matched_ser (name : String) (m : MatchType) (mk : String → MatchType → Subject) :
    ((required string (some (string.ser name))).bind fun name =>
      (defaulted optMatch none (some (MatchType.serde.ser m))).bind fun m => some (mk name (m.getD .exact))) =
      some (mk name m) := by
  simp only [required_ser, defaulted_optMatch, Option.bind_some, Option.getD_some]

theorem de_ser (subject : Subject) : de subject.ser = some subject := by
  cases subject with
  | agentOnly agent matchType => exact matched_ser agent matchType agentOnly
  | userOnly userId matchType => exact matched_ser userId matchType userOnly
  | userAndAgent userId agent userMatch agentMatch =>
    show (required string (some (string.ser userId))).bind (fun userId =>
      (required string (some (string.ser agent))).bind fun agent =>
      (defaulted MatchType.serde .exact (some (MatchType.serde.ser userMatch))).bind fun userMatch =>
      (defaulted MatchType.serde .exact (some (MatchType.serde.ser agentMatch))).bind fun agentMatch =>
        some (userAndAgent userId agent userMatch agentMatch)) = _
    simp only [required_ser, defaulted_ser, Option.bind_some]

def serde : Serde Subject := ⟨ser, de, de_ser⟩

end Subject

/-! ## The default tables -/

namespace Defaults

def toMap (d : Defaults) : List (String × Json) :=
  [("file_read", Effect.serde.ser d.fileRead), ("file_write", Effect.serde.ser d.fileWrite),
    ("exec", Effect.serde.ser d.exec), ("network", Effect.serde.ser d.network),
    ("inter_agent", Effect.serde.ser d.interAgent), ("config", Effect.serde.ser d.config),
    ("tool_call", Effect.serde.ser d.toolCall), ("message", Effect.serde.ser d.message)]

def ser (d : Defaults) : Json := .obj d.toMap

def effectOf (map : List (String × Json)) (d : Effect) : List String → Option Effect
  | [] => some d
  | key :: keys => match map.lookup key with
    | some v => serde.de v
    | none => effectOf map d keys

def ofMap (map : List (String × Json)) : Option Defaults := do
  let fileRead ← effectOf map .deny ["file_read", "file"]
  let fileWrite ← effectOf map .deny ["file_write", "file"]
  let exec ← effectOf map .deny ["exec", "command"]
  let network ← effectOf map .deny ["network"]
  let interAgent ← effectOf map .deny ["inter_agent"]
  let config ← effectOf map .deny ["config"]
  let toolCall ← effectOf map .deny ["tool_call"]
  let message ← effectOf map .allow ["message"]
  return { fileRead, fileWrite, exec, network, interAgent, config, toolCall, message }

def de (j : Json) : Option Defaults :=
  match j.toValue with
  | .obj map => ofMap map
  | _ => none

theorem ofMap_toMap (d : Defaults) : ofMap d.toMap = some d := by
  have hread : effectOf d.toMap .deny ["file_read", "file"] = some d.fileRead := serde.de_ser _
  have hwrite : effectOf d.toMap .deny ["file_write", "file"] = some d.fileWrite := serde.de_ser _
  have hexec : effectOf d.toMap .deny ["exec", "command"] = some d.exec := serde.de_ser _
  have hnet : effectOf d.toMap .deny ["network"] = some d.network := serde.de_ser _
  have hagent : effectOf d.toMap .deny ["inter_agent"] = some d.interAgent := serde.de_ser _
  have hconfig : effectOf d.toMap .deny ["config"] = some d.config := serde.de_ser _
  have htool : effectOf d.toMap .deny ["tool_call"] = some d.toolCall := serde.de_ser _
  have hmessage : effectOf d.toMap .allow ["message"] = some d.message := serde.de_ser _
  simp only [ofMap, hread, hwrite, hexec, hnet, hagent, hconfig, htool, hmessage, Option.bind_eq_bind, Option.bind_some]
  rfl

theorem de_ser (d : Defaults) : de d.ser = some d := by
  show ofMap d.toMap = some d
  exact ofMap_toMap d

def serde : Serde Defaults := ⟨ser, de, de_ser⟩

end Defaults

/-! ## Rules and rule sets as they are stored -/

namespace RuleFile

structure Overrides where
  entries : List (String × Json)
  isValue : (Json.obj entries).toValue = .obj entries

namespace Overrides

def empty : Overrides := ⟨[], rfl⟩

def ofValue : (v : Json) → v.toValue = v → Option Overrides
  | .obj entries, h => some ⟨entries, h⟩
  | _, _ => none

theorem ofValue_eq (o : Overrides) {v : Json} (hv : v.toValue = v) (h : v = .obj o.entries) : ofValue v hv = some o := by
  subst h
  rfl

def serde : Serde Overrides where
  ser o := .obj o.entries
  de j := ofValue j.toValue j.toValue_toValue
  de_ser o := ofValue_eq o _ o.isValue

end Overrides

structure TemplateRef where
  name : String
  overrides : Overrides

structure Rule where
  name : String
  subject : Subject
  effect : Effect
  actions : List Action
  template : Option TemplateRef
  priority : Int32

structure RuleSet where
  rules : List Rule
  defaults : Defaults
  userDefaults : Defaults
  templateIncludes : List String

def RuleSet.default : RuleSet := ⟨[], .default, .default, []⟩

def TemplateRef.serde : Serde TemplateRef where
  ser t := .obj [("name", string.ser t.name), ("overrides", Overrides.serde.ser t.overrides)]
  de := struct₂ ["name"] ["overrides"] (required string) (defaulted Overrides.serde .empty) .mk
  de_ser _ := struct₂_eq rfl (required_ser ..) (defaulted_ser ..)

def optTemplate : Serde (Option TemplateRef) := TemplateRef.serde.option fun _ h => by cases h

def Rule.serde : Serde Rule where
  ser r := .obj [("name", string.ser r.name), ("subject", Subject.serde.ser r.subject),
    ("effect", Effect.serde.ser r.effect), ("actions", (vec Action.serde).ser r.actions),
    ("template", optTemplate.ser r.template), ("priority", i32.ser r.priority)]
  de j := match structFields [["name"], ["subject"], ["effect"], ["actions"], ["template"], ["priority"]] j with
    | some [name, subject, effect, actions, template, priority] => do
      return ⟨← required string name, ← required Subject.serde subject, ← required Effect.serde effect,
        ← defaulted (vec Action.serde) [] actions, ← defaulted optTemplate none template, ← defaulted i32 0 priority⟩
    | _ => none
  de_ser r := by
    show (required string (some (string.ser r.name))).bind (fun name =>
      (required Subject.serde (some (Subject.serde.ser r.subject))).bind fun subject =>
      (required Effect.serde (some (Effect.serde.ser r.effect))).bind fun effect =>
      (defaulted (vec Action.serde) [] (some ((vec Action.serde).ser r.actions))).bind fun actions =>
      (defaulted optTemplate none (some (optTemplate.ser r.template))).bind fun template =>
      (defaulted i32 0 (some (i32.ser r.priority))).bind fun priority =>
        some (Rule.mk name subject effect actions template priority)) = _
    simp only [required_ser, defaulted_ser, Option.bind_some]

def RuleSet.serde : Serde RuleSet where
  ser rs := .obj [("rules", (vec Rule.serde).ser rs.rules), ("defaults", Defaults.serde.ser rs.defaults),
    ("user_defaults", Defaults.serde.ser rs.userDefaults), ("template_includes", strings.ser rs.templateIncludes)]
  de j := match structFields [["rules"], ["defaults"], ["user_defaults"], ["template_includes"]] j with
    | some [rules, defaults, userDefaults, templateIncludes] => do
      return ⟨← defaulted (vec Rule.serde) [] rules, ← defaulted Defaults.serde .default defaults,
        ← defaulted Defaults.serde .userDefaults userDefaults, ← defaulted strings [] templateIncludes⟩
    | _ => none
  de_ser rs := by
    show (defaulted (vec Rule.serde) [] (some ((vec Rule.serde).ser rs.rules))).bind (fun rules =>
      (defaulted Defaults.serde .default (some (Defaults.serde.ser rs.defaults))).bind fun defaults =>
      (defaulted Defaults.serde .userDefaults (some (Defaults.serde.ser rs.userDefaults))).bind fun userDefaults =>
      (defaulted strings [] (some (strings.ser rs.templateIncludes))).bind fun templateIncludes =>
        some (RuleSet.mk rules defaults userDefaults templateIncludes)) = _
    simp only [defaulted_ser, Option.bind_some]

theorem userDefaults_of_de {entries : List (String × Json)} {rs : RuleSet} (h : RuleSet.serde.de (.obj entries) = some rs) :
    ∃ field, entry ["user_defaults"] entries = some field ∧
      defaulted Defaults.serde .userDefaults field = some rs.userDefaults := by
  simp only [RuleSet.serde, structFields, List.mapM_cons, List.mapM_nil, Option.bind_eq_bind, Option.pure_def] at h
  cases h₁ : entry ["rules"] entries with
  | none => simp [h₁] at h
  | some =>
  cases h₂ : entry ["defaults"] entries with
  | none => simp [h₁, h₂] at h
  | some =>
  cases h₃ : entry ["user_defaults"] entries with
  | none => simp [h₁, h₂, h₃] at h
  | some userDefaults =>
  cases h₄ : entry ["template_includes"] entries with
  | none => simp [h₁, h₂, h₃, h₄] at h
  | some includes =>
    simp only [h₁, h₂, h₃, h₄, Option.bind_some, Option.bind_eq_some_iff] at h
    obtain ⟨_, -, _, -, u, hu, _, -, hrs⟩ := h
    obtain rfl := Option.some.inj hrs
    exact ⟨userDefaults, rfl, hu⟩

/-! ## What the engine reads of them -/

def TemplateRef.read (t : TemplateRef) : Permission.TemplateRef :=
  ⟨t.name, t.overrides.entries.map fun e => (e.1, (vec Action.serde).de e.2)⟩

def Rule.read (r : Rule) : Permission.Rule :=
  ⟨r.name, r.subject, r.effect, r.actions, r.template.map TemplateRef.read, r.priority.toInt⟩

def RuleSet.read (rs : RuleSet) : Permission.RuleSet := ⟨rs.rules.map Rule.read, rs.defaults, rs.userDefaults, ""⟩

/-! ## Appending a rule -/

inductive Content where
  | text (s : String)
  | bytes (b : List UInt8)

inductive WriteOutcome where
  | done
  | notOpened
  | stopped (left : Content)

structure Answers where
  canRead : Bool
  canCreateDir : Bool
  write : WriteOutcome

def parse (J : JsonText) : Option Content → Option RuleSet
  | some (.text s) => J.fromStr RuleSet.serde s
  | _ => none

def loadRuleset (J : JsonText) (a : Answers) (file : Option Content) : RuleSet :=
  if a.canRead then (parse J file).getD .default else .default

def RuleSet.push (rs : RuleSet) (rule : Rule) : RuleSet := { rs with rules := rs.rules ++ [rule] }

def appendRule (J : JsonText) (a : Answers) (file : Option Content) (rule : Rule) :
    Except Unit Unit × Option Content :=
  let ruleset := (loadRuleset J a file).push rule
  if a.canCreateDir then
    match a.write with
    | .done => (.ok (), some (.text (J.toString RuleSet.serde ruleset)))
    | .notOpened => (.error (), file)
    | .stopped left => (.error (), some left)
  else (.error (), file)

variable (J : JsonText) (a : Answers) (file : Option Content) (rule : Rule)

@[simp] theorem parse_toString (rs : RuleSet) : parse J (some (.text (J.toString RuleSet.serde rs))) = some rs :=
  J.fromStr_toString RuleSet.serde rs

theorem appendRule_ok (h : (appendRule J a file rule).1 = .ok ()) :
    (appendRule J a file rule).2 = some (.text (J.toString RuleSet.serde ((loadRuleset J a file).push rule))) := by
  unfold appendRule at h ⊢
  cases hdir : a.canCreateDir with
  | false => simp [hdir] at h
  | true =>
    cases hw : a.write with
    | done => rfl
    | notOpened | stopped => simp [hdir, hw] at h

theorem appendRule_error (h : (appendRule J a file rule).1 = .error ()) (hw : ∀ left, a.write ≠ .stopped left) :
    (appendRule J a file rule).2 = file := by
  unfold appendRule at h ⊢
  cases hdir : a.canCreateDir with
  | false => rfl
  | true =>
    cases hwrite : a.write with
    | done => simp [hdir, hwrite] at h
    | notOpened => rfl
    | stopped left => exact absurd hwrite (hw left)

/-- A success leaves the rules before and the new one; a failure leaves the file, unless the write
itself stopped. -/
theorem append_rule_outcome : ((appendRule J a file rule).1 = .ok () →
      parse J (appendRule J a file rule).2 = some { (loadRuleset J a file) with
        rules := (loadRuleset J a file).rules ++ [rule] } ∧
      (a.canRead = true → ∀ rs, parse J file = some rs → loadRuleset J a file = rs) ∧
      (a.canRead = false ∨ parse J file = none → loadRuleset J a file = .default)) ∧
    ((appendRule J a file rule).1 = .error () → (∀ left, a.write ≠ .stopped left) →
      (appendRule J a file rule).2 = file) ∧
    ∀ rs : RuleSet, J.fromStr RuleSet.serde (J.toString RuleSet.serde rs) = some rs := by
  refine ⟨?_, appendRule_error J a file rule, J.fromStr_toString RuleSet.serde⟩
  intro hok
  refine ⟨?_, ?_, ?_⟩
  · rw [appendRule_ok J a file rule hok, parse_toString]
    rfl
  · intro hread rs hparse
    simp [loadRuleset, hread, hparse]
  · intro h
    rcases h with hread | hparse
    · simp [loadRuleset, hread]
    · simp [loadRuleset, hparse]

def readAll : Rule := ⟨"r", .agentOnly "a" .exact, .allow, [.file "read" ["**"]], none, 0⟩

theorem append_rule_replaces_a_corrupt_file :
    let answers : Answers := ⟨true, true, .done⟩
    let file := some (.text "broken")
    let after := appendRule numbered answers file readAll
    parse numbered file = none ∧ after.1 = .ok () ∧ after.2 ≠ file ∧
      (parse numbered after.2).map RuleSet.rules = some [readAll] := by
  intro answers file after
  have hdigits : digits "broken".toList = none := by decide
  have hnone : parse numbered file = none := by
    simp only [file, parse, fromStr, numbered, hdigits, Option.bind_none]
  have hparse : (parse numbered after.2).map RuleSet.rules = some [readAll] := by
    rw [show after.2 = _ from appendRule_ok numbered answers file readAll rfl, parse_toString]
    rfl
  refine ⟨hnone, rfl, ?_, hparse⟩
  intro hsame
  rw [hsame, hnone] at hparse
  cases hparse

end RuleFile

end CloseClaw.Permission
