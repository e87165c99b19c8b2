/- The definition in a `SKILL.md` (`definition.rs`). -/

import Mathlib.Data.List.DropRight
import CloseClaw.Workflow.Definition

namespace CloseClaw.Workflow.FrontMatter

open Lib List

def isDelimiter (line : String) : Bool := Text.trim line.toList == "---".toList

def extractFrom (body : List Char) : List String → Except WorkflowError (List Char)
  | [] => .error (.invalidDefinition "missing closing `---` delimiter for YAML frontmatter")
  | line :: rest =>
    if isDelimiter line then .ok body
    else extractFrom ((if body = [] then [] else body ++ ['\n']) ++ line.toList) rest

def extractFrontmatter (content : String) : Except WorkflowError (List Char) :=
  match Text.lines content with
  | [] => .error (.invalidDefinition "empty SKILL.md file")
  | first :: rest =>
    if isDelimiter first then extractFrom [] rest
    else .error (.invalidDefinition "missing opening `---` delimiter for YAML frontmatter")

def stripOpening (l : List Char) : List Char :=
  if "---\n".toList <+: l then l.drop 4
  else if "---\r\n".toList <+: l then l.drop 5
  else if "---\r".toList <+: l then l.drop 4
  else l

def isLineEnd (c : Char) : Bool := c == '\n' || c == '\r'

def stripClosing (l : List Char) : List Char := if "---".toList <:+ l then l.rdrop 3 else l

def trimEnd (l : List Char) : List Char := l.rdropWhile Text.isWhitespace

def parseValid (Y : YamlText) (yaml : List Char → Except String Workflow) (content : List Char) :
    Except WorkflowError Workflow :=
  match yaml content with
  | .error msg => .error (.parseError msg)
  | .ok workflow => (validateDefinition Y workflow).map fun _ => workflow

def parseFrontmatter (Y : YamlText) (yaml : List Char → Except String Workflow) (text : List Char) :
    Except WorkflowError Workflow :=
  parseValid Y yaml (trimEnd (stripClosing ((stripOpening text).rdropWhile isLineEnd)))

def parseSkillMd (Y : YamlText) (yaml : List Char → Except String Workflow) (content : String) :
    Except WorkflowError Workflow :=
  match extractFrontmatter content with
  | .error e => .error e
  | .ok frontmatter => parseFrontmatter Y yaml frontmatter

def joined (ls : List (List Char)) : List Char := ['\n'].intercalate ls

structure Delimited (content : String) (before between : List String) : Prop where
  first_before : ∀ l ∈ before, isDelimiter l = false
  first_between : ∀ l ∈ between, isDelimiter l = false
  lines_eq : ∃ opening closing after, isDelimiter opening = true ∧ isDelimiter closing = true ∧
    Text.lines content = before ++ opening :: (between ++ closing :: after)

def frontText (between : List String) : List Char := joined ((between.dropWhile (· = "")).map String.toList)

structure Plain (text : List Char) : Prop where
  no_opening : ∀ c, isLineEnd c = true → ¬ "---".toList ++ [c] <+: text
  no_closing : ¬ "---".toList <:+ text.rdropWhile isLineEnd

theorem joined_cons_cons (a b : List Char) (rest : List (List Char)) :
    joined ((a ++ ['\n'] ++ b) :: rest) = joined (a :: b :: rest) := by
  cases rest <;> simp [joined, List.intercalate, List.intersperse]

theorem extractFrom_of_nonempty {between after : List String} {closing : String} {body : List Char}
    (hbody : body ≠ []) (hb : ∀ l ∈ between, isDelimiter l = false) (hc : isDelimiter closing = true) :
    extractFrom body (between ++ closing :: after) = .ok (joined (body :: between.map String.toList)) := by
  induction between generalizing body with
  | nil => simp [extractFrom, hc, joined, List.intercalate]
  | cons line rest ih =>
    simp only [cons_append, extractFrom, hb line mem_cons_self, if_neg hbody, Bool.false_eq_true, if_false]
    rw [ih (by simp) fun l hl => hb l (mem_cons_of_mem _ hl), joined_cons_cons, map_cons]

theorem extractFrom_nil {between after : List String} {closing : String}
    (hb : ∀ l ∈ between, isDelimiter l = false) (hc : isDelimiter closing = true) :
    extractFrom [] (between ++ closing :: after) = .ok (frontText between) := by
  induction between with
  | nil => simp [extractFrom, hc, frontText, joined, List.intercalate]
  | cons line rest ih =>
    have hrest : ∀ l ∈ rest, isDelimiter l = false := fun l hl => hb l (mem_cons_of_mem _ hl)
    simp only [cons_append, extractFrom, hb line mem_cons_self, Bool.false_eq_true, if_true, if_false, nil_append]
    -- an empty line leaves nothing to put a line feed after
    by_cases hline : line = ""
    · subst hline
      simpa [frontText] using ih hrest
    · rw [extractFrom_of_nonempty (by simpa using hline) hrest hc]
      simp [frontText, hline]

theorem trimEnd_rdropWhile (l : List Char) : trimEnd (l.rdropWhile isLineEnd) = trimEnd l := by
  have hws : ∀ c, isLineEnd c = true → Text.isWhitespace c = true := by
    intro c hc
    rcases (by simpa [isLineEnd] using hc : c = '\n' ∨ c = '\r') with rfl | rfl <;> decide
  induction l using List.reverseRecOn with
  | nil => rfl
  | append_singleton l c ih =>
    by_cases hc : isLineEnd c = true
    · rw [rdropWhile_concat_pos _ _ _ hc, ih, trimEnd, trimEnd, rdropWhile_concat_pos _ _ _ (hws c hc)]
    · rw [rdropWhile_concat_neg _ _ _ hc]

theorem Plain.stripped {text : List Char} (hp : Plain text) :
    trimEnd (stripClosing ((stripOpening text).rdropWhile isLineEnd)) = trimEnd text := by
  have hr : ¬ "---\r".toList <+: text := hp.no_opening '\r' rfl
  have hrn : ¬ "---\r\n".toList <+: text := fun h => hr (List.IsPrefix.trans ⟨['\n'], rfl⟩ h)
  have hn : ¬ "---\n".toList <+: text := hp.no_opening '\n' rfl
  rw [stripOpening, if_neg hn, if_neg hrn, if_neg hr, stripClosing, if_neg hp.no_closing, trimEnd_rdropWhile]

variable {Y : YamlText} {content : String} {before between : List String}

/-- A text that starts with another line is refused; otherwise the lines between the delimiters
are parsed. -/
theorem skill_md_gives_its_front_matter (hd : Delimited content before between)
    (yaml : List Char → Except String Workflow) :
    (before ≠ [] → parseSkillMd Y yaml content =
      .error (.invalidDefinition "missing opening `---` delimiter for YAML frontmatter")) ∧
    (before = [] → Plain (frontText between) →
      parseSkillMd Y yaml content = parseValid Y yaml (trimEnd (frontText between))) := by
  obtain ⟨opening, closing, after, hopening, hclosing, hlines⟩ := hd.lines_eq
  refine ⟨?_, ?_⟩
  · intro hbefore
    obtain ⟨line, rest, rfl⟩ := exists_cons_of_ne_nil hbefore
    have hline := hd.first_before line mem_cons_self
    simp [parseSkillMd, extractFrontmatter, hlines, hline]
  · rintro rfl hplain
    have hfront : extractFrontmatter content = .ok (frontText between) := by
      simp only [extractFrontmatter, hlines, nil_append, hopening, if_true]
      exact extractFrom_nil hd.first_between hclosing
    simp only [parseSkillMd, hfront, parseFrontmatter, hplain.stripped]

theorem one_line_front_matter : parseSkillMd ⟨fun _ => "", fun _ => ""⟩ (fun text => .error (String.ofList text))
    "---\nid: a\n---\n# Skill" = .error (.parseError "id: a") := by
  have hd : Delimited "---\nid: a\n---\n# Skill" [] ["id: a"] :=
    ⟨by simp, by decide, "---", "---", ["# Skill"], by decide, by decide, by decide⟩
  have hplain : Plain (frontText ["id: a"]) := ⟨by
    intro c hc
    rcases (by simpa [isLineEnd] using hc : c = '\n' ∨ c = '\r') with rfl | rfl <;> decide, by decide⟩
  rw [(skill_md_gives_its_front_matter hd _).2 rfl hplain]
  rfl

theorem a_title_hides_the_front_matter :
    Delimited "# Skill\n---\nid: a\n---" ["# Skill"] ["id: a"] ∧
      parseSkillMd ⟨fun _ => "", fun _ => ""⟩ (fun text => .error (String.ofList text)) "# Skill\n---\nid: a\n---" ≠
        parseValid ⟨fun _ => "", fun _ => ""⟩ (fun text => .error (String.ofList text)) "id: a".toList ∧
      parseSkillMd ⟨fun _ => "", fun _ => ""⟩ (fun text => .error (String.ofList text)) "---\nid: a---\n---" =
        .error (.parseError "id: a") := by
  refine ⟨⟨by decide, by decide, "---", "---", [], by decide, by decide, by decide⟩, ?_, rfl⟩
  intro h
  have herror : (Except.error (.invalidDefinition "missing opening `---` delimiter for YAML frontmatter") :
      Except WorkflowError Workflow) = .error (.parseError "id: a") := h
  cases herror

end CloseClaw.Workflow.FrontMatter
