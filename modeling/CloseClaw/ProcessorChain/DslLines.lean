/- What the instruction parser leaves of a text (`dsl_parser.rs`). -/

import CloseClaw.ProcessorChain.Outbound

namespace CloseClaw.ProcessorChain.DslParser

open Lib.LineFormat List

structure Line where
  text : List Char
  ending : List Char

def lineEnding (line : List Char) : List Char := if line.getLast? = some '\r' then ['\r', '\n'] else ['\n']

def wholeLinesFrom (line : List Char) : List Char → List Line
  | [] => if line.isEmpty then [] else [⟨line, []⟩]
  | c :: cs =>
    if c = '\n' then ⟨stripReturn line, lineEnding line⟩ :: wholeLinesFrom [] cs else wholeLinesFrom (line ++ [c]) cs

def wholeLines (content : String) : List Line := wholeLinesFrom [] content.toList

def isDsl (l : Line) : Bool := (parseDslLine l.text).isSome

def unsplit (ls : List Line) : String := String.ofList (ls.flatMap fun l => l.text ++ l.ending)

/-- The instructions are those of the instruction lines, the text is that of the other
    lines, and it has no instruction line. -/
structure LineFilter (content : String) : Prop where
  instructions : (parse content).1 = ((wholeLines content).filter isDsl).filterMap fun l => parseDslLine l.text
  text : (parse content).2 = unsplit ((wholeLines content).filter fun l => !isDsl l)
  unchanged : (∀ l ∈ wholeLines content, isDsl l = false) → (parse content).2 = content
  again : (parse (parse content).2).1 = []

/-- One line feed after each line but the last, and nothing after that one. -/
def Separated : List Line → Prop
  | [] => True
  | [last] => last.ending = []
  | l :: rest => l.ending = ['\n'] ∧ Separated rest

variable {line : List Char} {cs : List Char}

theorem stripReturn_append_lineEnding : stripReturn line ++ lineEnding line = line ++ ['\n'] := by
  unfold stripReturn lineEnding
  split
  · rename_i h
    rw [← singleton_append, ← append_assoc, List.dropLast_append_getLast? _ h]
  · rfl

theorem map_text_wholeLinesFrom : (wholeLinesFrom line cs).map (·.text) = linesFrom line cs := by
  induction cs generalizing line with
  | nil => simp only [wholeLinesFrom, linesFrom]; split <;> rfl
  | cons c cs ih => simp only [wholeLinesFrom, linesFrom]; split <;> simp [ih]

theorem unsplit_wholeLinesFrom : ((wholeLinesFrom line cs).flatMap fun l => l.text ++ l.ending) = line ++ cs := by
  induction cs generalizing line with
  | nil => simp only [wholeLinesFrom]; split <;> simp_all
  | cons c cs ih =>
    simp only [wholeLinesFrom]
    split
    · rename_i hc
      rw [flatMap_cons, ih, stripReturn_append_lineEnding, hc]
      simp
    · rw [ih]
      simp

theorem ending_of_mem {l : Line} (h : l ∈ wholeLinesFrom line cs) :
    l.ending = [] ∨ l.ending = ['\n'] ∨ l.ending = ['\r', '\n'] := by
  induction cs generalizing line with
  | nil => simp only [wholeLinesFrom] at h; split at h <;> simp_all
  | cons c cs ih =>
    simp only [wholeLinesFrom] at h
    split at h
    · rcases mem_cons.mp h with rfl | h
      · simp only [lineEnding]
        split <;> simp
      · exact ih h
    · exact ih h

-- Only the last line of a text can be without a line end.
theorem pairwise_ending : (wholeLinesFrom line cs).Pairwise fun l _ => l.ending ≠ [] := by
  induction cs generalizing line with
  | nil => simp only [wholeLinesFrom]; split <;> simp
  | cons c cs ih =>
    simp only [wholeLinesFrom]
    split
    · refine pairwise_cons.mpr ⟨fun _ _ => ?_, ih⟩
      simp only [lineEnding]
      split <;> simp
    · exact ih

theorem join_eq_iff {ls : List Line} (hp : ls.Pairwise fun l _ => l.ending ≠ [])
    (hends : ∀ l ∈ ls, l.ending = [] ∨ l.ending = ['\n'] ∨ l.ending = ['\r', '\n']) :
    join (ls.map (·.text)) = (ls.flatMap fun l => l.text ++ l.ending) ↔ Separated ls := by
  induction ls with
  | nil => simp [join, Separated]
  | cons x ls ih =>
    obtain ⟨hx, hp⟩ := pairwise_cons.mp hp
    have ih := ih hp fun l hl => hends l (mem_cons_of_mem _ hl)
    cases ls with
    | nil => simp [join, Separated]
    | cons y ls =>
      have hjoin : join ((x :: y :: ls).map (·.text)) = x.text ++ '\n' :: join ((y :: ls).map (·.text)) := by
        simp [join]
      rw [hjoin, flatMap_cons, append_assoc, append_cancel_left_eq, Separated, ← ih]
      · rcases hends x (by simp) with h | h | h
        · exact absurd h (hx y (by simp))
        · simp [h]
        · simp [h]
      · simp

variable (content : String)

theorem lines_eq : lines content.toList = (wholeLines content).map (·.text) :=
  map_text_wholeLinesFrom.symm

theorem parse_text :
    (parse content).2 = String.ofList (join (((wholeLines content).filter fun l => !isDsl l).map (·.text))) := by
  have hdsl : (fun l : Line => !isDsl l) = (fun line => (parseDslLine line).isNone) ∘ (·.text) := by
    funext l
    simp [isDsl]
  simp only [parse, lines_eq, filter_map, hdsl]

theorem parse_instructions :
    (parse content).1 = ((wholeLines content).filter isDsl).filterMap fun l => parseDslLine l.text := by
  simp only [parse, lines_eq, filterMap_map, filterMap_filter]
  refine filterMap_congr fun l _ => ?_
  cases h : parseDslLine l.text <;> simp [isDsl, h]

theorem instructions_eq_nil {content : String} (h : ∀ line ∈ lines content.toList, parseDslLine line = none) :
    (parse content).1 = [] := filterMap_eq_nil_iff.mpr h

theorem line_filter_iff (content : String) :
    LineFilter content ↔ Separated ((wholeLines content).filter fun l => !isDsl l) := by
  have htext : (parse content).2 = unsplit ((wholeLines content).filter fun l => !isDsl l) ↔
      Separated ((wholeLines content).filter fun l => !isDsl l) := by
    rw [parse_text, unsplit, String.ofList_inj]
    refine join_eq_iff (pairwise_ending.filter _) fun l hl => ending_of_mem (mem_of_mem_filter hl)
  refine ⟨fun h => htext.mp h.text, fun h => ⟨parse_instructions content, htext.mpr h, ?_,
    instructions_eq_nil fun _ => parseDslLine_of_mem_clean⟩⟩
  intro hnone
  rw [htext.mpr h, filter_eq_self.mpr fun l hl => by simp [hnone l hl], unsplit, wholeLines,
    unsplit_wholeLinesFrom, nil_append, String.ofList_toList]

/-- A text without instructions loses the line feed at its end. -/
theorem a_final_line_feed_is_lost : (parse "ok\n").2 = "ok" ∧ ¬LineFilter "ok\n" := by
  have hlost : (parse "ok\n").2 = "ok" := by decide +kernel
  refine ⟨hlost, fun h => ?_⟩
  have := h.unchanged (by decide +kernel)
  rw [hlost] at this
  exact absurd this (by decide)

end CloseClaw.ProcessorChain.DslParser
