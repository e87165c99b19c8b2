/- Files of one record a line, whole or cut half way. -/

import Mathlib.Data.List.Infix
import Mathlib.Tactic.Common
import CloseClaw.Lib.Text

namespace CloseClaw.Lib

open List

structure LineCodec (α : Type) where
  line : α → List Char
  parse : List Char → Option α
  parse_line : ∀ a, parse (line a) = some a
  newline_not_mem : ∀ a, '\n' ∉ line a
  return_not_mem : ∀ a, '\r' ∉ line a
  starts : ∀ a, ∃ c rest, line a = c :: rest ∧ Text.isWhitespace c = false
  parse_cut : ∀ a p, p <+: line a → p ≠ line a → parse p = none

namespace LineFormat

def stripReturn (l : List Char) : List Char := if l.getLast? = some '\r' then l.dropLast else l

def linesFrom (line : List Char) : List Char → List (List Char)
  | [] => if line.isEmpty then [] else [line]
  | c :: cs => if c = '\n' then stripReturn line :: linesFrom [] cs else linesFrom (line ++ [c]) cs

def lines (text : List Char) : List (List Char) := linesFrom [] text

def isBlank (l : List Char) : Bool := l.all Text.isWhitespace

def join (ls : List (List Char)) : List Char := ['\n'].intercalate ls

def Whole (t : List Char) : Prop := t = [] ∨ t.getLast? = some '\n'

instance Whole.decidable (t : List Char) : Decidable (Whole t) :=
  inferInstanceAs (Decidable (t = [] ∨ t.getLast? = some '\n'))

variable {t l : List Char}

variable (line : List Char)

theorem linesFrom_of_not_mem (h : '\n' ∉ l) (rest : List Char) :
    linesFrom line (l ++ rest) = linesFrom (line ++ l) rest := by
  induction l generalizing line with
  | nil => simp
  | cons c cs ih =>
    have hc : c ≠ '\n' := fun e => h (by simp [e])
    have hcs : '\n' ∉ cs := fun hm => h (by simp [hm])
    simp only [cons_append, linesFrom, if_neg hc]
    rw [ih _ hcs]
    simp

theorem lines_of_not_mem (h : '\n' ∉ l) : lines l = if l.isEmpty then [] else [l] := by
  have := linesFrom_of_not_mem [] h []
  simpa [lines, linesFrom] using this

theorem lines_append_newline (h : '\n' ∉ l) (rest : List Char) :
    lines (l ++ '\n' :: rest) = stripReturn l :: lines rest := by
  rw [lines, linesFrom_of_not_mem [] h]
  simp [linesFrom, lines]

theorem linesFrom_cons (c : Char) (cs : List Char) :
    linesFrom line (c :: cs) = if c = '\n' then stripReturn line :: linesFrom [] cs else linesFrom (line ++ [c]) cs :=
  rfl

theorem linesFrom_append (h : t.getLast? = some '\n') (u : List Char) :
    linesFrom line (t ++ u) = linesFrom line t ++ linesFrom [] u := by
  induction t generalizing line with
  | nil => cases h
  | cons c cs ih =>
    rw [cons_append]
    cases cs with
    | nil =>
      obtain rfl : c = '\n' := Option.some.inj h
      simp [linesFrom]
    | cons d ds =>
      have hd : (d :: ds).getLast? = some '\n' := by rwa [List.getLast?_cons_cons] at h
      by_cases hc : c = '\n'
      · rw [linesFrom_cons, linesFrom_cons, if_pos hc, if_pos hc, ih [] hd, cons_append]
      · rw [linesFrom_cons, linesFrom_cons, if_neg hc, if_neg hc, ih _ hd]

theorem lines_append (h : Whole t) (u : List Char) : lines (t ++ u) = lines t ++ lines u := by
  rcases h with rfl | h
  · rfl
  · exact linesFrom_append [] h u

theorem whole_append_newline (t : List Char) : Whole (t ++ ['\n']) := .inr (by simp)

theorem linesFrom_end {line : List Char} (hne : line ≠ [] ∨ t ≠ []) (h : t.getLast? ≠ some '\n') :
    ∃ ls l, linesFrom line t = ls ++ [l] ∧ linesFrom line (t ++ ['\n']) = ls ++ [stripReturn l] := by
  induction t generalizing line with
  | nil =>
    rcases hne with hne | hne
    · exact ⟨[], line, by simp [linesFrom, hne], by simp [linesFrom]⟩
    · exact absurd rfl hne
  | cons c cs ih =>
    have hcs : cs.getLast? ≠ some '\n' := by
      cases cs with
      | nil => simp
      | cons => rwa [List.getLast?_cons_cons] at h
    rw [cons_append, linesFrom_cons, linesFrom_cons]
    by_cases hc : c = '\n'
    · have hcs_ne : cs ≠ [] := by
        intro hnil
        exact h (by simp [hnil, hc])
      obtain ⟨ls, l, hold, hnew⟩ := ih (.inr hcs_ne) hcs
      rw [if_pos hc, if_pos hc, hold, hnew]
      exact ⟨stripReturn line :: ls, l, rfl, rfl⟩
    · rw [if_neg hc, if_neg hc]
      exact ih (.inl (by simp)) hcs

theorem lines_end (h : ¬ Whole t) :
    ∃ ls l, lines t = ls ++ [l] ∧ lines (t ++ ['\n']) = ls ++ [stripReturn l] :=
  linesFrom_end (.inr fun hnil => h (.inl hnil)) fun hlast => h (.inr hlast)

theorem mem_of_mem_stripReturn {c : Char} (h : c ∈ stripReturn l) : c ∈ l := by
  unfold stripReturn at h
  split at h
  · exact mem_of_mem_dropLast h
  · exact h

theorem newline_not_mem_linesFrom {line cs : List Char} (h : '\n' ∉ line) (hl : l ∈ linesFrom line cs) : '\n' ∉ l := by
  induction cs generalizing line with
  | nil =>
    unfold linesFrom at hl
    split at hl
    · cases hl
    · rwa [mem_singleton.mp hl]
  | cons c cs ih =>
    unfold linesFrom at hl
    split at hl
    · rcases mem_cons.mp hl with rfl | hl
      · exact fun hm => h (mem_of_mem_stripReturn hm)
      · exact ih (by simp) hl
    · rename_i hc
      refine ih ?_ hl
      intro hm
      rcases mem_append.mp hm with hm | hm
      · exact h hm
      · exact hc (mem_singleton.mp hm).symm

theorem newline_not_mem_of_mem_lines (hl : l ∈ lines t) : '\n' ∉ l :=
  newline_not_mem_linesFrom (by simp) hl

theorem mem_lines_join {ls : List (List Char)} (h : ∀ l ∈ ls, '\n' ∉ l) {x : List Char} (hx : x ∈ lines (join ls)) :
    ∃ l ∈ ls, x = l ∨ x = stripReturn l := by
  induction ls with
  | nil => cases hx
  | cons l ls ih =>
    have hl : '\n' ∉ l := h l mem_cons_self
    cases ls with
    | nil =>
      rw [join, intercalate_singleton, lines_of_not_mem hl] at hx
      split at hx
      · cases hx
      · exact ⟨l, mem_cons_self, .inl (mem_singleton.mp hx)⟩
    | cons l' ls =>
      have hjoin : join (l :: l' :: ls) = l ++ '\n' :: join (l' :: ls) := by simp [join]
      rw [hjoin, lines_append_newline hl] at hx
      rcases mem_cons.mp hx with rfl | hx
      · exact ⟨l, mem_cons_self, .inr rfl⟩
      · obtain ⟨k, hk, hxk⟩ := ih (fun k hk => h k (mem_cons_of_mem _ hk)) hx
        exact ⟨k, mem_cons_of_mem _ hk, hxk⟩

theorem trim_stripReturn (l : List Char) : Text.trim (stripReturn l) = Text.trim l := by
  unfold stripReturn
  split
  · rename_i hlast
    have hl : l = l.dropLast ++ ['\r'] := (List.dropLast_append_getLast? _ hlast).symm
    rw [hl, dropLast_concat]
    exact (Text.trim_append_whitespace _ (by decide)).symm
  · rfl

end LineFormat

namespace LineCodec

open LineFormat

variable {α : Type} (C : LineCodec α)

def text (as : List α) : List Char := as.flatMap fun a => C.line a ++ ['\n']

def read (t : List Char) : Option (List α) := ((lines t).filter fun l => !isBlank l).mapM C.parse

@[simp] theorem text_nil : C.text [] = [] := rfl

variable (a : α) {as : List α} (rest : List Char) {p : List Char} {n : Nat}

@[simp] theorem text_cons (as : List α) : C.text (a :: as) = C.line a ++ '\n' :: C.text as := by
  simp [text]

theorem stripReturn_line : stripReturn (C.line a) = C.line a := by
  have hno : (C.line a).getLast? ≠ some '\r' := fun h => C.return_not_mem a (List.mem_of_getLast? h)
  simp [stripReturn, hno]

theorem lines_line : lines (C.line a ++ '\n' :: rest) = C.line a :: lines rest := by
  rw [lines_append_newline (C.newline_not_mem a), stripReturn_line]

theorem isBlank_of_isPrefix {a : α} (h : p <+: C.line a) (hp : p ≠ []) : isBlank p = false := by
  obtain ⟨c, rest, hl, hc⟩ := C.starts a
  cases p with
  | nil => exact absurd rfl hp
  | cons =>
    rw [hl, cons_prefix_cons] at h
    simp [isBlank, h.1, hc]

theorem line_ne_nil : C.line a ≠ [] := by
  obtain ⟨c, rest, hl, -⟩ := C.starts a
  simp [hl]

@[simp] theorem read_nil : C.read [] = some [] := rfl

theorem read_line : C.read (C.line a ++ '\n' :: rest) = (C.read rest).map (a :: ·) := by
  have hb : isBlank (C.line a) = false := C.isBlank_of_isPrefix (prefix_refl _) (C.line_ne_nil a)
  simp only [read, lines_line, filter_cons, hb, Bool.not_false, if_true, mapM_cons, C.parse_line]
  cases ((lines rest).filter fun l => !isBlank l).mapM C.parse <;> rfl

@[simp] theorem read_text (as : List α) : C.read (C.text as) = some as := by
  induction as with
  | nil => rfl
  | cons a as ih => rw [text_cons, read_line, ih]; rfl

theorem read_part {a : α} (h : p <+: C.line a) :
    C.read p = if p = [] then some [] else if p = C.line a then some [a] else none := by
  have hn : '\n' ∉ p := fun hm => C.newline_not_mem a (h.subset hm)
  by_cases hp : p = []
  · simp [hp]
  have hb := C.isBlank_of_isPrefix h hp
  simp only [read, lines_of_not_mem hn, List.isEmpty_iff, hp, if_false, filter_cons, hb, Bool.not_false, if_true,
    filter_nil, mapM_cons, mapM_nil]
  by_cases he : p = C.line a
  · simp [he, C.parse_line]
  · simp [he, C.parse_cut a p h he]

def CutAt (as : List α) (n : Nat) (p : List Char) : Prop := p = C.text (as.take n) ∨ p ++ ['\n'] = C.text (as.take n)

theorem isPrefix_text_cons {a : α} {as : List α} {p : List Char} (h : p <+: C.text (a :: as)) :
    p <+: C.line a ∨ ∃ q, q <+: C.text as ∧ p = C.line a ++ '\n' :: q := by
  rw [text_cons] at h
  rcases prefix_or_prefix_of_prefix h (prefix_append _ _) with hp | ⟨q, rfl⟩
  · exact .inl hp
  rw [prefix_append_right_inj] at h
  cases q with
  | nil => exact .inl (by simp)
  | cons c q =>
    obtain ⟨rfl, hq⟩ := cons_prefix_cons.mp h
    exact .inr ⟨q, hq, rfl⟩

@[simp] theorem cutAt_zero : C.CutAt as 0 p ↔ p = [] := by
  simp [CutAt]

theorem cutAt_line_iff {a : α} {q : List Char} :
    C.CutAt (a :: as) (n + 1) (C.line a ++ '\n' :: q) ↔ C.CutAt as n q := by
  simp [CutAt]

theorem cutAt_part_iff {a : α} (h : p <+: C.line a) : C.CutAt (a :: as) (n + 1) p ↔ p = C.line a ∧ as.take n = [] := by
  have hn : '\n' ∉ p := fun hm => C.newline_not_mem a (h.subset hm)
  constructor
  · rintro (hc | hc)
    · exact absurd (by rw [hc]; simp) hn
    · rw [take_succ_cons, text_cons] at hc
      rw [show C.line a = p ++ (C.line a).drop p.length by obtain ⟨t, ht⟩ := h; simp [← ht]] at hc
      simp only [append_assoc, append_cancel_left_eq] at hc
      have hlen := congrArg List.length hc
      simp only [length_cons, length_nil, length_append] at hlen
      have hdrop : (C.line a).drop p.length = [] := length_eq_zero_iff.mp (by omega)
      have htext : (C.text (as.take n)).length = 0 := by omega
      refine ⟨h.eq_of_length (Nat.le_antisymm h.length_le (drop_eq_nil_iff.mp hdrop)), ?_⟩
      cases ht : as.take n with
      | nil => rfl
      | cons => simp [ht] at htext
  · rintro ⟨rfl, ht⟩
    exact .inr (by simp [ht])

theorem read_cut_iff {ts : List α} (h : p <+: C.text as) :
    C.read p = some ts ↔ ∃ n, C.CutAt as n p ∧ ts = as.take n := by
  induction as generalizing p ts with
  | nil =>
    obtain rfl : p = [] := prefix_nil.mp (by simpa using h)
    simp [CutAt, eq_comm]
  | cons a as ih =>
    rcases C.isPrefix_text_cons h with hp | ⟨q, hq, rfl⟩
    · -- The writing stopped inside the first line.
      rw [C.read_part hp]
      constructor
      · intro hr
        split at hr
        · next he => exact ⟨0, by simpa using he, by simpa [eq_comm] using hr⟩
        · split at hr
          · next he => exact ⟨1, (C.cutAt_part_iff hp).mpr ⟨he, by simp⟩, by simpa [eq_comm] using hr⟩
          · cases hr
      · rintro ⟨n, hc, rfl⟩
        cases n with
        | zero => simp [(C.cutAt_zero).mp hc]
        | succ =>
          obtain ⟨rfl, ht⟩ := (C.cutAt_part_iff hp).mp hc
          simp [C.line_ne_nil, ht]
    · rw [C.read_line]
      constructor
      · intro hr
        obtain ⟨us, hus, rfl⟩ := Option.map_eq_some_iff.mp hr
        obtain ⟨n, hc, rfl⟩ := (ih hq).mp hus
        exact ⟨n + 1, C.cutAt_line_iff.mpr hc, by simp⟩
      · rintro ⟨n, hc, rfl⟩
        cases n with
        | zero => simp at hc
        | succ n => simp [(ih hq).mpr ⟨n, C.cutAt_line_iff.mp hc, rfl⟩]

def load (t : List Char) : List α := ((lines t).filter fun l => !isBlank l).filterMap C.parse

@[simp] theorem load_nil : C.load [] = [] := rfl

theorem load_append {t : List Char} (h : Whole t) (u : List Char) : C.load (t ++ u) = C.load t ++ C.load u := by
  simp [load, lines_append h]

theorem load_line : C.load (C.line a ++ ['\n']) = [a] := by
  have hb : isBlank (C.line a) = false := C.isBlank_of_isPrefix (prefix_refl _) (C.line_ne_nil a)
  rw [load, lines_line]
  simp [lines, linesFrom, hb, C.parse_line]

theorem mem_load_part {a b : α} (h : p <+: C.line a ++ ['\n']) (hb : b ∈ C.load p) : b = a := by
  rcases @isPrefix_text_cons α C a [] p (by simpa using h) with hp | ⟨q, hq, rfl⟩
  · have hn : '\n' ∉ p := fun hm => C.newline_not_mem a (hp.subset hm)
    rw [load, lines_of_not_mem hn] at hb
    obtain ⟨l, hl, hlb⟩ := mem_filterMap.mp hb
    have hlp : l = p := by
      split at hl
      · cases hl
      · exact mem_singleton.mp (mem_of_mem_filter hl)
    subst hlp
    by_cases he : l = C.line a
    · rw [he, C.parse_line] at hlb
      exact (Option.some.inj hlb).symm
    · rw [C.parse_cut a l hp he] at hlb
      cases hlb
  · obtain rfl : q = [] := prefix_nil.mp (by simpa using hq)
    rw [load_line] at hb
    exact mem_singleton.mp hb

end LineCodec

end CloseClaw.Lib
