/- Tests and splits of Unicode text, by characters. -/

import Mathlib.Data.List.Infix
import Mathlib.Data.List.TakeWhile

namespace CloseClaw.Lib.Text

open List

def startsWith (s p : String) : Bool := decide (p.toList <+: s.toList)

def endsWith (s p : String) : Bool := decide (p.toList <:+ s.toList)

def contains (s p : String) : Bool := decide (p.toList <:+: s.toList)

variable {s p : String}

@[simp] theorem startsWith_iff : startsWith s p = true ↔ p.toList <+: s.toList := by simp [startsWith]

@[simp] theorem endsWith_iff : endsWith s p = true ↔ p.toList <:+ s.toList := by simp [endsWith]

@[simp] theorem contains_iff : contains s p = true ↔ p.toList <:+: s.toList := by simp [contains]

theorem startsWith_append (h : startsWith s p = true) (t : String) : startsWith (s ++ t) p = true := by
  rw [startsWith_iff] at h ⊢
  rw [String.toList_append]
  exact h.trans (prefix_append _ _)

theorem startsWith_false {q : String} (h : startsWith s q = true) (hp : startsWith p q = false)
    (hq : startsWith q p = false) : startsWith s p = false := by
  rw [Bool.eq_false_iff]
  intro hsp
  rcases prefix_or_prefix_of_prefix (startsWith_iff.mp h) (startsWith_iff.mp hsp) with hqp | hpq
  · rw [startsWith_iff.mpr hqp] at hp
    cases hp
  · rw [startsWith_iff.mpr hpq] at hq
    cases hq

def isWhitespace (c : Char) : Bool :=
  (0x09 ≤ c.toNat && c.toNat ≤ 0x0D) || (0x2000 ≤ c.toNat && c.toNat ≤ 0x200A) ||
    [0x20, 0x85, 0xA0, 0x1680, 0x2028, 0x2029, 0x202F, 0x205F, 0x3000].contains c.toNat

def trim (l : List Char) : List Char := ((l.dropWhile isWhitespace).reverse.dropWhile isWhitespace).reverse

theorem trim_append_whitespace (l : List Char) {c : Char} (hc : isWhitespace c = true) : trim (l ++ [c]) = trim l := by
  unfold trim
  by_cases hall : l.dropWhile isWhitespace = []
  · have hl : ∀ x ∈ l, isWhitespace x = true := dropWhile_eq_nil_iff.mp hall
    have hboth : (l ++ [c]).dropWhile isWhitespace = [] := by
      rw [dropWhile_eq_nil_iff]
      intro x hx
      rcases mem_append.mp hx with hx | hx
      · exact hl x hx
      · rw [mem_singleton.mp hx, hc]
    rw [hall, hboth]
  · have hkeep : (l ++ [c]).dropWhile isWhitespace = l.dropWhile isWhitespace ++ [c] := by
      rw [dropWhile_append]
      simp [hall]
    rw [hkeep, reverse_append]
    simp [hc]

def wordsFrom (word : List Char) : List Char → List String
  | [] => if word = [] then [] else [String.ofList word.reverse]
  | c :: rest =>
    if isWhitespace c then
      if word = [] then wordsFrom [] rest else String.ofList word.reverse :: wordsFrom [] rest
    else wordsFrom (c :: word) rest

def splitWhitespace (s : String) : List String := wordsFrom [] s.toList

def linesFrom (line : List Char) : List Char → List String
  | [] => if line = [] then [] else [String.ofList line.reverse]
  | c :: rest =>
    if c = '\n' then
      String.ofList (if line.head? = some '\r' then line.tail else line).reverse :: linesFrom [] rest
    else linesFrom (c :: line) rest

def lines (s : String) : List String := linesFrom [] s.toList

end CloseClaw.Lib.Text

namespace CloseClaw.Lib

variable {α : Type} {blank : α → Bool}

def Excerpts (blank : α → Bool) : List (List α) → List α → Prop
  | [], s => ∀ a ∈ s, blank a = true
  | p :: ps, s => ∃ gap rest, s = gap ++ (p ++ rest) ∧ (∀ a ∈ gap, blank a = true) ∧ Excerpts blank ps rest

namespace Excerpts

theorem whole (s : List α) : Excerpts blank [s] s := ⟨[], [], by simp, by simp, by simp [Excerpts]⟩

theorem gap {ps : List (List α)} {g s : List α} (hg : ∀ a ∈ g, blank a = true) (h : Excerpts blank ps s) :
    Excerpts blank ps (g ++ s) := by
  cases ps with
  | nil =>
    intro a ha
    rcases List.mem_append.mp ha with ha | ha
    · exact hg a ha
    · exact h a ha
  | cons =>
    obtain ⟨g', rest, rfl, hg', hrest⟩ := h
    refine ⟨g ++ g', rest, by simp, fun a ha => ?_, hrest⟩
    rcases List.mem_append.mp ha with ha | ha
    · exact hg a ha
    · exact hg' a ha

theorem cons {ps : List (List α)} {p before after s : List α} (hb : ∀ a ∈ before, blank a = true)
    (ha : ∀ a ∈ after, blank a = true) (h : Excerpts blank ps s) :
    Excerpts blank (p :: ps) (before ++ (p ++ (after ++ s))) :=
  ⟨before, after ++ s, rfl, hb, h.gap ha⟩

end Excerpts

end CloseClaw.Lib
