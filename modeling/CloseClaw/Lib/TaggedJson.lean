/- The JSON text of an internally tagged object. -/

import Mathlib.Data.List.TakeWhile
import CloseClaw.Lib.Json

namespace CloseClaw.Lib.TaggedJson

open List
open Lib.Json (backslash escapeChar hexDigit)

inductive Value where
  | text (s : String)
  | number (n : Nat)
  | list (items : List String)

structure Object where
  tag : String
  fields : List (String × Value)

def dquote : Char := Char.ofNat 0x22

def quoted (s : String) : List Char := dquote :: (s.toList.flatMap escapeChar ++ [dquote])

def further (text : List Char) : List Char := ',' :: text

def Value.render : Value → List Char
  | .text s => quoted s
  | .number n => Nat.toDigits 10 n
  | .list [] => ['[', ']']
  | .list (item :: items) => '[' :: (quoted item ++ items.flatMap (fun i => further (quoted i)) ++ [']'])

def fieldText (field : String × Value) : List Char := further (quoted field.1 ++ ':' :: field.2.render)

def Object.render (o : Object) : List Char :=
  '{' :: (quoted "type" ++ ':' :: (quoted o.tag ++ (o.fields.flatMap fieldText ++ ['}'])))

def unhex (c : Char) : Nat := if c.toNat < 0x40 then c.toNat - 0x30 else c.toNat - 0x57

def readChar : List Char → Option (Char × List Char)
  | [] => none
  | c :: rest =>
    if c ≠ backslash then some (c, rest)
    else match rest with
      | [] => none
      | 'b' :: rest => some (Char.ofNat 0x08, rest)
      | 'f' :: rest => some (Char.ofNat 0x0c, rest)
      | 'n' :: rest => some (Char.ofNat 0x0a, rest)
      | 'r' :: rest => some (Char.ofNat 0x0d, rest)
      | 't' :: rest => some (Char.ofNat 0x09, rest)
      | 'u' :: _ :: _ :: h :: l :: rest => some (Char.ofNat (unhex h * 16 + unhex l), rest)
      | d :: rest => some (d, rest)

variable (v : Value) (c : Char) {n : Nat} {s r r' : List Char}

theorem char_eq_of_toNat {c : Char} (h : c.toNat = n) : c = Char.ofNat n := by
  rw [← h, Char.ofNat_toNat]

theorem unhex_hexDigit : ∀ n < 16, unhex (hexDigit n) = n := by decide

theorem readChar_escapeChar (rest : List Char) : readChar (escapeChar c ++ rest) = some (c, rest) := by
  unfold escapeChar
  split
  case h_8 n hq hb _ _ _ _ _ =>
    split
    · rename_i hn
      have hread : readChar ([backslash, 'u', '0', '0', hexDigit (c.toNat / 16), hexDigit (c.toNat % 16)] ++ rest) =
          some (Char.ofNat (unhex (hexDigit (c.toNat / 16)) * 16 + unhex (hexDigit (c.toNat % 16))), rest) := rfl
      rw [hread, unhex_hexDigit _ (by omega), unhex_hexDigit _ (by omega), Nat.div_add_mod', Char.ofNat_toNat]
    · have hc : c ≠ backslash := by
        intro h
        rw [h] at hb
        exact hb rfl
      simp [readChar, hc]
  all_goals
    rename_i h
    rw [char_eq_of_toNat h]
    rfl

theorem escapeChar_cancel {c d : Char} (h : escapeChar c ++ r = escapeChar d ++ s) : c = d ∧ r = s := by
  have hread := congrArg readChar h
  rw [readChar_escapeChar, readChar_escapeChar] at hread
  exact Prod.mk.inj (Option.some.inj hread)

theorem escapeChar_head (r : List Char) : (escapeChar c ++ r).head? ≠ some dquote := by
  unfold escapeChar
  split
  case h_8 n hq hb _ _ _ _ _ =>
    split
    · exact fun h => absurd (Option.some.inj h) (by decide)
    · intro h
      rw [singleton_append, List.head?_cons, Option.some.injEq] at h
      rw [h] at hq
      exact hq rfl
  all_goals
    exact fun h => absurd (Option.some.inj h) (by decide)

theorem escaped_cancel {t : List Char}
    (h : s.flatMap escapeChar ++ dquote :: r = t.flatMap escapeChar ++ dquote :: r') : s = t ∧ r = r' := by
  induction s generalizing t with
  | nil =>
    cases t with
    | nil => exact ⟨rfl, (List.cons.inj h).2⟩
    | cons d =>
      rw [flatMap_cons, append_assoc] at h
      exact absurd (by rw [← h]; rfl) (escapeChar_head d _)
  | cons c s ih =>
    cases t with
    | nil =>
      rw [flatMap_cons, append_assoc] at h
      exact absurd (by rw [h]; rfl) (escapeChar_head c _)
    | cons =>
      rw [flatMap_cons, flatMap_cons, append_assoc, append_assoc] at h
      obtain ⟨rfl, hrest⟩ := escapeChar_cancel h
      obtain ⟨rfl, hr⟩ := ih hrest
      exact ⟨rfl, hr⟩

theorem quoted_cancel {s t : String} (h : quoted s ++ r = quoted t ++ r') : s = t ∧ r = r' := by
  simp only [quoted, cons_append, append_assoc, nil_append] at h
  obtain ⟨hs, hr⟩ := escaped_cancel (List.cons.inj h).2
  exact ⟨String.toList_inj.mp hs, hr⟩

def Closes (r : List Char) : Prop := ∃ c r', r = c :: r' ∧ (c = ',' ∨ c = '}')

theorem digits_cancel {m : Nat} (hr : Closes r) (hr' : Closes r')
    (h : Nat.toDigits 10 m ++ r = Nat.toDigits 10 n ++ r') : m = n ∧ r = r' := by
  have hdigits : ∀ n, ∀ c ∈ Nat.toDigits 10 n, c.isDigit = true := fun n c hc =>
    Nat.isDigit_of_mem_toDigits (by decide) (by decide) hc
  have hstop : ∀ {r : List Char}, Closes r → r.takeWhile Char.isDigit = [] := by
    intro r hr
    obtain ⟨c, r, rfl, hc⟩ := hr
    rcases hc with rfl | rfl <;> rfl
  have htake : Nat.toDigits 10 m = Nat.toDigits 10 n := by
    have hwhile := congrArg (List.takeWhile Char.isDigit) h
    rwa [takeWhile_append_of_pos (hdigits m), takeWhile_append_of_pos (hdigits n), hstop hr, hstop hr',
      append_nil, append_nil] at hwhile
  -- the digits read back as the number
  have hread := congrArg (fun t => Nat.ofDigitChars 10 t 0) htake
  refine ⟨by simpa using hread, ?_⟩
  rw [htake] at h
  exact append_cancel_left h

theorem items_cancel {as bs : List String} {r r' : List Char}
    (h : as.flatMap (fun i => further (quoted i)) ++ ']' :: r = bs.flatMap (fun i => further (quoted i)) ++ ']' :: r') :
    as = bs ∧ r = r' := by
  induction as generalizing bs with
  | nil =>
    cases bs with
    | nil => exact ⟨rfl, (List.cons.inj h).2⟩
    | cons => exact absurd (List.cons.inj h).1 (by decide)
  | cons a as ih =>
    cases bs with
    | nil => exact absurd (List.cons.inj h).1 (by decide)
    | cons =>
      simp only [flatMap_cons, further, cons_append, append_assoc] at h
      obtain ⟨rfl, hrest⟩ := quoted_cancel (List.cons.inj h).2
      obtain ⟨rfl, hr⟩ := ih hrest
      exact ⟨rfl, hr⟩

def Value.kindChar : Value → Char → Bool
  | .text _, c => c == dquote
  | .number _, c => c.isDigit
  | .list _, c => c == '['

theorem Value.render_head (r : List Char) : ∃ c t, v.render ++ r = c :: t ∧ v.kindChar c = true := by
  cases v with
  | text => exact ⟨dquote, _, rfl, rfl⟩
  | number n =>
    obtain ⟨c, t, hct⟩ := exists_cons_of_ne_nil (Nat.toDigits_ne_nil (n := n) (b := 10))
    refine ⟨c, t ++ r, by rw [Value.render, hct]; rfl, ?_⟩
    exact Nat.isDigit_of_mem_toDigits (b := 10) (n := n) (by decide) (by decide) (by simp [hct])
  | list items => cases items <;> exact ⟨'[', _, rfl, rfl⟩

theorem value_cancel {v w : Value} (hr : Closes r) (hr' : Closes r') (h : v.render ++ r = w.render ++ r') :
    v = w ∧ r = r' := by
  obtain ⟨c, t, hv, hvc⟩ := v.render_head r
  obtain ⟨d, u, hw, hwd⟩ := w.render_head r'
  obtain ⟨rfl, -⟩ : c = d ∧ t = u := List.cons.inj (by rw [← hv, h, hw])
  have hkind : ∀ c : Char, c.isDigit = true → c ≠ dquote ∧ c ≠ '[' := by
    intro c hc
    constructor
    · rintro rfl
      cases hc
    · rintro rfl
      cases hc
  cases v with
  | text =>
    cases w with
    | text =>
      obtain ⟨rfl, hrest⟩ := quoted_cancel h
      exact ⟨rfl, hrest⟩
    | number => exact absurd (beq_iff_eq.mp hvc) (hkind c hwd).1
    | list => exact absurd ((beq_iff_eq.mp hvc).symm.trans (beq_iff_eq.mp hwd)) (by decide)
  | number =>
    cases w with
    | text => exact absurd (beq_iff_eq.mp hwd) (hkind c hvc).1
    | number =>
      obtain ⟨rfl, hrest⟩ := digits_cancel hr hr' h
      exact ⟨rfl, hrest⟩
    | list => exact absurd (beq_iff_eq.mp hwd) (hkind c hvc).2
  | list items =>
    cases w with
    | text => exact absurd ((beq_iff_eq.mp hvc).symm.trans (beq_iff_eq.mp hwd)) (by decide)
    | number => exact absurd (beq_iff_eq.mp hvc) (hkind c hwd).2
    | list items' =>
      cases items with
      | nil =>
        cases items' with
        | nil => exact ⟨rfl, (List.cons.inj (List.cons.inj h).2).2⟩
        | cons => exact absurd (List.cons.inj (List.cons.inj h).2).1 (by decide)
      | cons =>
        cases items' with
        | nil => exact absurd (List.cons.inj (List.cons.inj h).2).1 (by decide)
        | cons =>
          simp only [Value.render, cons_append, append_assoc, nil_append] at h
          obtain ⟨rfl, hitems⟩ := quoted_cancel (List.cons.inj h).2
          obtain ⟨rfl, hrest⟩ := items_cancel hitems
          exact ⟨rfl, hrest⟩

theorem closes_fields (fields : List (String × Value)) : Closes (fields.flatMap fieldText ++ ['}']) := by
  cases fields with
  | nil => exact ⟨'}', [], rfl, .inr rfl⟩
  | cons => exact ⟨',', _, rfl, .inl rfl⟩

theorem fields_cancel {fs gs : List (String × Value)} (h : fs.flatMap fieldText ++ ['}'] = gs.flatMap fieldText ++ ['}']) :
    fs = gs := by
  induction fs generalizing gs with
  | nil =>
    cases gs with
    | nil => rfl
    | cons => exact absurd (List.cons.inj h).1 (by decide)
  | cons f fs ih =>
    cases gs with
    | nil => exact absurd (List.cons.inj h).1 (by decide)
    | cons g gs =>
      simp only [flatMap_cons, fieldText, further, cons_append, append_assoc] at h
      obtain ⟨hname, hrest⟩ := quoted_cancel (List.cons.inj h).2
      obtain ⟨hvalue, hfields⟩ := value_cancel (closes_fields fs) (closes_fields gs) (List.cons.inj hrest).2
      rw [Prod.ext hname hvalue, ih hfields]

theorem render_injective : Function.Injective Object.render := by
  intro o o' h
  simp only [Object.render] at h
  obtain ⟨-, hafter⟩ := quoted_cancel (List.cons.inj h).2
  obtain ⟨htag, hrest⟩ := quoted_cancel (List.cons.inj hafter).2
  have hfields := fields_cancel hrest
  cases o
  cases o'
  simp_all

inductive Lex where
  | out
  | str
  | esc
  deriving DecidableEq

def lexStep : Lex → Char → Option Lex
  | .out, c =>
    if c = dquote then some .str
    else if c = ',' ∨ c = ':' ∨ c = '[' ∨ c = ']' ∨ c = '}' ∨ c.isDigit = true then some .out
    else none
  | .str, c => if c = dquote then some .out else if c = backslash then some .esc else some .str
  | .esc, _ => some .str

def lex (s : Lex) (text : List Char) : Option Lex := text.foldlM lexStep s

theorem lex_append (s : Lex) (a b : List Char) : lex s (a ++ b) = (lex s a).bind (lex · b) := foldlM_append

theorem lex_cons (s : Lex) (c : Char) (l : List Char) : lex s (c :: l) = (lexStep s c).bind (lex · l) := rfl

theorem lexStep_hexDigit : ∀ n < 16, lexStep .str (hexDigit n) = some .str := by decide

theorem lex_escapeChar : lex .str (escapeChar c) = some .str := by
  unfold escapeChar
  split
  case h_8 n hq hb _ _ _ _ _ =>
    split
    · show lex .str [hexDigit (c.toNat / 16), hexDigit (c.toNat % 16)] = _
      rw [lex_cons, lexStep_hexDigit _ (by omega), Option.bind_some, lex_cons, lexStep_hexDigit _ (by omega)]
      rfl
    · have hc : c ≠ dquote ∧ c ≠ backslash := by
        constructor
        · rintro rfl
          exact hq rfl
        · rintro rfl
          exact hb rfl
      simp [lexStep, hc, lex]
  all_goals rfl

theorem lex_quoted (s : String) : lex .out (quoted s) = some .out := by
  have hchars : ∀ cs : List Char, lex .str (cs.flatMap escapeChar) = some .str := by
    intro cs
    induction cs with
    | nil => rfl
    | cons c cs ih => rw [flatMap_cons, lex_append, lex_escapeChar, Option.bind_some, ih]
  rw [quoted, lex_cons]
  show lex .str _ = _
  rw [lex_append, hchars]
  rfl

theorem lex_further {text : List Char} (h : lex .out text = some .out) : lex .out (further text) = some .out := by
  rw [further, lex_cons]
  exact h

theorem lex_flatMap {α : Type} {f : α → List Char} (h : ∀ a, lex .out (f a) = some .out) (l : List α) :
    lex .out (l.flatMap f) = some .out := by
  induction l with
  | nil => rfl
  | cons a l ih => rw [flatMap_cons, lex_append, h, Option.bind_some, ih]

theorem lex_digits {l : List Char} (h : ∀ c ∈ l, c.isDigit = true) : lex .out l = some .out := by
  induction l with
  | nil => rfl
  | cons c l ih =>
    have hc : c.isDigit = true := h c mem_cons_self
    have hq : c ≠ dquote := by
      rintro rfl
      cases hc
    have hstep : lexStep .out c = some .out := by simp [lexStep, hq, hc]
    rw [lex_cons, hstep, Option.bind_some]
    exact ih fun d hd => h d (mem_cons_of_mem _ hd)

theorem Value.lex_render : lex .out v.render = some .out := by
  cases v with
  | text s => exact lex_quoted s
  | number => exact lex_digits fun c hc => Nat.isDigit_of_mem_toDigits (by decide) (by decide) hc
  | list items =>
    cases items with
    | nil => rfl
    | cons i =>
      rw [Value.render, lex_cons]
      show lex .out _ = _
      rw [lex_append, lex_append, lex_quoted, Option.bind_some, lex_flatMap fun i => lex_further (lex_quoted i)]
      rfl

theorem lex_fieldText (field : String × Value) : lex .out (fieldText field) = some .out := by
  apply lex_further
  rw [lex_append, lex_quoted, Option.bind_some, lex_cons]
  exact field.2.lex_render

theorem Object.lex_render (o : Object) : ∃ t, o.render = '{' :: t ∧ lex .out t = some .out := by
  refine ⟨_, rfl, ?_⟩
  rw [lex_append, lex_quoted, Option.bind_some, lex_cons]
  show lex .out _ = _
  rw [lex_append, lex_quoted, Option.bind_some, lex_append, lex_flatMap lex_fieldText]
  rfl

theorem lex_opening (s : Lex) (t : List Char) : lex s ('{' :: dquote :: 't' :: t) = none := by
  cases s <;> rfl

theorem render_suffix_free {o o' : Object} {front : List Char} (h : o.render = front ++ o'.render) : front = [] := by
  cases front with
  | nil => rfl
  | cons =>
    obtain ⟨t, ht, hlex⟩ := o.lex_render
    rw [ht, cons_append] at h
    obtain ⟨-, rfl⟩ := List.cons.inj h
    rw [lex_append] at hlex
    obtain ⟨s, -, hs⟩ := Option.bind_eq_some_iff.mp hlex
    have hnone : lex s o'.render = none := lex_opening s _
    rw [hnone] at hs
    cases hs

end CloseClaw.Lib.TaggedJson
