/- JSON values, as `serde_json::Value` reads them. -/

namespace CloseClaw.Lib

open List

inductive Json where
  | null
  | bool (b : Bool)
  | num (literal : String)
  | str (s : String)
  | arr (items : List Json)
  | obj (fields : List (String × Json))

namespace Json

def get (j : Json) (key : String) : Option Json :=
  match j with
  | .obj fields => fields.lookup key
  | _ => none

def asStr : Json → Option String
  | .str s => some s
  | _ => none

def asArray : Json → Option (List Json)
  | .arr items => some items
  | _ => none

def isTrue (j : Json) (key : String) : Bool :=
  match j.get key with
  | some (.bool b) => b
  | _ => false

def asU64 : Json → Option Nat
  | .num literal => literal.toNat?.filter fun n => decide (n < UInt64.size)
  | _ => none

def hexDigit (n : Nat) : Char := if n < 10 then Char.ofNat (0x30 + n) else Char.ofNat (0x57 + n)

def backslash : Char := Char.ofNat 0x5c

def escapeChar (c : Char) : List Char :=
  match c.toNat with
  | 0x22 => [backslash, c]
  | 0x5c => [backslash, c]
  | 0x08 => [backslash, 'b']
  | 0x0c => [backslash, 'f']
  | 0x0a => [backslash, 'n']
  | 0x0d => [backslash, 'r']
  | 0x09 => [backslash, 't']
  | n => if n < 0x20 then [backslash, 'u', '0', '0', hexDigit (n / 16), hexDigit (n % 16)] else [c]

def quote (s : String) : String :=
  String.ofList (Char.ofNat 0x22 :: (s.toList.flatMap escapeChar ++ [Char.ofNat 0x22]))

theorem length_escapeChar (c : Char) : 1 ≤ (escapeChar c).length := by
  unfold escapeChar
  split
  case h_8 => split <;> simp
  all_goals simp

theorem length_lt_quote (s : String) : s.length < (quote s).length := by
  have hchars : ∀ cs : List Char, cs.length ≤ (cs.flatMap escapeChar).length := by
    intro cs
    induction cs with
    | nil => exact Nat.le_refl _
    | cons c =>
      have hc := length_escapeChar c
      rw [flatMap_cons, length_cons, length_append]
      omega
  have hs := hchars s.toList
  rw [String.length_toList] at hs
  simp only [quote, String.length_ofList, length_cons, length_append, length_nil]
  omega

end Json

end CloseClaw.Lib
