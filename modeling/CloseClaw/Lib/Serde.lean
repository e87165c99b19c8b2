/- How `serde` and `serde_json` read and write values. -/

import Mathlib.Logic.Equiv.List
import CloseClaw.Lib.Json

namespace CloseClaw.Lib

open List

structure JsonText where
  write : Json → String
  read : String → Option Json
  read_write : ∀ j, read (write j) = some j

structure Serde (α : Type) where
  ser : α → Json
  de : Json → Option α
  de_ser : ∀ a, de (ser a) = some a

variable {α : Type}

def JsonText.toString (J : JsonText) (S : Serde α) (a : α) : String := J.write (S.ser a)

def JsonText.fromStr (J : JsonText) (S : Serde α) (text : String) : Option α := (J.read text).bind S.de

@[simp] theorem JsonText.fromStr_toString (J : JsonText) (S : Serde α) (a : α) :
    J.fromStr S (J.toString S a) = some a := by
  simp [fromStr, toString, J.read_write, S.de_ser]

namespace Serde

def string : Serde String := ⟨.str, Json.asStr, fun _ => rfl⟩

def bool : Serde Bool where
  ser := .bool
  de
    | .bool b => some b
    | _ => none
  de_ser _ := rfl

theorem mapM_de_ser (S : Serde α) (as : List α) : (as.map S.ser).mapM S.de = some as := by
  induction as with
  | nil => rfl
  | cons a as ih => simp [S.de_ser, ih]

def vec (S : Serde α) : Serde (List α) where
  ser as := .arr (as.map S.ser)
  de j := j.asArray.bind fun items => items.mapM S.de
  de_ser as := mapM_de_ser S as

def option (S : Serde α) (h : ∀ a, S.ser a ≠ .null) : Serde (Option α) where
  ser
    | none => .null
    | some a => S.ser a
  de
    | .null => some none
    | j => (S.de j).map some
  de_ser o := by
    cases o with
    | none => rfl
    | some a =>
      have hs := S.de_ser a
      cases hj : S.ser a with
      | null => exact absurd hj (h a)
      | _ => rw [hj] at hs; simp [hj, hs]

def digits (text : List Char) : Option Nat :=
  if text ≠ [] ∧ text.all Char.isDigit = true then some (Nat.ofDigitChars 10 text 0) else none

@[simp] theorem digits_toDigits (n : Nat) : digits (Nat.toDigits 10 n) = some n := by
  have hall : (Nat.toDigits 10 n).all Char.isDigit = true :=
    all_eq_true.mpr fun c hc => Nat.isDigit_of_mem_toDigits (by decide) (by decide) hc
  rw [digits, if_pos ⟨Nat.toDigits_ne_nil, hall⟩, Nat.ofDigitChars_ten_toDigits]

def asNat : Json → Option Nat
  | .num literal => digits literal.toList
  | _ => none

def ofNat (ofNat : Nat → α) (toNat : α → Nat) (bound : Nat) (hlt : ∀ a, toNat a < bound)
    (h : ∀ a, ofNat (toNat a) = a) : Serde α where
  ser a := .num (String.ofList (Nat.toDigits 10 (toNat a)))
  de j := ((asNat j).filter fun n => decide (n < bound)).map ofNat
  de_ser a := by simp [asNat, Option.filter, hlt a, h a]

def u16 : Serde UInt16 := ofNat UInt16.ofNat UInt16.toNat UInt16.size UInt16.toNat_lt fun _ => UInt16.ofNat_toNat

def u32 : Serde UInt32 := ofNat UInt32.ofNat UInt32.toNat UInt32.size UInt32.toNat_lt fun _ => UInt32.ofNat_toNat

def asInt : Json → Option Int
  | .num literal => match literal.toList with
    | '-' :: text => ((digits text).filter (· != 0)).map fun n => -(n : Int)
    | text => (digits text).map Int.ofNat
  | _ => none

def intLiteral : Int → List Char
  | .ofNat n => Nat.toDigits 10 n
  | .negSucc n => '-' :: Nat.toDigits 10 (n + 1)

theorem asInt_intLiteral (n : Int) : asInt (.num (String.ofList (intLiteral n))) = some n := by
  cases n with
  | ofNat n =>
    obtain ⟨c, text, hct⟩ := exists_cons_of_ne_nil (Nat.toDigits_ne_nil (n := n) (b := 10))
    have hc : c ≠ '-' := by
      have hdigit := Nat.isDigit_of_mem_toDigits (b := 10) (n := n) (c := c) (by decide) (by decide) (by simp [hct])
      intro h
      rw [h] at hdigit
      exact absurd hdigit (by decide)
    have hread := digits_toDigits n
    rw [hct] at hread
    simp only [asInt, intLiteral, String.toList_ofList, hct]
    split
    · next heq => exact absurd (List.cons.inj heq).1 hc
    · rw [hread]; rfl
  | negSucc =>
    simp only [asInt, intLiteral, String.toList_ofList, digits_toDigits, Option.filter_some]
    simp [Int.negSucc_eq]

def i32 : Serde Int32 where
  ser n := .num (String.ofList (intLiteral n.toInt))
  de j := ((asInt j).filter fun n => decide (Int32.minValue.toInt ≤ n ∧ n ≤ Int32.maxValue.toInt)).map Int32.ofInt
  de_ser n := by
    have hrange : Int32.minValue.toInt ≤ n.toInt ∧ n.toInt ≤ Int32.maxValue.toInt := ⟨n.minValue_le_toInt, n.toInt_le⟩
    rw [asInt_intLiteral, Option.filter_some, if_pos (decide_eq_true hrange), Option.map_some, Int32.ofInt_toInt]

def unitName : Json → Option String
  | .str s => some s
  | .obj [(name, .null)] => some name
  | _ => none

def unitVariant (name : α → String) (ofName : String → Option α) (h : ∀ a, ofName (name a) = some a) : Serde α where
  ser a := .str (name a)
  de j := (unitName j).bind ofName
  de_ser a := h a

def entry (names : List String) (entries : List (String × Json)) : Option (Option Json) :=
  match entries.filter fun e => names.contains e.1 with
  | [] => some none
  | [e] => some (some e.2)
  | _ => none

theorem lookup_eq_head? (key : String) (entries : List (String × Json)) :
    entries.lookup key = (entries.filter fun e => [key].contains e.1).head?.map (·.2) := by
  induction entries with
  | nil => rfl
  | cons e entries ih =>
    obtain ⟨k, j⟩ := e
    by_cases hk : key = k
    · simp [hk]
    · have hne : (key == k) = false := beq_eq_false_iff_ne.mpr hk
      simp [lookup_cons, hne, Ne.symm hk, ih]

theorem lookup_of_entry {key : String} {entries : List (String × Json)} {field : Option Json}
    (h : entry [key] entries = some field) : entries.lookup key = field := by
  rw [lookup_eq_head?]
  unfold entry at h
  split at h
  · next hnil => rw [hnil]; exact Option.some.inj h
  · next e hone => rw [hone]; exact Option.some.inj h
  · cases h

def structFields (fields : List (List String)) : Json → Option (List (Option Json))
  | .obj entries => fields.mapM fun names => entry names entries
  | .arr items =>
    if items.length ≤ fields.length then some (items.map some ++ List.replicate (fields.length - items.length) none)
    else none
  | _ => none

def required (S : Serde α) (field : Option Json) : Option α := field.bind S.de

def defaulted (S : Serde α) (d : α) : Option Json → Option α
  | none => some d
  | some j => S.de j

@[simp] theorem required_ser (S : Serde α) (a : α) : required S (some (S.ser a)) = some a := S.de_ser a

@[simp] theorem defaulted_ser (S : Serde α) (d a : α) : defaulted S d (some (S.ser a)) = some a := S.de_ser a

def struct₁ {β : Type} (names : List String) (field : Option Json → Option α) (mk : α → β) (j : Json) : Option β :=
  match structFields [names] j with
  | some [x] => (field x).map mk
  | _ => none

def struct₂ {β γ : Type} (names₁ names₂ : List String) (field₁ : Option Json → Option α)
    (field₂ : Option Json → Option β) (mk : α → β → γ) (j : Json) : Option γ :=
  match structFields [names₁, names₂] j with
  | some [x, y] => do return mk (← field₁ x) (← field₂ y)
  | _ => none

section Read

variable {β γ : Type} {names₁ names₂ : List String} {field₁ : Option Json → Option α} {field₂ : Option Json → Option β}
  {j : Json} {x y : Option Json} {a : α} {b : β}

theorem struct₁_eq {mk : α → β} (h : structFields [names₁] j = some [x]) (hx : field₁ x = some a) :
    struct₁ names₁ field₁ mk j = some (mk a) := by
  simp [struct₁, h, hx]

theorem struct₂_eq {mk : α → β → γ} (h : structFields [names₁, names₂] j = some [x, y]) (hx : field₁ x = some a)
    (hy : field₂ y = some b) : struct₂ names₁ names₂ field₁ field₂ mk j = some (mk a b) := by
  simp [struct₂, h, hx, hy]

end Read

def internallyTagged (tag : String) : Json → Option (String × Json)
  | .obj entries =>
    match entry [tag] entries with
    | some (some (.str variant)) => some (variant, .obj (entries.filter fun e => e.1 != tag))
    | _ => none
  | .arr (.str variant :: rest) => some (variant, .arr rest)
  | _ => none

theorem internallyTagged_obj {tag variant : String} {fields : List (String × Json)} (h : ∀ e ∈ fields, e.1 ≠ tag) :
    internallyTagged tag (.obj ((tag, .str variant) :: fields)) = some (variant, .obj fields) := by
  have hnone : (fields.filter fun e => decide (e.1 = tag)) = [] := filter_eq_nil_iff.mpr (by simpa using h)
  have hall : (fields.filter fun e => e.1 != tag) = fields := filter_eq_self.mpr (by simpa using h)
  simp [internallyTagged, entry, hnone, hall]

end Serde

def lastWins : List (String × α) → List (String × α)
  | [] => []
  | e :: entries => if entries.any (·.1 == e.1) then lastWins entries else e :: lastWins entries

theorem any_lastWins (key : String) (entries : List (String × α)) :
    (lastWins entries).any (·.1 == key) = entries.any (·.1 == key) := by
  induction entries with
  | nil => rfl
  | cons e entries ih =>
    rw [lastWins]
    split
    · next h =>
      rw [ih, any_cons]
      by_cases hk : e.1 = key
      · rw [← hk, h, Bool.or_true]
      · rw [beq_eq_false_iff_ne.mpr hk, Bool.false_or]
    · rw [any_cons, any_cons, ih]

theorem lastWins_lastWins (entries : List (String × α)) : lastWins (lastWins entries) = lastWins entries := by
  induction entries with
  | nil => rfl
  | cons e entries ih =>
    rw [lastWins]
    split
    · exact ih
    · next h => rw [lastWins, any_lastWins, if_neg h, ih]

namespace Json

mutual

def toValue : Json → Json
  | .arr items => .arr (toValues items)
  | .obj fields => .obj (lastWins (toEntries fields))
  | .null => .null
  | .bool b => .bool b
  | .num literal => .num literal
  | .str s => .str s

def toValues : List Json → List Json
  | [] => []
  | j :: items => j.toValue :: toValues items

def toEntries : List (String × Json) → List (String × Json)
  | [] => []
  | (key, j) :: fields => (key, j.toValue) :: toEntries fields

end

theorem any_toEntries (key : String) (fields : List (String × Json)) :
    (toEntries fields).any (·.1 == key) = fields.any (·.1 == key) := by
  induction fields with
  | nil => rfl
  | cons e fields ih => simp only [toEntries, any_cons, ih]

theorem toEntries_lastWins (fields : List (String × Json)) : toEntries (lastWins fields) = lastWins (toEntries fields) := by
  induction fields with
  | nil => rfl
  | cons e fields ih =>
    rw [toEntries, lastWins, lastWins, any_toEntries]
    split
    · exact ih
    · rw [toEntries, ih]

mutual

theorem toValue_toValue : ∀ j : Json, j.toValue.toValue = j.toValue
  | .arr items => by rw [toValue, toValue, toValues_toValues items]
  | .obj fields => by rw [toValue, toValue, toEntries_lastWins, toEntries_toEntries fields, lastWins_lastWins]
  | .null => rfl
  | .bool _ => rfl
  | .num _ => rfl
  | .str _ => rfl

theorem toValues_toValues : ∀ items : List Json, toValues (toValues items) = toValues items
  | [] => rfl
  | j :: items => by rw [toValues, toValues, toValue_toValue j, toValues_toValues items]

theorem toEntries_toEntries : ∀ fields : List (String × Json), toEntries (toEntries fields) = toEntries fields
  | [] => rfl
  | (key, j) :: fields => by rw [toEntries, toEntries, toValue_toValue j, toEntries_toEntries fields]

end

end Json

def textCode (s : String) : Nat := Encodable.encode (s.toList.map Char.toNat)

theorem textCode_inj {s t : String} (h : textCode s = textCode t) : s = t := by
  have hmap := Encodable.encode_injective h
  exact String.toList_inj.mp ((map_injective_iff.mpr fun _ _ h => Char.toNat_inj.mp h) hmap)

namespace Json

mutual

def code : Json → Nat
  | .null => Nat.pair 0 0
  | .bool b => Nat.pair 1 b.toNat
  | .num literal => Nat.pair 2 (textCode literal)
  | .str s => Nat.pair 3 (textCode s)
  | .arr items => Nat.pair 4 (codeItems items)
  | .obj fields => Nat.pair 5 (codeFields fields)

def codeItems : List Json → Nat
  | [] => 0
  | j :: items => Nat.pair j.code (codeItems items) + 1

def codeFields : List (String × Json) → Nat
  | [] => 0
  | (key, j) :: fields => Nat.pair (textCode key) (Nat.pair j.code (codeFields fields)) + 1

end

mutual

theorem code_inj : ∀ i j : Json, i.code = j.code → i = j := by
  intro i j h
  cases i <;> cases j <;> simp only [code, Nat.pair_eq_pair] at h <;> first
    | omega
    | rfl
    | skip
  case bool.bool a b => cases a <;> cases b <;> simp_all
  case num.num s t => rw [textCode_inj h.2]
  case str.str s t => rw [textCode_inj h.2]
  case arr.arr items items' => rw [codeItems_inj items items' h.2]
  case obj.obj fields fields' => rw [codeFields_inj fields fields' h.2]

theorem codeItems_inj : ∀ items items' : List Json, codeItems items = codeItems items' → items = items' := by
  intro items items' h
  cases items <;> cases items' <;> simp only [codeItems] at h <;> first
    | omega
    | rfl
    | skip
  case cons.cons j items j' items' =>
    obtain ⟨hj, hitems⟩ := Nat.pair_eq_pair.mp (Nat.succ.inj h)
    rw [code_inj j j' hj, codeItems_inj items items' hitems]

theorem codeFields_inj :
    ∀ fields fields' : List (String × Json), codeFields fields = codeFields fields' → fields = fields' := by
  intro fields fields' h
  rcases fields with _ | ⟨⟨key, j⟩, fields⟩ <;> rcases fields' with _ | ⟨⟨key', j'⟩, fields'⟩ <;>
    simp only [codeFields] at h
  · rfl
  · omega
  · omega
  · obtain ⟨hkey, hrest⟩ := Nat.pair_eq_pair.mp (Nat.succ.inj h)
    obtain ⟨hj, hfields⟩ := Nat.pair_eq_pair.mp hrest
    rw [textCode_inj hkey, code_inj j j' hj, codeFields_inj fields fields' hfields]

end

end Json

noncomputable def JsonText.numbered : JsonText where
  write j := String.ofList (Nat.toDigits 10 j.code)
  read text := (Serde.digits text.toList).bind (Function.partialInv Json.code)
  read_write j := by
    have hinj : Function.Injective Json.code := fun i j h => Json.code_inj i j h
    rw [String.toList_ofList, Serde.digits_toDigits, Option.bind_some, Function.partialInv_left hinj]

end CloseClaw.Lib
