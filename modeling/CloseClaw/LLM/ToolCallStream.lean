/- Tool calls through an OpenAI stream. What is lost lowers `size` for good; arguments put into a
   later call raise `weight` for good. -/

import CloseClaw.LLM.StreamTally

namespace CloseClaw.LLM.OpenAi

open Lib List Tally Trace

inductive Piece where
  | first (index : Nat) (id name arguments : String)
  | more (index : Nat) (arguments : String)

structure ProviderChunk where
  content : Option String
  reasoning : Option String
  toolCalls : Option (List Piece)
  finishReason : Option String

def Piece.isFirst : Piece → Bool
  | .first _ _ _ _ => true
  | .more _ _ => false

def Piece.toJson : Piece → Json
  | .first index id name arguments =>
    .obj [("index", .num (toString index)), ("id", .str id), ("type", .str "function"),
      ("function", .obj [("name", .str name), ("arguments", .str arguments)])]
  | .more index arguments =>
    .obj [("index", .num (toString index)), ("function", .obj [("arguments", .str arguments)])]

namespace ProviderChunk

def pieces (c : ProviderChunk) : List Piece := c.toolCalls.getD []

def deltaFields (c : ProviderChunk) : List (String × Json) :=
  List.flatten
    [c.content.toList.map fun text => ("content", .str text),
     c.reasoning.toList.map fun text => ("reasoning_content", .str text),
     c.toolCalls.toList.map fun pieces => ("tool_calls", .arr (pieces.map Piece.toJson))]

def toSse (c : ProviderChunk) : SseChunk :=
  chunkOf c.deltaFields ((c.finishReason.map Json.str).getD .null)

end ProviderChunk

def Piece.deliver (calls : List Call) : Piece → Option (List Call)
  | .first index id name arguments => if index = calls.length then some (calls ++ [(id, name, arguments)]) else none
  | .more index arguments => if index < calls.length then some (calls.modify index (Call.extend arguments)) else none

def contentOf (chunks : List ProviderChunk) : String := String.join (chunks.filterMap (·.content))

open ProviderChunk

structure Delivers (calls : List Call) (chunks : List ProviderChunk) : Prop where
  finish : ∃ body last reason, chunks = body ++ [last] ∧ (∀ c ∈ body, c.finishReason = none) ∧
    last.finishReason = some reason
  calls : (chunks.flatMap pieces).foldlM Piece.deliver [] = some calls

structure Survive (calls : List Call) (chunks : List ProviderChunk) : Prop where
  calls : toolUses (assemble (parseSseStream (chunks.map toSse))).contentBlocks = calls
  text : allText (assemble (parseSseStream (chunks.map toSse))).contentBlocks = contentOf chunks

/-! ## Good chunks -/

def Piece.Void : Piece → Prop
  | .first _ _ _ _ => False
  | .more _ arguments => arguments = ""

/-- Arguments come for the last of the `sent` calls, while a tool block is open. -/
def GoodPieces : Option ContentBlockType → Nat → List Piece → Prop
  | _, _, [] => True
  | _, sent, .first _ _ _ _ :: pieces => GoodPieces (some .toolUse) (sent + 1) pieces
  | active, sent, .more index arguments :: pieces =>
    (arguments = "" ∨ (active = some .toolUse ∧ index + 1 = sent)) ∧ GoodPieces active sent pieces

namespace ProviderChunk

def PassedOver (c : ProviderChunk) : Prop :=
  c.content = some "" ∨ c.reasoning = some "" ∨ (c.content.isSome = true ∧ c.reasoning.isSome = true)

def activeForPieces (c : ProviderChunk) (active : Option ContentBlockType) : Option ContentBlockType :=
  if c.content.isSome then some .text
  else if c.reasoning.isSome then some .thinking
  else if active = some .toolUse then some .toolUse
  else none

end ProviderChunk

structure GoodChunk (active : Option ContentBlockType) (sent : Nat) (c : ProviderChunk) : Prop where
  text : ∀ text, c.content = some text → text ≠ "" → active ≠ some .toolUse
  passed : c.PassedOver → ∀ p ∈ c.pieces, p.Void
  read : ¬ c.PassedOver → GoodPieces (c.activeForPieces active) sent c.pieces

structure Exchange where
  parser : Parser
  sent : Nat

namespace Exchange

def init : Exchange := ⟨Parser.init, 0⟩

def step (x : Exchange) (c : ProviderChunk) : Exchange :=
  ⟨x.parser.step c.toSse, x.sent + c.pieces.countP Piece.isFirst⟩

def Good (x : Exchange) (c : ProviderChunk) : Prop := GoodChunk x.parser.activeBlockType x.sent c

end Exchange

/-! ## The fields of a provider's chunk -/

section Fields

variable (c : ProviderChunk)

theorem get_deltaFields : content? (.obj c.deltaFields) = c.content ∧ reasoning? (.obj c.deltaFields) = c.reasoning ∧
      toolCalls? (.obj c.deltaFields) = c.toolCalls.map (List.map Piece.toJson) := by
  obtain ⟨content, reasoning, toolCalls, finishReason⟩ := c
  cases content <;> cases reasoning <;> cases toolCalls <;> exact ⟨rfl, rfl, rfl⟩

theorem toolCallId_first (index : Nat) (id name arguments : String) :
    toolCallId (Piece.first index id name arguments).toJson = some id := rfl

theorem toolCallId_more (index : Nat) (arguments : String) :
    toolCallId (Piece.more index arguments).toJson = none := rfl

theorem filter_getD (s : String) : ((some s).filter (· ≠ "")).getD "" = s := by
  by_cases h : s = "" <;> simp [Option.filter, h]

end Fields

/-! ## Pieces on a tally -/

def Tally.piece (t : Tally) : Piece → Tally
  | .first _ id name arguments => { t with calls := t.calls ++ [(id, name, arguments)], active := some .toolUse }
  | .more _ arguments => if t.active = some .toolUse then { t with calls := extendLast t.calls arguments } else t

theorem toolCall_toJson (t : Tally) (p : Piece) : t.toolCall p.toJson = t.piece p := by
  cases p with
  | first index id name arguments =>
    have hname : (toolCallName (Piece.first index id name arguments).toJson).getD "" = name := filter_getD name
    have hargs : (toolCallArguments (Piece.first index id name arguments).toJson).getD "" = arguments :=
      filter_getD arguments
    simp only [toolCall, toolCallId_first, hname, hargs, Tally.piece]
  | more index arguments =>
    have hargs : (toolCallArguments (Piece.more index arguments).toJson).getD "" = arguments := filter_getD arguments
    simp only [toolCall, toolCallId_more, hargs, Tally.piece]

theorem foldl_toolCall_toJson (pieces : List Piece) (t : Tally) :
    (pieces.map Piece.toJson).foldl toolCall t = pieces.foldl Tally.piece t := by
  induction pieces generalizing t with
  | nil => rfl
  | cons p pieces ih => rw [map_cons, foldl_cons, foldl_cons, toolCall_toJson, ih]

/-! ## Two totals -/

theorem length_pos {s : String} (h : s ≠ "") : 0 < s.length := by
  rw [Nat.pos_iff_ne_zero, Ne, String.length_eq_zero_iff]
  exact h

def callsSize : List Call → Nat
  | [] => 0
  | c :: calls => 1 + c.2.2.length + callsSize calls

def size (text : String) (calls : List Call) : Nat := text.length + callsSize calls

def weightFrom (place : Nat) : List Call → Nat
  | [] => 0
  | c :: calls => place * c.2.2.length + weightFrom (place + 1) calls

def weight (calls : List Call) : Nat := weightFrom 1 calls

section Totals

variable {calls : List Call} {i : Nat} {args : String}

theorem callsSize_concat (calls : List Call) (c : Call) :
    callsSize (calls ++ [c]) = callsSize calls + 1 + c.2.2.length := by
  induction calls with
  | nil => simp [callsSize]
  | cons d calls ih =>
    simp only [cons_append, callsSize, ih]
    omega

theorem callsSize_extend (h : i < calls.length) :
    callsSize (calls.modify i (Call.extend args)) = callsSize calls + args.length := by
  induction calls generalizing i with
  | nil => exact absurd h (Nat.not_lt_zero i)
  | cons d calls ih =>
    cases i with
    | zero =>
      simp only [modify_zero_cons, callsSize, Call.extend, String.length_append]
      omega
    | succ =>
      have hi := ih (Nat.lt_of_succ_lt_succ h)
      simp only [modify_succ_cons, callsSize, hi]
      omega

theorem weightFrom_concat (place : Nat) (calls : List Call) (c : Call) :
    weightFrom place (calls ++ [c]) = weightFrom place calls + (place + calls.length) * c.2.2.length := by
  induction calls generalizing place with
  | nil => simp [weightFrom]
  | cons d calls ih =>
    have hplace : place + 1 + calls.length = place + (d :: calls).length := by simp only [length_cons]; omega
    simp only [cons_append, weightFrom, ih, hplace]
    omega

theorem weightFrom_extend (place : Nat) (h : i < calls.length) :
    weightFrom place (calls.modify i (Call.extend args)) = weightFrom place calls + (place + i) * args.length := by
  induction calls generalizing i place with
  | nil => exact absurd h (Nat.not_lt_zero i)
  | cons d calls ih =>
    cases i with
    | zero =>
      simp only [modify_zero_cons, weightFrom, Call.extend, String.length_append, Nat.mul_add, Nat.add_zero]
      omega
    | succ i =>
      have hi := ih (place + 1) (Nat.lt_of_succ_lt_succ h)
      have hplace : place + 1 + i = place + (i + 1) := by omega
      simp only [modify_succ_cons, weightFrom, hi, hplace]
      omega

theorem extend_totals (h : i < calls.length) (args text : String) :
    size text (calls.modify i (Call.extend args)) = size text calls + args.length ∧
      weight (calls.modify i (Call.extend args)) = weight calls + (1 + i) * args.length := by
  refine ⟨?_, weightFrom_extend 1 h⟩
  rw [size, callsSize_extend h, size, Nat.add_assoc]

end Totals

/-! ## Sound and spoiled tallies -/

structure Sound (t : Tally) (text : String) (calls : List Call) : Prop where
  text : t.text = text
  calls : t.calls = calls

/-- Something is lost, or nothing is and some arguments are in a later call than their
    own. -/
def Spoiled (t : Tally) (text : String) (calls : List Call) : Prop :=
  size t.text t.calls < size text calls ∨
    (size t.text t.calls = size text calls ∧ t.calls.length = calls.length ∧ weight calls < weight t.calls)

theorem Spoiled.not_sound {t : Tally} {text : String} {calls : List Call} (h : Spoiled t text calls) :
    ¬ Sound t text calls := by
  rintro ⟨rfl, rfl⟩
  rcases h with h | ⟨-, -, h⟩
  · exact Nat.lt_irrefl _ h
  · exact Nat.lt_irrefl _ h

structure Outcome (good : Prop) (t : Tally) (text : String) (calls : List Call) : Prop where
  sound : good → Sound t text calls
  spoiled : ¬ good → Spoiled t text calls

section OnePiece

variable {t : Tally} {text : String} {calls calls' : List Call} {p : Piece} {good other : Prop}

theorem Outcome.congr (h : Outcome good t text calls) (hiff : good ↔ other) : Outcome other t text calls :=
  propext hiff ▸ h

theorem Outcome.size_le (h : Outcome good t text calls) : size t.text t.calls ≤ size text calls := by
  by_cases hg : good
  · obtain ⟨rfl, rfl⟩ := h.sound hg
    exact Nat.le_refl _
  · rcases h.spoiled hg with hlt | ⟨heq, -, -⟩
    · exact Nat.le_of_lt hlt
    · exact Nat.le_of_eq heq

variable {index : Nat} {arguments : String}

theorem deliver_first {id name : String} (h : (Piece.first index id name arguments).deliver calls = some calls') :
    calls' = calls ++ [(id, name, arguments)] := by
  simp only [Piece.deliver] at h
  split_ifs at h
  exact (Option.some.inj h).symm

theorem deliver_more (h : (Piece.more index arguments).deliver calls = some calls') :
    index < calls.length ∧ calls' = calls.modify index (Call.extend arguments) := by
  simp only [Piece.deliver] at h
  split_ifs at h with hlt
  exact ⟨hlt, (Option.some.inj h).symm⟩

theorem modify_extend_empty (calls : List Call) (i : Nat) : calls.modify i (Call.extend "") = calls := by
  have hid : Call.extend "" = id := funext extend_empty
  rw [hid, modify_id]

theorem length_deliver (h : p.deliver calls = some calls') :
    calls'.length = calls.length + if p.isFirst then 1 else 0 := by
  cases p with
  | first => simp [deliver_first h, Piece.isFirst]
  | more => simp [(deliver_more h).2, Piece.isFirst]

theorem size_deliver (h : p.deliver calls = some calls') (hv : ¬ p.Void) : size text calls < size text calls' := by
  cases p with
  | first =>
    rw [deliver_first h, size, size, callsSize_concat]
    omega
  | more index arguments =>
    obtain ⟨hlt, rfl⟩ := deliver_more h
    have hpos : 0 < arguments.length := length_pos hv
    rw [(extend_totals hlt arguments text).1]
    omega

theorem deliver_void (h : p.deliver calls = some calls') (hv : p.Void) : calls' = calls := by
  cases p with
  | first => exact hv.elim
  | more index arguments =>
    obtain rfl : arguments = "" := hv
    rw [(deliver_more h).2, modify_extend_empty]

theorem Outcome.dropped (ho : Outcome good t text calls) (h : p.deliver calls = some calls') :
    Outcome (good ∧ p.Void) t text calls' := by
  by_cases hv : p.Void
  · rw [deliver_void h hv]
    exact ho.congr (by simp only [hv, and_true])
  · exact ⟨fun hall => absurd hall.2 hv, fun _ => .inl (Nat.lt_of_le_of_lt ho.size_le (size_deliver h hv))⟩

theorem extendLast_totals (hne : t.calls ≠ []) (args text : String) :
    size text (extendLast t.calls args) = size text t.calls + args.length ∧
      (extendLast t.calls args).length = t.calls.length ∧
      weight (extendLast t.calls args) = weight t.calls + t.calls.length * args.length := by
  have hpos : 0 < t.calls.length := length_pos_iff.mpr hne
  have hlast : 1 + (t.calls.length - 1) = t.calls.length := by omega
  have hlt : t.calls.length - 1 < t.calls.length := by omega
  obtain ⟨hsize, hweight⟩ := extend_totals hlt args text
  rw [hlast] at hweight
  exact ⟨hsize, length_modify _ _ _, hweight⟩

def Held (t : Tally) : Prop := t.active = some .toolUse → t.calls ≠ []

theorem Held.piece (hh : Held t) (p : Piece) : Held (t.piece p) := by
  cases p with
  | first =>
    intro _
    simp [Tally.piece]
  | more index arguments =>
    unfold Tally.piece
    split_ifs with hactive
    · intro _ hnil
      have hlen := congrArg List.length hnil
      rw [(extendLast_totals (hh hactive) arguments t.text).2.1, length_nil, length_eq_zero_iff] at hlen
      exact hh hactive hlen
    · exact hh

theorem Sound.piece (hs : Sound t text calls) (h : p.deliver calls = some calls')
    (hg : GoodPieces t.active calls.length [p]) : Sound (t.piece p) text calls' := by
  obtain ⟨rfl, rfl⟩ := hs
  cases p with
  | first => exact ⟨rfl, (deliver_first h).symm⟩
  | more index =>
    obtain ⟨hlt, rfl⟩ := deliver_more h
    rcases hg.1 with rfl | ⟨hactive, hlast⟩
    · rw [modify_extend_empty]
      unfold Tally.piece
      split_ifs
      · exact ⟨rfl, modify_extend_empty _ _⟩
      · exact ⟨rfl, rfl⟩
    · rw [Tally.piece, if_pos hactive]
      refine ⟨rfl, ?_⟩
      have hindex : t.calls.length - 1 = index := by omega
      rw [extendLast, hindex]

theorem Outcome.piece (ho : Outcome good t text calls) (hh : Held t) (h : p.deliver calls = some calls') :
    Outcome (good ∧ GoodPieces t.active calls.length [p]) (t.piece p) text calls' := by
  refine ⟨fun hall => (ho.sound hall.1).piece h hall.2, fun hbad => ?_⟩
  cases p with
  | first =>
    have hs := ho.spoiled fun hg => hbad ⟨hg, trivial⟩
    rw [deliver_first h]
    simp only [Spoiled, Tally.piece, size, weight, callsSize_concat, weightFrom_concat, length_append] at hs ⊢
    rcases hs with hlt | ⟨heq, hlen, hw⟩
    · exact .inl (by omega)
    · refine .inr ⟨by omega, by omega, ?_⟩
      rw [hlen]
      omega
  | more index arguments =>
    by_cases hactive : t.active = some .toolUse
    · obtain ⟨hlt, rfl⟩ := deliver_more h
      obtain ⟨hsize, hlength, hweight⟩ := extendLast_totals (hh hactive) arguments t.text
      obtain ⟨hsent, hsentWeight⟩ := extend_totals hlt arguments text
      simp only [Spoiled, Tally.piece, if_pos hactive, hsize, hlength, hweight, hsent, hsentWeight, length_modify]
      by_cases hg : good
      · obtain ⟨rfl, rfl⟩ := ho.sound hg
        simp only [hg, GoodPieces, and_true, true_and, not_or, hactive] at hbad
        have hplace : (1 + index) * arguments.length < t.calls.length * arguments.length :=
          Nat.mul_lt_mul_of_pos_right (by omega) (length_pos hbad.1)
        exact .inr ⟨rfl, rfl, by omega⟩
      · rcases ho.spoiled hg with hless | ⟨heq, hlen, hw⟩
        · exact .inl (by omega)
        · have hplace : (1 + index) * arguments.length ≤ t.calls.length * arguments.length :=
            Nat.mul_le_mul_right _ (by omega)
          exact .inr ⟨by omega, hlen, by omega⟩
    · rw [Tally.piece, if_neg hactive]
      refine (ho.dropped h).spoiled fun hall => hbad ⟨hall.1, .inl hall.2, trivial⟩

end OnePiece

/-! ## The pieces of a chunk -/

section Pieces

variable {t : Tally} {text : String} {calls calls' : List Call} {p : Piece} {pieces : List Piece} {good : Prop}

theorem foldlM_deliver_cons (h : (p :: pieces).foldlM Piece.deliver calls = some calls') :
    ∃ mid, p.deliver calls = some mid ∧ pieces.foldlM Piece.deliver mid = some calls' := by
  rw [foldlM_cons] at h
  exact Option.bind_eq_some_iff.mp h

theorem goodPieces_cons (active : Option ContentBlockType) (sent : Nat) (p : Piece) (pieces : List Piece) :
    GoodPieces active sent (p :: pieces) ↔ GoodPieces active sent [p] ∧
      GoodPieces (if p.isFirst then some .toolUse else active) (sent + if p.isFirst then 1 else 0) pieces := by
  cases p <;> simp [GoodPieces, Piece.isFirst]

theorem active_piece (t : Tally) (p : Piece) : (t.piece p).active = if p.isFirst then some .toolUse else t.active := by
  cases p with
  | first => rfl
  | more =>
    simp only [Tally.piece, Piece.isFirst, Bool.false_eq_true, if_false]
    split_ifs <;> rfl

theorem length_foldlM_deliver (h : pieces.foldlM Piece.deliver calls = some calls') :
    calls'.length = calls.length + pieces.countP Piece.isFirst := by
  induction pieces generalizing calls with
  | nil => cases h; rfl
  | cons p pieces ih =>
    obtain ⟨mid, hp, hrest⟩ := foldlM_deliver_cons h
    rw [ih hrest, length_deliver hp, countP_cons]
    omega

theorem Held.read (hh : Held t) (pieces : List Piece) : Held (pieces.foldl Tally.piece t) := by
  induction pieces generalizing t with
  | nil => exact hh
  | cons p pieces ih => exact ih (hh.piece p)

theorem Outcome.read (ho : Outcome good t text calls) (hh : Held t)
    (h : pieces.foldlM Piece.deliver calls = some calls') :
    Outcome (good ∧ GoodPieces t.active calls.length pieces) (pieces.foldl Tally.piece t) text calls' := by
  induction pieces generalizing t calls good with
  | nil =>
    cases h
    exact ho.congr (by simp [GoodPieces])
  | cons p pieces ih =>
    obtain ⟨mid, hp, hrest⟩ := foldlM_deliver_cons h
    have hnext := ih (ho.piece hh hp) (hh.piece p) hrest
    rw [active_piece, length_deliver hp] at hnext
    exact hnext.congr (and_assoc.trans (and_congr_right' (goodPieces_cons _ _ _ _).symm))

theorem Outcome.allDropped (ho : Outcome good t text calls) (h : pieces.foldlM Piece.deliver calls = some calls') :
    Outcome (good ∧ ∀ p ∈ pieces, p.Void) t text calls' := by
  induction pieces generalizing calls good with
  | nil =>
    cases h
    exact ho.congr (by simp)
  | cons p pieces ih =>
    obtain ⟨mid, hp, hrest⟩ := foldlM_deliver_cons h
    exact (ih (ho.dropped hp) hrest).congr (by rw [forall_mem_cons, and_assoc])

end Pieces

/-! ## A chunk -/

section Chunk

variable {t : Tally} {text : String} {calls calls' : List Call} {c : ProviderChunk} {good : Prop}

theorem held_of_active (h : t.active ≠ some .toolUse) : Held t := fun hactive => absurd hactive h

def Cut (t : Tally) (c : ProviderChunk) : Prop :=
  c.reasoning = some "" ∨ (c.reasoning.isSome = true ∧ t.active = some .text)

def reading (t : Tally) (c : ProviderChunk) : Tally :=
  { t with active := if c.reasoning.isSome then some .thinking else t.active }

theorem reasoningAndCalls_eq (t : Tally) (c : ProviderChunk) :
    (Cut t c → (t.reasoningAndCalls (.obj c.deltaFields)).1 = t) ∧
      (¬ Cut t c → (t.reasoningAndCalls (.obj c.deltaFields)).1 = c.pieces.foldl Tally.piece (reading t c)) := by
  obtain ⟨-, hreason, hcalls⟩ := get_deltaFields c
  have hpieces : ((toolCalls? (.obj c.deltaFields)).getD []) = c.pieces.map Piece.toJson := by
    rw [hcalls, ProviderChunk.pieces]
    cases c.toolCalls <;> rfl
  simp only [Tally.reasoningAndCalls, Tally.reasoningDelta, hreason, hpieces, Cut, reading]
  cases hr : c.reasoning with
  | none => simp [foldl_toolCall_toJson]
  | some thinking =>
    by_cases hempty : thinking = ""
    · simp [hempty]
    · by_cases hactive : t.active = some .text
      · simp [hempty, hactive]
      · simp [hempty, hactive, foldl_toolCall_toJson]

theorem Held.reading (hh : Held t) (c : ProviderChunk) : Held (reading t c) := by
  unfold OpenAi.reading
  split_ifs
  · exact held_of_active (by simp)
  · exact hh

theorem Held.reasoningAndCalls (hh : Held t) (c : ProviderChunk) :
    Held (t.reasoningAndCalls (.obj c.deltaFields)).1 := by
  by_cases hcut : Cut t c
  · rw [(reasoningAndCalls_eq t c).1 hcut]
    exact hh
  · rw [(reasoningAndCalls_eq t c).2 hcut]
    exact (hh.reading c).read _

def ReadsWell (t : Tally) (sent : Nat) (c : ProviderChunk) : Prop :=
  (Cut t c → ∀ p ∈ c.pieces, p.Void) ∧ (¬ Cut t c → GoodPieces (reading t c).active sent c.pieces)

theorem Outcome.reasoningAndCalls (ho : Outcome good t text calls) (hh : Held t)
    (h : c.pieces.foldlM Piece.deliver calls = some calls') :
    Outcome (good ∧ ReadsWell t calls.length c) (t.reasoningAndCalls (.obj c.deltaFields)).1 text calls' := by
  by_cases hcut : Cut t c
  · rw [(reasoningAndCalls_eq t c).1 hcut]
    exact (ho.allDropped h).congr (by simp [ReadsWell, hcut])
  · rw [(reasoningAndCalls_eq t c).2 hcut]
    have hreading : Outcome good (reading t c) text calls :=
      ⟨fun hg => ⟨(ho.sound hg).text, (ho.sound hg).calls⟩, ho.spoiled⟩
    exact (hreading.read (hh.reading c) h).congr (by simp [ReadsWell, hcut])

/-! ### The content of a chunk -/

theorem endForToolCalls_eq (t : Tally) (c : ProviderChunk) : t.endForToolCalls (.obj c.deltaFields)
      = { t with active := if c.toolCalls.isSome = true ∧ t.active ≠ some .toolUse then none else t.active } := by
  simp only [Tally.endForToolCalls, (get_deltaFields c).2.2, Option.isSome_map, Bool.and_eq_true, bne_iff_ne]
  split_ifs <;> rfl

theorem Held.endForToolCalls (hh : Held t) (c : ProviderChunk) : Held (t.endForToolCalls (.obj c.deltaFields)) := by
  rw [endForToolCalls_eq]
  intro hactive
  simp only at hactive
  split_ifs at hactive
  exact hh hactive

theorem Outcome.endForToolCalls (ho : Outcome good t text calls) (c : ProviderChunk) :
    Outcome good (t.endForToolCalls (.obj c.deltaFields)) text calls := by
  rw [endForToolCalls_eq]
  exact ⟨fun hg => ⟨(ho.sound hg).text, (ho.sound hg).calls⟩, ho.spoiled⟩

theorem Held.addText (hh : Held t) (more : String) : Held (t.addText more) := by
  unfold Tally.addText
  split_ifs
  · exact hh
  · exact held_of_active (by simp)

theorem Outcome.addText (ho : Outcome good t text calls) {more : String} (hne : more ≠ "") :
    Outcome (good ∧ t.active ≠ some .toolUse) (t.addText more) (text ++ more) calls := by
  have hpos : 0 < more.length := length_pos hne
  have hle := ho.size_le
  unfold Tally.addText
  split_ifs with hactive
  · refine ⟨fun hall => absurd hactive hall.2, fun _ => .inl ?_⟩
    simp only [size, String.length_append] at hle ⊢
    omega
  · refine ⟨fun hall => ⟨by rw [(ho.sound hall.1).text], (ho.sound hall.1).calls⟩, fun hbad => ?_⟩
    have hs := ho.spoiled fun hg => hbad ⟨hg, hactive⟩
    simp only [Spoiled, size, String.length_append] at hs ⊢
    omega

theorem processDelta_eq (t : Tally) (c : ProviderChunk) : (t.processDelta (.obj c.deltaFields)).1 =
      match c.content with
      | none => ((t.endForToolCalls (.obj c.deltaFields)).reasoningAndCalls (.obj c.deltaFields)).1
      | some more =>
        if more = "" then t.endForToolCalls (.obj c.deltaFields)
        else (((t.endForToolCalls (.obj c.deltaFields)).addText more).reasoningAndCalls (.obj c.deltaFields)).1 := by
  simp only [Tally.processDelta, Tally.contentDelta, (get_deltaFields c).1]
  cases c.content with
  | none => rfl
  | some more => by_cases hempty : more = "" <;> simp [hempty]

theorem Held.processDelta (hh : Held t) (c : ProviderChunk) : Held (t.processDelta (.obj c.deltaFields)).1 := by
  rw [processDelta_eq]
  have hend := hh.endForToolCalls c
  cases c.content with
  | none => exact hend.reasoningAndCalls c
  | some more =>
    by_cases hempty : more = ""
    · simp only [if_pos hempty]
      exact hend
    · simp only [if_neg hempty]
      exact (hend.addText more).reasoningAndCalls c

theorem goodChunk_iff (active : Option ContentBlockType) (sent : Nat) (c : ProviderChunk) : GoodChunk active sent c ↔
    (∀ text, c.content = some text → text ≠ "" → active ≠ some .toolUse) ∧ (c.PassedOver → ∀ p ∈ c.pieces, p.Void) ∧
      (¬ c.PassedOver → GoodPieces (c.activeForPieces active) sent c.pieces) :=
  ⟨fun ⟨htext, hpassed, hread⟩ => ⟨htext, hpassed, hread⟩, fun ⟨htext, hpassed, hread⟩ => ⟨htext, hpassed, hread⟩⟩

theorem goodChunk_of_no_content (hc : c.content = none) (sent : Nat) :
    GoodChunk t.active sent c ↔ ReadsWell (t.endForToolCalls (.obj c.deltaFields)) sent c := by
  rw [goodChunk_iff, endForToolCalls_eq]
  by_cases hr : c.reasoning = some ""
  · simp [ReadsWell, Cut, ProviderChunk.PassedOver, hc, hr]
  · cases htools : c.toolCalls with
    | none => simp [ReadsWell, ProviderChunk.pieces, htools, GoodPieces, hc]
    | some =>
      -- the tool calls have ended a text block, so nothing is cut
      by_cases hactive : t.active = some .toolUse <;> cases hreason : c.reasoning <;>
        simp_all [ReadsWell, Cut, reading, ProviderChunk.PassedOver, activeForPieces]

theorem goodChunk_of_content {more : String} (hc : c.content = some more) (hne : more ≠ "") (sent : Nat) :
    GoodChunk t.active sent c ↔
      t.active ≠ some .toolUse ∧ ReadsWell ((t.endForToolCalls (.obj c.deltaFields)).addText more) sent c := by
  rw [goodChunk_iff]
  by_cases hactive : t.active = some .toolUse
  · simp [hc, hne, hactive]
  · have htext : ((t.endForToolCalls (.obj c.deltaFields)).addText more).active = some .text := by
      rw [endForToolCalls_eq]
      by_cases hsome : c.toolCalls.isSome = true <;> simp [Tally.addText, hactive, hsome]
    cases hreason : c.reasoning <;>
      simp [ReadsWell, Cut, reading, ProviderChunk.PassedOver, activeForPieces, htext, hc, hne, hactive, hreason]

theorem Outcome.processDelta (ho : Outcome good t text calls) (hh : Held t)
    (h : c.pieces.foldlM Piece.deliver calls = some calls') :
    Outcome (good ∧ GoodChunk t.active calls.length c) (t.processDelta (.obj c.deltaFields)).1
      (text ++ c.content.getD "") calls' := by
  have hend := hh.endForToolCalls c
  have hoend := ho.endForToolCalls c
  rw [processDelta_eq]
  cases hc : c.content with
  | none =>
    rw [Option.getD_none, String.append_empty, goodChunk_of_no_content hc]
    exact hoend.reasoningAndCalls hend h
  | some more =>
    by_cases hempty : more = ""
    · subst hempty
      rw [Option.getD_some, String.append_empty, goodChunk_iff]
      exact (hoend.allDropped h).congr (by simp [ProviderChunk.PassedOver, hc])
    · simp only [if_neg hempty, Option.getD_some, goodChunk_of_content hc hempty, ← and_assoc]
      have htool : (t.endForToolCalls (.obj c.deltaFields)).active ≠ some .toolUse ↔ t.active ≠ some .toolUse := by
        rw [endForToolCalls_eq]
        by_cases hactive : t.active = some .toolUse <;> simp [hactive]
      have hadded := (hoend.addText hempty).congr (and_congr_right' htool)
      exact hadded.reasoningAndCalls (hend.addText more) h

end Chunk

/-! ## The parser on a provider's chunk -/

section Steps

variable {s : Parser}

theorem blocks_messageEnd (s : Parser) (reason : String) : (s.messageEnd reason).blocks = s.blocks := by
  rw [Parser.blocks, Parser.messageEnd, assemble_concat]
  rfl

theorem blocks_finishChunk (s : Parser) (choice : Json) : (s.finishChunk choice).blocks = s.blocks := by
  unfold Parser.finishChunk
  split
  · exact (blocks_messageEnd _ _).trans (Parser.blocks_endBlock s _)
  · rfl

theorem blocks_finish (s : Parser) : s.finish.blocks = s.blocks := by
  unfold Parser.finish
  split
  · rfl
  · exact (blocks_messageEnd _ _).trans (Parser.blocks_endBlock s _)

def ProviderChunk.choice (c : ProviderChunk) : Json :=
  .obj [("delta", .obj c.deltaFields), ("finish_reason", (c.finishReason.map Json.str).getD .null)]

theorem step_toSse (hs : s.stopped = false) (c : ProviderChunk) : s.step c.toSse = s.processChoice c.choice := by
  simp only [Parser.step, hs, toSse, chunkOf]
  rfl

theorem blocks_step_toSse (hs : s.stopped = false) (c : ProviderChunk) :
    (s.step c.toSse).blocks = (s.processDelta (.obj c.deltaFields)).1.blocks := by
  rw [step_toSse hs]
  have hget : c.choice.get "delta" = some (.obj c.deltaFields) := rfl
  simp only [Parser.processChoice, hget]
  cases s.processDelta (.obj c.deltaFields) with
  | mk s₁ read =>
    cases read with
    | false => rfl
    | true => exact blocks_finishChunk s₁ _

theorem step_toSse_of_none (hs : s.stopped = false) {c : ProviderChunk} (hf : c.finishReason = none) :
    s.step c.toSse = (s.processDelta (.obj c.deltaFields)).1 := by
  rw [step_toSse hs]
  have hget : c.choice.get "delta" = some (.obj c.deltaFields) := rfl
  have hfinish : ∀ s₁ : Parser, s₁.finishChunk c.choice = s₁ := by
    intro s₁
    have hnull : (c.choice.get "finish_reason").bind Json.asStr = none := by
      rw [choice, hf]
      rfl
    rw [Parser.finishChunk, hnull]
    rfl
  simp only [Parser.processChoice, hget, hfinish]
  cases s.processDelta (.obj c.deltaFields) with
  | mk s₁ read => cases read <;> rfl

end Steps

/-! ## Runs -/

structure Status (x : Exchange) (text : String) (calls : List Call) (p : Prop) : Prop where
  going : x.parser.stopped = false
  known : x.parser.Known
  aligned : x.parser.Aligned
  held : Held x.parser.tally
  count : x.sent = calls.length
  outcome : Outcome p x.parser.tally text calls

theorem status_init : Status Exchange.init "" [] True :=
  ⟨rfl, Parser.known_of_none rfl, Parser.aligned_of_none rfl, held_of_active (by decide), rfl,
    ⟨fun _ => ⟨rfl, rfl⟩, fun h => absurd trivial h⟩⟩

section Runs

variable {x : Exchange} {text : String} {calls calls' : List Call} {p : Prop}

theorem Status.outcome_delta (h : Status x text calls p) {c : ProviderChunk}
    (hd : c.pieces.foldlM Piece.deliver calls = some calls') :
    Outcome (p ∧ Exchange.Good x c) (x.parser.processDelta (.obj c.deltaFields)).1.tally (text ++ c.content.getD "")
      calls' := by
  rw [(Parser.tally_processDelta h.aligned h.known _).1]
  have hactive : x.parser.tally.active = x.parser.activeBlockType := rfl
  have hchunk := h.outcome.processDelta h.held hd
  rwa [hactive, ← h.count] at hchunk

theorem Status.step (h : Status x text calls p) {c : ProviderChunk} (hf : c.finishReason = none)
    (hd : c.pieces.foldlM Piece.deliver calls = some calls') :
    Status (x.step c) (text ++ c.content.getD "") calls' (p ∧ Exchange.Good x c) := by
  have hparser : (x.step c).parser = (x.parser.processDelta (.obj c.deltaFields)).1 := step_toSse_of_none h.going hf
  obtain ⟨hwrites, hknown⟩ := Parser.writes_processDelta h.known (.obj c.deltaFields)
  obtain ⟨htally, haligned⟩ := Parser.tally_processDelta h.aligned h.known (.obj c.deltaFields)
  refine ⟨?_, ?_, ?_, ?_, ?_, ?_⟩
  · rw [hparser, hwrites.stopped, h.going]
  · rw [hparser]
    exact hknown
  · rw [hparser]
    exact haligned
  · rw [hparser, htally]
    exact h.held.processDelta c
  · rw [length_foldlM_deliver hd, ← h.count]
    rfl
  · rw [hparser]
    exact h.outcome_delta hd

theorem foldlM_deliver_append {pieces more : List Piece}
    (h : (pieces ++ more).foldlM Piece.deliver calls = some calls') :
    ∃ mid, pieces.foldlM Piece.deliver calls = some mid ∧ more.foldlM Piece.deliver mid = some calls' := by
  rw [foldlM_append] at h
  exact Option.bind_eq_some_iff.mp h

theorem contentOf_append (chunks more : List ProviderChunk) :
    contentOf (chunks ++ more) = contentOf chunks ++ contentOf more := by
  rw [contentOf, filterMap_append, String.join_append, contentOf, contentOf]

theorem contentOf_singleton (c : ProviderChunk) : contentOf [c] = c.content.getD "" := by
  cases hc : c.content <;> simp [contentOf, hc]

theorem Status.run (h : Status x text calls p) {chunks : List ProviderChunk} (hf : ∀ c ∈ chunks, c.finishReason = none)
    (hd : (chunks.flatMap pieces).foldlM Piece.deliver calls = some calls') :
    Status (run Exchange.step x chunks) (text ++ contentOf chunks) calls'
      (p ∧ Along Exchange.step Exchange.Good x chunks) := by
  induction chunks generalizing x text calls p with
  | nil =>
    cases hd
    simpa [contentOf, Along] using h
  | cons c chunks ih =>
    rw [flatMap_cons] at hd
    obtain ⟨mid, hc, hrest⟩ := foldlM_deliver_append hd
    obtain ⟨hfc, hfrest⟩ := forall_mem_cons.mp hf
    have hnext := ih (h.step hfc hc) hfrest hrest
    have htext : text ++ contentOf (c :: chunks) = text ++ c.content.getD "" ++ contentOf chunks := by
      rw [← singleton_append, contentOf_append, contentOf_singleton, String.append_assoc]
    rw [htext]
    simpa only [run_cons, Along, and_assoc] using hnext

theorem parser_run (x : Exchange) (chunks : List ProviderChunk) :
    (run Exchange.step x chunks).parser = run Parser.step x.parser (chunks.map toSse) := by
  induction chunks generalizing x with
  | nil => rfl
  | cons c chunks ih => exact ih (x.step c)

end Runs

/-- The assembled answer has the calls and all the text exactly when every chunk is good. -/
theorem tool_calls_survive_iff (calls : List Call) (chunks : List ProviderChunk) (h : Delivers calls chunks) :
    Survive calls chunks ↔ Along Exchange.step Exchange.Good Exchange.init chunks := by
  obtain ⟨body, last, reason, rfl, hbody, -⟩ := h.finish
  have hdeliver := h.calls
  rw [flatMap_append, flatMap_singleton] at hdeliver
  obtain ⟨mid, hmid, hlast⟩ := foldlM_deliver_append hdeliver
  have hstatus := status_init.run hbody hmid
  have hout := hstatus.outcome_delta hlast
  have hparser : run Parser.step Parser.init (body.map toSse)
      = (run Exchange.step Exchange.init body).parser := (parser_run Exchange.init body).symm
  have hblocks : (assemble (parseSseStream ((body ++ [last]).map toSse))).contentBlocks
      = ((run Exchange.step Exchange.init body).parser.processDelta (.obj last.deltaFields)).1.blocks := by
    show (Parser.finish _).blocks = _
    rw [blocks_finish, map_append, run_append, hparser]
    exact blocks_step_toSse hstatus.going last
  have htext : "" ++ contentOf body ++ last.content.getD "" = contentOf (body ++ [last]) := by
    rw [contentOf_append, contentOf_singleton, String.empty_append]
  rw [htext] at hout
  rw [along_append]
  have hgood : (True ∧ Along Exchange.step Exchange.Good Exchange.init body) ∧
        Exchange.Good (run Exchange.step Exchange.init body) last ↔
      Along Exchange.step Exchange.Good Exchange.init body ∧
        Along Exchange.step Exchange.Good (run Exchange.step Exchange.init body) [last] := by
    simp [Along]
  rw [← hgood]
  constructor
  · intro hsurvive
    by_contra hbad
    refine (hout.spoiled hbad).not_sound ⟨?_, ?_⟩
    · exact (congrArg allText hblocks).symm.trans hsurvive.text
    · exact (congrArg toolUses hblocks).symm.trans hsurvive.calls
  · intro hall
    obtain ⟨ht, hc⟩ := hout.sound hall
    exact ⟨(congrArg toolUses hblocks).trans hc, (congrArg allText hblocks).trans ht⟩

def oneCall : List ProviderChunk :=
  [⟨none, none, some [.first 0 "call_a" "read" ""], none⟩, ⟨none, none, some [.more 0 "a.txt"], none⟩,
   ⟨none, none, none, some "tool_calls"⟩]

theorem one_call_survives_iff :
    Survive [("call_a", "read", "a.txt")] oneCall ↔ Along Exchange.step Exchange.Good Exchange.init oneCall :=
  tool_calls_survive_iff _ _ ⟨⟨oneCall.take 2, _, "tool_calls", rfl, by decide, rfl⟩, by decide⟩

def interleavedCalls : List ProviderChunk :=
  [⟨none, none, some [.first 0 "call_a" "read" ""], none⟩, ⟨none, none, some [.first 1 "call_b" "read" ""], none⟩,
   ⟨none, none, some [.more 0 "a.txt"], none⟩, ⟨none, none, some [.more 1 "b.txt"], none⟩,
   ⟨none, none, none, some "tool_calls"⟩]

/-- The first call ends without arguments and the second with those of both. -/
theorem interleaved_arguments_are_mixed_up :
    Delivers [("call_a", "read", "a.txt"), ("call_b", "read", "b.txt")] interleavedCalls ∧
      toolUses (assemble (parseSseStream (interleavedCalls.map toSse))).contentBlocks
        = [("call_a", "read", ""), ("call_b", "read", "a.txtb.txt")] ∧
      ¬ Survive [("call_a", "read", "a.txt"), ("call_b", "read", "b.txt")] interleavedCalls := by
  have hout : toolUses (assemble (parseSseStream (interleavedCalls.map toSse))).contentBlocks
      = [("call_a", "read", ""), ("call_b", "read", "a.txtb.txt")] := by decide +kernel
  refine ⟨⟨⟨interleavedCalls.take 4, _, "tool_calls", rfl, by decide, rfl⟩, by decide⟩, hout, fun hsurvive => ?_⟩
  have hcalls := hsurvive.calls
  rw [hout] at hcalls
  revert hcalls
  decide

end CloseClaw.LLM.OpenAi
