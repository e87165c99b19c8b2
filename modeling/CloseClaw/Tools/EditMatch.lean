/- How the `Edit` tool finds and replaces texts (`edit_match.rs`). Positions count characters. -/

import CloseClaw.Lib.LineFormat
import CloseClaw.Lib.Splice
import CloseClaw.Tools.FileOps
import Mathlib.Algebra.GroupWithZero.Nat

namespace CloseClaw.Tools.EditMatch

open Lib Lib.Patch List

inductive EditError where
  | notFound
  | ambiguous (matched : Nat)
  | overlapping
  | fuzzyNotFound
  deriving DecidableEq

inductive Stop where
  | panic
  | err (e : EditError)
  deriving DecidableEq

/-! ## Fuzzy matches -/

structure Unicode where
  nfc : List Char → List Char
  nfd : List Char → List Char

def straight (c : Char) : Char :=
  if c.toNat = 0x201C ∨ c.toNat = 0x201D then Char.ofNat 0x22
  else if c.toNat = 0x2018 ∨ c.toNat = 0x2019 then Char.ofNat 0x27
  else c

def normalizeQuotes (s : List Char) : List Char := s.map straight

def trimEnd (l : List Char) : List Char := (l.reverse.dropWhile Text.isWhitespace).reverse

def stripTrailingWs (s : List Char) : List Char := LineFormat.join ((LineFormat.lines s).map trimEnd)

def fuzzyNormalize (s : List Char) : List Char := normalizeQuotes (stripTrailingWs s)

def find (needle : List Char) : List Char → Option Nat
  | [] => if needle = [] then some 0 else none
  | c :: rest => if needle <+: c :: rest then some 0 else (find needle rest).map (· + 1)

def bytes (s : List Char) : Nat := (s.map Char.utf8Size).sum

def buildNormalizedToOriginalMap (original normalized : List Char) : List Nat :=
  (List.range normalized.length).map fun i => if i < original.length then i else original.length

def normalizedMatchToOriginalRange (original normalized normalizedMatch : List Char) (normOffset : Nat) : Nat × Nat :=
  let map := buildNormalizedToOriginalMap original normalized
  let endOffset := normOffset + bytes normalizedMatch
  (map[normOffset]?.getD original.length,
    if map.length ≤ endOffset then original.length else map[endOffset]?.getD original.length)

def tryFuzzyStrategy (original oldText : List Char) (normalize : List Char → List Char) : Option (Nat × Nat) :=
  (find (normalize oldText) (normalize original)).map fun pos =>
    normalizedMatchToOriginalRange original (normalize original) (normalize oldText)
      (bytes ((normalize original).take pos))

def strategies (U : Unicode) : List (List Char → List Char) :=
  [normalizeQuotes, stripTrailingWs, fuzzyNormalize, U.nfc, U.nfd]

def fuzzyFind (U : Unicode) (original oldText : List Char) : Option (Nat × Nat) :=
  (strategies U).findSome? (tryFuzzyStrategy original oldText)

/-! ## The engine -/

def oneByte (needle : List Char) : Bool := needle.head?.all fun c => c.utf8Size == 1

def findAll (needle : List Char) (start : Nat) : List Char → Except Stop (List Nat)
  | [] => .ok []
  | c :: rest =>
    if needle <+: c :: rest then
      -- the next search starts one byte further
      if oneByte needle then (findAll needle (start + 1) rest).map (start :: ·) else .error .panic
    else findAll needle (start + 1) rest

def matchAt (e : EditOp) (offset : Nat) : Patch Char := ⟨offset, offset + e.oldText.toList.length, e.newText.toList⟩

def matchEdit (U : Unicode) (content : List Char) (replaceAll : Bool) (e : EditOp) : Except Stop (List (Patch Char)) :=
  if e.oldText.toList = [] then .ok []
  else
    match findAll e.oldText.toList 0 content with
    | .error s => .error s
    | .ok [] =>
      match fuzzyFind U content e.oldText.toList with
      | some range => .ok [⟨range.1, range.2, e.newText.toList⟩]
      | none => .error (.err .notFound)
    | .ok [offset] => .ok [matchAt e offset]
    | .ok offsets => if replaceAll then .ok (offsets.map (matchAt e)) else .error (.err (.ambiguous offsets.length))

def matchAndApply (U : Unicode) (content : List Char) (edits : List EditOp) (replaceAll : Bool) :
    Except Stop (List Char × Nat) :=
  match edits.mapM (matchEdit U content replaceAll) with
  | .error s => .error s
  | .ok found =>
    let ordered := sorted found.flatten
    if neighboursOverlap ordered then .error (.err .overlapping)
    else .ok ((sortedBack ordered).foldl replaceRange content, (edits.filter (·.oldText.toList ≠ [])).length)

/-! ## Occurrences -/

def occurrences (needle : List Char) (start : Nat) : List Char → List Nat
  | [] => []
  | c :: rest =>
    if needle <+: c :: rest then start :: occurrences needle (start + 1) rest
    else occurrences needle (start + 1) rest

variable {U : Unicode} {needle content : List Char} {start : Nat} {e : EditOp} {edits : List EditOp}

theorem findAll_eq : findAll needle start content =
    if occurrences needle start content = [] ∨ oneByte needle = true then .ok (occurrences needle start content)
    else .error .panic := by
  induction content generalizing start with
  | nil => rfl
  | cons c rest ih =>
    rw [findAll, occurrences, ih]
    by_cases hat : needle <+: c :: rest
    · by_cases hone : oneByte needle = true
      · simp [hat, hone, Except.map]
      · simp [hat, hone]
    · simp [hat]

theorem occurrences_bounds {i : Nat} (h : i ∈ occurrences needle start content) :
    start ≤ i ∧ i + needle.length ≤ start + content.length := by
  induction content generalizing start with
  | nil => cases h
  | cons c rest ih =>
    have hrest : i ∈ occurrences needle (start + 1) rest →
        start ≤ i ∧ i + needle.length ≤ start + (c :: rest).length := by
      intro hi
      obtain ⟨hstart, hlen⟩ := ih hi
      exact ⟨by omega, by rw [length_cons]; omega⟩
    rw [occurrences] at h
    split_ifs at h with hat
    · rcases mem_cons.mp h with rfl | h
      · exact ⟨Nat.le_refl _, Nat.add_le_add_left hat.length_le _⟩
      · exact hrest h
    · exact hrest h

theorem occurrences_pairwise : (occurrences needle start content).Pairwise (· < ·) := by
  induction content generalizing start with
  | nil => exact .nil
  | cons c rest ih =>
    rw [occurrences]
    split_ifs with hat
    · exact pairwise_cons.mpr ⟨fun i hi => (occurrences_bounds hi).1, ih⟩
    · exact ih

def rangesOf (content : List Char) (e : EditOp) : List (Patch Char) :=
  if e.oldText.toList = [] then [] else (occurrences e.oldText.toList 0 content).map (matchAt e)

variable {m : Patch Char} {replaceAll : Bool}

theorem rangesOf_spec (h : m ∈ rangesOf content e) : m.start < m.stop ∧ m.stop ≤ content.length := by
  rw [rangesOf] at h
  split_ifs at h with hempty
  · cases h
  · obtain ⟨i, hi, rfl⟩ := mem_map.mp h
    have hlen := length_pos_iff.mpr hempty
    have hbound := (occurrences_bounds hi).2
    simp only [matchAt]
    omega

theorem matchEdit_eq (hold : e.oldText.toList ≠ []) (hocc : occurrences e.oldText.toList 0 content ≠ [])
    (hmany : replaceAll = true ∨ (occurrences e.oldText.toList 0 content).length = 1) :
    matchEdit U content replaceAll e =
      if oneByte e.oldText.toList = true then .ok (rangesOf content e) else .error .panic := by
  rw [matchEdit, if_neg hold, findAll_eq, rangesOf, if_neg hold]
  by_cases hone : oneByte e.oldText.toList = true
  · simp only [hone, or_true, if_true]
    match hoffsets : occurrences e.oldText.toList 0 content, hocc, hmany with
    | [i], _, _ => rfl
    | i :: j :: rest, _, .inl hall => simp [hall]
  · simp [hone, hocc]

/-! ## Exact edits -/

def ranges (content : List Char) (edits : List EditOp) : List (Patch Char) := edits.flatMap (rangesOf content)

theorem ranges_proper (content : List Char) (edits : List EditOp) : Proper (ranges content edits) := by
  intro m hm
  obtain ⟨e, _, he⟩ := mem_flatMap.mp hm
  exact (rangesOf_spec he).1

theorem ranges_within (hm : m ∈ ranges content edits) : m.stop ≤ content.length := by
  obtain ⟨e, _, he⟩ := mem_flatMap.mp hm
  exact (rangesOf_spec he).2

theorem matchAndApply_of_found (h : edits.mapM (matchEdit U content replaceAll) = .ok (edits.map (rangesOf content))) :
    matchAndApply U content edits replaceAll =
      if neighboursOverlap (sorted (ranges content edits)) then .error (.err .overlapping)
      else .ok (splice 0 content (sorted (ranges content edits)), (edits.filter (·.oldText.toList ≠ [])).length) := by
  have hfound : (edits.map (rangesOf content)).flatten = ranges content edits := flatMap_def.symm
  simp only [matchAndApply, h, hfound]
  split_ifs with hover
  · rfl
  · have hproper := (ranges_proper content edits).perm (sorted_perm _)
    have hbefore := (neighboursOverlap_eq_false (sorted_pairwise _) hproper).mp (Bool.eq_false_iff.mpr hover)
    rw [foldl_replaceRange hproper hbefore fun m hm => ranges_within ((sorted_perm _).subset hm)]

theorem neighboursOverlap_sorted : neighboursOverlap (sorted (ranges content edits)) = false ↔
    Apart (ranges content edits) := by
  have hproper := ranges_proper content edits
  rw [neighboursOverlap_eq_false (sorted_pairwise _) (hproper.perm (sorted_perm _)), before_sorted_iff hproper]

def OccurOnce (content : List Char) (edits : List EditOp) : Prop :=
  ∀ e ∈ edits, e.oldText.toList ≠ [] → (occurrences e.oldText.toList 0 content).length = 1

def StartOneByte (edits : List EditOp) : Prop := ∀ e ∈ edits, oneByte e.oldText.toList = true

theorem matchEdit_of_once (honce : OccurOnce content edits) (he : e ∈ edits) :
    matchEdit U content false e =
      if oneByte e.oldText.toList = true then .ok (rangesOf content e) else .error .panic := by
  by_cases hempty : e.oldText.toList = []
  · simp [matchEdit, rangesOf, hempty, oneByte]
  · have hlen := honce e he hempty
    exact matchEdit_eq hempty (ne_nil_of_length_eq_add_one hlen) (.inr hlen)

theorem mapM_of_once (honce : OccurOnce content edits) : edits.mapM (matchEdit U content false) =
    if edits.all (fun e => oneByte e.oldText.toList) then .ok (edits.map (rangesOf content)) else .error .panic := by
  induction edits with
  | nil => rfl
  | cons e rest ih =>
    have hrest : OccurOnce content rest := fun e' he' => honce e' (mem_cons_of_mem _ he')
    rw [mapM_cons, matchEdit_of_once honce mem_cons_self, ih hrest]
    by_cases hone : oneByte e.oldText.toList = true
    · by_cases hall : (rest.all fun e => oneByte e.oldText.toList) = true
      · simp only [hone, hall, if_true, all_cons, Bool.and_true, map_cons]
        rfl
      · simp only [hone, hall, if_true, all_cons, Bool.and_false, Bool.false_eq_true, if_false]
        rfl
    · simp only [hone, all_cons, Bool.false_and, Bool.false_eq_true, if_false]
      rfl

structure Simultaneous (U : Unicode) (content : List Char) (edits : List EditOp) : Prop where
  returns : matchAndApply U content edits false ≠ .error .panic
  apart : Apart (ranges content edits) → ∃ inOrder, inOrder.Perm (ranges content edits) ∧ inOrder.Pairwise Before ∧
    matchAndApply U content edits false =
      .ok (splice 0 content inOrder, (edits.filter (·.oldText.toList ≠ [])).length)
  anyOrder : Apart (ranges content edits) → ∀ edits', edits'.Perm edits →
    matchAndApply U content edits' false = matchAndApply U content edits false
  overlapping : ¬ Apart (ranges content edits) → matchAndApply U content edits false = .error (.err .overlapping)

theorem matchAndApply_of_once (honce : OccurOnce content edits) (hone : StartOneByte edits) :
    matchAndApply U content edits false =
      if neighboursOverlap (sorted (ranges content edits)) then .error (.err .overlapping)
      else .ok (splice 0 content (sorted (ranges content edits)), (edits.filter (·.oldText.toList ≠ [])).length) := by
  refine matchAndApply_of_found ?_
  rw [mapM_of_once honce, if_pos (all_eq_true.mpr hone)]

/-- The edits are made at once exactly when each of the texts starts with a character of one byte. -/
theorem edits_are_simultaneous_iff (U : Unicode) (honce : OccurOnce content edits) :
    Simultaneous U content edits ↔ StartOneByte edits := by
  refine ⟨?_, ?_⟩
  · intro h
    by_contra hmany
    refine h.returns ?_
    have hall : ¬ (edits.all fun e => oneByte e.oldText.toList) = true := fun hall => hmany (all_eq_true.mp hall)
    rw [matchAndApply, mapM_of_once honce, if_neg hall]
  · intro hone
    have hrun := matchAndApply_of_once (U := U) honce hone
    have happly : Apart (ranges content edits) → matchAndApply U content edits false =
        .ok (splice 0 content (sorted (ranges content edits)), (edits.filter (·.oldText.toList ≠ [])).length) := by
      intro hapart
      rw [hrun, neighboursOverlap_sorted.mpr hapart]
      rfl
    refine ⟨?_, ?_, ?_, ?_⟩
    · rw [hrun]
      split_ifs <;> simp
    · intro hapart
      exact ⟨_, sorted_perm _, (before_sorted_iff (ranges_proper content edits)).mpr hapart, happly hapart⟩
    · intro hapart edits' hperm
      have hranges : (ranges content edits').Perm (ranges content edits) := hperm.flatMap_right _
      rw [happly hapart, matchAndApply_of_once (fun e he => honce e (hperm.subset he)) fun e he => hone e (hperm.subset he),
        neighboursOverlap_sorted.mpr (hapart.perm hranges.symm), sorted_eq (ranges_proper content edits) hapart hranges,
        (hperm.filter _).length_eq]
      rfl
    · intro hover
      rw [hrun, if_pos]
      exact Bool.not_eq_false _ ▸ fun h => hover (neighboursOverlap_sorted.mp h)

theorem two_edits_are_simultaneous :
    Simultaneous ⟨id, id⟩ "ab cd".toList [⟨"cd", "x"⟩, ⟨"ab", "yyy"⟩] ↔ StartOneByte [⟨"cd", "x"⟩, ⟨"ab", "yyy"⟩] :=
  edits_are_simultaneous_iff _ (by unfold OccurOnce; decide +kernel)

/-- `é` takes two bytes. -/
theorem an_accent_panics :
    OccurOnce "café".toList [⟨"é", "e"⟩] ∧ matchAndApply ⟨id, id⟩ "café".toList [⟨"é", "e"⟩] false = .error .panic ∧
      ¬ Simultaneous ⟨id, id⟩ "café".toList [⟨"é", "e"⟩] := by
  have hpanic : matchAndApply ⟨id, id⟩ "café".toList [⟨"é", "e"⟩] false = .error .panic := by decide +kernel
  exact ⟨by unfold OccurOnce; decide +kernel, hpanic, fun h => h.returns hpanic⟩

/-! ## All occurrences -/

def replaceText (old new : List Char) (skip : Nat) : List Char → List Char
  | [] => []
  | c :: rest =>
    if 0 < skip then replaceText old new (skip - 1) rest
    else if old <+: c :: rest then new ++ replaceText old new (old.length - 1) rest
    else c :: replaceText old new 0 rest

theorem splice_occurrences (start skip : Nat) (hold : e.oldText.toList ≠ []) (hskip : skip ≤ content.length)
    (hfrom : ∀ i ∈ occurrences e.oldText.toList start content, start + skip ≤ i)
    (hapart : (occurrences e.oldText.toList start content).Pairwise fun i j => i + e.oldText.toList.length ≤ j) :
    splice (start + skip) (content.drop skip) ((occurrences e.oldText.toList start content).map (matchAt e)) =
      replaceText e.oldText.toList e.newText.toList skip content := by
  induction content generalizing start skip with
  | nil => simp [occurrences, replaceText, splice]
  | cons c rest ih =>
    have hlen := length_pos_iff.mpr hold
    rw [occurrences] at hfrom hapart ⊢
    rw [replaceText]
    cases skip with
    | succ skip =>
      have hat : ¬ e.oldText.toList <+: c :: rest := by
        intro hat
        rw [if_pos hat] at hfrom
        have := hfrom start mem_cons_self
        omega
      rw [if_neg hat] at hfrom hapart ⊢
      have hih := ih (start + 1) skip (by simpa using hskip) (fun i hi => by have := hfrom i hi; omega) hapart
      rw [if_pos (Nat.succ_pos _), drop_succ_cons, Nat.succ_sub_one, ← hih, Nat.add_right_comm, Nat.add_assoc]
    | zero =>
      rw [if_neg (Nat.lt_irrefl 0)]
      split_ifs at hfrom hapart ⊢ with hat
      · obtain ⟨hnext, hrest⟩ := pairwise_cons.mp hapart
        have hprefix := hat.length_le
        have hih := ih (start + 1) (e.oldText.toList.length - 1)
          (by rw [length_cons] at hprefix; omega) (fun i hi => by have := hnext i hi; omega) hrest
        have hstop : start + 1 + (e.oldText.toList.length - 1) = start + e.oldText.toList.length := by omega
        have hdrop : (c :: rest).drop e.oldText.toList.length = rest.drop (e.oldText.toList.length - 1) := by
          rw [← Nat.succ_pred_eq_of_pos hlen, drop_succ_cons]
          rfl
        rw [hstop] at hih
        simp only [map_cons, splice, matchAt, Nat.add_zero, drop_zero, Nat.sub_self, take_zero,
          nil_append, Nat.add_sub_cancel_left, hdrop]
        exact congrArg _ hih
      · rw [Nat.add_zero, drop_zero, splice_cons]
        · exact congrArg _ (ih (start + 1) 0 (Nat.zero_le _) (fun i hi => (occurrences_bounds hi).1) hapart)
        · intro m hm
          obtain ⟨i, hi, rfl⟩ := mem_map.mp hm
          exact ⟨(occurrences_bounds hi).1, Nat.le_add_right _ _⟩

theorem sorted_rangesOf : sorted (rangesOf content e) = rangesOf content e := by
  refine mergeSort_of_pairwise ?_
  rw [rangesOf]
  split_ifs
  · exact .nil
  · refine pairwise_map.mpr (occurrences_pairwise.imp ?_)
    intro i j hij
    exact decide_eq_true (Nat.le_of_lt hij)

theorem apart_rangesOf (hold : e.oldText.toList ≠ []) : Apart (rangesOf content e) ↔
    (occurrences e.oldText.toList 0 content).Pairwise fun i j => i + e.oldText.toList.length ≤ j := by
  have hlen := length_pos_iff.mpr hold
  rw [rangesOf, if_neg hold, Apart, pairwise_map]
  refine ⟨fun h => (h.and occurrences_pairwise).imp ?_, fun h => h.imp ?_⟩
  · rintro i j ⟨hover, hij⟩
    exact (overlap_eq_false (Nat.le_of_lt hij) (by simp only [matchAt]; omega)).mp hover
  · intro i j hij
    exact (overlap_eq_false (by simp only [matchAt]; omega) (by simp only [matchAt]; omega)).mpr hij

/-- Exactly when the text starts with a character of one byte and no two occurrences overlap. -/
theorem replace_all_iff (U : Unicode) (hold : e.oldText.toList ≠ []) (hocc : occurrences e.oldText.toList 0 content ≠ []) :
    matchAndApply U content [e] true = .ok (replaceText e.oldText.toList e.newText.toList 0 content, 1) ↔
      oneByte e.oldText.toList = true ∧
        (occurrences e.oldText.toList 0 content).Pairwise fun i j => i + e.oldText.toList.length ≤ j := by
  have hmatch := matchEdit_eq (U := U) hold hocc (.inl rfl)
  have hranges : ranges content [e] = rangesOf content e := by simp [ranges]
  by_cases hone : oneByte e.oldText.toList = true
  · rw [if_pos hone] at hmatch
    have hfound : [e].mapM (matchEdit U content true) = .ok ([e].map (rangesOf content)) := by
      simp only [mapM_cons, mapM_nil, hmatch]
      rfl
    rw [matchAndApply_of_found hfound, and_iff_right hone, ← apart_rangesOf hold, ← hranges]
    by_cases hapart : Apart (ranges content [e])
    · have hpair := (apart_rangesOf hold).mp (hranges ▸ hapart)
      have htext := splice_occurrences 0 0 hold (Nat.zero_le _) (fun i _ => Nat.zero_le i) hpair
      rw [neighboursOverlap_sorted.mpr hapart]
      simp only [Bool.false_eq_true, if_false, hapart, iff_true]
      rw [hranges, sorted_rangesOf, rangesOf, if_neg hold, ← htext, filter_cons_of_pos (by simpa using hold)]
      rfl
    · rw [Bool.eq_true_of_not_eq_false fun h => hapart (neighboursOverlap_sorted.mp h)]
      simp [hapart]
  · have hrun : matchAndApply U content [e] true = .error .panic := by
      simp only [matchAndApply, mapM_cons, hmatch, if_neg hone]
      rfl
    rw [hrun]
    simp [hone]

theorem replace_all_iff_words :
    matchAndApply ⟨id, id⟩ "a b a".toList [⟨"a", "cd"⟩] true = .ok (replaceText "a".toList "cd".toList 0 "a b a".toList, 1) ↔
      oneByte "a".toList = true ∧ (occurrences "a".toList 0 "a b a".toList).Pairwise fun i j => i + "a".toList.length ≤ j :=
  replace_all_iff _ (by decide) (by decide)

theorem overlapping_occurrences_conflict :
    matchAndApply ⟨id, id⟩ "aaa".toList [⟨"aa", "b"⟩] true = .error (.err .overlapping) ∧
      replaceText "aa".toList "b".toList 0 "aaa".toList = "ba".toList := by
  have hover : ¬ Apart (ranges "aaa".toList [⟨"aa", "b"⟩]) := by
    unfold Apart
    decide
  refine ⟨?_, by decide⟩
  rw [matchAndApply_of_found rfl, Bool.eq_true_of_not_eq_false fun h => hover (neighboursOverlap_sorted.mp h)]
  rfl

end CloseClaw.Tools.EditMatch
