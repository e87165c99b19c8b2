/- The letters of a jump question's options (`definition.rs`, `workflow_handler.rs`). -/

import CloseClaw.Session.WorkflowHandler
import CloseClaw.Workflow.EngineRuns

namespace CloseClaw.Session.WorkflowHandler

open Lib Workflow List

def Shows (message text : String) : Prop := ∃ pre post, message = pre ++ text ++ post

theorem Shows.trans {a b c : String} (h : Shows a b) (h' : Shows b c) : Shows a c := by
  obtain ⟨pre, post, rfl⟩ := h
  obtain ⟨pre', post', rfl⟩ := h'
  exact ⟨pre ++ pre', post' ++ post, by simp only [String.append_assoc]⟩

def labels (q : JumpQuestion) : List String := if q.optionLabels ≠ [] then q.optionLabels else q.options

def optionLine (q : JumpQuestion) (j : Nat) : String := "   " ++ letter j ++ " — " ++ ((labels q)[j]?).getD "" ++ "\n"

theorem renderOptions_shows {options : List String} {k : Nat} (hk : k < options.length) (j : Nat) :
    Shows (renderOptions j options) ("   " ++ letter (j + k) ++ " — " ++ (options[k]?).getD "" ++ "\n") := by
  induction options generalizing j k with
  | nil => cases hk
  | cons label options ih =>
    cases k with
    | zero => exact ⟨"", renderOptions (j + 1) options, by simp [renderOptions]⟩
    | succ k =>
      have hrest : Shows (renderOptions j (label :: options)) (renderOptions (j + 1) options) :=
        ⟨"   " ++ letter j ++ " — " ++ label ++ "\n", "", by simp [renderOptions]⟩
      have hshown := hrest.trans (ih (Nat.lt_of_succ_lt_succ hk) (j + 1))
      rwa [show j + 1 + k = j + (k + 1) by omega] at hshown

variable {q : JumpQuestion} (answers : List (String × Json)) {j : Nat}

theorem renderQuestions_shows {qs : List JumpQuestion} (hq : q ∈ qs) (i : Nat) :
    ∃ k, Shows (renderQuestions i qs) (renderQuestion k q) := by
  induction qs generalizing i with
  | nil => cases hq
  | cons p qs ih =>
    rcases mem_cons.mp hq with rfl | hq
    · exact ⟨i, "", renderQuestions (i + 1) qs, by simp [renderQuestions]⟩
    · obtain ⟨k, h⟩ := ih hq (i + 1)
      have hrest : Shows (renderQuestions i (p :: qs)) (renderQuestions (i + 1) qs) :=
        ⟨renderQuestion i p, "", by simp [renderQuestions]⟩
      exact ⟨k, hrest.trans h⟩

theorem renderQuestion_shows (htype : q.questionType = "enum") (k : Nat) :
    Shows (renderQuestion k q) (renderOptions 0 (labels q)) :=
  ⟨"\n" ++ letter k ++ ". " ++ q.prompt ++ "\n", "   答案格式：" ++ q.id ++ " = <选项字母>\n",
    by simp only [renderQuestion, htype, labels, String.append_assoc]⟩

theorem buildJumpMessage_shows {step : Step} (ha : step.Asks) (hq : q ∈ step.jump) (htype : q.questionType = "enum")
    (hj : j < q.options.length) :
    Shows (buildJumpMessage step) (optionLine q j) := by
  have hmessage : Shows (buildJumpMessage step) (renderQuestions 0 step.jump) := by
    unfold buildJumpMessage
    exact ⟨_, _, String.append_assoc⟩
  have hlength : (labels q).length = q.options.length := by
    unfold labels
    split_ifs with h
    · exact ha.labels q hq htype h
    · rfl
  obtain ⟨k, hquestion⟩ := renderQuestions_shows hq 0
  have hline := renderOptions_shows (hlength.symm ▸ hj) 0
  rw [Nat.zero_add] at hline
  exact ((hmessage.trans hquestion).trans (renderQuestion_shows htype k)).trans hline

theorem tryMapEnumAnswer_letter : ∀ j < 26, tryMapEnumAnswer (letter j) = some j := by decide

theorem tryMapEnumAnswer_eq {s : String} (h : tryMapEnumAnswer s = some j) : s = letter j := by
  unfold tryMapEnumAnswer at h
  split at h
  · rename_i c hc
    split_ifs at h with hcase
    have hlow : 65 ≤ c.toNat := hcase.1
    have hhigh : c.toNat ≤ 90 := hcase.2
    have hj : (65 + j) % 256 = c.toNat := by
      have hj := Option.some.inj h
      omega
    rw [letter, hj, Char.ofNat_toNat, ← String.toList_inj, hc, String.toList_singleton]
  · cases h

def mapAnswer (q : JumpQuestion) (answer : Json) : Json :=
  if q.questionType = "enum" then
    (((answer.asStr.bind tryMapEnumAnswer).bind (q.options[·]?)).map Json.str).getD answer
  else answer

theorem lookup_replace (key id : String) (value : Json) :
    (answers.map fun entry => if entry.1 = key then (key, value) else entry).lookup id =
      if id = key then (answers.lookup id).map fun _ => value else answers.lookup id := by
  induction answers with
  | nil => simp
  | cons entry answers ih =>
    obtain ⟨k, v⟩ := entry
    by_cases hid : id = k
    · subst hid
      by_cases hk : id = key <;> simp [hk]
    · have hne : (id == k) = false := beq_false_of_ne hid
      by_cases hk : k = key
      · subst hk
        simp [lookup_cons, hne, hid, ih]
      · simp [lookup_cons, hne, hk, ih]

theorem lookup_mapEnumLetterAnswer (q : JumpQuestion) (id : String) :
    (mapEnumLetterAnswer answers q).lookup id =
      if id = q.id then (answers.lookup id).map (mapAnswer q) else answers.lookup id := by
  by_cases hid : id = q.id
  · subst hid
    rw [if_pos rfl]
    unfold mapEnumLetterAnswer mapAnswer
    by_cases htype : q.questionType = "enum"
    · cases hanswer : answers.lookup q.id with
      | none => simp [htype, hanswer]
      | some answer =>
        cases hindex : answer.asStr.bind tryMapEnumAnswer with
        | none => simp [htype, hanswer, hindex]
        | some j =>
          cases hoption : q.options[j]? with
          | none => simp [htype, hanswer, hindex, hoption]
          | some =>
            have hne : q.options ≠ [] := fun hnil => by simp [hnil] at hoption
            simp [htype, hne, hanswer, hindex, hoption, lookup_replace]
    · simp [htype]
  · rw [if_neg hid]
    unfold mapEnumLetterAnswer
    split
    · rfl
    · split
      · rfl
      · split
        · rfl
        · rw [lookup_replace, if_neg hid]

theorem lookup_mapEnumLetterAnswers {questions : List JumpQuestion} (hids : (questions.map JumpQuestion.id).Nodup)
    (answers : List (String × Json)) :
    (∀ q ∈ questions, (questions.foldl mapEnumLetterAnswer answers).lookup q.id =
        (answers.lookup q.id).map (mapAnswer q)) ∧
      ∀ id, (∀ q ∈ questions, q.id ≠ id) →
        (questions.foldl mapEnumLetterAnswer answers).lookup id = answers.lookup id := by
  induction questions generalizing answers with
  | nil => simp
  | cons p questions ih =>
    obtain ⟨hnew, hrest⟩ := nodup_cons.mp hids
    obtain ⟨hmapped, hkept⟩ := ih hrest (mapEnumLetterAnswer answers p)
    have hother : ∀ q ∈ questions, q.id ≠ p.id := fun q hq hid => hnew (mem_map.mpr ⟨q, hq, hid⟩)
    rw [foldl_cons]
    constructor
    · intro q hq
      rcases mem_cons.mp hq with rfl | hq
      · rw [hkept _ hother, lookup_mapEnumLetterAnswer, if_pos rfl]
      · rw [hmapped q hq, lookup_mapEnumLetterAnswer, if_neg (hother q hq)]
    · intro id hid
      obtain ⟨hp, hqs⟩ := forall_mem_cons.mp hid
      rw [hkept id hqs, lookup_mapEnumLetterAnswer, if_neg (Ne.symm hp)]

theorem mapAnswer_letter (htype : q.questionType = "enum") (hle : q.options.length ≤ 26) (hj : j < q.options.length) :
    mapAnswer q (.str (letter j)) = .str q.options[j] := by
  simp [mapAnswer, htype, Json.asStr, tryMapEnumAnswer_letter j (by omega), hj]

theorem mapAnswer_other {answer : Json}
    (h : q.questionType = "enum" → ∀ j < q.options.length, answer ≠ .str (letter j)) : mapAnswer q answer = answer := by
  unfold mapAnswer
  split_ifs with htype
  · cases hoption : (answer.asStr.bind tryMapEnumAnswer).bind (q.options[·]?) with
    | none => rfl
    | some =>
      obtain ⟨j, hindex, hj⟩ := Option.bind_eq_some_iff.mp hoption
      obtain ⟨s, hs, hletter⟩ := Option.bind_eq_some_iff.mp hindex
      obtain ⟨hlt, -⟩ := List.getElem?_eq_some_iff.mp hj
      refine absurd ?_ (h htype j hlt)
      rw [← tryMapEnumAnswer_eq hletter]
      cases answer <;> simp_all [Json.asStr]
  · rfl

/-- Each option is shown with its own letter, which is mapped to that option; every other answer
stays as it is. -/
theorem jump_letters_round_trip {Y : YamlText} {h : WorkflowHandler} {step : Step}
    (hvalid : validateDefinition Y h.definition = .ok ())
    (hstep : h.definition.steps[h.run.currentStep]? = some step) (answers : List (String × Json)) :
    (∀ q ∈ step.jump, q.questionType = "enum" →
      (∀ j < q.options.length, Shows (buildJumpMessage step) (optionLine q j)) ∧
      (∀ i < q.options.length, ∀ j < q.options.length, letter i = letter j → i = j) ∧
      (∀ j (hj : j < q.options.length), answers.lookup q.id = some (.str (letter j)) →
        (h.mapEnumLetterAnswers answers).lookup q.id = some (.str q.options[j])) ∧
      ((∀ j < q.options.length, answers.lookup q.id ≠ some (.str (letter j))) →
        (h.mapEnumLetterAnswers answers).lookup q.id = answers.lookup q.id)) ∧
    ∀ id, (∀ q ∈ step.jump, q.questionType = "enum" → q.id ≠ id) →
      (h.mapEnumLetterAnswers answers).lookup id = answers.lookup id := by
  have ha := validateDefinition_asks hvalid (List.mem_of_getElem? hstep)
  obtain ⟨hmapped, hkept⟩ := lookup_mapEnumLetterAnswers ha.ids answers
  have hmap : h.mapEnumLetterAnswers answers = step.jump.foldl mapEnumLetterAnswer answers := by
    simp only [mapEnumLetterAnswers, hstep]
  simp only [hmap]
  constructor
  · intro q hq htype
    have hle := ha.options q hq htype
    refine ⟨fun j hj => buildJumpMessage_shows ha hq htype hj, ?_, ?_, ?_⟩
    · intro i hi j hj heq
      have hi' := tryMapEnumAnswer_letter i (by omega)
      rw [heq, tryMapEnumAnswer_letter j (by omega)] at hi'
      exact (Option.some.inj hi').symm
    · intro j hj hanswer
      rw [hmapped q hq, hanswer, Option.map_some, mapAnswer_letter htype hle hj]
    · intro hnone
      rw [hmapped q hq]
      cases hanswer : answers.lookup q.id with
      | none => rfl
      | some =>
        rw [Option.map_some, mapAnswer_other]
        intro _ j hj heq
        exact hnone j hj (heq ▸ hanswer)
  · intro id hid
    by_cases hasked : ∃ q ∈ step.jump, q.id = id
    · obtain ⟨q, hq, rfl⟩ := hasked
      have hsame : mapAnswer q = fun answer => answer :=
        funext fun answer => mapAnswer_other fun htype => absurd rfl (hid q hq htype)
      rw [hmapped q hq, hsame, Option.map_id']
    · exact hkept id fun q hq heq => hasked ⟨q, hq, heq⟩

def choiceLoop : Workflow :=
  { reviewLoop with steps := [{ draftStep with
      jump := [⟨"next", "What next?", "enum", ["revise", "publish"], []⟩], transitions := [⟨none, "complete", none⟩] }] }

theorem publish_round_trip : validateDefinition plainText choiceLoop = .ok () ∧
      ((WorkflowHandler.new (WorkflowEngine.start choiceLoop "") choiceLoop).mapEnumLetterAnswers
        [("next", .str "B")]).lookup "next" = some (.str "publish") := by
  have hvalid : validateDefinition plainText choiceLoop = .ok () := by rfl
  have hround := jump_letters_round_trip (h := .new (WorkflowEngine.start choiceLoop "") choiceLoop) hvalid rfl
    [("next", .str "B")]
  exact ⟨hvalid, (hround.1 _ (mem_singleton_self _) rfl).2.2.1 1 (by decide) rfl⟩

end CloseClaw.Session.WorkflowHandler
