/- Compaction while other tasks write (`session_manager/compact.rs`). -/

import CloseClaw.Session.Transcript

namespace CloseClaw.Gateway.Compaction

open Session List TranscriptWrite Conversation

structure CompactionMessage where
  role : String
  content : String

inductive CompactionError where
  | llmCallFailed (e : String)
  | summaryParseFailed
  | emptyMessages

def blockText : ContentBlock → String
  | .text t => t
  | .thinking t _ => t
  | .toolUse _ _ input => input
  | .toolResult _ content => content
  | .media _ _ => ""

def flattenContentBlocks (blocks : List ContentBlock) : String := "\n".intercalate (blocks.map blockText)

def isInput (m : SessionMessage) : Bool := m.role == "user" || m.role == "assistant"

def buildCompactMessages (messages : List SessionMessage) : List CompactionMessage :=
  (messages.filter isInput).map fun m => ⟨m.role, flattenContentBlocks m.contentBlocks⟩

def find (tag : List Char) : List Char → Option Nat
  | [] => if tag = [] then some 0 else none
  | c :: cs => if tag <+: c :: cs then some 0 else (find tag cs).map (· + 1)

def extractSummary (response : String) : Option String := do
  let startTag := "<summary>".toList
  let start ← find startTag response.toList
  let stop ← find "</summary>".toList response.toList
  if stop ≤ start then none
  else some (String.ofList ((response.toList.take stop).drop (start + startTag.length)))

def formatBoundaryMessage (summary : String) (isAuto : Bool) : String :=
  "[Session Compaction | " ++ (if isAuto then "自动压缩" else "手动压缩") ++ "] " ++ summary

def summarise (chat : List CompactionMessage → Except String String) (isAuto : Bool)
    (messages : List CompactionMessage) :
    Except CompactionError String :=
  if messages = [] then .error .emptyMessages
  else
    match chat messages with
    | .error e => .error (.llmCallFailed e)
    | .ok response =>
      match extractSummary response with
      | none => .error .summaryParseFailed
      | some summary => .ok (formatBoundaryMessage summary isAuto)

def boundaryMessage (text : String) : SessionMessage := ⟨"assistant", [.text text]⟩

structure Meanwhile where
  beforeSnapshot : List TranscriptWrite
  duringCall : List TranscriptWrite
  afterwards : List TranscriptWrite

structure SnapshotIds where
  preCompaction : String
  next : String

structure Outcome where
  result : Except CompactionError String
  session : Conversation
  arrived : List SessionMessage

def applyCompactResult (s : Conversation) (boundary : String) (ids : SnapshotIds) (afterwards : List TranscriptWrite) :
    Conversation :=
  ((s.applyTranscriptOp .rewrite ids.next [boundaryMessage boundary]).writes afterwards).markCompleteSnapshot
    ids.preCompaction

def atAnswer (ids : SnapshotIds) (w : Meanwhile) (s : Conversation) : Conversation :=
  ((s.writes w.beforeSnapshot).snapshotCurrentState .rewrite "pre-compaction" ids.preCompaction).writes w.duringCall

def compact (chat : List CompactionMessage → Except String String) (isAuto : Bool) (ids : SnapshotIds) (w : Meanwhile)
    (s : Conversation) : Outcome :=
  let inputs := buildCompactMessages s.messages
  if inputs = [] then
    ⟨.error .emptyMessages, s.writes w.beforeSnapshot, appended w.beforeSnapshot⟩
  else
    let arrived := appended w.beforeSnapshot ++ appended w.duringCall ++
      appended w.afterwards
    match summarise chat isAuto inputs with
    | .ok boundary => ⟨.ok boundary, applyCompactResult (atAnswer ids w s) boundary ids w.afterwards, arrived⟩
    | .error e => ⟨.error e, ((atAnswer ids w s).rollbackTranscript ids.next).writes w.afterwards, arrived⟩

def NothingLost (s : Conversation) (o : Outcome) : Prop :=
  match o.result with
  | .ok boundary => o.session.messages.head? = some (boundaryMessage boundary) ∧
      (s.messages.filter (fun m => !isInput m) ++ o.arrived).Sublist o.session.messages.tail
  | .error _ => o.session.messages = s.messages ++ o.arrived

instance NothingLost.decidable (s : Conversation) : ∀ o, Decidable (NothingLost s o)
  | ⟨.ok _, _, _⟩ => inferInstanceAs (Decidable (_ ∧ _))
  | ⟨.error _, _, _⟩ => inferInstanceAs (Decidable (_ = _))

def AllSummarised (w : Meanwhile) (s : Conversation) : Prop :=
  (∀ m ∈ s.messages, isInput m = true) ∧ appended w.beforeSnapshot = [] ∧
    appended w.duringCall = []

def AllSaved (w : Meanwhile) : Prop := unsaved [] w.duringCall = []

/-- If the summary is asked for: on success all was summarised, on failure all was saved. -/
def Undisturbed (chat : List CompactionMessage → Except String String) (isAuto : Bool) (w : Meanwhile)
    (s : Conversation) : Prop :=
  buildCompactMessages s.messages ≠ [] →
    match summarise chat isAuto (buildCompactMessages s.messages) with
    | .ok _ => AllSummarised w s
    | .error _ => AllSaved w

variable {s : Conversation} {ids : SnapshotIds} {w : Meanwhile}

theorem messages_atAnswer : (atAnswer ids w s).messages =
    s.messages ++ appended w.beforeSnapshot ++ appended w.duringCall := by
  rw [atAnswer, messages_writes, snapshotCurrentState, messages_writes]

theorem saved_atAnswer : (atAnswer ids w s).Saved (unsaved [] w.duringCall) :=
  (saved_snapshotCurrentState _ rfl _ _).writes _

theorem messages_applyCompactResult (boundary : String) (ws : List TranscriptWrite) :
    (applyCompactResult s boundary ids ws).messages = boundaryMessage boundary :: appended ws :=
  messages_writes _ ws

theorem kept_by_rewrite_iff : (s.messages.filter (fun m => !isInput m) ++ (appended w.beforeSnapshot ++
      appended w.duringCall ++ appended w.afterwards)).Sublist (appended w.afterwards) ↔ AllSummarised w s := by
  constructor
  · intro h
    have hlen := h.length_le
    simp only [length_append] at hlen
    refine ⟨?_, length_eq_zero_iff.mp (by omega), length_eq_zero_iff.mp (by omega)⟩
    have hnil : s.messages.filter (fun m => !isInput m) = [] := length_eq_zero_iff.mp (by omega)
    intro m hm
    simpa using filter_eq_nil_iff.mp hnil m hm
  · rintro ⟨hinputs, hbefore, hduring⟩
    have hnil : s.messages.filter (fun m => !isInput m) = [] := filter_eq_nil_iff.mpr fun m hm => by simp [hinputs m hm]
    rw [hnil, hbefore, hduring]
    exact List.Sublist.refl _

theorem kept_by_rollback_iff : (((atAnswer ids w s).rollbackTranscript ids.next).writes w.afterwards).messages =
      s.messages ++ (appended w.beforeSnapshot ++ appended w.duringCall ++ appended w.afterwards) ↔ AllSaved w := by
  have hsaved : (atAnswer ids w s).Saved (unsaved [] w.duringCall) := saved_atAnswer
  have hrollback := hsaved.messages_rollback ids.next
  rw [messages_atAnswer] at hrollback
  rw [messages_writes, ← append_assoc, ← append_assoc, append_left_inj, ← hrollback]
  exact self_eq_append_right

theorem nothing_lost_iff (chat : List CompactionMessage → Except String String) (isAuto : Bool) (ids : SnapshotIds)
    (w : Meanwhile) (s : Conversation) : NothingLost s (compact chat isAuto ids w s) ↔ Undisturbed chat isAuto w s := by
  unfold compact Undisturbed
  by_cases hempty : buildCompactMessages s.messages = []
  · simp [hempty, NothingLost]
  · simp only [hempty, if_false, ne_eq, not_false_eq_true, true_imp_iff]
    cases summarise chat isAuto (buildCompactMessages s.messages) with
    | ok =>
      simp only [NothingLost, messages_applyCompactResult, List.head?_cons, tail_cons, true_and]
      exact kept_by_rewrite_iff
    | error => exact kept_by_rollback_iff

def question : SessionMessage := ⟨"user", [.text "what is left to do?"]⟩

def stepGoal : SessionMessage := workflowMessage "Step 1: run the tests"

def messageDuringCall : Meanwhile := ⟨[], [.append question], []⟩

def talk : Conversation := ⟨[⟨"user", [.text "build it"]⟩, ⟨"assistant", [.text "built"]⟩], []⟩

/-- The message is gone after a call that failed and after one that succeeded. -/
theorem a_message_during_the_call_is_lost :
    ¬ NothingLost talk (compact (fun _ => .error "timeout") true ⟨"a", "b"⟩ messageDuringCall talk) ∧
    ¬ NothingLost talk (compact (fun _ => .ok "<summary>built</summary>") true ⟨"a", "b"⟩ messageDuringCall talk) ∧
    ¬ NothingLost (talk.appendTranscript stepGoal)
      (compact (fun _ => .ok "<summary>built</summary>") true ⟨"a", "b"⟩ ⟨[], [], []⟩
        (talk.appendTranscript stepGoal)) := by
  decide +kernel

/-! ## Automatic compaction (`session_handler_compact.rs`) -/

structure RunningStats where
  totalTokens : Nat
  requestCount : Nat

structure CompactConfig where
  estimateTokens : String → Nat
  compactThreshold : Nat → Nat
  warningThreshold : Nat → Nat
  maxHistoryMessages : Option Nat
  maxConsecutiveFailures : Nat

inductive TokenWarningState where
  | normal | warning | autoCompactTriggered
  deriving DecidableEq

structure AutoCompactor where
  session : Conversation
  stats : RunningStats
  failures : Nat
  notified : Bool

def estimateMessagesTokens (cfg : CompactConfig) (messages : List CompactionMessage) : Nat :=
  messages.foldl (fun total m => total + cfg.estimateTokens m.content) 0

def estimateTotalTokens (cfg : CompactConfig) (stats : RunningStats) (messages : List CompactionMessage) : Nat :=
  if stats.requestCount = 0 then estimateMessagesTokens cfg messages
  else stats.totalTokens + estimateMessagesTokens cfg (messages.drop stats.requestCount)

def tokenWarningState (cfg : CompactConfig) (window used : Nat) : TokenWarningState :=
  if window - used ≤ cfg.compactThreshold window then .autoCompactTriggered
  else if window - used ≤ cfg.warningThreshold window then .warning
  else .normal

def truncateTranscriptToLimit (s : Conversation) (max : Option Nat) (id : String) : Conversation :=
  match max with
  | none => s
  | some limit =>
    if s.messages.length ≤ limit then s
    else { s.snapshotCurrentState .partialRewrite "truncate" id with
      messages := s.messages.drop (s.messages.length - limit) }

def pausedNotice : SessionMessage := ⟨"assistant", [.text "自动压缩已暂停，建议手动 /compact"]⟩

def runAutoCompact (cfg : CompactConfig) (chat : List CompactionMessage → Except String String) (ids : SnapshotIds)
    (w : Meanwhile) (a : AutoCompactor) : Option (Except CompactionError String) × AutoCompactor :=
  if cfg.maxConsecutiveFailures ≤ a.failures then
    (none, { a with session := if a.notified then a.session else a.session.appendTranscript pausedNotice,
                    notified := true })
  else
    let o := compact chat true ids w a.session
    match o.result with
    | .ok boundary => (some (.ok boundary), { a with session := o.session, failures := 0, notified := false })
    | .error e => (some (.error e), { a with session := o.session, failures := a.failures + 1 })

def checkAndRunAutoCompact (cfg : CompactConfig) (window : Nat) (chat : List CompactionMessage → Except String String)
    (id : String) (ids : SnapshotIds) (w : Meanwhile) (a : AutoCompactor) :
    Option (Except CompactionError String) × AutoCompactor :=
  let a := { a with session := truncateTranscriptToLimit a.session cfg.maxHistoryMessages id }
  match tokenWarningState cfg window (estimateTotalTokens cfg a.stats (buildCompactMessages a.session.messages)) with
  | .autoCompactTriggered => runAutoCompact cfg chat ids w a
  | .normal | .warning => (none, a)

section AutoCompact

variable {cfg : CompactConfig} {window : Nat} {chat : List CompactionMessage → Except String String} {id : String}
  {a : AutoCompactor} {boundary : String}

theorem buildCompactMessages_boundary (boundary : String) :
    buildCompactMessages [boundaryMessage boundary] = [⟨"assistant", boundary⟩] := by
  simp [buildCompactMessages, isInput, boundaryMessage, flattenContentBlocks, blockText]

theorem compact_ok {isAuto : Bool} (h : (compact chat isAuto ids w s).result = .ok boundary) :
    s.messages ≠ [] ∧ (compact chat isAuto ids w s).session = applyCompactResult (atAnswer ids w s) boundary ids
      w.afterwards := by
  unfold compact at h ⊢
  by_cases hempty : buildCompactMessages s.messages = []
  · simp [hempty] at h
  · simp only [hempty, if_false] at h ⊢
    refine ⟨fun hnil => hempty (by simp [hnil, buildCompactMessages]), ?_⟩
    cases hs : summarise chat isAuto (buildCompactMessages s.messages) with
    | ok =>
      simp only [hs] at h ⊢
      rw [Except.ok.inj h]
    | error =>
      simp only [hs] at h
      cases h

theorem truncate_singleton {max : Option Nat} {m : SessionMessage} {s' : Conversation}
    (h : (truncateTranscriptToLimit s max id).messages ≠ []) (hs' : s'.messages = [m]) (id' : String) :
    truncateTranscriptToLimit s' max id' = s' := by
  cases max with
  | none => rfl
  | some limit =>
    have hlimit : limit ≠ 0 := by
      rintro rfl
      apply h
      simp only [truncateTranscriptToLimit]
      split_ifs with hlen
      · exact length_eq_zero_iff.mp (Nat.le_zero.mp hlen)
      · simp
    simp only [truncateTranscriptToLimit, hs', length_singleton]
    rw [if_pos (Nat.one_le_iff_ne_zero.mpr hlimit)]

theorem check_eq_none_iff (hopen : a.failures < cfg.maxConsecutiveFailures) :
    (checkAndRunAutoCompact cfg window chat id ids w a).1 = none ↔
      tokenWarningState cfg window (estimateTotalTokens cfg a.stats (buildCompactMessages
        (truncateTranscriptToLimit a.session cfg.maxHistoryMessages id).messages)) ≠ .autoCompactTriggered := by
  simp only [checkAndRunAutoCompact]
  split
  · next htriggered =>
    simp only [runAutoCompact, if_neg (Nat.not_le_of_lt hopen), htriggered, ne_eq, not_true_eq_false, iff_false]
    split <;> simp
  · next hstate => simp [hstate]
  · next hstate => simp [hstate]

theorem estimate_boundary (stats : RunningStats) : estimateTotalTokens cfg stats [⟨"assistant", boundary⟩] =
    if stats.requestCount = 0 then cfg.estimateTokens boundary else stats.totalTokens := by
  unfold estimateTotalTokens
  split_ifs with hcount
  · simp [estimateMessagesTokens]
  · rw [drop_eq_nil_of_le (Nat.one_le_iff_ne_zero.mpr hcount)]
    rfl

theorem check_ok (h : (checkAndRunAutoCompact cfg window chat id ids w a).1 = some (.ok boundary)) :
    0 < cfg.maxConsecutiveFailures ∧
      (truncateTranscriptToLimit a.session cfg.maxHistoryMessages id).messages ≠ [] ∧
      (checkAndRunAutoCompact cfg window chat id ids w a).2 =
        ⟨applyCompactResult (atAnswer ids w (truncateTranscriptToLimit a.session cfg.maxHistoryMessages id)) boundary ids
          w.afterwards, a.stats, 0, false⟩ := by
  unfold checkAndRunAutoCompact at h ⊢
  simp only at h ⊢
  split at h
  · simp only [runAutoCompact] at h ⊢
    split_ifs at h ⊢ with hpaused
    split at h
    · next b hb =>
      obtain rfl : b = boundary := Except.ok.inj (Option.some.inj h)
      obtain ⟨hne, hsession⟩ := compact_ok hb
      exact ⟨by omega, hne, by simp [*]⟩
    · cases h
  · cases h
  · cases h

end AutoCompact

/-- After a successful compaction nothing happens at the next check when no call was counted yet or the tokens counted
    over the whole session are below the threshold: the counts outlive the messages. -/
theorem compacted_once_iff (cfg : CompactConfig) (window : Nat) (chat chat' : List CompactionMessage → Except String String)
    (id id' : String) (ids ids' : SnapshotIds) (w w' : Meanwhile) (a : AutoCompactor) (boundary : String)
    (hok : (checkAndRunAutoCompact cfg window chat id ids w a).1 = some (.ok boundary))
    (hquiet : appended w.afterwards = [])
    (hbelow : tokenWarningState cfg window (cfg.estimateTokens boundary) ≠ .autoCompactTriggered) :
    (checkAndRunAutoCompact cfg window chat' id' ids' w' (checkAndRunAutoCompact cfg window chat id ids w a).2).1 = none ↔
      a.stats.requestCount = 0 ∨ tokenWarningState cfg window a.stats.totalTokens ≠ .autoCompactTriggered := by
  obtain ⟨hmax, hne, hafter⟩ := check_ok hok
  rw [hafter, check_eq_none_iff hmax]
  have hmessages : (applyCompactResult (atAnswer ids w (truncateTranscriptToLimit a.session cfg.maxHistoryMessages id))
      boundary ids w.afterwards).messages = [boundaryMessage boundary] := by
    rw [messages_applyCompactResult, hquiet]
  rw [truncate_singleton hne hmessages, hmessages, buildCompactMessages_boundary, estimate_boundary]
  by_cases hcount : a.stats.requestCount = 0
  · simp [hcount, hbelow]
  · simp [hcount]

def longTalk : AutoCompactor := ⟨talk, ⟨900, 4⟩, 0, false⟩

def tokenPerChar : CompactConfig := ⟨String.length, fun window => window / 5, fun window => window / 4, none, 3⟩

def summariseBuilt : List CompactionMessage → Except String String := fun _ => .ok "<summary>built</summary>"

def checked (a : AutoCompactor) : Option (Except CompactionError String) × AutoCompactor :=
  checkAndRunAutoCompact tokenPerChar 1000 summariseBuilt "t" ⟨"a", "b"⟩ ⟨[], [], []⟩ a

theorem compacted_once_iff_longTalk : (checked longTalk).1 = some (.ok "[Session Compaction | 自动压缩] built") ∧
      ((checked (checked longTalk).2).1 = none ↔
        4 = 0 ∨ tokenWarningState tokenPerChar 1000 900 ≠ .autoCompactTriggered) :=
  ⟨rfl, compacted_once_iff _ _ _ _ _ _ _ _ _ _ longTalk "[Session Compaction | 自动压缩] built" rfl rfl
    (by decide +kernel)⟩

/-- With 900 counted tokens in a window of 1000 the summary is summarised again at once. -/
theorem a_compacted_session_is_compacted_again :
    (checked (checked longTalk).2).1 = some (.ok "[Session Compaction | 自动压缩] built") := rfl

end CloseClaw.Gateway.Compaction
