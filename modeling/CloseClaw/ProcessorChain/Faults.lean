/- A chain with processors that fail (`processor_chain/src/registry.rs`). The inbound loop is the
   outbound one with nothing excluded; the metadata is what serde writes. -/

import CloseClaw.ProcessorChain.Outbound

namespace CloseClaw.ProcessorChain

open List MessageContext

/-! ## The inbound chain -/

structure NormalizedMessage where
  content : String
  messageType : String
  unavailableMedia : String

def injectChainDispatcherKeys (msg : NormalizedMessage) : Metadata :=
  ((∅ : Metadata).insert "message_type" msg.messageType).insert "unavailable_media" msg.unavailableMedia

abbrev byPriority (chain : List Processor) : List Processor := chain.insertionSort fun p q => p.priority ≤ q.priority

def MessageContext.fromNormalized (msg : NormalizedMessage) : MessageContext :=
  ⟨msg.content, injectChainDispatcherKeys msg, false, []⟩

def MessageContext.inboundResult (ctx : MessageContext) : ProcessedMessage where
  contentBlocks :=
    if ctx.skip then [] else if ctx.contentBlocks.isEmpty then [.text ctx.content] else ctx.contentBlocks
  metadata := ctx.metadata

def processInbound (inbound : List Processor) (msg : NormalizedMessage) : ProcessedMessage :=
  if inbound.isEmpty then ⟨[.text msg.content], injectChainDispatcherKeys msg⟩
  else (runOutbound [] (byPriority inbound) (.fromNormalized msg)).inboundResult

def processOutboundWithoutVerbosity (outbound : List Processor) (msg : ProcessedMessage) : ProcessedMessage :=
  processOutboundFiltered outbound ["verbosity_filter"] msg

/-! ## Taking processors out of a sorted chain -/

section Sorting

variable {α : Type} (key : α → Nat) (keep : α → Bool)

theorem filter_orderedInsert (a : α) {l : List α} (h : l.Pairwise fun a b => key a ≤ key b) :
    (l.orderedInsert (key · ≤ key ·) a).filter keep =
      if keep a then (l.filter keep).orderedInsert (key · ≤ key ·) a else l.filter keep := by
  induction l with
  | nil => by_cases ha : keep a <;> simp [ha]
  | cons b l ih =>
    obtain ⟨hb, hl⟩ := pairwise_cons.mp h
    by_cases hab : key a ≤ key b
    · have hfirst : ((b :: l).filter keep).orderedInsert (key · ≤ key ·) a = a :: (b :: l).filter keep := by
        cases hf : (b :: l).filter keep with
        | nil => rfl
        | cons c cs =>
          have hc : c ∈ b :: l := mem_of_mem_filter (hf ▸ mem_cons_self)
          have hbc : key b ≤ key c := by
            rcases mem_cons.mp hc with rfl | hc
            · exact Nat.le_refl _
            · exact hb c hc
          simp [Nat.le_trans hab hbc]
      rw [hfirst, orderedInsert_cons_of_le _ l hab, filter_cons]
    · by_cases ha : keep a <;> by_cases hkb : keep b <;> simp [hab, ha, hkb, ih hl]

theorem filter_insertionSort (l : List α) :
    (l.insertionSort (key · ≤ key ·)).filter keep = (l.filter keep).insertionSort (key · ≤ key ·) := by
  have : Std.Total fun a b : α => key a ≤ key b := ⟨fun a b => Nat.le_total (key a) (key b)⟩
  have : IsTrans α fun a b => key a ≤ key b := ⟨fun _ _ _ => Nat.le_trans⟩
  induction l with
  | nil => rfl
  | cons a l ih =>
    rw [insertionSort_cons, filter_orderedInsert key keep a (pairwise_insertionSort _ l), ih]
    by_cases ha : keep a <;> simp [ha]

end Sorting

/-! ## Processors that fail -/

def MessageContext.next (ctx : MessageContext) (out : ProcessedMessage) : MessageContext :=
  { ctx with
    content := out.textContent.getD ""
    contentBlocks := out.contentBlocks
    metadata := out.metadata ∪ ctx.metadata }

/-- Every marked processor that the run from `ctx` reaches fails. -/
def MarkedFail : List (Processor × Bool) → MessageContext → Prop
  | [], _ => True
  | (p, marked) :: ps, ctx =>
    match p.process ctx with
    | .ok (some out) => marked = false ∧ MarkedFail ps (ctx.next out)
    | .ok none => marked = false
    | .error _ => MarkedFail ps ctx

abbrev unmarked (chain : List (Processor × Bool)) : List Processor := (chain.filter fun p => !p.2).map Prod.fst

theorem run_unmarked {chain : List (Processor × Bool)} {ctx : MessageContext} (hskip : ctx.skip = false)
    (h : MarkedFail chain ctx) : runOutbound [] (chain.map Prod.fst) ctx = runOutbound [] (unmarked chain) ctx := by
  induction chain generalizing ctx with
  | nil => rfl
  | cons p ps ih =>
    obtain ⟨p, marked⟩ := p
    cases hp : p.process ctx with
    | error e =>
      simp only [MarkedFail, hp] at h
      cases marked <;> simp [unmarked, runOutbound, hskip, hp, ih hskip h]
    | ok out =>
      cases out with
      | none =>
        simp only [MarkedFail, hp] at h
        simp [unmarked, runOutbound, hskip, hp, h]
      | some out =>
        simp only [MarkedFail, hp] at h
        obtain ⟨rfl, h⟩ := h
        simpa [unmarked, runOutbound, hskip, hp, MessageContext.next] using ih (show (ctx.next out).skip = false from hskip) h

theorem run_excluded (name : String) (ps : List Processor) (ctx : MessageContext) :
    runOutbound [name] ps ctx = runOutbound [] (ps.filter (·.name ≠ name)) ctx := by
  induction ps generalizing ctx with
  | nil => rfl
  | cons p ps ih =>
    by_cases hname : p.name = name
    · by_cases hskip : ctx.skip
      · rw [filter_cons_of_neg (by simp [hname]), ← ih, runOutbound, if_pos hskip]
        cases ps <;> simp [runOutbound, hskip]
      · simp [runOutbound, hskip, hname, ih]
    · simp only [runOutbound, hname, ih, ne_eq, decide_not, contains_cons, contains_nil, Bool.or_false,
        beq_iff_eq, decide_false, Bool.not_false, filter_cons_of_pos, Bool.false_eq_true, if_false]

abbrev sortMarked (chain : List (Processor × Bool)) : List (Processor × Bool) :=
  chain.insertionSort fun p q => p.1.priority ≤ q.1.priority

variable (chain : List (Processor × Bool))

theorem byPriority_map_fst :
    byPriority (chain.map Prod.fst) = (sortMarked chain).map Prod.fst :=
  (map_insertionSort (fun p q : Processor × Bool => p.1.priority ≤ q.1.priority)
    (fun p q : Processor => p.priority ≤ q.priority) _ _ fun _ _ _ _ => Iff.rfl).symm

theorem byPriority_unmarked : byPriority (unmarked chain) = unmarked (sortMarked chain) := by
  rw [unmarked, byPriority_map_fst, unmarked, sortMarked, filter_insertionSort fun p : Processor × Bool => p.1.priority]

/-! ## The results of a chain -/

theorem processInbound_eq (chain : List Processor) (msg : NormalizedMessage) :
    processInbound chain msg = (runOutbound [] (byPriority chain) (.fromNormalized msg)).inboundResult := by
  cases chain <;> rfl

def ProcessedMessage.context (m : ProcessedMessage) : MessageContext :=
  ⟨m.textContent.getD "", m.metadata, false, m.contentBlocks⟩

theorem processOutboundFiltered_eq {chain rest : List Processor} {exclude : List String} {m : ProcessedMessage}
    (hrest : chain = [] → rest = []) (hsome : m.contentBlocks ≠ [] ∨ rest ≠ [])
    (h : runOutbound exclude (byPriority chain) m.context = runOutbound [] (byPriority rest) m.context) :
    processOutboundFiltered chain exclude m = processOutbound rest m := by
  cases chain with
  | nil =>
    rw [hrest rfl]
    rfl
  | cons p ps =>
    have hrun : processOutboundFiltered (p :: ps) exclude m =
        let ctx := runOutbound [] (byPriority rest) m.context
        ⟨if ctx.skip then []
          else if ctx.contentBlocks.isEmpty && !!m.contentBlocks.isEmpty then [.text ctx.content]
          else ctx.contentBlocks, ctx.metadata⟩ := by
      rw [← h]
      rfl
    rw [hrun]
    cases rest with
    | nil =>
      have hblocks : m.contentBlocks.isEmpty = false := by simpa using hsome
      simp [processOutbound, processOutboundFiltered, runOutbound, ProcessedMessage.context, hblocks]
    | cons q qs => rfl

/-- The result of a chain is that of the chain without any set of processors that fail on the
message. An outbound message without a block has to meet a processor that is left: the empty
chain returns it as it is, every other chain gives it a text. -/
theorem faults_are_isolated (inbound outbound : List (Processor × Bool)) (msg : NormalizedMessage)
    (m : ProcessedMessage) :
    (MarkedFail (sortMarked inbound) (.fromNormalized msg) →
        processInbound (inbound.map Prod.fst) msg = processInbound (unmarked inbound) msg) ∧
      (MarkedFail (sortMarked outbound) m.context → m.contentBlocks ≠ [] ∨ unmarked outbound ≠ [] →
        processOutbound (outbound.map Prod.fst) m = processOutbound (unmarked outbound) m) ∧
      ∀ chain : List Processor, m.contentBlocks ≠ [] ∨ chain.filter (·.name ≠ "verbosity_filter") ≠ [] →
        processOutboundWithoutVerbosity chain m = processOutbound (chain.filter (·.name ≠ "verbosity_filter")) m := by
  refine ⟨fun h => ?_, fun h hsome => ?_, fun chain hsome => ?_⟩
  · rw [processInbound_eq, processInbound_eq, byPriority_map_fst, run_unmarked rfl h, byPriority_unmarked]
  · refine processOutboundFiltered_eq (fun hnil => by simp [unmarked, map_eq_nil_iff.mp hnil]) hsome ?_
    rw [byPriority_map_fst, run_unmarked rfl h, byPriority_unmarked]
  · refine processOutboundFiltered_eq (fun hnil => by simp [hnil]) hsome ?_
    rw [run_excluded, byPriority, filter_insertionSort Processor.priority]

def failing : Processor := ⟨"failing", 7, fun _ => .error (.processorFailed "failing" "down")⟩

theorem a_failing_processor_is_passed_over : processOutbound [failing, verbosityFilter] ⟨[.text "hi"], ∅⟩ =
      processOutbound [verbosityFilter] ⟨[.text "hi"], ∅⟩ :=
  (faults_are_isolated [] [(failing, true), (verbosityFilter, false)] ⟨"", "", ""⟩ ⟨[.text "hi"], ∅⟩).2.1
    ⟨rfl, trivial⟩ (.inl (by simp))

theorem an_empty_message_gets_a_text : (processOutbound [failing] ⟨[], ∅⟩).contentBlocks = [.text ""] ∧
      (processOutbound [] ⟨[], ∅⟩).contentBlocks = [] := by
  decide +kernel

end CloseClaw.ProcessorChain
