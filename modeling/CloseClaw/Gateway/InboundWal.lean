/- The write-ahead log of the inbound queue, and what a crash leaves of it. Every file-system call
   is a step, and a write can be cut short. -/

import CloseClaw.Lib.FirstSeen
import CloseClaw.Lib.LineFormat
import CloseClaw.Lib.Trace

namespace CloseClaw.Gateway.InboundWal

open Lib List Trace
open LineFormat (Whole whole_append_newline)

structure InboundRequest where
  platform : String
  rawPayload : List UInt8
  peerId : String
  traceId : String
  deriving DecidableEq

/-! ## Entries of the log -/

def dedup (seen : List String) : List InboundRequest → List InboundRequest
  | [] => []
  | e :: es => if e.traceId ∈ seen then dedup seen es else e :: dedup (e.traceId :: seen) es

def replay (capacity : Nat) (entries : List InboundRequest) : List InboundRequest := (dedup [] entries).take capacity

def remaining (traceId : String) (entries : List InboundRequest) : List InboundRequest :=
  entries.filter fun e => e.traceId ≠ traceId

variable {seen : List String} {es : List InboundRequest} {e : InboundRequest}

open InboundRequest

theorem dedup_eq (seen : List String) (es : List InboundRequest) : dedup seen es = FirstSeen.dedup traceId seen es := by
  induction es generalizing seen with
  | nil => rfl
  | cons e es ih => simp only [dedup, FirstSeen.dedup, ih]

theorem mem_of_mem_dedup (h : e ∈ dedup seen es) : e ∈ es := (FirstSeen.dedup_sublist _ _).subset (dedup_eq seen es ▸ h)

theorem mem_of_mem_replay {capacity : Nat} (h : e ∈ replay capacity es) : e ∈ es := mem_of_mem_dedup (mem_of_mem_take h)

theorem nodup_replay (capacity : Nat) (es : List InboundRequest) : ((replay capacity es).map traceId).Nodup := by
  rw [replay, dedup_eq, map_take]
  exact (FirstSeen.nodup_dedup [] es).sublist (take_sublist _ _)

theorem mem_remaining {traceId : String} : e ∈ remaining traceId es ↔ e ∈ es ∧ e.traceId ≠ traceId := by
  simp [remaining]

/-! ## The gateway and its log -/

inductive Consumer where
  | idle
  | processing (r : InboundRequest)
  | marking (r : InboundRequest)
  | rewriting (todo : List InboundRequest)

def Consumer.request : Consumer → List InboundRequest
  | .processing r => [r]
  | .marking r => [r]
  | _ => []

def Consumer.toWrite : Consumer → List InboundRequest
  | .rewriting todo => todo
  | _ => []

def Consumer.locks : Consumer → Bool
  | .rewriting _ => true
  | _ => false

structure State where
  file : List Char := []
  queue : List InboundRequest := []
  consumer : Consumer := .idle
  accepted : List InboundRequest := []
  finished : List InboundRequest := []

inductive Cut where
  | none
  | append (r : InboundRequest) (n : Nat)
  | write (n : Nat)

inductive Event where
  | enqueue (r : InboundRequest)
  | recv (registered : Bool)
  | processed
  | truncate
  | write
  | crash (cut : Cut)

open State

open Consumer

section Model

variable (C : LineCodec InboundRequest) (capacity : Nat)

def record (r : InboundRequest) : List Char := C.line r ++ ['\n']

def State.append (s : State) (r : InboundRequest) : State := { s with file := s.file ++ record C r }

def State.trySend (s : State) (r : InboundRequest) : State :=
  if s.queue.length < capacity then { s with queue := s.queue ++ [r], accepted := s.accepted ++ [r] } else s

def State.left (s : State) : Cut → List Char
  | .none => s.file
  | .append r n => if s.consumer.locks then s.file else s.file ++ (record C r).take n
  | .write n =>
    match s.consumer.toWrite with
    | [] => s.file
    | e :: _ => s.file ++ (record C e).take n

def State.restart (s : State) (file : List Char) : State :=
  { s with file, queue := replay capacity (C.load file), consumer := .idle }

def step (s : State) : Event → State
  -- `enqueue_inbound`: the log first, then the channel.
  | .enqueue r => if s.consumer.locks then s else (s.append C r).trySend capacity r
  | .recv registered =>
    match s.consumer, s.queue with
    | .idle, r :: rest => { s with queue := rest, consumer := if registered then .processing r else .idle }
    | _, _ => s
  | .processed =>
    match s.consumer with
    | .processing r => { s with consumer := .marking r, finished := s.finished ++ [r] }
    | _ => s
  | .truncate =>
    match s.consumer with
    | .marking r => { s with file := [], consumer := .rewriting (remaining r.traceId (C.load s.file)) }
    | _ => s
  | .write =>
    match s.consumer with
    | .rewriting [] => { s with consumer := .idle }
    | .rewriting (e :: todo) => { s with file := s.file ++ record C e, consumer := .rewriting todo }
    | _ => s
  | .crash cut => s.restart C capacity (s.left C cut)

/-- The append of `r` starts on a new line, and no entry of the log has its trace id. -/
def Appends (s : State) (r : InboundRequest) : Prop := Whole s.file ∧ ∀ e ∈ C.load s.file, e.traceId ≠ r.traceId

instance Appends.decidable (s : State) (r : InboundRequest) : Decidable (Appends C s r) :=
  inferInstanceAs (Decidable (_ ∧ _))

def Cut.request : Cut → List InboundRequest
  | .append r _ => [r]
  | _ => []

/-- The process does not stop while entries have to be written back, and the channel can
    take the requests of the log. -/
structure Stops (s : State) (cut : Cut) : Prop where
  written : s.consumer.toWrite = []
  append : ∀ r ∈ cut.request, Appends C s r
  fits : (dedup [] (C.load (s.left C cut))).length ≤ capacity

instance Stops.decidable (s : State) (cut : Cut) : Decidable (Stops C capacity s cut) :=
  decidable_of_iff (s.consumer.toWrite = [] ∧ (∀ r ∈ cut.request, Appends C s r) ∧
      (dedup [] (C.load (s.left C cut))).length ≤ capacity)
    ⟨fun h => ⟨h.1, h.2.1, h.2.2⟩, fun h => ⟨h.written, h.append, h.fits⟩⟩

def Safe (s : State) : Event → Prop
  | .enqueue r => Appends C s r
  | .crash cut => Stops C capacity s cut
  | _ => True

instance Safe.decidable (s : State) : (e : Event) → Decidable (Safe C capacity s e)
  | .enqueue r => inferInstanceAs (Decidable (Appends C s r))
  | .crash cut => inferInstanceAs (Decidable (Stops C capacity s cut))
  | .recv _ => isTrue trivial
  | .processed => isTrue trivial
  | .truncate => isTrue trivial
  | .write => isTrue trivial

/-! ## Entries are kept -/

def State.logged (s : State) : List InboundRequest := C.load s.file ++ s.consumer.toWrite

def State.pending (s : State) : List InboundRequest := s.consumer.request ++ s.queue

def Distinct (es : List InboundRequest) : Prop := ∀ a ∈ es, ∀ b ∈ es, a.traceId = b.traceId → a = b

structure Inv (s : State) : Prop where
  kept : ∀ r ∈ s.accepted, r ∉ s.finished → r ∈ s.logged C
  distinct : Distinct (s.logged C)
  pending_logged : ∀ r ∈ s.pending, r ∈ s.logged C
  pending_nodup : (s.pending.map traceId).Nodup
  whole : s.consumer.locks = true → Whole s.file
  marked : ∀ r, s.consumer = .marking r → r ∈ s.finished

variable {C capacity} {s : State}

theorem Inv.start : Inv C {} := by
  refine ⟨?_, ?_, ?_, ?_, ?_, ?_⟩
  · intro r hr
    cases hr
  · intro a ha
    cases ha
  · intro r hr
    cases hr
  · exact nodup_nil
  · intro h
    cases h
  · intro r h
    cases h

theorem load_append_record (h : Whole s.file) (r : InboundRequest) :
    C.load (s.file ++ record C r) = C.load s.file ++ [r] := by
  rw [C.load_append h, record, C.load_line]

variable {es : List InboundRequest} {r : InboundRequest}

theorem Distinct.append (h : Distinct es) (hr : ∀ e ∈ es, e.traceId ≠ r.traceId)
    {ds : List InboundRequest} (hds : ∀ d ∈ ds, d = r) : Distinct (es ++ ds) := by
  intro a ha b hb hid
  rcases mem_append.mp ha with ha | ha <;> rcases mem_append.mp hb with hb | hb
  · exact h a ha b hb hid
  · exact absurd (hds b hb ▸ hid) (hr a ha)
  · exact absurd (hds a ha ▸ hid.symm) (hr b hb)
  · rw [hds a ha, hds b hb]

theorem logged_of_not_locks (h : s.consumer.locks = false) : s.logged C = C.load s.file := by
  unfold logged
  cases hc : s.consumer <;> simp_all [toWrite, locks]

theorem logged_append (hlock : s.consumer.locks = false) (h : Whole s.file) (r : InboundRequest) :
    (s.append C r).logged C = s.logged C ++ [r] := by
  have hlock' : (s.append C r).consumer.locks = false := hlock
  rw [logged_of_not_locks hlock, logged_of_not_locks hlock']
  exact load_append_record h r

theorem Inv.append (hi : Inv C s) (hlock : s.consumer.locks = false) (ha : Appends C s r) : Inv C (s.append C r) := by
  have hlog := logged_append (C := C) hlock ha.1 r
  refine ⟨?_, ?_, ?_, hi.pending_nodup, ?_, hi.marked⟩
  · intro q hq hnf
    rw [hlog]
    exact mem_append_left _ (hi.kept q hq hnf)
  · rw [hlog]
    refine hi.distinct.append ?_ (fun d hd => mem_singleton.mp hd)
    rw [logged_of_not_locks hlock]
    exact ha.2
  · intro q hq
    rw [hlog]
    exact mem_append_left _ (hi.pending_logged q hq)
  · intro h
    exact absurd (hlock.symm.trans h) (by decide)

theorem Inv.trySend (hi : Inv C s) (hr : r ∈ s.logged C)
    (hp : ∀ e ∈ s.pending, e.traceId ≠ r.traceId) : Inv C (s.trySend capacity r) := by
  unfold State.trySend
  split
  · refine ⟨?_, hi.distinct, ?_, ?_, hi.whole, hi.marked⟩
    · intro q hq hnf
      rcases mem_append.mp hq with hq | hq
      · exact hi.kept q hq hnf
      · rwa [mem_singleton.mp hq]
    · intro q hq
      simp only [pending, ← append_assoc] at hq
      rcases mem_append.mp hq with hq | hq
      · exact hi.pending_logged q hq
      · rwa [mem_singleton.mp hq]
    · have hmap : ((s.pending ++ [r]).map traceId).Nodup := by
        rw [map_append]
        refine nodup_append.mpr ⟨hi.pending_nodup, nodup_singleton _, ?_⟩
        intro id hid id' hid'
        obtain ⟨e, he, rfl⟩ := mem_map.mp hid
        obtain rfl : id' = r.traceId := by simpa using hid'
        exact hp e he
      simpa [pending] using hmap
  · exact hi

theorem Inv.enqueue (hi : Inv C s) (hlock : s.consumer.locks = false) (ha : Appends C s r) :
    Inv C ((s.append C r).trySend capacity r) := by
  have hlog := logged_append (C := C) hlock ha.1 r
  refine (hi.append hlock ha).trySend (by simp [hlog]) ?_
  intro e he
  have hmem : e ∈ s.logged C := hi.pending_logged e he
  rw [logged_of_not_locks hlock] at hmem
  exact ha.2 e hmem

/-! ## The consumer's steps -/

theorem Inv.of_logged_eq (hi : Inv C s) {s' : State} (hlog : s'.logged C = s.logged C)
    (hacc : s'.accepted = s.accepted) (hfin : s.finished ⊆ s'.finished) (hp : s'.pending.Sublist s.pending)
    (hw : s'.consumer.locks = true → Whole s'.file) (hm : ∀ r, s'.consumer = .marking r → r ∈ s'.finished) :
    Inv C s' := by
  refine ⟨?_, ?_, ?_, ?_, hw, hm⟩
  · intro r hr hnf
    rw [hlog]
    exact hi.kept r (hacc ▸ hr) (fun hf => hnf (hfin hf))
  · rw [hlog]
    exact hi.distinct
  · intro r hr
    rw [hlog]
    exact hi.pending_logged r (hp.subset hr)
  · exact hi.pending_nodup.sublist (hp.map _)

theorem Inv.recv (hi : Inv C s) (registered : Bool) : Inv C (step C capacity s (.recv registered)) := by
  cases hc : s.consumer with
  | idle =>
    cases hq : s.queue with
    | nil => simpa only [step, hc, hq] using hi
    | cons r rest =>
      have hpend : s.pending = r :: rest := by simp [pending, hc, hq, request]
      simp only [step, hc, hq]
      -- Without a plugin the request is gone from the channel, and its entry stays.
      cases registered with
      | true =>
        refine hi.of_logged_eq (by simp [logged, hc, toWrite]) rfl (List.Subset.refl _) ?_ (by simp [locks]) (by simp)
        rw [hpend]
        exact List.Sublist.refl _
      | false =>
        refine hi.of_logged_eq (by simp [logged, hc, toWrite]) rfl (List.Subset.refl _) ?_ (by simp [locks]) (by simp)
        rw [hpend]
        exact sublist_cons_self _ _
  | processing | marking | rewriting => simpa only [step, hc] using hi

theorem Inv.processed (hi : Inv C s) : Inv C (step C capacity s .processed) := by
  cases hc : s.consumer with
  | processing =>
    simp only [step, hc]
    refine hi.of_logged_eq (by simp [logged, hc, toWrite]) rfl (subset_append_left _ _) ?_ (by simp [locks]) (by simp)
    simp [pending, hc, request]
  | idle | marking | rewriting => simpa only [step, hc] using hi

theorem Inv.write (hi : Inv C s) : Inv C (step C capacity s .write) := by
  cases hc : s.consumer with
  | rewriting todo =>
    have hw : Whole s.file := hi.whole (by simp [hc, locks])
    cases todo with
    | nil =>
      simp only [step, hc]
      refine hi.of_logged_eq (by simp [logged, hc, toWrite]) rfl (List.Subset.refl _) ?_ (by simp [locks]) (by simp)
      simp [pending, hc, request]
    | cons =>
      simp only [step, hc]
      refine hi.of_logged_eq ?_ rfl (List.Subset.refl _) ?_ ?_ (by simp)
      · simp [logged, hc, toWrite, load_append_record hw]
      · simp [pending, hc, request]
      · intro _
        rw [record, ← append_assoc]
        exact whole_append_newline _
  | idle | processing | marking => simpa only [step, hc] using hi

theorem Inv.truncate (hi : Inv C s) : Inv C (step C capacity s .truncate) := by
  cases hc : s.consumer with
  | marking r =>
    have hlog : s.logged C = C.load s.file := logged_of_not_locks (by simp [hc, locks])
    have hpend : s.pending = r :: s.queue := by simp [pending, hc, request]
    have hr : r ∈ s.logged C := hi.pending_logged r (by simp [hpend])
    have hnodup := hi.pending_nodup
    rw [hpend, map_cons, nodup_cons] at hnodup
    have hne : ∀ q ∈ s.queue, q.traceId ≠ r.traceId := fun q hq he =>
      hnodup.1 (he ▸ mem_map_of_mem hq)
    rw [hlog] at hr
    simp only [step, hc]
    refine ⟨?_, ?_, ?_, ?_, fun _ => .inl rfl, by simp⟩
    · -- Another accepted request with the trace id would be the one that has finished.
      intro q hq hnf
      have hql : q ∈ C.load s.file := hlog ▸ hi.kept q hq hnf
      refine mem_append_right _ (mem_remaining.mpr ⟨hql, ?_⟩)
      intro hid
      have hqr : q = r := hi.distinct q (hlog ▸ hql) r (hlog ▸ hr) hid
      exact hnf (hqr ▸ hi.marked r hc)
    · intro a ha b hb hid
      simp only [logged, toWrite, LineCodec.load_nil, nil_append, mem_remaining] at ha hb
      exact hi.distinct a (hlog ▸ ha.1) b (hlog ▸ hb.1) hid
    · intro q hq
      have hqq : q ∈ s.queue := by simpa [pending, request] using hq
      have hql : q ∈ C.load s.file := hlog ▸ hi.pending_logged q (by simp [hpend, hqq])
      exact mem_append_right _ (mem_remaining.mpr ⟨hql, hne q hqq⟩)
    · simpa [pending, request] using hnodup.2
  | idle | processing | rewriting => simpa only [step, hc] using hi

/-! ## Without a crash the log is a list -/

/-! ## A crash -/

theorem load_left {cut : Cut} (h : Stops C capacity s cut) (hd : Distinct (C.load s.file)) :
    ∃ torn, C.load (s.left C cut) = C.load s.file ++ torn ∧ Distinct (C.load s.file ++ torn) := by
  cases cut with
  | none => exact ⟨[], by simp [left], by simpa using hd⟩
  | append r n =>
    have ha := h.append r (by simp [Cut.request])
    by_cases hl : s.consumer.locks = true
    · exact ⟨[], by simp [left, hl], by simpa using hd⟩
    · refine ⟨C.load ((record C r).take n), ?_, ?_⟩
      · simp only [left, hl]
        exact C.load_append ha.1 _
      · exact hd.append ha.2 (fun e he => C.mem_load_part (List.take_prefix n _) he)
  | write => exact ⟨[], by simp [left, h.written], by simpa using hd⟩

theorem Inv.crash (hi : Inv C s) {cut : Cut} (h : Stops C capacity s cut) : Inv C (step C capacity s (.crash cut)) := by
  have hlog : s.logged C = C.load s.file := by simp [logged, h.written]
  obtain ⟨torn, hleft, hdistinct⟩ := load_left h (hlog ▸ hi.distinct)
  have hlog' : (step C capacity s (.crash cut)).logged C = C.load s.file ++ torn := by
    simp [step, restart, logged, toWrite, hleft]
  have hpend : (step C capacity s (.crash cut)).pending = replay capacity (C.load s.file ++ torn) := by
    simp [step, restart, pending, request, hleft]
  refine ⟨?_, ?_, ?_, ?_, by simp [step, restart, locks], by simp [step, restart]⟩
  · intro r hr hnf
    rw [hlog']
    exact mem_append_left _ (hlog ▸ hi.kept r hr hnf)
  · rw [hlog']
    exact hdistinct
  · intro r hr
    rw [hpend] at hr
    rw [hlog']
    exact mem_of_mem_replay hr
  · rw [hpend]
    exact nodup_replay _ _

theorem Inv.step (hi : Inv C s) {e : Event} (h : Safe C capacity s e) : Inv C (InboundWal.step C capacity s e) := by
  cases e with
  | enqueue =>
    simp only [InboundWal.step]
    split
    · exact hi
    · next hl => exact hi.enqueue (by simpa using hl) h
  | recv registered => exact hi.recv registered
  | processed => exact hi.processed
  | truncate => exact hi.truncate
  | write => exact hi.write
  | crash => exact hi.crash h

theorem inv_run {events : List Event} (h : Along (step C capacity) (Safe C capacity) {} events) :
    Inv C (run (step C capacity) {} events) :=
  invariant_along (fun _ _ hi he => hi.step he) Inv.start h

theorem mem_replay_of_fits (hd : Distinct es) (hfits : (dedup [] es).length ≤ capacity)
    (hr : r ∈ es) : r ∈ replay capacity es := by
  rw [replay, take_of_length_le hfits]
  obtain ⟨d, hmem, hid⟩ := FirstSeen.exists_mem_dedup traceId hr not_mem_nil
  rw [← dedup_eq] at hmem
  rwa [← hd d (mem_of_mem_dedup hmem) r hr hid]

end Model

/-! ## A line format

The runs below are evaluated with a format of the same shape as the source's JSON: one
pair of braces around fields that have none. -/

def tally (n : Nat) : List Char := List.replicate (n / 16) 'x' ++ (List.replicate (n % 16) 'i' ++ ['.'])

def field (ns : List Nat) : List Char := ns.flatMap tally ++ [';']

def readField (n : Nat) : List Char → Option (List Nat × List Char)
  | [] => none
  | c :: cs =>
    if c = 'x' then readField (n + 16) cs
    else if c = 'i' then readField (n + 1) cs
    else if c = '.' then (readField 0 cs).map (Prod.map (n :: ·) id)
    else if c = ';' then some ([], cs)
    else none

variable (m n : Nat) {c : Char} (rest : List Char)

theorem readField_crosses : readField m (List.replicate n 'x' ++ rest) = readField (m + 16 * n) rest := by
  induction n generalizing m with
  | zero => rfl
  | succ n ih =>
    rw [replicate_succ, cons_append, readField, if_pos rfl, ih]
    congr 1
    omega

theorem readField_strokes : readField m (List.replicate n 'i' ++ rest) = readField (m + n) rest := by
  induction n generalizing m with
  | zero => rfl
  | succ n ih =>
    rw [replicate_succ, cons_append, readField, if_neg (by decide), if_pos rfl, ih]
    congr 1
    omega

theorem readField_tally : readField 0 (tally n ++ rest) = (readField 0 rest).map (Prod.map (n :: ·) id) := by
  have hn : 0 + 16 * (n / 16) + n % 16 = n := by omega
  rw [tally, append_assoc, append_assoc, readField_crosses, readField_strokes, hn]
  simp [readField]

theorem readField_field (ns : List Nat) (rest : List Char) : readField 0 (field ns ++ rest) = some (ns, rest) := by
  induction ns with
  | nil => rfl
  | cons n ns ih =>
    have hcons : field (n :: ns) ++ rest = tally n ++ (field ns ++ rest) := by simp [field]
    rw [hcons, readField_tally, ih]
    rfl

def codes (t : String) : List Nat := t.toList.map Char.toNat

def ofCodes (ns : List Nat) : String := String.ofList (ns.map Char.ofNat)

theorem ofCodes_codes (t : String) : ofCodes (codes t) = t := by
  have hid : Char.ofNat ∘ Char.toNat = id := funext Char.ofNat_toNat
  simp [ofCodes, codes, hid]

def fields (r : InboundRequest) : List Char :=
  field (codes r.platform) ++ (field (r.rawPayload.map UInt8.toNat) ++ (field (codes r.peerId) ++
    (field (codes r.traceId) ++ [])))

def readFields (cs : List Char) : Option InboundRequest := do
  let (platform, cs) ← readField 0 cs
  let (payload, cs) ← readField 0 cs
  let (peerId, cs) ← readField 0 cs
  let (traceId, _) ← readField 0 cs
  some ⟨ofCodes platform, payload.map UInt8.ofNat, ofCodes peerId, ofCodes traceId⟩

theorem readFields_fields (r : InboundRequest) : readFields (fields r) = some r := by
  have hid : UInt8.ofNat ∘ UInt8.toNat = id := funext fun _ => UInt8.ofNat_toNat
  have hlast : readField 0 (field (codes r.traceId)) = some (codes r.traceId, []) := by
    simpa using readField_field (codes r.traceId) []
  simp [readFields, fields, readField_field, hlast, ofCodes_codes, hid]

def stroke (c : Char) : Bool := c = 'x' || c = 'i' || c = '.' || c = ';'

theorem stroke_of_mem_field {ns : List Nat} (h : c ∈ field ns) : stroke c = true := by
  rcases mem_append.mp h with h | h
  · obtain ⟨n, -, hn⟩ := mem_flatMap.mp h
    simp only [tally, mem_append, mem_replicate, mem_singleton] at hn
    rcases hn with ⟨-, rfl⟩ | ⟨-, rfl⟩ | rfl <;> rfl
  · rw [mem_singleton.mp h]
    rfl

theorem stroke_of_mem_fields {r : InboundRequest} (h : c ∈ fields r) : stroke c = true := by
  simp only [fields, mem_append, not_mem_nil, or_false] at h
  rcases h with h | h | h | h <;> exact stroke_of_mem_field h

theorem stroke_not_mem {r : InboundRequest} (hc : stroke c = false) : c ∉ fields r := fun h =>
  absurd (hc.symm.trans (stroke_of_mem_fields h)) (by decide)

def readBraced : List Char → Option InboundRequest
  | [] => none
  | c :: cs => if c = '\x7b' ∧ cs.getLast? = some '\x7d' then readFields cs.dropLast else none

def braced : LineCodec InboundRequest where
  line r := '\x7b' :: (fields r ++ ['\x7d'])
  parse := readBraced
  parse_line r := by simp [readBraced, readFields_fields]
  newline_not_mem r := by simp [stroke_not_mem (c := '\n') rfl]
  return_not_mem r := by simp [stroke_not_mem (c := '\r') rfl]
  starts r := ⟨'\x7b', _, rfl, by decide⟩
  parse_cut r p hp hne := by
    cases p with
    | nil => rfl
    | cons c cs =>
      rw [cons_prefix_cons] at hp
      -- The closing brace is the last character, and it is missing.
      have hcs : cs <+: fields r := by
        rcases prefix_concat_iff.mp hp.2 with rfl | h
        · exact absurd (by rw [hp.1]) hne
        · exact h
      have hlast : cs.getLast? ≠ some '\x7d' := fun h =>
        stroke_not_mem (r := r) (c := '\x7d') rfl (hcs.subset (List.mem_of_getLast? h))
      simp [readBraced, hlast]

theorem accepted_survive_crash (C : LineCodec InboundRequest) (capacity : Nat) (events : List Event) (cut : Cut)
    (h : Along (step C capacity) (Safe C capacity) {} (events ++ [Event.crash cut])) (r : InboundRequest)
    (hr : r ∈ (run (step C capacity) {} events).accepted) (hnf : r ∉ (run (step C capacity) {} events).finished) :
    r ∈ (run (step C capacity) {} (events ++ [Event.crash cut])).queue := by
  obtain ⟨hrun, hcrash, -⟩ := along_append.mp h
  have hi := inv_run hrun
  rw [run_append]
  generalize run (step C capacity) {} events = s at *
  have hlog : s.logged C = C.load s.file := by simp [logged, hcrash.written]
  obtain ⟨torn, hleft, hdistinct⟩ := load_left hcrash (hlog ▸ hi.distinct)
  have hmem : r ∈ C.load s.file ++ torn := mem_append_left _ (hlog ▸ hi.kept r hr hnf)
  have hfits := hcrash.fits
  rw [hleft] at hfits
  have hq := mem_replay_of_fits hdistinct hfits hmem
  rw [← hleft] at hq
  exact hq

def inbound (traceId : String) : InboundRequest := ⟨"im", [1], "p", traceId⟩

def oneFinished : List Event :=
  [.enqueue (inbound "a"), .enqueue (inbound "b"), .recv true, .processed, .truncate, .write, .write]

theorem accepted_survive_crash_torn :
    inbound "b" ∈ (run (step braced 2) {} (oneFinished ++ [Event.crash (.append (inbound "c") 9)])).queue :=
  accepted_survive_crash braced 2 oneFinished (.append (inbound "c") 9) (by decide +kernel) (inbound "b")
    (by decide +kernel) (by decide +kernel)

def inRewrite : List Event :=
  [.enqueue (inbound "a"), .enqueue (inbound "b"), .recv true, .processed, .truncate]

def behindTornLine : List Event := [.crash (.append (inbound "a") 9), .enqueue (inbound "b")]

def moreThanFits : List Event := [.enqueue (inbound "a"), .recv true, .enqueue (inbound "b")]

def Lost (capacity : Nat) (events : List Event) : Prop :=
  inbound "b" ∈ (run (step braced capacity) {} events).accepted ∧
    inbound "b" ∉ (run (step braced capacity) {} events).finished ∧
    inbound "b" ∉ (run (step braced capacity) {} (events ++ [Event.crash .none])).queue

theorem accepted_lost_in_crash : Lost 2 inRewrite ∧ Lost 2 behindTornLine ∧ Lost 1 moreThanFits := by
  unfold Lost
  decide +kernel

end CloseClaw.Gateway.InboundWal
