/- The message queue is a family of FIFO queues. -/

import CloseClaw.Lib.Trace
import CloseClaw.Session.MessageQueue

namespace CloseClaw.Session

open Lib List Function QueueEntry LaneQueue QueueRun

abbrev Fifos := Group → List QueueEntry

namespace Fifos

def empty : Fifos := fun _ => []

def append (q : Fifos) (e : QueueEntry) : Fifos := Function.update q e.group (q e.group ++ [e])

def Ignores (q : Fifos) (e : QueueEntry) : Prop :=
  ∃ event other g, e = .announce event ∧ .announce other ∈ q g ∧ other.childSessionId = event.childSessionId

def InOrder (q : Fifos) (es : List QueueEntry) : Prop :=
  (es.Pairwise fun a b => a.group ≤ b.group) ∧ ∀ g, es.filter (fun e => decide (e.group = g)) = q g

def userGroup : Group := toLex (OrderDual.toDual .later, true)

end Fifos

open Fifos

inductive Serves : Fifos → QueueOp → QueueReply → Fifos → Prop
  | ignore {q : Fifos} {e : QueueEntry} : q.Ignores e → Serves q (.push e) .done q
  | accept {q : Fifos} {e : QueueEntry} : ¬ q.Ignores e → Serves q (.push e) .done (q.append e)
  | popNone {q : Fifos} : (∀ g, q g = []) → Serves q .pop (.entry none) q
  | popFirst {q : Fifos} {g : Group} {e : QueueEntry} {rest : List QueueEntry} : q g = e :: rest →
    (∀ g' < g, q g' = []) →
      Serves q .pop (.entry (some e)) (Function.update q g rest)
  | drain {q : Fifos} {es : List QueueEntry} : q.InOrder es → Serves q .drainQueue (.entries es) empty
  | popPendingNone {q : Fifos} : q userGroup = [] → Serves q .popPending (.message none) q
  | popPendingFirst {q : Fifos} {msg : PendingMessage} {rest : List QueueEntry} :
      q userGroup = .userMessage msg :: rest →
      Serves q .popPending (.message (some msg)) (Function.update q userGroup rest)
  | drainAnnounce {q : Fifos} {events : List AnnounceEvent} :
      InOrder (fun g => (q g).filter fun e => e.asAnnounce.isSome) (events.map .announce) →
      Serves q .drainAnnounceQueue (.announces events) fun g => (q g).filter fun e => e.asAnnounce.isNone
  | restore {q : Fifos} {messages : List PendingMessage} :
      Serves q (.restorePendingMessages messages) .done
        (((messages.filter fun msg => !msg.sent).map userMessage).foldl append q)
  | clearQueue {q : Fifos} {es : List QueueEntry} : q.InOrder es → Serves q .clearQueue (.count es.length) empty
  | clearPending {q : Fifos} : Serves q .clearPending (.count (q userGroup).length)
    (Function.update q userGroup [])

/-! ## Entries -/

variable {e : QueueEntry}

theorem QueueEntry.isUser_iff : e.isUser = true ↔ e.group = userGroup := by
  cases e with
  | userMessage => simp [isUser, group, userGroup, priority]
  | announce | backgroundToolNotification | systemNotification => simp [isUser, group, userGroup]

theorem QueueEntry.asAnnounce_eq_some {event : AnnounceEvent} : e.asAnnounce = some event ↔ e = .announce event := by
  cases e <;> simp [asAnnounce]

theorem QueueEntry.asUser_eq_some {msg : PendingMessage} : e.asUser = some msg ↔ e = .userMessage msg := by
  cases e <;> simp [asUser]

theorem QueueEntry.asUser_eq_none : e.asUser = none ↔ e.group ≠ userGroup := by
  rw [ne_eq, ← isUser_iff]
  cases e <;> simp [asUser, isUser]

namespace UnifiedMessageQueue

def fifos (q : UnifiedMessageQueue) : Fifos := fun g => q.pending.filter fun e => decide (e.group = g)

def childrenOf (es : List QueueEntry) : List String :=
  (es.filterMap asAnnounce).map AnnounceEvent.childSessionId

structure Inv (q : UnifiedMessageQueue) : Prop where
  ordered : Ordered QueueItem.group QueueItem.seq q.entries
  fresh : ∀ i ∈ q.entries, i.seq < q.nextSeq
  children : (childrenOf q.pending).Nodup

variable {q : UnifiedMessageQueue} {e : QueueEntry}

theorem announceEvents_eq : q.announceEvents = q.pending.filterMap asAnnounce := by
  simp only [announceEvents, pending, filterMap_map, comp_def]

theorem fifos_eq_view (g : Group) : q.fifos g = (view QueueItem.group q.entries g).map QueueItem.entry := by
  rw [fifos, pending, filter_map]
  rfl

theorem Inv.pending_sorted (h : Inv q) : q.pending.Pairwise fun a b => a.group ≤ b.group := by
  rw [pending, pairwise_map]
  exact h.ordered.lane_le

theorem Inv.in_order (h : Inv q) : q.fifos.InOrder q.pending := ⟨h.pending_sorted, fun _ => rfl⟩

theorem inv_empty (n : Nat) : Inv ⟨[], n⟩ where
  ordered := List.Pairwise.nil
  fresh i hi := by cases hi
  children := nodup_nil

theorem Inv.sublist (h : Inv q) {entries : List QueueItem} (hs : entries.Sublist q.entries) :
    Inv { q with entries := entries } where
  ordered := h.ordered.sublist hs
  fresh i hi := h.fresh i (hs.subset hi)
  children := h.children.sublist (((hs.map _).filterMap _).map _)

/-! ## Push -/

variable {es : List QueueEntry}

theorem mem_childrenOf {child : String} :
    child ∈ childrenOf es ↔ ∃ event, announce event ∈ es ∧ event.childSessionId = child := by
  simp only [childrenOf, mem_map, mem_filterMap, asAnnounce_eq_some, exists_eq_right]

theorem isDuplicate_announce (event : AnnounceEvent) :
    q.isDuplicate (.announce event) = true ↔ event.childSessionId ∈ childrenOf q.pending := by
  simp only [isDuplicate, announceEvents_eq, childrenOf, any_eq_true, beq_iff_eq, mem_map]

theorem isDuplicate_iff : q.isDuplicate e = true ↔ q.fifos.Ignores e := by
  constructor
  · intro h
    cases e with
    | announce event =>
      obtain ⟨other, hm, hc⟩ := mem_childrenOf.mp ((isDuplicate_announce event).mp h)
      exact ⟨event, other, (announce other).group, rfl, by simp [fifos, hm], hc⟩
    | userMessage | backgroundToolNotification | systemNotification => cases h
  · rintro ⟨event, other, g, rfl, hm, hc⟩
    exact (isDuplicate_announce event).mpr (mem_childrenOf.mpr ⟨other, (mem_filter.mp hm).1, hc⟩)

theorem push_of_duplicate (h : q.isDuplicate e = true) : q.push e = q := by rw [push, if_pos h]

theorem push_of_new (h : ¬ q.isDuplicate e = true) :
    q.push e = ⟨place QueueItem.group QueueItem.seq ⟨e, q.nextSeq⟩ q.entries, q.nextSeq + 1⟩ := by
  rw [push, if_neg h]
  rfl

theorem pending_push (h : ¬ q.isDuplicate e = true) : (q.push e).pending.Perm (e :: q.pending) := by
  rw [push_of_new h]
  exact place_perm.map QueueItem.entry

theorem children_cons (hc : (childrenOf q.pending).Nodup) (h : ¬ q.isDuplicate e = true) :
    (childrenOf (e :: q.pending)).Nodup := by
  cases e with
  | announce event =>
    have hne : event.childSessionId ∉ childrenOf q.pending := mt (isDuplicate_announce event).mpr h
    exact nodup_cons.mpr ⟨hne, hc⟩
  | userMessage | backgroundToolNotification | systemNotification => exact hc

theorem Inv.push (h : Inv q) (e : QueueEntry) : Inv (q.push e) := by
  by_cases hd : q.isDuplicate e = true
  · rw [push_of_duplicate hd]
    exact h
  · have hch := (((pending_push hd).filterMap asAnnounce).map AnnounceEvent.childSessionId).nodup_iff.mpr
      (children_cons h.children hd)
    rw [push_of_new hd] at hch ⊢
    refine ⟨h.ordered.place ?_, ?_, hch⟩
    · intro i hi hk
      have hseq : i.seq = q.nextSeq := congrArg (fun k => (ofLex k).2) hk
      have := h.fresh i hi
      omega
    · intro i hi
      show i.seq < q.nextSeq + 1
      rcases mem_place.mp hi with rfl | hi
      · exact Nat.lt_succ_self _
      · have := h.fresh i hi
        omega

theorem Inv.fifos_push (h : Inv q) (hd : ¬ q.isDuplicate e = true) : (q.push e).fifos = q.fifos.append e := by
  funext g
  rw [fifos_eq_view, push_of_new hd, view_place h.ordered h.fresh]
  show (if e.group = g then view QueueItem.group q.entries g ++ [⟨e, q.nextSeq⟩]
    else view QueueItem.group q.entries g).map QueueItem.entry = q.fifos.append e g
  by_cases hg : e.group = g
  · subst hg
    rw [if_pos rfl, append, update_self, fifos_eq_view, map_append]
    rfl
  · rw [if_neg hg, append, update_of_ne (Ne.symm hg), fifos_eq_view]

theorem Inv.pending_push_last (h : Inv q) (hd : ¬ q.isDuplicate e = true) (hg : ∀ p ∈ q.pending, p.group ≤ e.group) :
    (q.push e).pending = q.pending ++ [e] := by
  have hlast : ∀ i ∈ q.entries, key QueueItem.group QueueItem.seq i
      < key QueueItem.group QueueItem.seq ⟨e, q.nextSeq⟩ := by
    intro i hi
    rw [key_lt]
    rcases lt_or_eq_of_le (hg i.entry (mem_map_of_mem hi)) with hlt | heq
    · exact .inl hlt
    · exact .inr ⟨heq, h.fresh i hi⟩
  rw [push_of_new hd, pending, place_last hlast, map_append]
  rfl

theorem Inv.foldl_push (es : List QueueEntry) (h : Inv q) (ho : (q.pending ++ es).Pairwise fun a b => a.group ≤ b.group)
    (hc : (childrenOf (q.pending ++ es)).Nodup) :
    Inv (es.foldl UnifiedMessageQueue.push q) ∧ (es.foldl UnifiedMessageQueue.push q).pending = q.pending ++ es := by
  induction es generalizing q with
  | nil => exact ⟨h, (append_nil _).symm⟩
  | cons e es ih =>
    have hmove : q.pending ++ e :: es = (q.pending ++ [e]) ++ es := by simp
    have hd : ¬ q.isDuplicate e = true := by
      intro hdup
      cases e with
      | announce event =>
        have hm := (isDuplicate_announce event).mp hdup
        rw [childrenOf, filterMap_append, map_append] at hc
        exact (nodup_append.mp hc).2.2 _ hm _ mem_cons_self rfl
      | userMessage | backgroundToolNotification | systemNotification => cases hdup
    have hlast : (q.push e).pending = q.pending ++ [e] := by
      refine h.pending_push_last hd ?_
      intro p hp
      exact (pairwise_append.mp ho).2.2 p hp e mem_cons_self
    rw [foldl_cons, hmove, ← hlast]
    rw [hmove, ← hlast] at ho hc
    exact ih (h.push e) ho hc

/-! ## Pop and the drains -/

theorem fifos_cons {i : QueueItem} {rest : List QueueItem} {n : Nat} :
    fifos ⟨i :: rest, n⟩ = Function.update (fifos ⟨rest, n⟩) i.entry.group
      (i.entry :: fifos ⟨rest, n⟩ i.entry.group) := by
  funext g
  by_cases hg : i.entry.group = g
  · subst hg
    simp [fifos, pending]
  · rw [update_of_ne (Ne.symm hg)]
    simp [fifos, pending, hg]

theorem Inv.serves_pop (h : Inv q) : Serves q.fifos .pop (.entry q.pop.1) q.pop.2.fifos := by
  obtain ⟨entries, n⟩ := q
  cases entries with
  | nil => exact .popNone fun _ => rfl
  | cons i rest =>
    obtain ⟨hhead, hbefore⟩ := h.ordered.view_head
    have hrest : fifos ⟨rest, n⟩ = Function.update (fifos ⟨i :: rest, n⟩) i.entry.group
      (fifos ⟨rest, n⟩ i.entry.group) := by
      rw [fifos_cons, update_idem, update_eq_self]
    show Serves _ _ (.entry (some i.entry)) (fifos ⟨rest, n⟩)
    rw [hrest]
    refine .popFirst ?_ ?_
    · rw [fifos_cons, update_self]
    · intro g hg
      rw [fifos_eq_view, hbefore g hg, map_nil]

theorem foldl_drainAnnounceStep (items : List QueueItem) (events : List AnnounceEvent)
    (ho : Ordered QueueItem.group QueueItem.seq (q.entries ++ items)) :
    items.foldl drainAnnounceStep (events, q) =
      (events ++ (items.map QueueItem.entry).filterMap asAnnounce,
        { q with entries := q.entries ++ items.filter fun i => i.entry.asAnnounce.isNone }) := by
  induction items generalizing q events with
  | nil => simp
  | cons i items ih =>
    obtain ⟨hq, hi, hcross⟩ := pairwise_append.mp ho
    have hdrop : Ordered QueueItem.group QueueItem.seq (q.entries ++ items) :=
      ho.sublist (List.Sublist.append_left (sublist_cons_self i items) q.entries)
    have hkeep : Ordered QueueItem.group QueueItem.seq ((q.entries ++ [i]) ++ items) := by simpa using ho
    have hlast : insertSorted q.entries i = q.entries ++ [i] := by
      refine place_last ?_
      intro j hj
      exact hcross j hj i mem_cons_self
    rw [foldl_cons, drainAnnounceStep]
    cases he : i.entry.asAnnounce with
    | some =>
      simp only
      rw [ih _ hdrop]
      simp [he]
    | none =>
      simp only [pushPreservingSeq, hlast]
      rw [ih _ hkeep]
      simp [he]

theorem drainAnnounceQueue_eq (h : Inv q) : q.drainAnnounceQueue = (q.pending.filterMap asAnnounce,
      { q with entries := q.entries.filter fun i => i.entry.asAnnounce.isNone }) := by
  have ho : Ordered QueueItem.group QueueItem.seq ([] ++ q.entries) := h.ordered
  exact foldl_drainAnnounceStep (q := { q with entries := [] }) q.entries [] ho

theorem map_announce_filterMap (es : List QueueEntry) :
    (es.filterMap asAnnounce).map announce = es.filter fun e => e.asAnnounce.isSome := by
  induction es with
  | nil => rfl
  | cons e es ih =>
    cases he : e.asAnnounce with
    | none => simp [he, ih]
    | some =>
      rw [filterMap_cons_some he, map_cons, ih, filter_cons_of_pos (by rw [he]; rfl), asAnnounce_eq_some.mp he]

variable (keep : QueueEntry → Bool) (n : Nat)

theorem pending_filter : pending ⟨q.entries.filter fun i => keep i.entry, n⟩ = q.pending.filter keep := by
  simp only [pending, filter_map, comp_def]

theorem fifos_filter : fifos ⟨q.entries.filter fun i => keep i.entry, n⟩ = fun g => (q.fifos g).filter keep := by
  funext g
  rw [fifos, pending_filter, fifos, filter_filter, filter_filter]
  exact filter_congr fun e _ => Bool.and_comm _ _

theorem Inv.serves_drainAnnounce (h : Inv q) :
    Serves q.fifos .drainAnnounceQueue (.announces q.drainAnnounceQueue.1) q.drainAnnounceQueue.2.fifos := by
  rw [drainAnnounceQueue_eq h]
  show Serves _ _ _ (fifos ⟨_, _⟩)
  rw [fifos_filter fun e => e.asAnnounce.isNone]
  refine .drainAnnounce ⟨?_, ?_⟩
  · rw [map_announce_filterMap]
    exact h.pending_sorted.filter _
  · intro g
    show _ = (q.pending.filter fun e => decide (e.group = g)).filter fun e => e.asAnnounce.isSome
    rw [map_announce_filterMap, filter_filter, filter_filter]
    exact filter_congr fun e _ => Bool.and_comm _ _

/-! ## The user messages -/

variable (messages : List PendingMessage) {msg : PendingMessage}

theorem takeUser_cons_user {e : QueueEntry} (he : e.asUser = some msg) : takeUser (e :: es) = (some msg, es) := by
  rw [takeUser, he]

theorem takeUser_cons_other {e : QueueEntry} (he : e.asUser = none) :
    takeUser (e :: es) = ((takeUser es).1, e :: (takeUser es).2) := by
  rw [takeUser, he]

theorem takeUser_perm (es : List QueueEntry) : es.Perm ((takeUser es).1.toList.map userMessage ++ (takeUser es).2) := by
  induction es with
  | nil => exact List.Perm.refl _
  | cons e es ih =>
    cases he : e.asUser with
    | some =>
      rw [takeUser_cons_user he, asUser_eq_some.mp he]
      exact List.Perm.refl _
    | none =>
      rw [takeUser_cons_other he]
      exact (ih.cons e).trans perm_middle.symm

theorem takeUser_sublist (es : List QueueEntry) : (takeUser es).2.Sublist es := by
  induction es with
  | nil => exact List.Sublist.refl _
  | cons e es ih =>
    cases he : e.asUser with
    | some =>
      rw [takeUser_cons_user he]
      exact sublist_cons_self e es
    | none =>
      rw [takeUser_cons_other he]
      exact ih.cons_cons e

theorem takeUser_none (h : (takeUser es).1 = none) : (takeUser es).2 = es ∧ ∀ e ∈ es, e.group ≠ userGroup := by
  induction es with
  | nil => exact ⟨rfl, fun e he => by cases he⟩
  | cons e es ih =>
    cases he : e.asUser with
    | some =>
      rw [takeUser_cons_user he] at h
      cases h
    | none =>
      rw [takeUser_cons_other he] at h ⊢
      obtain ⟨hkept, hnone⟩ := ih h
      refine ⟨by rw [hkept], ?_⟩
      intro e' he'
      rcases mem_cons.mp he' with rfl | he'
      · exact asUser_eq_none.mp he
      · exact hnone e' he'

theorem takeUser_some (h : (takeUser es).1 = some msg) (g : Group) :
    es.filter (fun e => decide (e.group = g)) =
      (if userGroup = g then [.userMessage msg] else []) ++ (takeUser es).2.filter fun e => decide (e.group = g) := by
  induction es with
  | nil => cases h
  | cons e es ih =>
    cases he : e.asUser with
    | some =>
      rw [takeUser_cons_user he] at h ⊢
      have hmsg : e = .userMessage msg := by rw [asUser_eq_some.mp he, Option.some.inj h]
      have hg : e.group = userGroup := isUser_iff.mp (by rw [hmsg]; rfl)
      by_cases hu : userGroup = g
      · simp [hg, hu, ← hmsg]
      · simp [hg, hu]
    | none =>
      rw [takeUser_cons_other he] at h ⊢
      have hne := asUser_eq_none.mp he
      have ih := ih h
      by_cases hu : userGroup = g
      · subst hu
        simpa [hne] using ih
      · by_cases hg : e.group = g
        · simpa [hu, hg] using ih
        · simpa [hu, hg] using ih

theorem Inv.popPending (h : Inv q) : Inv q.popPending.2 ∧ q.popPending.2.pending = (takeUser q.pending).2 := by
  have hs := takeUser_sublist q.pending
  exact (inv_empty q.nextSeq).foldl_push (takeUser q.pending).2 (h.pending_sorted.sublist hs)
    (h.children.sublist ((hs.filterMap _).map _))

theorem Inv.serves_popPending (h : Inv q) :
    Serves q.fifos .popPending (.message q.popPending.1) q.popPending.2.fifos := by
  have hp := h.popPending.2
  show Serves _ _ (.message (takeUser q.pending).1) _
  cases ht : (takeUser q.pending).1 with
  | none =>
    obtain ⟨hkept, hnone⟩ := takeUser_none ht
    have hsame : q.popPending.2.fifos = q.fifos := by
      funext g
      rw [fifos, hp, hkept, fifos]
    rw [hsame]
    refine .popPendingNone ?_
    rw [fifos, filter_eq_nil_iff]
    intro e he hg
    exact hnone e he (of_decide_eq_true hg)
  | some =>
    have hrest : q.popPending.2.fifos = Function.update q.fifos userGroup (q.popPending.2.fifos userGroup) := by
      funext g
      by_cases hg : g = userGroup
      · rw [hg, update_self]
      · rw [update_of_ne hg, fifos, hp, fifos, takeUser_some ht, if_neg (Ne.symm hg), nil_append]
    rw [hrest]
    refine .popPendingFirst ?_
    rw [fifos, fifos, hp, takeUser_some ht, if_pos rfl]
    rfl

theorem clearUserMessages_count : q.clearUserMessages.1 = (q.fifos userGroup).length := by
  have hsplit := length_eq_length_filter_add (l := q.entries) fun i => i.entry.isUser
  have hgroup : (q.entries.filter fun i => i.entry.isUser).length = (q.fifos userGroup).length := by
    rw [fifos_eq_view, length_map, view]
    refine congrArg List.length (filter_congr ?_)
    intro i _
    exact Bool.eq_iff_iff.mpr (isUser_iff.trans (decide_eq_true_iff (p := i.group = userGroup)).symm)
  show q.entries.length - (q.entries.filter fun i => !i.entry.isUser).length = _
  omega

theorem serves_clearPending :
    Serves q.fifos .clearPending (.count q.clearUserMessages.1) q.clearUserMessages.2.fifos := by
  have hrest : q.clearUserMessages.2.fifos = Function.update q.fifos userGroup [] := by
    rw [clearUserMessages]
    simp only
    rw [fifos_filter fun e => !e.isUser]
    funext g
    by_cases hg : g = userGroup
    · subst hg
      rw [update_self, filter_eq_nil_iff]
      intro e he
      have hu := isUser_iff.mpr (of_decide_eq_true (mem_filter.mp he).2)
      simp [hu]
    · rw [update_of_ne hg, filter_eq_self]
      intro e he
      have hge : e.group = g := of_decide_eq_true (mem_filter.mp he).2
      have hu : ¬ e.isUser = true := mt isUser_iff.mp (by rw [hge]; exact hg)
      simp [hu]
  rw [hrest, clearUserMessages_count]
  exact .clearPending

/-! ## Restoring -/

theorem restorePendingMessages_eq : q.restorePendingMessages messages =
      ((messages.filter fun msg => !msg.sent).map userMessage).foldl UnifiedMessageQueue.push q := by
  induction messages generalizing q with
  | nil => rfl
  | cons msg messages ih =>
    have hcons : q.restorePendingMessages (msg :: messages) =
        (if msg.sent then q else q.push (.userMessage msg)).restorePendingMessages messages := rfl
    rw [hcons, ih]
    cases hs : msg.sent <;> simp [hs]

theorem Inv.foldl_push_users (h : Inv q) :
    Inv ((messages.map userMessage).foldl UnifiedMessageQueue.push q) ∧
      ((messages.map userMessage).foldl UnifiedMessageQueue.push q).fifos =
        (messages.map userMessage).foldl append q.fifos ∧
      ((messages.map userMessage).foldl UnifiedMessageQueue.push q).pending.Perm
        (q.pending ++ messages.map userMessage) := by
  induction messages generalizing q with
  | nil => exact ⟨h, rfl, by simp⟩
  | cons msg messages ih =>
    have hd : ¬ q.isDuplicate (.userMessage msg) = true := Bool.false_ne_true
    obtain ⟨hi, hf, hp⟩ := ih (h.push (.userMessage msg))
    rw [map_cons, foldl_cons, foldl_cons]
    refine ⟨hi, by rw [hf, h.fifos_push hd], ?_⟩
    exact hp.trans (((pending_push hd).append_right _).trans perm_middle.symm)

/-! ## Every operation -/

theorem Inv.apply (h : Inv q) (op : QueueOp) : Inv (q.apply op).2 := by
  cases op with
  | push e => exact h.push e
  | pop =>
    show Inv q.pop.2
    unfold UnifiedMessageQueue.pop
    split
    · exact h
    · rename_i i rest hq
      exact h.sublist (by rw [hq]; exact sublist_cons_self i rest)
  | drainQueue | clearQueue => exact h.sublist (nil_sublist _)
  | popPending => exact h.popPending.1
  | drainAnnounceQueue =>
    show Inv q.drainAnnounceQueue.2
    rw [drainAnnounceQueue_eq h]
    exact h.sublist filter_sublist
  | restorePendingMessages messages =>
    show Inv (q.restorePendingMessages messages)
    rw [restorePendingMessages_eq]
    exact (h.foldl_push_users _).1
  | clearPending => exact h.sublist filter_sublist

theorem Inv.serves (h : Inv q) (op : QueueOp) : Serves q.fifos op (q.apply op).1 (q.apply op).2.fifos := by
  cases op with
  | push e =>
    show Serves q.fifos (.push e) .done (q.push e).fifos
    by_cases hd : q.isDuplicate e = true
    · rw [push_of_duplicate hd]
      exact .ignore (isDuplicate_iff.mp hd)
    · rw [h.fifos_push hd]
      exact .accept (mt isDuplicate_iff.mpr hd)
  | pop => exact h.serves_pop
  | drainQueue => exact .drain h.in_order
  | popPending => exact h.serves_popPending
  | drainAnnounceQueue => exact h.serves_drainAnnounce
  | restorePendingMessages messages =>
    show Serves q.fifos _ .done (q.restorePendingMessages messages).fifos
    rw [restorePendingMessages_eq, (h.foldl_push_users _).2.1]
    exact .restore
  | clearQueue =>
    have hlen : q.entries.length = q.pending.length := (length_map _).symm
    show Serves q.fifos _ (.count q.entries.length) _
    rw [hlen]
    exact .clearQueue h.in_order
  | clearPending => exact serves_clearPending

theorem Inv.books (h : Inv q) (op : QueueOp) :
    (q.pending ++ q.acceptedBy op).Perm ((q.apply op).1.handed ++ q.clearedBy op ++ (q.apply op).2.pending) := by
  cases op with
  | push e =>
    show (q.pending ++ if q.isDuplicate e then [] else [e]).Perm (q.push e).pending
    by_cases hd : q.isDuplicate e = true
    · rw [push_of_duplicate hd, if_pos hd, append_nil]
    · rw [if_neg hd]
      exact (perm_append_singleton e q.pending).trans (pending_push hd).symm
  | pop =>
    obtain ⟨entries, n⟩ := q
    cases entries with
    | nil => exact List.Perm.refl _
    | cons => simp [acceptedBy, clearedBy, UnifiedMessageQueue.apply, UnifiedMessageQueue.pop, pending,
      QueueReply.handed]
  | drainQueue => simp [acceptedBy, clearedBy, UnifiedMessageQueue.apply, drainAll, pending, QueueReply.handed]
  | popPending =>
    show (q.pending ++ []).Perm (q.popPending.1.toList.map userMessage ++ [] ++ q.popPending.2.pending)
    rw [append_nil, append_nil, h.popPending.2]
    exact takeUser_perm q.pending
  | drainAnnounceQueue =>
    show (q.pending ++ []).Perm (q.drainAnnounceQueue.1.map announce ++ [] ++ q.drainAnnounceQueue.2.pending)
    rw [drainAnnounceQueue_eq h, append_nil, append_nil, map_announce_filterMap, pending_filter fun e =>
      e.asAnnounce.isNone]
    have hflip : (fun e : QueueEntry => e.asAnnounce.isNone) = fun e => !e.asAnnounce.isSome := by
      funext e; cases e.asAnnounce <;> rfl
    rw [hflip]
    exact (filter_append_perm _ _).symm
  | restorePendingMessages messages =>
    show (q.pending ++ (messages.filter _).map userMessage).Perm (q.restorePendingMessages messages).pending
    rw [restorePendingMessages_eq]
    exact (h.foldl_push_users _).2.2.symm
  | clearQueue => simp [acceptedBy, clearedBy, UnifiedMessageQueue.apply, clear, pending, QueueReply.handed]
  | clearPending =>
    show (q.pending ++ []).Perm ([] ++ q.pending.filter _ ++ q.clearUserMessages.2.pending)
    rw [append_nil, nil_append, clearUserMessages]
    simp only
    rw [pending_filter fun e => !e.isUser]
    exact (filter_append_perm _ _).symm

end UnifiedMessageQueue

/-! ## Whole runs -/

namespace QueueRun

structure Inv (s : QueueRun) : Prop where
  queue : s.queue.Inv
  books : s.accepted.Perm (s.handed ++ s.cleared ++ s.queue.pending)

theorem step_inv {s : QueueRun} (h : Inv s) (op : QueueOp) : Inv (step s op) where
  queue := h.queue.apply op
  books := by
    have hb := h.queue.books op
    show (s.accepted ++ s.queue.acceptedBy op).Perm
      ((s.handed ++ (s.queue.apply op).1.handed) ++ (s.cleared ++ s.queue.clearedBy op) ++ (s.queue.apply op).2.pending)
    refine (h.books.append_right _).trans ?_
    rw [append_assoc]
    refine (hb.append_left _).trans ?_
    simp only [append_assoc]
    exact (perm_append_comm_assoc _ _ _).append_left _

theorem run_inv (ops : List QueueOp) : Inv (run ops) := by
  have hstart : Inv start := ⟨UnifiedMessageQueue.inv_empty 0, List.Perm.refl _⟩
  exact Lib.Trace.invariant (I := Inv) (fun _ op h => step_inv h op) hstart ops

end QueueRun

/-- Every operation does to the FIFO queues what they are for; what was accepted is handed out,
dropped or pending. -/
theorem message_queue_refines_fifos (ops : List QueueOp) :
    (∀ op, Serves (run ops).queue.fifos op ((run ops).queue.apply op).1
      ((run ops).queue.apply op).2.fifos) ∧
    (run ops).accepted.Perm
      ((run ops).handed ++ (run ops).cleared ++ (run ops).queue.pending) ∧
    ((run ops).queue.announceEvents.map AnnounceEvent.childSessionId).Nodup := by
  have h := run_inv ops
  refine ⟨h.queue.serves, h.books, ?_⟩
  rw [UnifiedMessageQueue.announceEvents_eq]
  exact h.queue.children

end CloseClaw.Session
