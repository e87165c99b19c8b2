/- The inbound queue across rebuilds of the gateway. Nothing stops the old consumer. -/

import Mathlib.Logic.Function.Basic
import CloseClaw.Gateway.InboundWal

namespace CloseClaw.Gateway.InboundRebuild

open Lib List Trace
open InboundWal (InboundRequest replay remaining mem_remaining mem_of_mem_replay nodup_replay)

structure Inbound where
  capacity : Nat
  queue : List InboundRequest := []
  current : Option InboundRequest := none
  rebuildMode : Bool := false
  stash : List InboundRequest := []

structure Daemon where
  wal : List InboundRequest := []
  gateways : Nat → Inbound
  newest : Nat := 0
  handled : List String := []
  finished : List String := []
  accepted : List String := []
  rejected : List String := []

inductive Event where
  | enqueue (i : Nat) (r : InboundRequest)
  | recv (i : Nat) (registered : Bool)
  | done (i : Nat)
  | setRebuildMode
  | buildNewGateway (capacity : Nat)
  | resendStashed
  | restart (capacity : Nat)

def Inbound.offer (g : Inbound) (r : InboundRequest) : Option Inbound :=
  if g.queue.length < g.capacity then some { g with queue := g.queue ++ [r] }
  else if g.rebuildMode then some { g with stash := g.stash ++ [r] }
  else none

def Daemon.update (d : Daemon) (i : Nat) (g : Inbound) : Daemon :=
  { d with gateways := Function.update d.gateways i g }

@[simp] theorem gateways_update_self (d : Daemon) (i : Nat) (g : Inbound) : (d.update i g).gateways i = g :=
  Function.update_self _ _ _

variable {i : Nat}

@[simp] theorem gateways_update_of_ne (d : Daemon) {j : Nat} (h : j ≠ i) (g : Inbound) :
    (d.update i g).gateways j = d.gateways j :=
  Function.update_of_ne h _ _

def Daemon.enqueue (d : Daemon) (i : Nat) (r : InboundRequest) : Daemon :=
  match (d.gateways i).offer r with
  | some g => { d.update i g with wal := d.wal ++ [r], accepted := d.accepted ++ [r.traceId] }
  | none => { d with wal := d.wal ++ [r], rejected := d.rejected ++ [r.traceId] }

def started (capacity : Nat) (wal : List InboundRequest) : Inbound :=
  { capacity, queue := replay capacity wal }

def restarted (capacity : Nat) (wal : List InboundRequest) : Nat → Inbound
  | 0 => started capacity wal
  | _ + 1 => { capacity }

def Daemon.resend (d : Daemon) (old : Nat) (r : InboundRequest) (rest : List InboundRequest) : Daemon :=
  match (d.gateways (old + 1)).offer r with
  | some g =>
    { (d.update old { d.gateways old with stash := rest }).update (old + 1) g with wal := d.wal ++ [r] }
  | none =>
    { d.update old { d.gateways old with stash := rest ++ [r] } with
      wal := d.wal ++ [r], rejected := d.rejected ++ [r.traceId] }

def Daemon.Between (d : Daemon) : Prop := ∀ i < d.newest + 1, (d.gateways i).current = none

instance Daemon.Between.decidable (d : Daemon) : Decidable d.Between :=
  inferInstanceAs (Decidable (∀ i < d.newest + 1, (d.gateways i).current = none))

def step (d : Daemon) : Event → Daemon
  | .enqueue i r => if i ≤ d.newest then d.enqueue i r else d
  | .recv i registered =>
    match (d.gateways i).current, (d.gateways i).queue with
    | none, r :: rest =>
      if registered then
        { d.update i { d.gateways i with queue := rest, current := some r } with handled := d.handled ++ [r.traceId] }
      else d.update i { d.gateways i with queue := rest }
    | _, _ => d
  | .done i =>
    match (d.gateways i).current with
    | some r =>
      { d.update i { d.gateways i with current := none } with
        wal := remaining r.traceId d.wal, finished := d.finished ++ [r.traceId] }
    | none => d
  | .setRebuildMode => d.update d.newest { d.gateways d.newest with rebuildMode := true }
  | .buildNewGateway capacity =>
    if (d.gateways d.newest).rebuildMode then
      { d.update (d.newest + 1) (started capacity d.wal) with newest := d.newest + 1 }
    else d
  | .resendStashed =>
    match d.newest with
    | 0 => d
    | old + 1 =>
      match (d.gateways old).stash with
      | [] => d
      | r :: rest => d.resend old r rest
  | .restart capacity =>
    if d.Between then
      { d with gateways := restarted capacity d.wal, newest := 0 }
    else d

def start (capacity : Nat) : Daemon where
  gateways := fun _ => { capacity }

def Calm (d : Daemon) : Event → Prop
  | .enqueue _ r => r.traceId ∉ d.accepted ∧ r.traceId ∉ d.rejected
  | .recv _ registered => registered = true
  | .buildNewGateway _ => d.wal = []
  | .resendStashed => (d.gateways d.newest).queue.length < (d.gateways d.newest).capacity
  | .restart _ => d.rejected = []
  | _ => True

instance Calm.decidable (d : Daemon) : (e : Event) → Decidable (Calm d e)
  | .enqueue _ r => inferInstanceAs (Decidable (r.traceId ∉ d.accepted ∧ r.traceId ∉ d.rejected))
  | .recv _ registered => inferInstanceAs (Decidable (registered = true))
  | .buildNewGateway _ => inferInstanceAs (Decidable (d.wal = []))
  | .resendStashed =>
    inferInstanceAs (Decidable ((d.gateways d.newest).queue.length < (d.gateways d.newest).capacity))
  | .restart _ => inferInstanceAs (Decidable (d.rejected = []))
  | .done _ => isTrue trivial
  | .setRebuildMode => isTrue trivial

/-! ## Every request is in one place -/

def Inbound.ids (g : Inbound) : List String := (g.queue ++ g.stash).map InboundRequest.traceId

structure Inv (d : Daemon) : Prop where
  handled_nodup : d.handled.Nodup
  unhandled : ∀ i, ∀ id ∈ (d.gateways i).ids, id ∉ d.handled
  ids_nodup : ∀ i, (d.gateways i).ids.Nodup
  one_place : ∀ i j id, id ∈ (d.gateways i).ids → id ∈ (d.gateways j).ids → i = j
  ids_accepted : ∀ i, ∀ id ∈ (d.gateways i).ids, id ∈ d.accepted
  handled_accepted : ∀ id ∈ d.handled, id ∈ d.accepted
  apart : ∀ id ∈ d.accepted, id ∉ d.rejected
  wal_known : ∀ r ∈ d.wal, r.traceId ∈ d.accepted ∨ r.traceId ∈ d.rejected
  wal_unfinished : ∀ r ∈ d.wal, r.traceId ∉ d.finished
  finished_handled : ∀ id ∈ d.finished, id ∈ d.handled
  current_handled : ∀ i r, (d.gateways i).current = some r → r.traceId ∈ d.handled
  in_hand : ∀ id ∈ d.handled, id ∈ d.finished ∨
    ∃ i < d.newest + 1, ∃ r, (d.gateways i).current = some r ∧ r.traceId = id
  beyond : ∀ i, d.newest < i → (d.gateways i).ids = [] ∧ (d.gateways i).current = none

theorem Inv.start (capacity : Nat) : Inv (start capacity) where
  handled_nodup := nodup_nil
  unhandled _ id hid := by cases hid
  ids_nodup _ := nodup_nil
  one_place _ _ id hid := by cases hid
  ids_accepted _ id hid := by cases hid
  handled_accepted id hid := by cases hid
  apart id hid := by cases hid
  wal_known r hr := by cases hr
  wal_unfinished r hr := by cases hr
  finished_handled id hid := by cases hid
  current_handled i r hr := by cases hr
  in_hand id hid := by cases hid
  beyond _ _ := ⟨rfl, rfl⟩

variable {d : Daemon}

variable {g : Inbound}

theorem current_update (h : g.current = (d.gateways i).current) (j : Nat) :
    ((d.update i g).gateways j).current = (d.gateways j).current := by
  by_cases hj : j = i
  · subst hj
    simpa using h
  · simp [hj]

theorem ids_update (h : g.ids = (d.gateways i).ids) (j : Nat) :
    ((d.update i g).gateways j).ids = (d.gateways j).ids := by
  by_cases hj : j = i
  · subst hj
    simpa using h
  · simp [hj]

theorem Inv.update_ids (hi : Inv d) (hsub : ∀ id ∈ g.ids, id ∈ (d.gateways i).ids)
    (hnodup : g.ids.Nodup) (hcur : g.current = (d.gateways i).current) : Inv (d.update i g) := by
  have hmem : ∀ j id, id ∈ ((d.update i g).gateways j).ids → id ∈ (d.gateways j).ids := by
    intro j id
    by_cases hj : j = i
    · subst hj
      simpa using hsub id
    · simp [hj]
  have hcurs := current_update hcur
  exact {
    hi with
    unhandled := fun j id hid => hi.unhandled j id (hmem j id hid)
    ids_nodup := fun j => by
      by_cases hj : j = i
      · subst hj
        simpa using hnodup
      · simpa [hj] using hi.ids_nodup j
    one_place := fun j k id hj hk => hi.one_place j k id (hmem j id hj) (hmem k id hk)
    ids_accepted := fun j id hid => hi.ids_accepted j id (hmem j id hid)
    current_handled := fun j r hr => hi.current_handled j r (hcurs j ▸ hr)
    in_hand := fun id hid => by
      simp only [hcurs]
      exact hi.in_hand id hid
    beyond := fun j hj => by
      have hb := hi.beyond j hj
      refine ⟨eq_nil_iff_forall_not_mem.mpr fun id hid => ?_, (hcurs j).trans hb.2⟩
      have := hmem j id hid
      rw [hb.1] at this
      cases this }

variable {id : String}

theorem Inv.put (hi : Inv d) (hids : g.ids.Perm (id :: (d.gateways i).ids))
    (hcur : g.current = (d.gateways i).current) (hle : i ≤ d.newest) (hacc : id ∈ d.accepted)
    (hfresh : ∀ j, id ∉ (d.gateways j).ids) (hun : id ∉ d.handled) : Inv (d.update i g) := by
  have hmem : ∀ j k, k ∈ ((d.update i g).gateways j).ids → k ∈ (d.gateways j).ids ∨ (k = id ∧ j = i) := by
    intro j k hk
    by_cases hj : j = i
    · subst hj
      rw [gateways_update_self, hids.mem_iff, mem_cons] at hk
      rcases hk with rfl | hk
      · exact .inr ⟨rfl, rfl⟩
      · exact .inl hk
    · rw [gateways_update_of_ne d hj] at hk
      exact .inl hk
  have hcurs := current_update hcur
  exact {
    hi with
    unhandled := fun j k hk => by
      rcases hmem j k hk with hk | ⟨rfl, -⟩
      · exact hi.unhandled j k hk
      · exact hun
    ids_nodup := fun j => by
      by_cases hj : j = i
      · subst hj
        rw [gateways_update_self]
        exact hids.nodup_iff.mpr (nodup_cons.mpr ⟨hfresh j, hi.ids_nodup j⟩)
      · simpa [hj] using hi.ids_nodup j
    one_place := fun j l k hj hl => by
      rcases hmem j k hj with hj' | ⟨hjk, rfl⟩ <;> rcases hmem l k hl with hl' | ⟨hlk, rfl⟩
      · exact hi.one_place j l k hj' hl'
      · exact absurd (hlk ▸ hj') (hfresh j)
      · exact absurd (hjk ▸ hl') (hfresh l)
      · rfl
    ids_accepted := fun j k hk => by
      rcases hmem j k hk with hk | ⟨rfl, -⟩
      · exact hi.ids_accepted j k hk
      · exact hacc
    current_handled := fun j r hr => hi.current_handled j r (hcurs j ▸ hr)
    in_hand := fun k hk => by
      simp only [hcurs]
      exact hi.in_hand k hk
    beyond := fun j hj => by
      have hj' : d.newest < j := hj
      have hne : j ≠ i := by omega
      simpa [hne] using hi.beyond j hj' }

variable {r : InboundRequest}

theorem Inv.log (hi : Inv d) (hk : r.traceId ∈ d.accepted ∨ r.traceId ∈ d.rejected)
    (hf : r.traceId ∉ d.finished) : Inv { d with wal := d.wal ++ [r] } :=
  { hi with
    wal_known := fun q hq => by
      rcases mem_append.mp hq with hq | hq
      · exact hi.wal_known q hq
      · rwa [mem_singleton.mp hq]
    wal_unfinished := fun q hq => by
      rcases mem_append.mp hq with hq | hq
      · exact hi.wal_unfinished q hq
      · rwa [mem_singleton.mp hq] }

theorem Inv.accept (hi : Inv d) (h : id ∉ d.rejected) : Inv { d with accepted := d.accepted ++ [id] } :=
  { hi with
    ids_accepted := fun i k hk => mem_append_left _ (hi.ids_accepted i k hk)
    handled_accepted := fun k hk => mem_append_left _ (hi.handled_accepted k hk)
    apart := fun k hk => by
      rcases mem_append.mp hk with hk | hk
      · exact hi.apart k hk
      · rwa [mem_singleton.mp hk]
    wal_known := fun r hr => (hi.wal_known r hr).imp_left (mem_append_left _) }

theorem Inv.reject (hi : Inv d) (h : id ∉ d.accepted) : Inv { d with rejected := d.rejected ++ [id] } :=
  { hi with
    apart := fun k hk hr => by
      rcases mem_append.mp hr with hr | hr
      · exact hi.apart k hk hr
      · exact h (mem_singleton.mp hr ▸ hk)
    wal_known := fun r hr => (hi.wal_known r hr).imp_right (mem_append_left _) }

/-! ## The steps -/

open Inbound

theorem ids_offer {g' : Inbound} (h : g.offer r = some g') :
    g'.ids.Perm (r.traceId :: g.ids) ∧ g'.current = g.current := by
  unfold offer at h
  split at h
  · cases h
    refine ⟨?_, rfl⟩
    simp only [ids, append_assoc, singleton_append, map_append, map_cons]
    exact perm_middle
  · split at h
    · cases h
      refine ⟨?_, rfl⟩
      have hids : { g with stash := g.stash ++ [r] }.ids = g.ids ++ [r.traceId] := by simp [ids]
      rw [hids]
      exact perm_append_singleton _ _
    · cases h

theorem Inv.enqueue (hi : Inv d) (hle : i ≤ d.newest) (ha : r.traceId ∉ d.accepted)
    (hr : r.traceId ∉ d.rejected) : Inv (d.enqueue i r) := by
  have hun : r.traceId ∉ d.handled := fun h => ha (hi.handled_accepted _ h)
  have hfin : r.traceId ∉ d.finished := fun h => hun (hi.finished_handled _ h)
  have hfresh : ∀ j, r.traceId ∉ (d.gateways j).ids := fun j h => ha (hi.ids_accepted j _ h)
  unfold Daemon.enqueue
  split
  · next g hg =>
    obtain ⟨hids, hcur⟩ := ids_offer hg
    have hacc := (hi.accept hr).log (r := r) (.inl (by simp)) hfin
    exact hacc.put hids hcur hle (by simp) hfresh hun
  · exact (hi.reject ha).log (.inr (by simp)) hfin

theorem Inv.leave (hi : Inv d) (hperm : (d.gateways i).ids.Perm (id :: g.ids))
    (hcur : g.current = (d.gateways i).current) :
    Inv (d.update i g) ∧ (∀ j, id ∉ ((d.update i g).gateways j).ids) ∧ id ∈ d.accepted ∧ id ∉ d.handled := by
  have hmem : id ∈ (d.gateways i).ids := hperm.mem_iff.mpr mem_cons_self
  have hnodup := nodup_cons.mp (hperm.nodup_iff.mp (hi.ids_nodup i))
  refine ⟨hi.update_ids (fun k hk => hperm.mem_iff.mpr (mem_cons_of_mem _ hk)) hnodup.2 hcur, ?_,
    hi.ids_accepted i id hmem, hi.unhandled i id hmem⟩
  intro j hj
  by_cases hji : j = i
  · subst hji
    rw [gateways_update_self] at hj
    exact hnodup.1 hj
  · rw [gateways_update_of_ne d hji] at hj
    exact hji (hi.one_place j i id hj hmem)

theorem Inv.resend (hi : Inv d) {old : Nat} {rest : List InboundRequest}
    (hnew : d.newest = old + 1) (hstash : (d.gateways old).stash = r :: rest)
    (hroom : (d.gateways (old + 1)).queue.length < (d.gateways (old + 1)).capacity) : Inv (d.resend old r rest) := by
  have hperm : (d.gateways old).ids.Perm (r.traceId :: { d.gateways old with stash := rest }.ids) := by
    simp only [ids, hstash, map_append, map_cons]
    exact perm_middle
  -- Out of the old gateway, into the log once more, and into the new one.
  obtain ⟨hout, hgone, hacc, hun⟩ := hi.leave hperm rfl
  have hlogged := hout.log (r := r) (.inl hacc) (fun h => hun (hi.finished_handled _ h))
  have hsame : (d.update old { d.gateways old with stash := rest }).gateways (old + 1) = d.gateways (old + 1) :=
    gateways_update_of_ne d (by omega) _
  unfold Daemon.resend
  split
  · next g hg =>
    obtain ⟨hids, hcur⟩ := ids_offer hg
    rw [← hsame] at hids hcur
    exact hlogged.put hids hcur (by simp [Daemon.update, hnew]) hacc hgone hun
  · next hg => simp [offer, hroom] at hg

theorem Inv.begin (hi : Inv d) (hle : i ≤ d.newest) (hc : (d.gateways i).current = none)
    (hgone : ∀ j, r.traceId ∉ (d.gateways j).ids) (hacc : r.traceId ∈ d.accepted) (hun : r.traceId ∉ d.handled) :
    Inv { d.update i { d.gateways i with current := some r } with handled := d.handled ++ [r.traceId] } := by
  have hids : ∀ j, ((d.update i { d.gateways i with current := some r }).gateways j).ids = (d.gateways j).ids :=
    ids_update rfl
  exact {
    hi with
    handled_nodup := by
      refine nodup_append.mpr ⟨hi.handled_nodup, nodup_singleton _, ?_⟩
      intro id hid id' hid' he
      exact hun (mem_singleton.mp hid' ▸ he ▸ hid)
    unhandled := fun j id hid hh => by
      have hid' : id ∈ (d.gateways j).ids := hids j ▸ hid
      rcases mem_append.mp hh with hh | hh
      · exact hi.unhandled j id hid' hh
      · exact hgone j (mem_singleton.mp hh ▸ hid')
    ids_nodup := fun j => (hids j).symm ▸ hi.ids_nodup j
    one_place := fun j k id hj hk => hi.one_place j k id (hids j ▸ hj) (hids k ▸ hk)
    ids_accepted := fun j id hid => hi.ids_accepted j id (hids j ▸ hid)
    handled_accepted := fun id hid => by
      rcases mem_append.mp hid with hid | hid
      · exact hi.handled_accepted id hid
      · rwa [mem_singleton.mp hid]
    finished_handled := fun id hid => mem_append_left _ (hi.finished_handled id hid)
    current_handled := fun j q hq => by
      by_cases hj : j = i
      · subst hj
        rw [gateways_update_self] at hq
        simp [← Option.some.inj hq]
      · rw [gateways_update_of_ne d hj] at hq
        exact mem_append_left _ (hi.current_handled j q hq)
    in_hand := fun id hid => by
      rcases mem_append.mp hid with hid | hid
      · refine (hi.in_hand id hid).imp_right ?_
        rintro ⟨j, hj, q, hq, hid⟩
        have hji : j ≠ i := fun e => by simp [e, hc] at hq
        exact ⟨j, hj, q, by rwa [gateways_update_of_ne d hji], hid⟩
      · exact .inr ⟨i, Nat.lt_succ_of_le hle, r, by rw [gateways_update_self], (mem_singleton.mp hid).symm⟩
    beyond := fun j hj => by
      have hji : j ≠ i := fun e => absurd hle (Nat.not_le.mpr (e ▸ hj))
      rw [gateways_update_of_ne d hji]
      exact hi.beyond j hj }

theorem Inv.recv (hi : Inv d) (i : Nat) : Inv (step d (.recv i true)) := by
  cases hc : (d.gateways i).current with
  | some => simpa only [step, hc] using hi
  | none =>
    cases hq : (d.gateways i).queue with
    | nil => simpa only [step, hc, hq] using hi
    | cons r rest =>
      have hperm : (d.gateways i).ids.Perm (r.traceId :: { d.gateways i with queue := rest }.ids) := by
        simp [ids, hq]
      have hle : i ≤ d.newest := Nat.le_of_not_lt fun h => by
        have := (hi.beyond i h).1
        simp [ids, hq] at this
      obtain ⟨hout, hgone, hacc, hun⟩ := hi.leave hperm rfl
      have hbegin := hout.begin hle (by rw [gateways_update_self, hc]) hgone hacc hun
      simpa only [step, hc, hq, if_true, Daemon.update, Function.update_self, Function.update_idem] using hbegin

theorem Inv.done (hi : Inv d) (i : Nat) : Inv (step d (.done i)) := by
  cases hc : (d.gateways i).current with
  | none => simpa only [step, hc] using hi
  | some r =>
    have hids : ∀ j, ((d.update i { d.gateways i with current := none }).gateways j).ids = (d.gateways j).ids :=
      ids_update rfl
    simp only [step, hc]
    exact {
      hi with
      unhandled := fun j id hid => hi.unhandled j id (hids j ▸ hid)
      ids_nodup := fun j => (hids j).symm ▸ hi.ids_nodup j
      one_place := fun j k id hj hk => hi.one_place j k id (hids j ▸ hj) (hids k ▸ hk)
      ids_accepted := fun j id hid => hi.ids_accepted j id (hids j ▸ hid)
      wal_known := fun q hq => hi.wal_known q (mem_remaining.mp hq).1
      wal_unfinished := fun q hq hf => by
        obtain ⟨hq, hne⟩ := mem_remaining.mp hq
        rcases mem_append.mp hf with hf | hf
        · exact hi.wal_unfinished q hq hf
        · exact hne (mem_singleton.mp hf)
      finished_handled := fun id hid => by
        rcases mem_append.mp hid with hid | hid
        · exact hi.finished_handled id hid
        · rw [mem_singleton.mp hid]
          exact hi.current_handled i r hc
      current_handled := fun j q hq => by
        by_cases hj : j = i
        · subst hj
          rw [gateways_update_self] at hq
          cases hq
        · rw [gateways_update_of_ne d hj] at hq
          exact hi.current_handled j q hq
      in_hand := fun id hid => by
        rcases hi.in_hand id hid with hf | ⟨j, hj, q, hq, rfl⟩
        · exact .inl (mem_append_left _ hf)
        · by_cases hji : j = i
          · subst hji
            rw [hc] at hq
            exact .inl (by simp [Option.some.inj hq])
          · exact .inr ⟨j, hj, q, by rwa [gateways_update_of_ne d hji], rfl⟩
      beyond := fun j hj => by
        have hb := hi.beyond j hj
        have hji : j ≠ i := fun e => by simp [← e, hb.2] at hc
        rwa [gateways_update_of_ne d hji] }

theorem Inv.buildNewGateway (hi : Inv d) (capacity : Nat) (hwal : d.wal = []) :
    Inv (step d (.buildNewGateway capacity)) := by
  simp only [step]
  split
  · have hstarted : started capacity d.wal = { capacity } := by simp [started, hwal, replay, InboundWal.dedup]
    have hb := hi.beyond (d.newest + 1) (Nat.lt_succ_self _)
    have hnew : Inv (d.update (d.newest + 1) (started capacity d.wal)) := by
      rw [hstarted]
      exact hi.update_ids (fun id hid => by cases hid) nodup_nil hb.2.symm
    exact {
      hnew with
      in_hand := fun id hid => by
        refine (hnew.in_hand id hid).imp_right ?_
        rintro ⟨j, hj, q, hq⟩
        exact ⟨j, Nat.lt_succ_of_lt hj, q, hq⟩
      beyond := fun j hj => hnew.beyond j (Nat.lt_of_succ_lt hj) }
  · exact hi

theorem Inv.finished_of_between (hi : Inv d) (hb : d.Between) (hid : id ∈ d.handled) : id ∈ d.finished := by
  rcases hi.in_hand id hid with hf | ⟨j, hj, q, hq, -⟩
  · exact hf
  · rw [hb j hj] at hq
    cases hq

theorem mem_ids_restarted {capacity : Nat} {wal : List InboundRequest} {j : Nat}
    (h : id ∈ (restarted capacity wal j).ids) : j = 0 ∧ ∃ r ∈ wal, r.traceId = id := by
  cases j with
  | zero =>
    obtain ⟨r, hr, hrid⟩ := mem_map.mp h
    exact ⟨rfl, r, mem_of_mem_replay (by simpa [restarted, started] using hr), hrid⟩
  | succ => cases h

theorem current_restarted (capacity : Nat) (wal : List InboundRequest) (j : Nat) :
    (restarted capacity wal j).current = none := by
  cases j <;> rfl

theorem Inv.restart (hi : Inv d) (capacity : Nat) (hrej : d.rejected = []) : Inv (step d (.restart capacity)) := by
  simp only [step]
  split
  · next hb =>
    exact {
      hi with
      unhandled := fun j id hid hh => by
        obtain ⟨-, r, hr, rfl⟩ := mem_ids_restarted hid
        exact hi.wal_unfinished r hr (hi.finished_of_between hb hh)
      ids_nodup := fun j => by
        cases j with
        | zero => simpa [restarted, started, ids] using nodup_replay capacity d.wal
        | succ => exact nodup_nil
      one_place := fun j k id hj hk => (mem_ids_restarted hj).1.trans (mem_ids_restarted hk).1.symm
      ids_accepted := fun j id hid => by
        obtain ⟨-, r, hr, rfl⟩ := mem_ids_restarted hid
        rcases hi.wal_known r hr with h | h
        · exact h
        · rw [hrej] at h
          cases h
      current_handled := fun j r hr => by
        rw [current_restarted] at hr
        cases hr
      in_hand := fun id hid => .inl (hi.finished_of_between hb hid)
      beyond := fun j hj => by
        cases j with
        | zero => cases hj
        | succ => exact ⟨rfl, rfl⟩ }
  · exact hi

theorem Inv.step (hi : Inv d) {e : Event} (h : Calm d e) : Inv (InboundRebuild.step d e) := by
  cases e with
  | enqueue =>
    simp only [InboundRebuild.step]
    split
    · next hle => exact hi.enqueue hle h.1 h.2
    · exact hi
  | recv i registered =>
    obtain rfl : registered = true := h
    exact hi.recv i
  | done i => exact hi.done i
  | setRebuildMode => exact hi.update_ids (fun id hid => hid) (hi.ids_nodup d.newest) rfl
  | buildNewGateway capacity => exact hi.buildNewGateway capacity h
  | resendStashed =>
    simp only [InboundRebuild.step]
    split
    · exact hi
    · next old hold =>
      split
      · exact hi
      · next r rest hs =>
        have hroom : (d.gateways d.newest).queue.length < (d.gateways d.newest).capacity := h
        rw [hold] at hroom
        exact hi.resend hold hs hroom
  | restart capacity => exact hi.restart capacity h

theorem inv_run {capacity : Nat} {events : List Event} (h : Along step Calm (start capacity) events) :
    Inv (run step (start capacity) events) :=
  invariant_along (fun _ _ hi he => hi.step he) (Inv.start capacity) h

/-- No request is handled twice, none that was rejected is handled, and the log is empty at the
end. -/
theorem handled_at_most_once (capacity : Nat) (events : List Event) (h : Along step Calm (start capacity) events) :
    (run step (start capacity) events).handled.Nodup ∧
    (∀ id ∈ (run step (start capacity) events).rejected,
      id ∉ (run step (start capacity) events).handled) ∧
    ((run step (start capacity) events).rejected = [] →
      (∀ id ∈ (run step (start capacity) events).accepted,
        id ∈ (run step (start capacity) events).finished) → (run step (start capacity) events).wal = []) := by
  have hi := inv_run h
  generalize run step (start capacity) events = d at *
  refine ⟨hi.handled_nodup, ?_, ?_⟩
  · intro id hr hh
    exact hi.apart id (hi.handled_accepted id hh) hr
  · intro hrej hall
    refine eq_nil_iff_forall_not_mem.mpr fun r hr => ?_
    rcases hi.wal_known r hr with h | h
    · exact hi.wal_unfinished r hr (hall _ h)
    · rw [hrej] at h
      cases h

def inbound (traceId : String) : InboundRequest := ⟨"im", [1], "p", traceId⟩

def orderly : List Event :=
  [.enqueue 0 (inbound "a"), .recv 0 true, .done 0, .setRebuildMode, .buildNewGateway 2, .enqueue 0 (inbound "b"),
    .enqueue 0 (inbound "c"), .resendStashed, .recv 0 true, .recv 1 true, .done 0, .done 1, .enqueue 1 (inbound "e"),
    .restart 1, .recv 0 true, .done 0]

theorem handled_at_most_once_orderly : (run step (start 1) orderly).handled = ["a", "b", "c", "e"] ∧
    (run step (start 1) orderly).handled.Nodup ∧ (run step (start 1) orderly).wal = [] :=
  have h := handled_at_most_once 1 orderly (by decide +kernel)
  ⟨by decide +kernel, h.1, h.2.2 (by decide +kernel) (by decide +kernel)⟩

def rebuiltWhileWaiting : List Event :=
  [.enqueue 0 (inbound "a"), .setRebuildMode, .buildNewGateway 1, .recv 0 true, .done 0, .recv 1 true, .done 1]

def oneRejected : List Event := [.enqueue 0 (inbound "a"), .enqueue 0 (inbound "b"), .recv 0 true, .done 0]

theorem handled_twice_after_rebuild : ((run step (start 1) rebuiltWhileWaiting).accepted = ["a"] ∧
      (run step (start 1) rebuiltWhileWaiting).handled = ["a", "a"]) ∧
    ((run step (start 1) oneRejected).accepted = ["a"] ∧
      (run step (start 1) oneRejected).finished = ["a"] ∧
      (run step (start 1) oneRejected).rejected = ["b"] ∧
      (run step (start 1) oneRejected).wal = [inbound "b"]) ∧
    (run step (start 1) (oneRejected ++ [Event.restart 1, Event.recv 0 true])).handled = ["a", "b"] := by
  decide +kernel

end CloseClaw.Gateway.InboundRebuild
