/- A parent that waits for its children (`sessions_yield.rs`, `session_manager/announce.rs`).
   `waited`, `drains` and `owed` are about the last yield. -/

import CloseClaw.Gateway.BusyCount

namespace CloseClaw.Gateway.YieldRecovery

open Lib List
open Gateway.ChildAnnounce (ChildSessionState)
open Gateway.BusyCount (SpawnMode)

structure Child where
  mode : SpawnMode
  running : Bool
  state : Option ChildSessionState
  inTree : Bool

namespace Child

def isTerminal (c : Child) : Bool := c.state.any ChildSessionState.isTerminal

def isListed (c : Child) : Bool := c.mode == .run && c.inTree

def updateState (c : Child) (s : ChildSessionState) : Child := { c with state := c.state.map fun _ => s }

def finished (c : Child) : Child := { c with running := false }

end Child

inductive Notice where
  | announce (child : Nat)
  | terminated (child : Nat)
  | stale (child : Nat)
  | spawnTimeout (child : Nat)
  | yieldTimeout

inductive Stage where
  | announced
  | marked
  | queued
  | reclaimed
  | sawYielding
  | sawNoChildren
  | cancelled
  | exited
  | done
  deriving DecidableEq

namespace Stage

def beforeReclaim : Stage → Bool
  | .announced | .marked | .queued => true
  | _ => false

def isRecovering : Stage → Bool
  | .sawYielding | .sawNoChildren | .cancelled => true
  | _ => false

end Stage

structure Announce where
  child : Nat
  stage : Stage

inductive TimerPc where
  | armed
  | notified
  | exited
  deriving DecidableEq

inductive Drainer where
  | recovery
  | yieldTimeout
  deriving DecidableEq

structure Parent where
  yielding : Bool
  timer : Option TimerPc
  children : List Child
  queue : List Notice
  announces : List Announce
  waited : Bool
  drains : List Drainer
  owed : List Notice

inductive Event where
  | spawn (mode : SpawnMode)
  | enterWaiting
  | startYieldTimeout
  | tryPushAnnounce (i : Nat) (permitted hasText : Bool)
  | notifyChildError (i : Nat)
  | notifyChildForcedTermination (i : Nat)
  | killChild (i : Nat)
  | terminateStaleChild (i : Nat)
  | spawnTimeout (i : Nat)
  | advance (t : Nat)
  | yieldTimeout
  | advanceTimer

open Parent

namespace Parent

def init : Parent := ⟨false, none, [], [], [], false, [], []⟩

def setChild (s : Parent) (i : Nat) (c : Child) : Parent := { s with children := s.children.set i c }

def setStage (s : Parent) (t : Nat) (a : Announce) (stage : Stage) : Parent :=
  { s with announces := s.announces.set t { a with stage := stage } }

def push (s : Parent) (n : Notice) : Parent := { s with queue := s.queue ++ [n] }

def hasRunningRunModeChildren (s : Parent) : Bool := s.children.any Child.isListed

def exitWaiting (s : Parent) : Parent := { s with yielding := false, owed := s.queue }

def drainPending (s : Parent) (who : Drainer) : Parent :=
  { s with queue := [], owed := [], drains := s.drains ++ [who] }

def tryPushAnnounce (s : Parent) (i : Nat) (permitted hasText : Bool) (c : Child) : Parent :=
  let s' := s.setChild i c.finished
  if c.isListed && permitted && !c.isTerminal && hasText then
    { s' with announces := s'.announces ++ [⟨i, .announced⟩] }
  else s'

def notifyChildError (s : Parent) (i : Nat) (c : Child) : Parent :=
  s.setChild i (if c.isListed && !c.isTerminal then c.finished.updateState .errored else c.finished)

def notifyChildForcedTermination (s : Parent) (i : Nat) (c : Child) : Parent :=
  if c.isListed && !c.isTerminal then (s.setChild i (c.finished.updateState .terminated)).push (.terminated i)
  else s.setChild i c.finished

def killChild (s : Parent) (i : Nat) (c : Child) : Parent :=
  s.setChild i { c.finished with state := none, inTree := false }

def advance (s : Parent) (t : Nat) (a : Announce) : Parent :=
  match a.stage with
  | .announced =>
    (s.children[a.child]?.elim s fun c => s.setChild a.child (c.updateState .completed)).setStage t a .marked
  | .marked => (s.push (.announce a.child)).setStage t a .queued
  | .queued =>
    (s.children[a.child]?.elim s fun c => s.setChild a.child { c with inTree := false }).setStage t a .reclaimed
  | .reclaimed => s.setStage t a (if s.yielding then .sawYielding else .done)
  | .sawYielding => s.setStage t a (if s.hasRunningRunModeChildren then .done else .sawNoChildren)
  | .sawNoChildren => { s.setStage t a .cancelled with timer := none }
  | .cancelled => s.exitWaiting.setStage t a .exited
  | .exited => (s.drainPending .recovery).setStage t a .done
  | .done => s

def advanceTimer (s : Parent) : Parent :=
  match s.timer with
  | some .notified => { s.exitWaiting with timer := some .exited }
  | some .exited => { s.drainPending .yieldTimeout with timer := none }
  | _ => s

def step (s : Parent) : Event → Parent
  | .spawn mode => { s with children := s.children ++ [⟨mode, true, some .running, true⟩] }
  | .enterWaiting => { s with yielding := true, waited := true, drains := [], owed := [] }
  | .startYieldTimeout => { s with timer := some .armed }
  | .tryPushAnnounce i permitted hasText => s.children[i]?.elim s (s.tryPushAnnounce i permitted hasText)
  | .notifyChildError i => s.children[i]?.elim s (s.notifyChildError i)
  | .notifyChildForcedTermination i => s.children[i]?.elim s (s.notifyChildForcedTermination i)
  | .killChild i => s.children[i]?.elim s (s.killChild i)
  | .terminateStaleChild i => s.children[i]?.elim s fun c => (s.killChild i c).push (.stale i)
  | .spawnTimeout i => s.children[i]?.elim s fun c => (s.setChild i c.finished).push (.spawnTimeout i)
  | .advance t => s.announces[t]?.elim s (s.advance t)
  | .yieldTimeout => if s.timer = some .armed then { s.push .yieldTimeout with timer := some .notified } else s
  | .advanceTimer => s.advanceTimer

def run (events : List Event) : Parent := Trace.run step init events

/-! ## What is promised, and when it is kept -/

def Settled (s : Parent) : Prop := ∀ a ∈ s.announces, a.stage = .done

def NoneRunning (s : Parent) : Prop := ∀ c ∈ s.children, c.mode = .run → c.running = false

def Resumed (s : Parent) : Prop := s.yielding = false ∧ s.drains.length = 1 ∧ s.owed = []

instance Settled.decidable (s : Parent) : Decidable s.Settled :=
  inferInstanceAs (Decidable (∀ a ∈ s.announces, a.stage = .done))

instance NoneRunning.decidable (s : Parent) : Decidable s.NoneRunning :=
  inferInstanceAs (Decidable (∀ c ∈ s.children, c.mode = .run → c.running = false))

instance Resumed.decidable (s : Parent) : Decidable s.Resumed := inferInstanceAs (Decidable (_ ∧ _))

def returning (s : Parent) : Nat := s.announces.countP fun a => a.stage == .reclaimed

def recovering (s : Parent) : Nat := s.announces.countP fun a => a.stage.isRecovering

def leaving (s : Parent) : Nat := s.announces.countP fun a => a.stage == .exited

def Announceable (c : Child) (permitted hasText : Bool) : Prop :=
  if c.running then c.isTerminal = false ∧ permitted = true ∧ hasText = true else c.isTerminal = true

def Unlisted (s : Parent) (i : Nat) : Prop := ∀ c ∈ s.children[i]?, c.isListed = false

/-- A run-mode child is listed at the yield, and ends by an announce. No two announces are at once
between their look at the flag and the end of the wait. The yield timer does not fire. -/
def Careful (s : Parent) : Event → Prop
  | .spawn _ | .startYieldTimeout => True
  | .enterWaiting => s.hasRunningRunModeChildren = true ∧ s.recovering = 0 ∧ s.leaving = 0
  | .tryPushAnnounce i permitted hasText => ∀ c ∈ s.children[i]?, c.isListed = true → Announceable c permitted hasText
  | .notifyChildError i | .notifyChildForcedTermination i | .killChild i | .terminateStaleChild i | .spawnTimeout i =>
    s.Unlisted i
  | .advance t => ∀ a ∈ s.announces[t]?, a.stage = .reclaimed → s.recovering = 0
  | .yieldTimeout | .advanceTimer => False

instance Careful.decidable (s : Parent) : ∀ e, Decidable (s.Careful e)
  | .spawn _ | .startYieldTimeout => isTrue trivial
  | .enterWaiting => inferInstanceAs (Decidable (_ ∧ _))
  | .tryPushAnnounce i permitted hasText =>
    inferInstanceAs (Decidable (∀ c ∈ s.children[i]?, c.isListed = true →
      if c.running then c.isTerminal = false ∧ permitted = true ∧ hasText = true else c.isTerminal = true))
  | .notifyChildError i | .notifyChildForcedTermination i | .killChild i | .terminateStaleChild i | .spawnTimeout i =>
    inferInstanceAs (Decidable (∀ c ∈ s.children[i]?, c.isListed = false))
  | .advance t => inferInstanceAs (Decidable (∀ a ∈ s.announces[t]?, a.stage = .reclaimed → s.recovering = 0))
  | .yieldTimeout | .advanceTimer => isFalse id

/-! ## Counting announces -/

def Pending (s : Parent) (i : Nat) : Prop := ∃ a ∈ s.announces, a.child = i ∧ a.stage.beforeReclaim = true

variable {s : Parent} {t : Nat} {a : Announce}

theorem countP_setStage (p : Stage → Bool) (ha : s.announces[t]? = some a) (stage : Stage) :
    (s.setStage t a stage).announces.countP (fun b => p b.stage) + (p a.stage).toNat =
      s.announces.countP (fun b => p b.stage) + (p stage).toNat := by
  obtain ⟨hlt, rfl⟩ := List.getElem?_eq_some_iff.mp ha
  have hnat : ∀ b : Bool, (if b = true then 1 else 0) = b.toNat := by
    intro b
    cases b <;> rfl
  have hle : (p s.announces[t].stage).toNat ≤ s.announces.countP fun b => p b.stage := by
    cases hold : p s.announces[t].stage with
    | false => exact Nat.zero_le _
    | true => exact countP_pos_iff.mpr ⟨_, getElem_mem hlt, hold⟩
  rw [setStage, countP_set hlt, hnat, hnat]
  show _ - _ + (p stage).toNat + _ = _
  omega

theorem Pending.setStage {i : Nat} (h : s.Pending i) (ha : s.announces[t]? = some a) {stage : Stage}
    (hstage : a.child = i → a.stage.beforeReclaim = true → stage.beforeReclaim = true) :
    (s.setStage t a stage).Pending i := by
  obtain ⟨b, hb, hchild, hbefore⟩ := h
  obtain ⟨k, hk⟩ := List.getElem?_of_mem hb
  by_cases hkt : k = t
  · subst hkt
    obtain rfl : a = b := Option.some.inj (ha.symm.trans hk)
    obtain ⟨hlt, -⟩ := List.getElem?_eq_some_iff.mp ha
    exact ⟨_, mem_set hlt _, hchild, hstage hchild hbefore⟩
  · refine ⟨b, List.mem_of_getElem? (i := k) ?_, hchild, hbefore⟩
    show (s.announces.set t _)[k]? = some b
    rw [List.getElem?_set_ne (Ne.symm hkt)]
    exact hk

/-! ## The invariant -/

structure Inv (s : Parent) : Prop where
  listed : ∀ i c, s.children[i]? = some c → c.isListed = true → c.running = true ∨ s.Pending i
  woken : s.yielding = true → s.hasRunningRunModeChildren = true ∨ 0 < s.returning + s.recovering
  single : s.recovering ≤ 1
  held : 0 < s.recovering → s.yielding = true
  undrained : s.yielding = true → s.leaving = 0 ∧ s.drains = []
  drained : s.waited = true → s.yielding = false → s.leaving + s.drains.length = 1 ∧ (s.leaving = 0 → s.owed = [])
  idle : s.waited = false → s.yielding = false ∧ s.leaving = 0

theorem inv_init : Inv init where
  listed := fun _ _ h => absurd h (by simp [init])
  woken := fun h => absurd h (by decide)
  single := Nat.zero_le _
  held := fun h => absurd h (by decide)
  undrained := fun h => absurd h (by decide)
  drained := fun h => absurd h (by decide)
  idle := fun _ => ⟨rfl, rfl⟩

theorem hasRunningRunModeChildren_of {i : Nat} {c : Child} (hc : s.children[i]? = some c) (hl : c.isListed = true) :
    s.hasRunningRunModeChildren = true :=
  any_eq_true.mpr ⟨c, List.mem_of_getElem? hc, hl⟩

theorem Inv.same {s' : Parent} (h : Inv s) (hy : s'.yielding = s.yielding) (hw : s'.waited = s.waited)
    (hd : s'.drains = s.drains) (ho : s'.owed = s.owed) (hret : s'.returning = s.returning)
    (hrec : s'.recovering = s.recovering) (hlea : s'.leaving = s.leaving)
    (hlisted : ∀ i c, s'.children[i]? = some c → c.isListed = true → c.running = true ∨ s'.Pending i)
    (hkept : s.hasRunningRunModeChildren = true → s'.hasRunningRunModeChildren = true) : Inv s' := by
  refine ⟨hlisted, ?_, ?_, ?_, ?_, ?_, ?_⟩
  · rw [hy, hret, hrec]
    exact fun hyield => (h.woken hyield).imp_left hkept
  · rw [hrec]
    exact h.single
  · rw [hrec, hy]
    exact h.held
  · rw [hy, hlea, hd]
    exact h.undrained
  · rw [hw, hy, hlea, hd, ho]
    exact h.drained
  · rw [hw, hy, hlea]
    exact h.idle

/-! ## Steps on the children -/

variable {i : Nat} {c c' : Child}

theorem getElem_setChild {j : Nat} {d : Child} (h : (s.setChild i c').children[j]? = some d) :
    (j = i ∧ d = c') ∨ (j ≠ i ∧ s.children[j]? = some d) := by
  rw [setChild, List.getElem?_set] at h
  split_ifs at h with hij hlt
  · exact .inl ⟨hij.symm, (Option.some.inj h).symm⟩
  · exact .inr ⟨Ne.symm hij, h⟩

theorem hasRunning_setChild (hc : s.children[i]? = some c) (hlisted : c.isListed = true → c'.isListed = true)
    (h : s.hasRunningRunModeChildren = true) : (s.setChild i c').hasRunningRunModeChildren = true := by
  obtain ⟨d, hd, hl⟩ := any_eq_true.mp h
  obtain ⟨j, hj⟩ := List.getElem?_of_mem hd
  obtain ⟨hlt, -⟩ := List.getElem?_eq_some_iff.mp hc
  by_cases hij : j = i
  · subst hij
    obtain rfl : c = d := Option.some.inj (hc.symm.trans hj)
    exact any_eq_true.mpr ⟨c', mem_set hlt _, hlisted hl⟩
  · refine hasRunningRunModeChildren_of (i := j) (c := d) ?_ hl
    show (s.children.set i c')[j]? = some d
    rw [List.getElem?_set_ne (Ne.symm hij)]
    exact hj

theorem Inv.setChild (h : Inv s) (hc : s.children[i]? = some c) (hlisted : c.isListed = true → c'.isListed = true)
    (hrunning : c'.isListed = true → c'.running = true ∨ s.Pending i) : Inv (s.setChild i c') := by
  refine h.same rfl rfl rfl rfl rfl rfl rfl ?_ (hasRunning_setChild hc hlisted)
  intro j d hj hl
  obtain ⟨rfl, rfl⟩ | ⟨-, hold⟩ := getElem_setChild hj
  · exact hrunning hl
  · exact h.listed j d hold hl

theorem Inv.push (h : Inv s) (n : Notice) : Inv (s.push n) := h.same rfl rfl rfl rfl rfl rfl rfl h.listed id

theorem Inv.setUnlisted (h : Inv s) (hc : s.children[i]? = some c) (hl : c.isListed = false)
    (hl' : c'.isListed = false) : Inv (s.setChild i c') :=
  h.setChild hc (fun hlisted => absurd hlisted (by simp [hl])) fun hlisted => absurd hlisted (by simp [hl'])

theorem Inv.spawn (h : Inv s) (mode : SpawnMode) : Inv (s.step (.spawn mode)) := by
  refine h.same rfl rfl rfl rfl rfl rfl rfl ?_ ?_
  · intro j d hj hl
    rw [step, List.getElem?_append] at hj
    split_ifs at hj with hlt
    · exact h.listed j d hj hl
    · obtain rfl := mem_singleton.mp (List.mem_of_getElem? hj)
      exact .inl rfl
  · intro hany
    show (s.children ++ _).any Child.isListed = true
    rw [any_append, Bool.or_eq_true]
    exact .inl hany

theorem Inv.enterWaiting (h : Inv s) (hc : s.Careful .enterWaiting) : Inv (s.step .enterWaiting) := by
  obtain ⟨hchild, hrecovering, hleaving⟩ := hc
  refine ⟨h.listed, fun _ => .inl hchild, h.single, fun _ => rfl, fun _ => ⟨hleaving, rfl⟩, ?_, ?_⟩
  · intro _ hy
    cases hy
  · intro hw
    cases hw

theorem Inv.tryPushAnnounce {permitted hasText : Bool} (h : Inv s) (hc : s.children[i]? = some c)
    (hcare : c.isListed = true → Announceable c permitted hasText) : Inv (s.tryPushAnnounce i permitted hasText c) := by
  unfold Parent.tryPushAnnounce
  dsimp only
  split_ifs with hguard
  · refine h.same rfl rfl rfl rfl ?_ ?_ ?_ ?_ (hasRunning_setChild hc id)
    · simp [returning, Parent.setChild]
    · simp [recovering, Parent.setChild, Stage.isRecovering]
    · simp [leaving, Parent.setChild]
    · intro j d hj hl
      obtain ⟨rfl, -⟩ | ⟨-, hold⟩ := getElem_setChild hj
      · exact .inr ⟨⟨j, .announced⟩, mem_append_right _ (mem_singleton_self _), rfl, rfl⟩
      · refine (h.listed j d hold hl).imp_right ?_
        rintro ⟨b, hb, hpending⟩
        exact ⟨b, mem_append_left _ hb, hpending⟩
  · refine h.setChild hc id fun hl => ?_
    have hopen := hcare hl
    unfold Announceable at hopen
    split_ifs at hopen with hrunning
    · obtain ⟨hterminal, hpermitted, htext⟩ := hopen
      have hlisted : c.isListed = true := hl
      exact absurd hguard (by simp [hlisted, hterminal, hpermitted, htext])
    · exact (h.listed i c hc hl).imp_left fun hr => absurd hr hrunning

/-! ## Steps of an announce -/

theorem returning_setStage (ha : s.announces[t]? = some a) (stage : Stage) :
    (s.setStage t a stage).returning + (a.stage == .reclaimed).toNat = s.returning + (stage == .reclaimed).toNat :=
  countP_setStage (· == .reclaimed) ha stage

theorem recovering_setStage (ha : s.announces[t]? = some a) (stage : Stage) :
    (s.setStage t a stage).recovering + a.stage.isRecovering.toNat = s.recovering + stage.isRecovering.toNat :=
  countP_setStage Stage.isRecovering ha stage

theorem leaving_setStage (ha : s.announces[t]? = some a) (stage : Stage) :
    (s.setStage t a stage).leaving + (a.stage == .exited).toNat = s.leaving + (stage == .exited).toNat :=
  countP_setStage (· == .exited) ha stage

theorem Inv.listed_setStage (h : Inv s) (ha : s.announces[t]? = some a) {stage : Stage}
    (hbefore : a.stage.beforeReclaim = true → stage.beforeReclaim = true) :
    ∀ j d, s.children[j]? = some d → d.isListed = true → d.running = true ∨ (s.setStage t a stage).Pending j := by
  intro j d hj hl
  exact (h.listed j d hj hl).imp_right fun hp => hp.setStage ha fun _ => hbefore

theorem Inv.stageKeeping {stage : Stage} (h : Inv s) (ha : s.announces[t]? = some a)
    (hreclaimed : (a.stage == .reclaimed) = (stage == .reclaimed))
    (hrecovering : a.stage.isRecovering = stage.isRecovering) (hexited : (a.stage == .exited) = (stage == .exited))
    (hbefore : a.stage.beforeReclaim = true → stage.beforeReclaim = true) : Inv (s.setStage t a stage) := by
  have hret := returning_setStage ha stage
  have hrec := recovering_setStage ha stage
  have hlea := leaving_setStage ha stage
  rw [hreclaimed] at hret
  rw [hrecovering] at hrec
  rw [hexited] at hlea
  exact h.same rfl rfl rfl rfl (by omega) (by omega) (by omega) (h.listed_setStage ha hbefore) id

theorem Inv.reclaim (h : Inv s) (ha : s.announces[t]? = some ⟨i, .queued⟩) {children : List Child}
    (hchildren : ∀ j d, children[j]? = some d → d.isListed = true → j ≠ i ∧ s.children[j]? = some d) :
    Inv ({ s with children := children }.setStage t ⟨i, .queued⟩ .reclaimed) := by
  have hret := returning_setStage ha .reclaimed
  have hrec := recovering_setStage ha .reclaimed
  have hlea := leaving_setStage ha .reclaimed
  have hreturning : (s.setStage t ⟨i, .queued⟩ .reclaimed).returning = s.returning + 1 := hret
  have hrecovering : (s.setStage t ⟨i, .queued⟩ .reclaimed).recovering = s.recovering := hrec
  have hleaving : (s.setStage t ⟨i, .queued⟩ .reclaimed).leaving = s.leaving := hlea
  refine ⟨?_, ?_, ?_, ?_, ?_, ?_, ?_⟩
  · intro j d hj hl
    obtain ⟨hne, hold⟩ := hchildren j d hj hl
    refine (h.listed j d hold hl).imp_right fun hp => ?_
    exact hp.setStage ha fun heq => absurd heq.symm hne
  · intro _
    right
    show 0 < (s.setStage t ⟨i, .queued⟩ .reclaimed).returning + _
    omega
  · exact hrecovering ▸ h.single
  · exact fun hpos => h.held (hrecovering ▸ hpos)
  · exact fun hy => (h.undrained hy).imp_left hleaving.trans
  · intro hw hy
    show (s.setStage t ⟨i, .queued⟩ .reclaimed).leaving + _ = 1 ∧
      ((s.setStage t ⟨i, .queued⟩ .reclaimed).leaving = 0 → _)
    rw [hleaving]
    exact h.drained hw hy
  · exact fun hw => (h.idle hw).imp_right hleaving.trans

theorem Inv.seeYielding (h : Inv s) (ha : s.announces[t]? = some ⟨i, .reclaimed⟩) (hy : s.yielding = true)
    (hnone : s.recovering = 0) : Inv (s.setStage t ⟨i, .reclaimed⟩ .sawYielding) := by
  have hrec : (s.setStage t ⟨i, .reclaimed⟩ .sawYielding).recovering = s.recovering + 1 :=
    recovering_setStage ha .sawYielding
  have hlea : (s.setStage t ⟨i, .reclaimed⟩ .sawYielding).leaving = s.leaving := leaving_setStage ha .sawYielding
  refine ⟨h.listed_setStage ha nofun, fun _ => .inr (by omega), by omega, fun _ => hy, ?_, fun _ hno => ?_,
    fun hw => ?_⟩
  · exact fun hyield => (h.undrained hyield).imp_left hlea.trans
  · exact absurd (hy.symm.trans hno) (by decide)
  · exact absurd (hy.symm.trans (h.idle hw).1) (by decide)

theorem Inv.letBe (h : Inv s) (ha : s.announces[t]? = some a) (hstage : a.stage = .reclaimed ∨ a.stage = .sawYielding)
    (hother : s.yielding = true → s.hasRunningRunModeChildren = true) : Inv (s.setStage t a .done) := by
  have hbefore : a.stage.beforeReclaim = false := by rcases hstage with h | h <;> rw [h] <;> rfl
  have hexited : (a.stage == .exited) = false := by rcases hstage with h | h <;> rw [h] <;> rfl
  have hrec := recovering_setStage ha .done
  have hlea := leaving_setStage ha .done
  rw [hexited] at hlea
  have hless : (s.setStage t a .done).recovering ≤ s.recovering := Nat.le.intro hrec
  have hsame : (s.setStage t a .done).leaving = s.leaving := hlea
  refine ⟨h.listed_setStage ha fun hb => absurd hb (by simp [hbefore]), fun hy => .inl (hother hy),
    hless.trans h.single, fun hpos => h.held (by omega), ?_, ?_, ?_⟩
  · exact fun hy => (h.undrained hy).imp_left hsame.trans
  · intro hw hy
    rw [hsame]
    exact h.drained hw hy
  · exact fun hw => (h.idle hw).imp_right hsame.trans

theorem Inv.exit (h : Inv s) (ha : s.announces[t]? = some ⟨i, .cancelled⟩) :
    Inv (s.exitWaiting.setStage t ⟨i, .cancelled⟩ .exited) := by
  have hrec : (s.setStage t ⟨i, .cancelled⟩ .exited).recovering + 1 = s.recovering := recovering_setStage ha .exited
  have hlea : (s.setStage t ⟨i, .cancelled⟩ .exited).leaving = s.leaving + 1 := leaving_setStage ha .exited
  have hsingle := h.single
  have hy : s.yielding = true := h.held (by omega)
  obtain ⟨hnone, hdrains⟩ := h.undrained hy
  have hleaving : (s.exitWaiting.setStage t ⟨i, .cancelled⟩ .exited).leaving = 1 := by
    show (s.setStage t ⟨i, .cancelled⟩ .exited).leaving = 1
    omega
  have hrecovering : (s.exitWaiting.setStage t ⟨i, .cancelled⟩ .exited).recovering = 0 := by
    show (s.setStage t ⟨i, .cancelled⟩ .exited).recovering = 0
    omega
  refine ⟨h.listed_setStage ha nofun, ?_, by omega, fun hpos => by omega, ?_, ?_, ?_⟩
  · intro hno
    cases hno
  · intro hno
    cases hno
  · intro _ _
    rw [hleaving]
    exact ⟨by show 1 + s.drains.length = 1; rw [hdrains]; rfl, fun hz => absurd hz (by decide)⟩
  · exact fun hw => absurd (hy.symm.trans (h.idle hw).1) (by decide)

theorem Inv.drain (h : Inv s) (ha : s.announces[t]? = some ⟨i, .exited⟩) :
    Inv ((s.drainPending .recovery).setStage t ⟨i, .exited⟩ .done) := by
  have hret : (s.setStage t ⟨i, .exited⟩ .done).returning = s.returning := returning_setStage ha .done
  have hrec : (s.setStage t ⟨i, .exited⟩ .done).recovering = s.recovering := recovering_setStage ha .done
  have hlea : (s.setStage t ⟨i, .exited⟩ .done).leaving + 1 = s.leaving := leaving_setStage ha .done
  have hno : s.yielding = false := by
    rw [Bool.eq_false_iff]
    intro hy
    have := (h.undrained hy).1
    omega
  refine ⟨h.listed_setStage ha nofun, fun hy => absurd (hy.symm.trans hno) (by decide), ?_,
    fun hpos => h.held (hrec ▸ hpos), fun hy => absurd (hy.symm.trans hno) (by decide), ?_, ?_⟩
  · exact hrec ▸ h.single
  · intro hw _
    obtain ⟨hsum, -⟩ := h.drained hw hno
    refine ⟨?_, fun _ => rfl⟩
    show (s.setStage t ⟨i, .exited⟩ .done).leaving + (s.drains ++ [_]).length = 1
    rw [length_append, length_singleton]
    omega
  · intro hw
    have := (h.idle hw).2
    omega

theorem Inv.advance (h : Inv s) (ha : s.announces[t]? = some a) (hc : a.stage = .reclaimed → s.recovering = 0) :
    Inv (s.advance t a) := by
  obtain ⟨i, stage⟩ := a
  cases stage with
  | announced =>
    show Inv ((s.children[i]?.elim s fun c => s.setChild i (c.updateState .completed)).setStage t _ .marked)
    cases hchild : s.children[i]? with
    | none => exact h.stageKeeping ha rfl rfl rfl fun _ => rfl
    | some c =>
      have hset : Inv (s.setChild i (c.updateState .completed)) := h.setChild hchild id (h.listed i c hchild)
      exact hset.stageKeeping ha rfl rfl rfl fun _ => rfl
  | marked => exact (h.push _).stageKeeping ha rfl rfl rfl fun _ => rfl
  | queued =>
    show Inv ((s.children[i]?.elim s fun c => s.setChild i { c with inTree := false }).setStage t _ .reclaimed)
    cases hchild : s.children[i]? with
    | none =>
      refine h.reclaim ha fun j d hj _ => ⟨?_, hj⟩
      rintro rfl
      exact absurd (hchild.symm.trans hj) (by simp)
    | some =>
      refine h.reclaim ha fun j d hj hl => ?_
      obtain ⟨-, rfl⟩ | ⟨hne, hold⟩ := getElem_setChild hj
      · exact absurd hl (by simp [Child.isListed])
      · exact ⟨hne, hold⟩
  | reclaimed =>
    show Inv (s.setStage t _ (if s.yielding then .sawYielding else .done))
    split_ifs with hy
    · exact h.seeYielding ha hy (hc rfl)
    · exact h.letBe ha (.inl rfl) fun hyield => absurd hyield hy
  | sawYielding =>
    show Inv (s.setStage t _ (if s.hasRunningRunModeChildren then .done else .sawNoChildren))
    split_ifs with hany
    · exact h.letBe ha (.inr rfl) fun _ => hany
    · exact h.stageKeeping ha rfl rfl rfl id
  | sawNoChildren =>
    have hset : Inv (s.setStage t ⟨i, .sawNoChildren⟩ .cancelled) := h.stageKeeping ha rfl rfl rfl id
    exact hset.same rfl rfl rfl rfl rfl rfl rfl hset.listed id
  | cancelled => exact h.exit ha
  | exited => exact h.drain ha
  | done => exact h

theorem inv_step (e : Event) (h : Inv s) (hc : s.Careful e) : Inv (s.step e) := by
  cases e with
  | spawn mode => exact h.spawn mode
  | enterWaiting => exact h.enterWaiting hc
  | startYieldTimeout => exact h.same rfl rfl rfl rfl rfl rfl rfl h.listed id
  | tryPushAnnounce =>
    exact Trace.invariant_elim h fun c hchild => h.tryPushAnnounce hchild (hc c hchild)
  | notifyChildError =>
    refine Trace.invariant_elim h fun c hchild => ?_
    have hl := hc c hchild
    unfold notifyChildError
    rw [hl]
    exact h.setUnlisted hchild hl hl
  | notifyChildForcedTermination =>
    refine Trace.invariant_elim h fun c hchild => ?_
    have hl := hc c hchild
    unfold notifyChildForcedTermination
    rw [hl]
    exact h.setUnlisted hchild hl hl
  | killChild =>
    exact Trace.invariant_elim h fun c hchild => h.setUnlisted hchild (hc c hchild) (by simp [Child.isListed])
  | terminateStaleChild =>
    exact Trace.invariant_elim h fun c hchild => (h.setUnlisted hchild (hc c hchild) (by simp [Child.isListed])).push _
  | spawnTimeout i =>
    refine Trace.invariant_elim h fun c hchild => ?_
    have hl := hc c hchild
    have hset : Inv (s.setChild i c.finished) := h.setUnlisted hchild hl hl
    exact hset.push _
  | advance => exact Trace.invariant_elim h fun a ha => h.advance ha (hc a ha)
  | yieldTimeout | advanceTimer => exact hc.elim

theorem Inv.resumed (h : Inv s) (hsettled : s.Settled) (hnone : s.NoneRunning) (hwaited : s.waited = true) :
    s.Resumed := by
  have hcount : ∀ p : Stage → Bool, p .done = false → s.announces.countP (fun a => p a.stage) = 0 := by
    intro p hp
    refine countP_eq_zero.mpr fun a ha => ?_
    rw [hsettled a ha, hp]
    decide
  have hlisted : s.hasRunningRunModeChildren = false := by
    rw [Bool.eq_false_iff]
    intro hany
    obtain ⟨c, hmem, hl⟩ := any_eq_true.mp hany
    obtain ⟨i, hi⟩ := List.getElem?_of_mem hmem
    obtain hrunning | ⟨a, ha, -, hbefore⟩ := h.listed i c hi hl
    · have hmode : c.mode = .run := by
        simp only [Child.isListed, Bool.and_eq_true, beq_iff_eq] at hl
        exact hl.1
      exact absurd (hrunning.symm.trans (hnone c hmem hmode)) (by decide)
    · rw [hsettled a ha] at hbefore
      cases hbefore
  have hy : s.yielding = false := by
    rw [Bool.eq_false_iff]
    intro hyield
    obtain hany | hpos := h.woken hyield
    · exact absurd (hany.symm.trans hlisted) (by decide)
    · have hret : s.returning = 0 := hcount (· == .reclaimed) rfl
      have hrec : s.recovering = 0 := hcount Stage.isRecovering rfl
      omega
  have hleaving : s.leaving = 0 := hcount (· == .exited) rfl
  obtain ⟨hsum, howed⟩ := h.drained hwaited hy
  exact ⟨hy, by omega, howed hleaving⟩

end Parent

theorem yielded_parent_resumes (events : List Event) (hc : Trace.Along step Careful init events)
    (hsettled : (run events).Settled) (hnone : (run events).NoneRunning)
    (hwaited : (run events).waited = true) : (run events).Resumed :=
  (Trace.invariant_along (fun _ e h hc => inv_step e h hc) inv_init hc).resumed hsettled hnone hwaited

def oneAfterTheOther : List Event :=
  List.flatten [[.spawn .run, .spawn .run, .enterWaiting, .startYieldTimeout, .tryPushAnnounce 0 true true],
    List.replicate 5 (.advance 0), [.tryPushAnnounce 1 true true], List.replicate 8 (.advance 1)]

theorem oneAfterTheOther_resumes : Trace.Along step Careful init oneAfterTheOther ∧ (run oneAfterTheOther).Resumed :=
  ⟨by decide +kernel,
    yielded_parent_resumes _ (by decide +kernel) (by decide +kernel) (by decide +kernel) (by decide +kernel)⟩

def endedBeforeYield : List Event :=
  List.flatten [[.spawn .run, .tryPushAnnounce 0 true true], List.replicate 4 (.advance 0),
    [.enterWaiting, .startYieldTimeout]]

def endedBy (e : Event) : List Event :=
  [.spawn .run, .enterWaiting, .startYieldTimeout, e, .tryPushAnnounce 0 true true]

def endedTogether : List Event :=
  List.flatten [[.spawn .run, .spawn .run, .enterWaiting, .startYieldTimeout, .tryPushAnnounce 0 true true,
      .tryPushAnnounce 1 true true],
    List.replicate 3 (.advance 0), List.replicate 3 (.advance 1), [.advance 0, .advance 1],
    List.replicate 4 (.advance 0), List.replicate 4 (.advance 1)]

theorem a_yielded_parent_is_left_waiting :
    (∀ events ∈ [endedBeforeYield, endedBy (.notifyChildForcedTermination 0), endedBy (.killChild 0),
        endedBy (.notifyChildError 0)],
      (run events).Settled ∧ (run events).NoneRunning ∧ (run events).yielding = true) ∧
    (run endedTogether).Settled ∧ (run endedTogether).NoneRunning ∧
      (run endedTogether).drains = [.recovery, .recovery] := by
  decide +kernel

end CloseClaw.Gateway.YieldRecovery
