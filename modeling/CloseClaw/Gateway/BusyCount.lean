/- The count of open work a shutdown waits for (`session_handles.rs`,
   `session_manager/announce.rs`). `balance` is the count without wrap. -/

import CloseClaw.Lib.Ledger
import CloseClaw.Daemon.Shutdown
import CloseClaw.Gateway.ChildAnnounce

namespace CloseClaw.Gateway.BusyCount

open Lib Daemon.Shutdown Gateway.ChildAnnounce Function Ledger Trace

inductive SpawnMode where
  | run
  | session
  deriving DecidableEq

inductive Item where
  | call (id : Nat)
  | stream (id : Nat)
  | dispatch (id : Nat)
  | tool (session callId : String)
  | handle (parent child : String)
  | child (id : String)
  deriving DecidableEq

namespace Item

def session? : Item → Option String
  | .tool session _ => some session
  | .handle parent _ => some parent
  | .call _ | .stream _ | .dispatch _ | .child _ => none

def isToolOf (session : String) : Item → Bool
  | .tool s _ => s == session
  | _ => false

def isHandleOf (session : String) : Item → Bool
  | .handle s _ => s == session
  | _ => false

end Item

inductive SpawnStage where
  | created
  | handled
  | done
  deriving DecidableEq

structure ChildRecord where
  parent : String
  mode : SpawnMode
  stage : SpawnStage
  inTree : Bool
  state : Option ChildSessionState

def ChildRecord.isTerminal (r : ChildRecord) : Bool := r.state.any ChildSessionState.isTerminal

structure Ending where
  child : String
  forced : Bool

inductive Clearing where
  | tools (session : String) (count : Nat)
  | countChildren (session : String)
  | children (session : String) (count : Nat)

structure Manager where
  shutdown : ShutdownState
  ledger : Ledger Item
  live : Finset String
  children : String → Option ChildRecord
  alive : Finset String
  endings : Nat → Option Ending
  clears : Nat → Option Clearing

inductive PollResult where
  | pending
  | item
  | error
  | done

def PollResult.ends : PollResult → Bool
  | .error | .done => true
  | .pending | .item => false

inductive Event where
  | shutdown (state : ShutdownState)
  | openSession (id : String)
  | callStart (id : Nat)
  | callEnd (id : Nat)
  | streamOpen (id : Nat)
  | streamPoll (id : Nat) (result : PollResult)
  | streamDrop (id : Nat)
  | dispatchStart (id : Nat)
  | dispatchEnd (id : Nat)
  | registerToolHandle (session callId : String)
  | unregisterToolHandle (session callId : String)
  | createChildSession (parent child : String) (mode : SpawnMode)
  | registerChildHandle (child : String)
  | countChild (child : String)
  | tryPushAnnounce (task : Nat) (child : String) (permitted hasText : Bool)
  | notifyChildForcedTermination (task : Nat) (child : String)
  | finishEnding (task : Nat) (pushed : Bool)
  | notifyChildError (child : String)
  | killChild (child : String)
  | clearExecState (task : Nat) (session : String)
  | clearStep (task : Nat)

namespace Manager

def init (roots : Finset String) : Manager where
  shutdown := .running
  ledger := .empty
  live := roots
  children := fun _ => none
  alive := ∅
  endings := fun _ => none
  clears := fun _ => none

def work (s : Manager) : Finset Item := s.ledger.work

def busyCount (s : Manager) : Nat := (s.ledger.balance % (UInt64.size : Int)).toNat

def shuttingDown (s : Manager) : Bool := s.shutdown.isShuttingDownState

def enter (s : Manager) (x : Item) : Manager := { s with ledger := s.ledger.enter x }

def leave (s : Manager) (x : Item) : Manager := { s with ledger := s.ledger.leave x }

def lose (s : Manager) (x : Item) : Manager := { s with ledger := s.ledger.lose x }

def flush (s : Manager) (p : Item → Bool) (n : Nat) : Manager := { s with ledger := s.ledger.flush p n }

def setChild (s : Manager) (id : String) (r : ChildRecord) : Manager :=
  { s with children := Function.update s.children id (some r) }

variable (s : Manager)

theorem children_setChild_self (id : String) (r : ChildRecord) : (s.setChild id r).children id = some r :=
  update_self ..

theorem exists_children_setChild {s : Manager} {id id' : String} {r : ChildRecord} {P : ChildRecord → Prop}
    (hold : ∃ old, s.children id' = some old ∧ P old) (hnew : id' = id → P r) :
    ∃ r', (s.setChild id r).children id' = some r' ∧ P r' := by
  obtain ⟨old, hold, hP⟩ := hold
  by_cases heq : id' = id
  · subst heq
    exact ⟨r, s.children_setChild_self id' r, hnew rfl⟩
  · exact ⟨old, (update_of_ne heq ..).trans hold, hP⟩

def setEnding (s : Manager) (task : Nat) (e : Option Ending) : Manager :=
  { s with endings := Function.update s.endings task e }

def setClear (s : Manager) (task : Nat) (c : Option Clearing) : Manager :=
  { s with clears := Function.update s.clears task c }

def clearStates (s : Manager) (session : String) : Manager :=
  { s with children := fun id =>
      (s.children id).map fun r => if r.parent = session then { r with state := none } else r }

def registerToolHandle (s : Manager) (session callId : String) : Manager :=
  if session ∈ s.live ∧ s.shuttingDown = false then s.enter (.tool session callId) else s

def unregisterToolHandle (s : Manager) (session callId : String) : Manager :=
  if session ∈ s.live then s.leave (.tool session callId) else s

def createChildSession (s : Manager) (parent child : String) (mode : SpawnMode) : Manager :=
  if s.shuttingDown = false ∧ parent ∈ s.live ∧ child ∉ s.live ∧ s.children child = none then
    { s with live := insert child s.live, alive := insert child s.alive }.setChild child
      ⟨parent, mode, .created, false, some .running⟩
  else s

def registerChildHandle (s : Manager) (child : String) (r : ChildRecord) : Manager :=
  if r.stage = .created then
    if r.parent ∈ s.live ∧ s.shuttingDown = false then
      (s.setChild child { r with stage := .handled }).enter (.handle r.parent child)
    else s.setChild child { r with stage := .handled }
  else s

def countChild (s : Manager) (child : String) (r : ChildRecord) : Manager :=
  if r.stage = .handled then (s.setChild child { r with stage := .done, inTree := true }).enter (.child child) else s

def tryPushAnnounce (s : Manager) (task : Nat) (child : String) (r : ChildRecord) (permitted hasText : Bool) :
    Manager :=
  if r.inTree = true ∧ r.mode = .run ∧ permitted = true ∧ ¬ (r.parent ∈ s.live ∧ r.isTerminal = true) ∧
      child ∈ s.live ∧ hasText = true ∧ s.endings task = none then
    s.setEnding task (some ⟨child, false⟩)
  else s

def notifyChildForcedTermination (s : Manager) (task : Nat) (child : String) (r : ChildRecord) : Manager :=
  if r.inTree = true ∧ r.mode = .run ∧ r.parent ∈ s.live ∧ r.isTerminal = false ∧ s.endings task = none then
    s.setEnding task (some ⟨child, true⟩)
  else s

def unregisterChildHandle (s : Manager) (parent child : String) : Manager :=
  if parent ∈ s.live then s.leave (.handle parent child) else s

def giveUp (s : Manager) (child : String) (r : ChildRecord) : Manager :=
  { s.setChild child r with alive := s.alive.erase child }

def ended (s : Manager) (r : ChildRecord) (forced pushed : Bool) : ChildRecord :=
  { r with
    state := if r.parent ∈ s.live then r.state.map fun _ => if forced then .terminated else .completed else r.state
    inTree := r.inTree && (forced || !pushed) }

def finishEnding (s : Manager) (task : Nat) (e : Ending) (r : ChildRecord) (pushed : Bool) : Manager :=
  (((s.leave (.child e.child)).unregisterChildHandle r.parent e.child).giveUp e.child
    (s.ended r e.forced pushed)).setEnding task none

def errored (s : Manager) (r : ChildRecord) : ChildRecord :=
  { r with state := if r.parent ∈ s.live ∧ r.isTerminal = false then r.state.map fun _ => .errored else r.state }

def notifyChildError (s : Manager) (child : String) (r : ChildRecord) : Manager :=
  if r.inTree = true ∧ r.mode = .run ∧ child ∈ s.alive then (s.lose (.child child)).giveUp child (s.errored r)
  else s

def killed (s : Manager) (r : ChildRecord) : ChildRecord :=
  { r with inTree := false, state := if r.parent ∈ s.live then none else r.state }

def killChild (s : Manager) (child : String) (r : ChildRecord) : Manager :=
  if r.inTree = true then
    { ((s.lose (.child child)).unregisterChildHandle r.parent child).giveUp child (s.killed r) with
      live := s.live.erase child }
  else s

def clearExecState (s : Manager) (task : Nat) (session : String) : Manager :=
  if session ∈ s.live ∧ s.clears task = none then
    (s.clearStates session).setClear task (some (.tools session (s.ledger.count (Item.isToolOf session))))
  else s

def clearStep (s : Manager) (task : Nat) : Clearing → Manager
  | .tools session n => (s.flush (Item.isToolOf session) n).setClear task (some (.countChildren session))
  | .countChildren session =>
    s.setClear task (some (.children session (s.ledger.count (Item.isHandleOf session))))
  | .children session n => (s.flush (Item.isHandleOf session) n).setClear task none

def start (s : Manager) (x : Item) : Manager := if x ∈ s.work then s else s.enter x

def finish (s : Manager) (x : Item) : Manager := if x ∈ s.work then s.leave x else s

def step (s : Manager) : Event → Manager
  | .shutdown state => { s with shutdown := state }
  | .openSession id => { s with live := insert id s.live }
  | .callStart id => if s.shuttingDown then s else s.start (.call id)
  | .callEnd id => s.finish (.call id)
  | .streamOpen id => if s.shuttingDown then s else s.start (.stream id)
  | .streamPoll id result =>
    if s.shutdown = .forcefulShuttingDown ∨ result.ends = true then s.finish (.stream id) else s
  | .streamDrop id => s.lose (.stream id)
  | .dispatchStart id => s.start (.dispatch id)
  | .dispatchEnd id => s.finish (.dispatch id)
  | .registerToolHandle session callId => s.registerToolHandle session callId
  | .unregisterToolHandle session callId => s.unregisterToolHandle session callId
  | .createChildSession parent child mode => s.createChildSession parent child mode
  | .registerChildHandle child => (s.children child).elim s (s.registerChildHandle child)
  | .countChild child => (s.children child).elim s (s.countChild child)
  | .tryPushAnnounce task child permitted hasText =>
    (s.children child).elim s fun r => s.tryPushAnnounce task child r permitted hasText
  | .notifyChildForcedTermination task child =>
    (s.children child).elim s (s.notifyChildForcedTermination task child)
  | .finishEnding task pushed =>
    (s.endings task).elim s fun e => (s.children e.child).elim s fun r => s.finishEnding task e r pushed
  | .notifyChildError child => (s.children child).elim s (s.notifyChildError child)
  | .killChild child => (s.children child).elim s (s.killChild child)
  | .clearExecState task session => s.clearExecState task session
  | .clearStep task => (s.clears task).elim s (s.clearStep task)

end Manager

/-! ## What the count owes, and when it keeps it -/

structure Rest (s : Manager) : Prop where
  call : ∀ id, .call id ∉ s.work
  stream : ∀ id, .stream id ∉ s.work
  dispatch : ∀ id, .dispatch id ∉ s.work
  tool : ∀ session callId, .tool session callId ∉ s.work
  child : s.alive = ∅

structure Balanced (s : Manager) : Prop where
  nonneg : 0 ≤ s.ledger.balance
  rest : Rest s → s.busyCount = 0

def CountedTwice (s : Manager) (child : String) (r : ChildRecord) : Prop :=
  .child child ∈ s.work ∧ (r.parent ∈ s.live → .handle r.parent child ∈ s.work)

/-- What a kill counts off and what it leaves counted come to nothing, and the killed
    session has nothing registered. -/
def KillsNothing (s : Manager) (child : String) (r : ChildRecord) : Prop :=
  (∀ x ∈ s.work, x.session? ≠ some child) ∧
    (r.parent ∈ s.live ∧ (.child child ∈ s.work ↔ .handle r.parent child ∉ s.work) ∨
      r.parent ∉ s.live ∧ .child child ∉ s.work)

def Clearing.Current (s : Manager) : Clearing → Prop
  | .tools session n => s.ledger.count (Item.isToolOf session) = n
  | .countChildren _ => True
  | .children session n => s.ledger.count (Item.isHandleOf session) = n

def Paired (s : Manager) : Event → Prop
  | .streamDrop id => .stream id ∉ s.work
  | .registerToolHandle session callId =>
    session ∈ s.live → s.shuttingDown = false → .tool session callId ∉ s.work
  | .unregisterToolHandle session callId => session ∈ s.live → .tool session callId ∈ s.work
  | .finishEnding task _ => ∀ e ∈ s.endings task, ∀ r ∈ s.children e.child, CountedTwice s e.child r
  | .notifyChildError child => ∀ r ∈ s.children child, r.inTree = true → r.mode = .run → child ∈ s.alive →
      .child child ∉ s.work ∧ .handle r.parent child ∉ s.work
  | .killChild child => ∀ r ∈ s.children child, r.inTree = true → KillsNothing s child r
  | .clearStep task => ∀ c ∈ s.clears task, c.Current s
  | _ => True

instance CountedTwice.decidable (s : Manager) (child : String) (r : ChildRecord) : Decidable (CountedTwice s child r) :=
  inferInstanceAs (Decidable (_ ∧ _))

instance KillsNothing.decidable (s : Manager) (child : String) (r : ChildRecord) : Decidable (KillsNothing s child r) :=
  inferInstanceAs (Decidable (_ ∧ _))

instance Clearing.Current.decidable (s : Manager) : ∀ c : Clearing, Decidable (c.Current s)
  | .tools .. | .children .. => inferInstanceAs (Decidable (_ = _))
  | .countChildren _ => isTrue trivial

instance Paired.decidable (s : Manager) : ∀ e, Decidable (Paired s e)
  | .streamDrop _ => inferInstanceAs (Decidable (¬ _))
  | .registerToolHandle .. => inferInstanceAs (Decidable (_ → _ → ¬ _))
  | .unregisterToolHandle .. => inferInstanceAs (Decidable (_ → _))
  | .finishEnding task _ =>
    inferInstanceAs (Decidable (∀ e ∈ s.endings task, ∀ r ∈ s.children e.child, CountedTwice s e.child r))
  | .notifyChildError child =>
    inferInstanceAs (Decidable (∀ r ∈ s.children child, r.inTree = true → r.mode = .run → child ∈ s.alive →
      Item.child child ∉ s.work ∧ Item.handle r.parent child ∉ s.work))
  | .killChild child => inferInstanceAs (Decidable (∀ r ∈ s.children child, r.inTree = true → KillsNothing s child r))
  | .clearStep task => inferInstanceAs (Decidable (∀ c ∈ s.clears task, Clearing.Current s c))
  | .shutdown _ | .openSession _ | .callStart _ | .callEnd _ | .streamOpen _ | .streamPoll _ _ | .dispatchStart _
  | .dispatchEnd _ | .createChildSession .. | .registerChildHandle _ | .countChild _ | .tryPushAnnounce ..
  | .notifyChildForcedTermination .. | .clearExecState .. => isTrue trivial

/-! ## The invariant -/

structure Inv (s : Manager) : Prop where
  exact : s.ledger.Exact
  handle : ∀ p c, .handle p c ∈ s.work → c ∈ s.alive ∧ ∃ r, s.children c = some r ∧ r.parent = p ∧ r.stage ≠ .created
  child : ∀ c, .child c ∈ s.work → c ∈ s.alive ∧ ∃ r, s.children c = some r ∧ r.stage = .done
  session : ∀ x ∈ s.work, ∀ id, x.session? = some id → id ∈ s.live
  early : ∀ c r, s.children c = some r → r.stage ≠ .done → c ∈ s.alive ∧ r.inTree = false
  ending : ∀ t e, s.endings t = some e → ∃ r, s.children e.child = some r ∧ r.stage = .done

open Manager

theorem inv_init (roots : Finset String) : Inv (Manager.init roots) where
  exact := exact_empty
  handle p c h := absurd h (Finset.notMem_empty _)
  child c h := absurd h (Finset.notMem_empty _)
  session x h := absurd h (Finset.notMem_empty _)
  early c r h := by cases h
  ending t e h := by cases h

namespace Inv

variable {s : Manager}

theorem balanced (h : Inv s) : Balanced s := by
  refine ⟨h.exact.nonneg, fun hrest => ?_⟩
  have hempty : ∀ x, x ∉ s.ledger.work := by
    intro x hx
    cases x with
    | call id => exact hrest.call id hx
    | stream id => exact hrest.stream id hx
    | dispatch id => exact hrest.dispatch id hx
    | tool session callId => exact hrest.tool session callId hx
    | handle p c =>
      have halive := (h.handle p c hx).1
      rw [hrest.child] at halive
      exact Finset.notMem_empty c halive
    | child c =>
      have halive := (h.child c hx).1
      rw [hrest.child] at halive
      exact Finset.notMem_empty c halive
  rw [busyCount, h.exact.eq_zero hempty]
  rfl

/-! ### What an update keeps -/

theorem shrink (h : Inv s) {l : Ledger Item} (hexact : l.Exact) (hsub : l.work ⊆ s.work) :
    Inv { s with ledger := l } where
  exact := hexact
  handle p c hmem := h.handle p c (hsub hmem)
  child c hmem := h.child c (hsub hmem)
  session x hmem := h.session x (hsub hmem)
  early := h.early
  ending := h.ending

theorem enter (h : Inv s) {x : Item} (hnew : x ∉ s.work) (hlive : ∀ id, x.session? = some id → id ∈ s.live)
    (hhandle : ∀ p c, x = .handle p c → c ∈ s.alive ∧ ∃ r, s.children c = some r ∧ r.parent = p ∧ r.stage ≠ .created)
    (hchild : ∀ c, x = .child c → c ∈ s.alive ∧ ∃ r, s.children c = some r ∧ r.stage = .done) : Inv (s.enter x) where
  exact := (exact_enter_iff h.exact).mpr hnew
  handle p c hmem := by
    obtain heq | hold := mem_enter.mp hmem
    · exact hhandle p c heq.symm
    · exact h.handle p c hold
  child c hmem := by
    obtain heq | hold := mem_enter.mp hmem
    · exact hchild c heq.symm
    · exact h.child c hold
  session y hmem := by
    obtain heq | hold := mem_enter.mp hmem
    · rw [heq]
      exact hlive
    · exact h.session y hold
  early := h.early
  ending := h.ending

theorem of_handle (h : Inv s) {p c : String} {r : ChildRecord} (hr : s.children c = some r)
    (hmem : .handle p c ∈ s.work) : r.parent = p ∧ r.stage ≠ .created := by
  obtain ⟨-, old, hold, hfits⟩ := h.handle p c hmem
  obtain rfl := Option.some.inj (hold.symm.trans hr)
  exact hfits

theorem of_child (h : Inv s) {c : String} {r : ChildRecord} (hr : s.children c = some r) (hmem : .child c ∈ s.work) :
    r.stage = .done := by
  obtain ⟨-, old, hold, hdone⟩ := h.child c hmem
  obtain rfl := Option.some.inj (hold.symm.trans hr)
  exact hdone

theorem setChild (h : Inv s) {c : String} {r : ChildRecord}
    (hhandle : ∀ p, .handle p c ∈ s.work → r.parent = p ∧ r.stage ≠ .created)
    (hchild : .child c ∈ s.work → r.stage = .done) (hearly : r.stage ≠ .done → c ∈ s.alive ∧ r.inTree = false)
    (hdone : ∀ old, s.children c = some old → old.stage = .done → r.stage = .done) : Inv (s.setChild c r) where
  exact := h.exact
  handle p c' hmem := by
    obtain ⟨halive, hold⟩ := h.handle p c' hmem
    refine ⟨halive, exists_children_setChild hold ?_⟩
    rintro rfl
    exact hhandle p hmem
  child c' hmem := by
    obtain ⟨halive, hold⟩ := h.child c' hmem
    refine ⟨halive, exists_children_setChild hold ?_⟩
    rintro rfl
    exact hchild hmem
  session := h.session
  early c' r' hr' := by
    by_cases heq : c' = c
    · subst heq
      obtain rfl := Option.some.inj ((s.children_setChild_self c' r).symm.trans hr')
      exact hearly
    · exact h.early c' r' ((update_of_ne heq ..).symm.trans hr')
  ending t e he := by
    have hold := h.ending t e he
    refine exists_children_setChild hold ?_
    rintro rfl
    obtain ⟨old, hold, hstage⟩ := hold
    exact hdone old hold hstage

theorem setLive (h : Inv s) {live : Finset String} (hlive : ∀ x ∈ s.work, ∀ id, x.session? = some id → id ∈ live) :
    Inv { s with live } :=
  ⟨h.exact, h.handle, h.child, hlive, h.early, h.ending⟩

theorem setAlive (h : Inv s) {alive : Finset String} (hsub : s.alive ⊆ alive) : Inv { s with alive } where
  exact := h.exact
  handle p c hmem := ⟨hsub (h.handle p c hmem).1, (h.handle p c hmem).2⟩
  child c hmem := ⟨hsub (h.child c hmem).1, (h.child c hmem).2⟩
  session := h.session
  early c r hr hne := ⟨hsub (h.early c r hr hne).1, (h.early c r hr hne).2⟩
  ending := h.ending

theorem setClear (h : Inv s) (task : Nat) (c : Option Clearing) : Inv (s.setClear task c) :=
  ⟨h.exact, h.handle, h.child, h.session, h.early, h.ending⟩

theorem setEnding (h : Inv s) {task : Nat} {e : Option Ending}
    (he : ∀ e' ∈ e, ∃ r, s.children e'.child = some r ∧ r.stage = .done) : Inv (s.setEnding task e) where
  exact := h.exact
  handle := h.handle
  child := h.child
  session := h.session
  early := h.early
  ending t e' ht := by
    by_cases heq : t = task
    · subst heq
      simp only [Manager.setEnding, update_self] at ht
      exact he e' ht
    · exact h.ending t e' ((update_of_ne heq ..).symm.trans ht)

theorem clearStates (h : Inv s) (session : String) : Inv (s.clearStates session) := by
  have hkeep : ∀ c r, s.children c = some r → ∃ r', (s.clearStates session).children c = some r' ∧
      r'.parent = r.parent ∧ r'.stage = r.stage ∧ r'.inTree = r.inTree := by
    intro c r hr
    refine ⟨if r.parent = session then { r with state := none } else r, ?_, ?_⟩
    · simp [Manager.clearStates, hr]
    · split_ifs <;> exact ⟨rfl, rfl, rfl⟩
  refine ⟨h.exact, ?_, ?_, h.session, ?_, ?_⟩
  · intro p c hmem
    obtain ⟨halive, r, hr, hparent, hstage⟩ := h.handle p c hmem
    obtain ⟨r', hr', hp, hs, -⟩ := hkeep c r hr
    exact ⟨halive, r', hr', hp.trans hparent, hs ▸ hstage⟩
  · intro c hmem
    obtain ⟨halive, r, hr, hstage⟩ := h.child c hmem
    obtain ⟨r', hr', -, hs, -⟩ := hkeep c r hr
    exact ⟨halive, r', hr', hs.trans hstage⟩
  · intro c r' hr' hne
    obtain ⟨r, hr, -⟩ := Option.map_eq_some_iff.mp hr'
    obtain ⟨r'', hr'', -, hs, ht⟩ := hkeep c r hr
    obtain rfl := Option.some.inj (hr''.symm.trans hr')
    obtain ⟨halive, htree⟩ := h.early c r hr (hs ▸ hne)
    exact ⟨halive, ht.trans htree⟩
  · intro t e he
    obtain ⟨r, hr, hstage⟩ := h.ending t e he
    obtain ⟨r', hr', -, hs, -⟩ := hkeep e.child r hr
    exact ⟨r', hr', hs.trans hstage⟩

/-! ### Steps -/

theorem start (h : Inv s) {x : Item} (hx : x.session? = none) (hchild : ∀ c, x ≠ .child c) : Inv (s.start x) := by
  unfold Manager.start
  split_ifs with hmem
  · exact h
  · refine h.enter hmem ?_ ?_ ?_
    · intro id hid
      rw [hx] at hid
      cases hid
    · intro p c heq
      rw [heq] at hx
      cases hx
    · intro c heq
      exact absurd heq (hchild c)

theorem finish (h : Inv s) (x : Item) : Inv (s.finish x) := by
  unfold Manager.finish
  split_ifs with hmem
  · exact h.shrink ((exact_leave_iff h.exact).mpr hmem) leave_subset
  · exact h

theorem createChildSession (h : Inv s) (parent child : String) (mode : SpawnMode) :
    Inv (s.createChildSession parent child mode) := by
  unfold Manager.createChildSession
  split_ifs with hok
  · obtain ⟨-, -, -, hnone⟩ := hok
    have hgrow : Inv { s with live := insert child s.live, alive := insert child s.alive } :=
      (h.setLive fun x hx id hid => Finset.mem_insert_of_mem (h.session x hx id hid)).setAlive
        (Finset.subset_insert child s.alive)
    refine hgrow.setChild ?_ ?_ (fun _ => ⟨Finset.mem_insert_self child s.alive, rfl⟩) ?_
    · intro p hmem
      obtain ⟨-, r, hr, -⟩ := h.handle p child hmem
      rw [hnone] at hr
      cases hr
    · intro hmem
      obtain ⟨-, r, hr, -⟩ := h.child child hmem
      rw [hnone] at hr
      cases hr
    · intro old hold
      rw [hnone] at hold
      cases hold
  · exact h

section Record

variable {child : String} {r : ChildRecord}

theorem registerChildHandle (h : Inv s) (hr : s.children child = some r) : Inv (s.registerChildHandle child r) := by
  unfold Manager.registerChildHandle
  split_ifs with hstage hgate
  all_goals try exact h
  -- the record of a spawn that has got to its handle
  all_goals
    obtain ⟨halive, htree⟩ := h.early child r hr (by simp [hstage])
    have hfree : ∀ p, .handle p child ∉ s.work := fun p hmem => (h.of_handle hr hmem).2 hstage
    have hset : Inv (s.setChild child { r with stage := .handled }) := by
      refine h.setChild (fun p hmem => absurd hmem (hfree p)) ?_ (fun _ => ⟨halive, htree⟩) ?_
      · intro hmem
        have hdone := h.of_child hr hmem
        rw [hstage] at hdone
        cases hdone
      · intro old hold hdone
        obtain rfl := Option.some.inj (hold.symm.trans hr)
        rw [hstage] at hdone
        cases hdone
  · refine hset.enter (hfree r.parent) ?_ ?_ (by simp)
    · rintro id ⟨⟩
      exact hgate.1
    · rintro p c ⟨⟩
      exact ⟨halive, _, update_self .., rfl, by simp⟩
  · exact hset

theorem countChild (h : Inv s) (hr : s.children child = some r) : Inv (s.countChild child r) := by
  unfold Manager.countChild
  split_ifs with hstage
  · obtain ⟨halive, -⟩ := h.early child r hr (by simp [hstage])
    have hfree : .child child ∉ s.work := by
      intro hmem
      have hdone := h.of_child hr hmem
      rw [hstage] at hdone
      cases hdone
    have hset : Inv (s.setChild child { r with stage := .done, inTree := true }) := by
      refine h.setChild ?_ (fun hmem => absurd hmem hfree) (fun hne => absurd rfl hne) (fun _ _ _ => rfl)
      intro p hmem
      exact ⟨(h.of_handle hr hmem).1, by simp⟩
    refine hset.enter hfree (by simp [Item.session?]) (by simp) ?_
    rintro c ⟨⟩
    exact ⟨halive, _, update_self .., rfl⟩
  · exact h

theorem stage_eq_done (h : Inv s) (hr : s.children child = some r) (htree : r.inTree = true) : r.stage = .done := by
  by_contra hne
  have hout := (h.early child r hr hne).2
  rw [htree] at hout
  cases hout

theorem tryPushAnnounce (h : Inv s) (hr : s.children child = some r) (task : Nat) (permitted hasText : Bool) :
    Inv (s.tryPushAnnounce task child r permitted hasText) := by
  unfold Manager.tryPushAnnounce
  split_ifs with hok
  · refine h.setEnding ?_
    rintro e ⟨⟩
    exact ⟨r, hr, h.stage_eq_done hr hok.1⟩
  · exact h

theorem notifyChildForcedTermination (h : Inv s) (hr : s.children child = some r) (task : Nat) :
    Inv (s.notifyChildForcedTermination task child r) := by
  unfold Manager.notifyChildForcedTermination
  split_ifs with hok
  · refine h.setEnding ?_
    rintro e ⟨⟩
    exact ⟨r, hr, h.stage_eq_done hr hok.1⟩
  · exact h

theorem giveUp (h : Inv s) (hr : s.children child = some r) (r' : ChildRecord) (hdone : r'.stage = .done)
    {l : Ledger Item} (hexact : l.Exact) (hsub : l.work ⊆ s.work)
    (hchild : .child child ∉ l.work) (hhandle : .handle r.parent child ∉ l.work) :
    Inv ({ s with ledger := l }.giveUp child r') := by
  have hfree : ∀ p, .handle p child ∉ l.work := by
    intro p hmem
    obtain ⟨rfl, -⟩ := h.of_handle hr (hsub hmem)
    exact hhandle hmem
  have hset : Inv ({ s with ledger := l }.setChild child r') :=
    (h.shrink hexact hsub).setChild (fun p hmem => absurd hmem (hfree p)) (fun hmem => absurd hmem hchild)
      (fun hne => absurd hdone hne) (fun _ _ _ => hdone)
  have halive : ∀ c, c ≠ child → c ∈ s.alive → c ∈ s.alive.erase child :=
    fun c hne hmem => Finset.mem_erase.mpr ⟨hne, hmem⟩
  refine ⟨hset.exact, ?_, ?_, hset.session, ?_, hset.ending⟩
  · intro p c hmem
    obtain ⟨hc, hrec⟩ := hset.handle p c hmem
    refine ⟨halive c ?_ hc, hrec⟩
    rintro rfl
    exact hfree p hmem
  · intro c hmem
    obtain ⟨hc, hrec⟩ := hset.child c hmem
    refine ⟨halive c ?_ hc, hrec⟩
    rintro rfl
    exact hchild hmem
  · intro c r₁ hr₁ hne
    obtain ⟨hc, htree⟩ := hset.early c r₁ hr₁ hne
    refine ⟨halive c ?_ hc, htree⟩
    rintro rfl
    obtain rfl := Option.some.inj ((children_setChild_self _ c r').symm.trans hr₁)
    exact hne hdone

theorem handle_notMem (h : Inv s) {parent : String} (hlive : parent ∉ s.live) : .handle parent child ∉ s.work :=
  fun hmem => hlive (h.session _ hmem parent rfl)

theorem finishEnding (h : Inv s) {task : Nat} {e : Ending} {pushed : Bool} (he : s.endings task = some e)
    (hr : s.children e.child = some r) (hcounted : CountedTwice s e.child r) :
    Inv (s.finishEnding task e r pushed) := by
  obtain ⟨old, hold, hstage⟩ := h.ending task e he
  obtain rfl := Option.some.inj (hold.symm.trans hr)
  have hleft : (s.ledger.leave (.child e.child)).Exact := (exact_leave_iff h.exact).mpr hcounted.1
  have hclosed : Inv (((s.leave (.child e.child)).unregisterChildHandle old.parent e.child).giveUp e.child
      (s.ended old e.forced pushed)) := by
    unfold unregisterChildHandle
    split_ifs with hlive
    · have hmem : Item.handle old.parent e.child ∈ (s.ledger.leave (.child e.child)).work :=
        mem_leave.mpr ⟨by simp, hcounted.2 hlive⟩
      refine h.giveUp hr (s.ended old e.forced pushed) hstage ((exact_leave_iff hleft).mpr hmem)
        (leave_subset.trans leave_subset) ?_ notMem_leave_self
      exact fun hchild => notMem_leave_self (leave_subset hchild)
    · refine h.giveUp hr (s.ended old e.forced pushed) hstage hleft leave_subset notMem_leave_self ?_
      exact fun hmem => h.handle_notMem hlive (leave_subset hmem)
  exact hclosed.setEnding (by simp)

theorem notifyChildError (h : Inv s) (hr : s.children child = some r)
    (hclear : r.inTree = true → r.mode = .run → child ∈ s.alive →
      .child child ∉ s.work ∧ .handle r.parent child ∉ s.work) : Inv (s.notifyChildError child r) := by
  unfold Manager.notifyChildError
  split_ifs with hok
  · obtain ⟨htree, hmode, halive⟩ := hok
    obtain ⟨hchild, hhandle⟩ := hclear htree hmode halive
    have hstage : r.stage = .done := h.stage_eq_done hr htree
    exact h.giveUp hr (s.errored r) hstage ((exact_lose_iff h.exact).mpr hchild) lose_subset
      (fun hmem => hchild (lose_subset hmem)) (fun hmem => hhandle (lose_subset hmem))
  · exact h

theorem killChild (h : Inv s) (hr : s.children child = some r) (hkill : r.inTree = true → KillsNothing s child r) :
    Inv (s.killChild child r) := by
  unfold Manager.killChild
  split_ifs with htree
  · obtain ⟨hnone, hcount⟩ := hkill htree
    have hstage := h.stage_eq_done hr htree
    have hclosed : Inv (((s.lose (.child child)).unregisterChildHandle r.parent child).giveUp child (s.killed r)) ∧
        ((s.lose (.child child)).unregisterChildHandle r.parent child).work ⊆ s.work := by
      unfold unregisterChildHandle
      obtain ⟨hlive, hpair⟩ | ⟨hlive, hchild⟩ := hcount
      · rw [if_pos (show r.parent ∈ (s.lose (.child child)).live from hlive)]
        refine ⟨?_, leave_subset.trans lose_subset⟩
        refine h.giveUp hr (s.killed r) hstage ((exact_lose_leave_iff (by simp) h.exact).mpr hpair)
          (leave_subset.trans lose_subset) ?_ notMem_leave_self
        exact fun hchild => notMem_lose_self (leave_subset hchild)
      · rw [if_neg (show r.parent ∉ (s.lose (.child child)).live from hlive)]
        refine ⟨?_, lose_subset⟩
        exact h.giveUp hr (s.killed r) hstage ((exact_lose_iff h.exact).mpr hchild) lose_subset
          (fun hmem => hchild (lose_subset hmem))
          (fun hmem => h.handle_notMem hlive (lose_subset hmem))
    refine hclosed.1.setLive ?_
    intro x hx id hid
    have hold : x ∈ s.work := hclosed.2 hx
    refine Finset.mem_erase.mpr ⟨?_, h.session x hold id hid⟩
    rintro rfl
    exact hnone x hold hid
  · exact h

end Record

theorem clearStep (h : Inv s) {task : Nat} {c : Clearing} (hcurrent : c.Current s) : Inv (s.clearStep task c) := by
  cases c with
  | tools | children =>
    exact (h.shrink ((exact_flush_iff h.exact).mpr hcurrent) flush_subset).setClear ..
  | countChildren => exact h.setClear ..

theorem step (h : Inv s) {e : Event} (hp : Paired s e) : Inv (s.step e) := by
  cases e with
  | shutdown => exact ⟨h.exact, h.handle, h.child, h.session, h.early, h.ending⟩
  | openSession => exact h.setLive fun x hx i hi => Finset.mem_insert_of_mem (h.session x hx i hi)
  | callStart | streamOpen =>
    simp only [Manager.step]
    split_ifs
    · exact h
    · exact h.start rfl (by simp)
  | callEnd | dispatchEnd => exact h.finish _
  | streamPoll =>
    simp only [Manager.step]
    split_ifs
    · exact h.finish _
    · exact h
  | streamDrop => exact h.shrink ((exact_lose_iff h.exact).mpr hp) lose_subset
  | dispatchStart => exact h.start rfl (by simp)
  | registerToolHandle =>
    simp only [Manager.step, Manager.registerToolHandle]
    split_ifs with hgate
    · refine h.enter (hp hgate.1 hgate.2) ?_ (by simp) (by simp)
      rintro id ⟨⟩
      exact hgate.1
    · exact h
  | unregisterToolHandle =>
    simp only [Manager.step, Manager.unregisterToolHandle]
    split_ifs with hlive
    · exact h.shrink ((exact_leave_iff h.exact).mpr (hp hlive)) leave_subset
    · exact h
  | createChildSession parent child mode => exact h.createChildSession parent child mode
  | registerChildHandle =>
    refine invariant_elim h fun r hr => ?_
    exact h.registerChildHandle hr
  | countChild =>
    refine invariant_elim h fun r hr => ?_
    exact h.countChild hr
  | tryPushAnnounce task child permitted hasText =>
    refine invariant_elim h fun r hr => ?_
    exact h.tryPushAnnounce hr task permitted hasText
  | notifyChildForcedTermination task =>
    refine invariant_elim h fun r hr => ?_
    exact h.notifyChildForcedTermination hr task
  | finishEnding =>
    refine invariant_elim h fun e he => invariant_elim h fun r hr => ?_
    exact h.finishEnding he hr (hp e he r hr)
  | notifyChildError =>
    refine invariant_elim h fun r hr => ?_
    exact h.notifyChildError hr (hp r hr)
  | killChild =>
    refine invariant_elim h fun r hr => ?_
    exact h.killChild hr (hp r hr)
  | clearExecState task session =>
    simp only [Manager.step, Manager.clearExecState]
    split_ifs
    · exact (h.clearStates session).setClear ..
    · exact h
  | clearStep task =>
    simp only [Manager.step]
    cases hc : s.clears task with
    | none => exact h
    | some c => exact h.clearStep (hp c hc)

end Inv

/-! ## Runs -/

theorem busy_count_balanced (roots : Finset String) (events : List Event)
    (h : Along Manager.step Paired (Manager.init roots) events) :
    Balanced (run Manager.step (Manager.init roots) events) :=
  (invariant_along (fun _ _ hs hp => hs.step hp) (inv_init roots) h).balanced

def pairedWork : List Event :=
  [.dispatchStart 0, .streamOpen 0, .streamPoll 0 .item, .streamPoll 0 .done,
   .registerToolHandle "p" "t", .unregisterToolHandle "p" "t",
   .createChildSession "p" "a" .run, .registerChildHandle "a", .countChild "a",
   .createChildSession "p" "b" .run, .registerChildHandle "b", .countChild "b", .dispatchEnd 0,
   .tryPushAnnounce 0 "a" true true, .finishEnding 0 true, .shutdown .forcefulShuttingDown,
   .clearExecState 0 "b", .clearStep 0, .clearStep 0, .clearStep 0,
   .notifyChildForcedTermination 1 "b", .finishEnding 1 true]

theorem pairedWork_balanced : Along Manager.step Paired (Manager.init {"p"}) pairedWork ∧
    Balanced (run Manager.step (Manager.init {"p"}) pairedWork) :=
  ⟨by decide +kernel, busy_count_balanced {"p"} pairedWork (by decide +kernel)⟩

def spawnAndKill : List Event :=
  [.createChildSession "p" "c" .run, .registerChildHandle "c", .countChild "c", .clearExecState 0 "c", .clearStep 0,
   .clearStep 0, .clearStep 0, .killChild "c"]

def stopAndAnnounce : List Event :=
  [.createChildSession "p" "c" .run, .registerChildHandle "c", .countChild "c", .clearExecState 0 "p", .clearStep 0,
   .clearStep 0, .clearStep 0, .tryPushAnnounce 0 "c" true true, .finishEnding 0 true]

theorem a_killed_child_stays_counted : (run Manager.step (Manager.init {"p"}) spawnAndKill).work = ∅ ∧
      (run Manager.step (Manager.init {"p"}) spawnAndKill).busyCount = 1 ∧
      ¬ Balanced (run Manager.step (Manager.init {"p"}) spawnAndKill) ∧
      (run Manager.step (Manager.init {"p"}) stopAndAnnounce).ledger.balance = -1 ∧
      (run Manager.step (Manager.init {"p"}) stopAndAnnounce).busyCount = 2 ^ 64 - 1 := by
  have hwork : (run Manager.step (Manager.init {"p"}) spawnAndKill).work = ∅ := by decide +kernel
  have hcount : (run Manager.step (Manager.init {"p"}) spawnAndKill).busyCount = 1 := by decide +kernel
  refine ⟨hwork, hcount, ?_, by decide +kernel, by decide +kernel⟩
  intro hbalanced
  have halive : (run Manager.step (Manager.init {"p"}) spawnAndKill).alive = ∅ := by decide +kernel
  have hrest : Rest (run Manager.step (Manager.init {"p"}) spawnAndKill) :=
    ⟨by simp [hwork], by simp [hwork], by simp [hwork], by simp [hwork], halive⟩
  rw [hbalanced.rest hrest] at hcount
  cases hcount

end CloseClaw.Gateway.BusyCount
