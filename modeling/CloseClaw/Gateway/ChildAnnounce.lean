/- How the end of a run-mode child reaches its parent (`session_manager/announce.rs`). Four
   activities, which interleave at every lock. -/

import CloseClaw.Lib.Trace
import CloseClaw.Session.MessageQueue
import Mathlib.Data.Fintype.Defs
import Mathlib.Data.Finset.Insert

namespace CloseClaw.Gateway.ChildAnnounce

open Lib Session

inductive ChildSessionState where
  | running
  | completed
  | errored
  | terminated
  deriving DecidableEq

def ChildSessionState.isTerminal : ChildSessionState → Bool
  | .running => false
  | _ => true

inductive ChildCompletionStatus where
  | completed
  | errored
  | terminated
  deriving DecidableEq

structure Announce extends AnnounceEvent where
  childAgentId : String
  status : ChildCompletionStatus

structure ChildSessionInfo where
  sessionId : String
  agentId : String
  timeoutSecs : Option Nat

inductive Actor where
  | turn
  | sweeper
  | stop
  | timer
  deriving DecidableEq

instance Actor.fintype : Fintype Actor := ⟨{.turn, .sweeper, .stop, .timer}, by intro a; cases a <;> decide⟩

inductive Pc where
  | rest
  | appendResponse (text : Option String)
  | error
  | errorDedup
  | markErrored
  | announce
  | dedup
  | extractText
  | resolveStatus (text : String)
  | markCompleted (text : String) (status : ChildCompletionStatus)
  | push (text : String) (status : ChildCompletionStatus)
  | reclaim
  | forcedTermination
  | forcedDedup
  | markTerminated
  | pushTerminated
  | sweepTree
  | sweepIdle
  | sweepText
  | staleIdle (elapsed : Int)
  | kill
  | pushStale
  | pushTimeout
  deriving DecidableEq

inductive Timer where
  | off
  | armed
  | expired
  deriving DecidableEq

structure Child where
  info : ChildSessionInfo
  inTree : Bool
  state : Option ChildSessionState
  removed : Bool
  busy : Bool
  lastText : Option String
  timer : Timer
  queued : Bool
  pushed : List Announce
  ended : Option ChildCompletionStatus
  pc : Actor → Pc

namespace Child

def spawned (info : ChildSessionInfo) (lastText : Option String) : Child where
  info := info
  inTree := true
  state := some .running
  removed := false
  busy := false
  lastText := lastText
  timer := if info.timeoutSecs.isSome then .armed else .off
  queued := false
  pushed := []
  ended := none
  pc := fun _ => .rest

def isTerminal (c : Child) : Bool := c.state.any ChildSessionState.isTerminal

def updateChildState (c : Child) (s : ChildSessionState) : Child := { c with state := c.state.map fun _ => s }

def resolveChildCompletionStatus (c : Child) : ChildCompletionStatus :=
  match c.state with
  | some .errored => .errored
  | some .terminated => .terminated
  | some .completed | some .running | none => .completed

def pushAnnounce (c : Child) (event : Announce) : Child :=
  if c.queued then c else { c with queued := true, pushed := c.pushed ++ [event] }

def event (c : Child) (agentId text : String) (priority : NotificationPriority) (status : ChildCompletionStatus) :
    Announce :=
  { childSessionId := c.info.sessionId, resultText := text, priority, childAgentId := agentId, status }

def isIdle (c : Child) : Bool := !c.removed && !c.busy

def endAs (c : Child) (status : ChildCompletionStatus) :
    Child := { c with busy := false, ended := c.ended.or (some status) }

def staleThresholdSecs : Int := 300

def timeoutText (c : Child) : String :=
  "spawn timeout: child " ++ c.info.sessionId ++ " exceeded " ++ toString (c.info.timeoutSecs.getD 0) ++
    "s limit, cascaded stop applied to all descendants"

def act (c : Child) : Pc → Child × Pc
  | .rest => (c, .rest)
  | .appendResponse text => (if c.removed then c else { c with lastText := text.or c.lastText }, .announce)
  | .error => (c, if c.inTree then .errorDedup else .announce)
  | .errorDedup => (c, if c.isTerminal then .announce else .markErrored)
  | .markErrored => (c.updateChildState .errored, .announce)
  | .announce => (c, if c.inTree then .dedup else .rest)
  | .dedup => (c, if c.isTerminal then .rest else .extractText)
  | .extractText =>
    match c.lastText with
    | some text => (c, if c.removed then .rest else .resolveStatus text)
    | none => (c, .rest)
  | .resolveStatus text => (c, .markCompleted text c.resolveChildCompletionStatus)
  | .markCompleted text status => (c.updateChildState .completed, .push text status)
  | .push text status => (c.pushAnnounce (c.event c.info.agentId text .next status), .reclaim)
  | .reclaim => ({ c with inTree := false }, .rest)
  | .forcedTermination => (c, if c.inTree then .forcedDedup else .rest)
  | .forcedDedup => (c, if c.isTerminal then .rest else .markTerminated)
  | .markTerminated => (c.updateChildState .terminated, .pushTerminated)
  | .pushTerminated => (c.pushAnnounce (c.event c.info.agentId "任务被终止" .next .terminated), .rest)
  | .sweepTree => (c, if c.inTree then .sweepIdle else .rest)
  | .sweepIdle => (c, if c.isIdle then .sweepText else .rest)
  | .sweepText => (c, if !c.removed && c.lastText.isSome then .announce else .rest)
  | .staleIdle elapsed => (c, if c.isIdle || c.removed || elapsed ≤ staleThresholdSecs then .rest else .kill)
  | .kill => ({ c.endAs .terminated with inTree := false, state := none, removed := true }, .pushStale)
  | .pushStale =>
    (c.pushAnnounce (c.event "" "子 agent 已僵死（超过 300 秒无新产出），已被自动终止" .next .terminated), .rest)
  | .pushTimeout => (c.pushAnnounce (c.event "" c.timeoutText .now .terminated), .rest)

def setPc (c : Child) (a : Actor) (pc : Pc) : Child := { c with pc := Function.update c.pc a pc }

end Child

inductive Event where
  | turnStart
  | turnEnd (result : Except Unit (Option String))
  | sweep
  | detectStale (elapsed : Int)
  | stop
  | timeout
  | act (a : Actor)
  | drainAnnounces

def begin (c : Child) (a : Actor) (f : Child → Child) (pc : Pc) : Child :=
  if c.pc a = .rest then (f c).setPc a pc else c

def step (c : Child) : Event → Child
  | .turnStart => { c with busy := true }
  | .turnEnd (.ok text) => begin c .turn (·.endAs .completed) (.appendResponse text)
  | .turnEnd (.error _) => begin c .turn (·.endAs .errored) .error
  | .sweep => begin c .sweeper id .sweepTree
  | .detectStale elapsed => begin c .sweeper id (.staleIdle elapsed)
  | .stop => begin c .stop (·.endAs .terminated) .forcedTermination
  | .timeout =>
    if c.timer = .armed then ({ c with timer := .expired }.endAs .terminated).setPc .timer .pushTimeout else c
  | .act a => (c.act (c.pc a)).1.setPc a (c.act (c.pc a)).2
  | .drainAnnounces => { c with queued := false }

/-! ## What may interleave -/

def Pc.claims : Pc → Bool
  | .extractText | .resolveStatus _ | .markCompleted .. | .markTerminated => true
  | _ => false

def Pc.ticket : Pc → Option ChildCompletionStatus
  | .extractText | .resolveStatus _ => some .completed
  | .markCompleted _ status | .push _ status => some status
  | .markTerminated | .pushTerminated | .pushStale | .pushTimeout => some .terminated
  | _ => none

def Pc.reclaims : Pc → Bool
  | .push .. | .reclaim => true
  | _ => false

def Pc.owes : Pc → Option ChildCompletionStatus
  | .appendResponse _ | .announce | .dedup => some .completed
  | .forcedTermination | .forcedDedup => some .terminated
  | .error | .errorDedup => some .errored
  | _ => none

structure Pc.Plain (pc : Pc) : Prop where
  ticket : pc.ticket = none
  claims : pc.claims = false
  reclaims : pc.reclaims = false
  errored : pc ≠ .markErrored

open Pc

theorem Pc.plain_of_owes {pc : Pc} {status : ChildCompletionStatus} (h : pc.owes = some status) : pc.Plain := by
  constructor <;> cases pc <;> simp [owes, ticket, claims, reclaims] at h ⊢

namespace Child

def Unclaimed (c : Child) : Prop := c.removed = false ∧ c.timer ≠ .expired ∧ ∀ a, (c.pc a).claims = false

instance Unclaimed.decidable (c : Child) : Decidable c.Unclaimed :=
  inferInstanceAs (Decidable (_ ∧ _))

end Child

/-- The stale check finds a child that has not ended. An announce and a forced termination that find the
entry open find it unclaimed, and the child ended their way. -/
def OrderlyAct (c : Child) : Pc → Prop
  | .errorDedup => c.isTerminal = true ∨ c.timer = .expired
  | .dedup => c.isTerminal = true ∨ c.Unclaimed ∧ c.ended = some .completed ∧ c.lastText.isSome = true
  | .forcedDedup => c.isTerminal = true ∨ c.Unclaimed ∧ c.ended = some .terminated
  | .kill => c.ended = none
  | _ => True

def Orderly (c : Child) : Event → Prop
  | .timeout => c.timer = .armed → c.ended = none
  | .act a => OrderlyAct c (c.pc a)
  | _ => True

instance OrderlyAct.decidable (c : Child) : ∀ pc, Decidable (OrderlyAct c pc)
  | .errorDedup | .dedup | .forcedDedup => inferInstanceAs (Decidable (_ ∨ _))
  | .kill => inferInstanceAs (Decidable (_ = _))
  | .rest | .appendResponse _ | .error | .markErrored | .announce | .extractText | .resolveStatus _
  | .markCompleted .. | .push .. | .reclaim | .forcedTermination | .markTerminated | .pushTerminated
  | .sweepTree | .sweepIdle | .sweepText | .staleIdle _ | .pushStale | .pushTimeout => isTrue trivial

instance Orderly.decidable (c : Child) : ∀ e, Decidable (Orderly c e)
  | .timeout => inferInstanceAs (Decidable (_ → _))
  | .act a => OrderlyAct.decidable c (c.pc a)
  | .turnStart | .turnEnd _ | .sweep | .detectStale _ | .stop | .drainAnnounces => isTrue trivial

namespace Child

structure Open (c : Child) : Prop where
  inTree : c.inTree = true
  state : c.state = some .running
  removed : c.removed = false

def Settled (c : Child) : Prop :=
  c.removed = false ∧ c.isTerminal = true ∨ c.removed = true ∧ c.inTree = false ∧ c.state = none

def Past (c : Child) : Prop := c.Settled ∨ c.Open ∧ c.timer = .expired

def NoTicket (c : Child) : Prop := ∀ a, (c.pc a).ticket = none

structure Ticket (c : Child) (a : Actor) : Prop where
  status : (c.pc a).ticket = c.ended
  ended : c.ended ≠ none
  others : ∀ b, b ≠ a → (c.pc b).ticket = none

end Child

inductive Phase (c : Child) : Prop where
  | live (o : c.Open) (timer : c.timer ≠ .expired) (pushed : c.pushed = []) (ended : c.ended = none)
      (turn : c.pc .turn = .rest) (stop : c.pc .stop = .rest) (none : c.NoTicket)
  | owed (o : c.Open) (timer : c.timer ≠ .expired) (pushed : c.pushed = []) (ended : c.ended ≠ none)
      (owes : (c.pc .turn).owes = c.ended ∨ (c.pc .stop).owes = c.ended) (none : c.NoTicket)
  | claimed (a : Actor) (o : c.Open) (timer : c.timer ≠ .expired) (pushed : c.pushed = [])
      (text : c.ended = some .completed → c.lastText.isSome = true) (claims : (c.pc a).claims = true)
        (ticket : c.Ticket a)
  | marked (a : Actor) (past : c.Past) (pushed : c.pushed = []) (claims : (c.pc a).claims = false) (ticket : c.Ticket a)
  | announced (event : Announce) (past : c.Past) (pushed : c.pushed = [event]) (ended : c.ended = some event.status)
      (none : c.NoTicket)

structure Inv (c : Child) : Prop where
  phase : Phase c
  queued : c.queued = true → c.pushed ≠ []
  reclaim : ∀ a, (c.pc a).reclaims = true → c.Settled
  errored : ∀ a, c.pc a = .markErrored → c.Past

namespace Child

@[simp] theorem setPc_self (c : Child) (a : Actor) (pc : Pc) : (c.setPc a pc).pc a = pc := Function.update_self ..

theorem setPc_other (c : Child) {a b : Actor} (h : b ≠ a) (pc : Pc) : (c.setPc a pc).pc b = c.pc b :=
  Function.update_of_ne h ..

theorem Open.not_settled {c : Child} (o : c.Open) : ¬ c.Settled := by
  rintro (⟨-, h⟩ | ⟨h, -⟩)
  · simp [isTerminal, o.state, ChildSessionState.isTerminal] at h
  · simp [o.removed] at h

theorem Open.not_terminal {c : Child} (o : c.Open) : c.isTerminal = false := by
  simp [isTerminal, o.state, ChildSessionState.isTerminal]

theorem Past.same {c c' : Child} (h : c.Past) (hin : c'.inTree = c.inTree) (hstate : c'.state = c.state)
    (hremoved : c'.removed = c.removed) (htimer : c'.timer = c.timer) : c'.Past := by
  rcases h with h | ⟨o, ht⟩
  · left
    simpa only [Settled, isTerminal, hin, hstate, hremoved] using h
  · exact .inr ⟨⟨hin.trans o.inTree, hstate.trans o.state, hremoved.trans o.removed⟩, htimer.trans ht⟩

end Child

open Child

section Moves

variable {c : Child}

theorem Phase.open_or_past (h : Phase c) : c.Open ∧ c.timer ≠ .expired ∨ c.Past := by
  cases h with
  | live o t | owed o t | claimed a o t => exact .inl ⟨o, t⟩
  | marked a p | announced ev p => exact .inr p

structure Goes (c : Child) (a : Actor) (pc pc' : Pc) : Prop where
  rest : c.ended = none → a ≠ .sweeper → pc = .rest → pc' = .rest
  ticket : pc'.ticket = pc.ticket
  claims : pc'.claims = pc.claims
  owes : c.Open → c.timer ≠ .expired → pc.owes ≠ none → pc'.owes = pc.owes
  reclaims : pc'.reclaims = true → c.Settled
  errored : pc' = .markErrored → c.Past

variable {a : Actor} {pc : Pc}

theorem Inv.goOn (h : Inv c) {pc₀ : Pc} (h₀ : c.pc a = pc₀) (g : Goes c a pc₀ pc) : Inv (c.setPc a pc) := by
  subst h₀
  have hpc : ∀ b, ((c.setPc a pc).pc b).ticket = (c.pc b).ticket := by
    intro b
    by_cases hb : b = a
    · subst hb
      rw [setPc_self, g.ticket]
    · rw [c.setPc_other hb]
  have hnone : c.NoTicket → (c.setPc a pc).NoTicket := fun hn b => (hpc b).trans (hn b)
  have hone : ∀ b, c.Ticket b → (c.setPc a pc).Ticket b := fun b ht =>
    ⟨(hpc b).trans ht.status, ht.ended, fun b' hb' => (hpc b').trans (ht.others b' hb')⟩
  have hcl : ∀ b, ((c.setPc a pc).pc b).claims = (c.pc b).claims := by
    intro b
    by_cases hb : b = a
    · subst hb
      rw [setPc_self, g.claims]
    · rw [c.setPc_other hb]
  have hkeep : ∀ b, b ≠ .sweeper → c.ended = none → c.pc b = .rest → (c.setPc a pc).pc b = .rest := by
    intro b hb he hr
    by_cases hba : b = a
    · subst hba
      rw [setPc_self, g.rest he hb hr]
    · rw [c.setPc_other hba, hr]
  have howed : ∀ b, c.Open → c.timer ≠ .expired → c.ended ≠ none → (c.pc b).owes = c.ended →
      ((c.setPc a pc).pc b).owes = c.ended := by
    intro b o t hne hb
    by_cases hba : b = a
    · subst hba
      rw [setPc_self, g.owes o t (by rwa [hb]), hb]
    · rw [c.setPc_other hba, hb]
  refine ⟨?_, h.queued, ?_, ?_⟩
  · cases h.phase with
    | live o t p e ht hs n => exact .live ⟨o.1, o.2, o.3⟩ t p e (hkeep _ nofun e ht) (hkeep _ nofun e hs) (hnone n)
    | owed o t p e ow n => exact .owed ⟨o.1, o.2, o.3⟩ t p e (ow.imp (howed _ o t e) (howed _ o t e)) (hnone n)
    | claimed b o t p tx cl ti => exact .claimed b ⟨o.1, o.2, o.3⟩ t p tx ((hcl b).trans cl) (hone b ti)
    | marked b pa p cl ti =>
      exact .marked b (pa.same rfl rfl rfl rfl) p ((hcl b).trans cl) (hone b ti)
    | announced ev pa p e n =>
      exact .announced ev (pa.same rfl rfl rfl rfl) p e (hnone n)
  · intro b hb
    by_cases hba : b = a
    · subst hba
      exact g.reclaims (by simpa using hb)
    · exact h.reclaim b (by rwa [c.setPc_other hba] at hb)
  · intro b hb
    have hp : c.Past := by
      by_cases hba : b = a
      · subst hba
        exact g.errored (by simpa using hb)
      · exact h.errored b (by rwa [c.setPc_other hba] at hb)
    exact hp.same rfl rfl rfl rfl

variable {status : ChildCompletionStatus}

variable {c' : Child} {pc₀ : Pc}

theorem Inv.leave (h : Inv c) (h₀ : c.pc a = pc₀) (howes : pc₀.owes = some status) (hplain : pc.Plain)
    (hopen : c.Open → pc.owes = pc₀.owes) : Inv (c.setPc a pc) := by
  have hplain₀ := plain_of_owes howes
  refine h.goOn h₀ ⟨?_, hplain.ticket.trans hplain₀.ticket.symm, hplain.claims.trans hplain₀.claims.symm,
    fun o _ _ => hopen o, ?_, ?_⟩
  · intro _ _ hrest
    rw [hrest] at howes
    cases howes
  · intro hreclaims
    rw [hplain.reclaims] at hreclaims
    cases hreclaims
  · intro herrored
    exact absurd herrored hplain.errored

theorem Inv.lookUp (h : Inv c) {found gone : Pc} (h₀ : c.pc a = pc₀) (howes : pc₀.owes = some status)
    (hfound : found.owes = some status) (hgone : gone.Plain) :
    Inv (c.setPc a (if c.inTree then found else gone)) := by
  split
  · exact h.leave h₀ howes (plain_of_owes hfound) fun _ => hfound.trans howes.symm
  · rename_i hin
    exact h.leave h₀ howes hgone fun o => absurd o.inTree hin

theorem Inv.turnAway (h : Inv c) (h₀ : c.pc a = pc₀) (howes : pc₀.owes = some status) (hplain : pc.Plain)
    (hterminal : c.isTerminal = true) : Inv (c.setPc a pc) := by
  refine h.leave h₀ howes hplain fun o => ?_
  rw [o.not_terminal] at hterminal
  cases hterminal

theorem Inv.shared (h : Inv c) (hpc : c'.pc = c.pc) (hended : c'.ended = c.ended) (htimer : c'.timer = c.timer)
    (hpushed : c'.pushed = c.pushed) (hqueued : c'.queued = true → c.queued = true)
    (htext : c.lastText.isSome = true → c'.lastText.isSome = true) (hopen : c.Open → c.timer ≠ .expired → c'.Open)
    (hsettled : c.Settled → c'.Settled) (hpast : c.Past → c'.Past) : Inv c' := by
  have hnone : c.NoTicket → c'.NoTicket := fun hn b => by rw [hpc]; exact hn b
  have hone : ∀ b, c.Ticket b → c'.Ticket b := fun b ht =>
    ⟨by rw [hpc, hended]; exact ht.status, by rw [hended]; exact ht.ended, by rw [hpc]; exact ht.others⟩
  refine ⟨?_, fun hq => by rw [hpushed]; exact h.queued (hqueued hq), fun b hb =>
    hsettled (h.reclaim b (by rwa [← hpc])),
    fun b hb => hpast (h.errored b (by rwa [← hpc]))⟩
  cases h.phase with
  | live o t p e ht hs n =>
    exact .live (hopen o t) (by rwa [htimer]) (by rwa [hpushed]) (by rwa [hended]) (by rwa [hpc]) (by rwa [hpc])
      (hnone n)
  | owed o t p e ow n =>
    exact .owed (hopen o t) (by rwa [htimer]) (by rwa [hpushed]) (by rwa [hended]) (by rwa [hpc, hended]) (hnone n)
  | claimed b o t p tx cl ti =>
    exact .claimed b (hopen o t) (by rwa [htimer]) (by rwa [hpushed]) (fun he => htext (tx (by rwa [← hended])))
      (by rwa [hpc]) (hone b ti)
  | marked b pa p cl ti => exact .marked b (hpast pa) (by rwa [hpushed]) (by rwa [hpc]) (hone b ti)
  | announced ev pa p e n => exact .announced ev (hpast pa) (by rwa [hpushed]) (by rwa [hended]) (hnone n)

theorem Inv.claim (h : Inv c) (a : Actor) (o : c.Open) (hun : c.Unclaimed)
    (hended : c.ended ≠ none) (htext : c.ended = some .completed → c.lastText.isSome = true)
    (hclaims : pc.claims = true) (hticket : pc.ticket = c.ended) : Inv (c.setPc a pc) := by
  obtain ⟨hp, hn⟩ : c.pushed = [] ∧ c.NoTicket := by
    cases h.phase with
    | live _ _ _ e => exact absurd e hended
    | owed _ _ p _ _ n => exact ⟨p, n⟩
    | claimed b _ _ _ _ cl => exact absurd cl (by simp [hun.2.2 b])
    | marked b pa => exact absurd (pa.resolve_left o.not_settled).2 hun.2.1
    | announced ev pa => exact absurd (pa.resolve_left o.not_settled).2 hun.2.1
  refine ⟨.claimed a ⟨o.1, o.2, o.3⟩ hun.2.1 hp htext (by simpa using hclaims)
    ⟨by rw [setPc_self]; exact hticket, hended, ?_⟩,
    h.queued, ?_, ?_⟩
  · intro b hb
    rw [c.setPc_other hb]
    exact hn b
  · intro b hb
    by_cases hba : b = a
    · subst hba
      rw [setPc_self] at hb
      cases pc <;> simp [claims, reclaims] at hclaims hb
    · exact h.reclaim b (by rwa [c.setPc_other hba] at hb)
  · intro b hb
    by_cases hba : b = a
    · subst hba
      rw [setPc_self] at hb
      simp [hb, claims] at hclaims
    · exact absurd (h.errored b (by rwa [c.setPc_other hba] at hb)) fun hpast =>
        hun.2.1 (hpast.resolve_left o.not_settled).2

theorem Inv.open_of_unclaimed (h : Inv c) (hun : c.Unclaimed) (ht : ¬ c.isTerminal = true) : c.Open := by
  obtain ⟨o, -⟩ | hs | ⟨o, -⟩ := h.phase.open_or_past
  · exact o
  · rcases hs with ⟨-, hs⟩ | ⟨hr, -⟩
    · exact absurd hs ht
    · simp [hun.1] at hr
  · exact o

theorem Inv.holds (h : Inv c) (ha : (c.pc a).ticket = some status) :
    c.Ticket a ∧ c.pushed = [] ∧ c.ended = some status ∧
      ((c.pc a).claims = true → c.Open ∧ c.timer ≠ .expired ∧ (c.ended = some .completed → c.lastText.isSome = true)) ∧
      ((c.pc a).claims = false → c.Past) := by
  have hno : ¬ c.NoTicket := fun hn => by simp [hn a] at ha
  have heq : ∀ b, c.Ticket b → a = b := fun b hb => by
    by_contra hab
    simp [hb.others a hab] at ha
  cases h.phase with
  | live _ _ _ _ _ _ n | owed _ _ _ _ _ n | announced _ _ _ _ n => exact absurd n hno
  | claimed b o t p tx cl ti =>
    obtain rfl := heq b ti
    exact ⟨ti, p, by rw [← ti.status, ha], fun _ => ⟨o, t, tx⟩, fun hf => by simp [cl] at hf⟩
  | marked b pa p cl ti =>
    obtain rfl := heq b ti
    exact ⟨ti, p, by rw [← ti.status, ha], fun hf => by simp [cl] at hf, fun _ => pa⟩

theorem Inv.mark (h : Inv c) (a : Actor) {s : ChildSessionState}
    (ha : (c.pc a).ticket = some status) (hcl : (c.pc a).claims = true) (hs : s.isTerminal = true)
    (hticket : pc.ticket = some status) (hclaims : pc.claims = false) : Inv ((c.updateChildState s).setPc a pc) := by
  obtain ⟨ti, hp, he, hopen, -⟩ := h.holds ha
  obtain ⟨o, -, -⟩ := hopen hcl
  have hsettled : ((c.updateChildState s).setPc a pc).Settled :=
    .inl ⟨o.removed, by simp [isTerminal, setPc, updateChildState, o.state, hs]⟩
  refine ⟨.marked a (.inl hsettled) hp (by simpa using hclaims) ⟨by simp [hticket]; exact he.symm, ti.ended, ?_⟩,
    h.queued, fun _ _ => hsettled, fun _ _ => .inl hsettled⟩
  intro b hb
  rw [setPc_other _ hb]
  exact ti.others b hb

theorem Inv.push (h : Inv c) (a : Actor) {event : Announce}
    (ha : (c.pc a).ticket = some event.status) (hcl : (c.pc a).claims = false)
    (hticket : pc.ticket = none) (hreclaim : pc.reclaims = true → c.Settled) :
    Inv ((c.pushAnnounce event).setPc a pc) := by
  obtain ⟨ti, hp, he, -, hpast⟩ := h.holds ha
  have hq : c.queued = false := by
    by_contra hq
    exact h.queued (by simpa using hq) hp
  have heq : c.pushAnnounce event = { c with queued := true, pushed := [event] } := by
    simp [pushAnnounce, hq, hp]
  rw [heq]
  refine ⟨.announced event ((hpast hcl).same rfl rfl rfl rfl) rfl he ?_, by simp [setPc], ?_, ?_⟩
  · intro b
    by_cases hba : b = a
    · subst hba
      simpa using hticket
    · rw [setPc_other _ hba]
      exact ti.others b hba
  · intro b hb
    by_cases hba : b = a
    · subst hba
      exact hreclaim (by simpa using hb)
    · exact h.reclaim b (by rwa [setPc_other _ hba] at hb)
  · intro b _
    exact (hpast hcl).same rfl rfl rfl rfl

theorem Inv.live (h : Inv c) (hlive : c.ended = none) :
    c.Open ∧ c.timer ≠ .expired ∧ c.pushed = [] ∧ c.pc .turn = .rest ∧ c.pc .stop = .rest ∧ c.NoTicket := by
  cases h.phase with
  | live o t p e ht hs n => exact ⟨o, t, p, ht, hs, n⟩
  | owed _ _ _ e => exact absurd hlive e
  | claimed _ _ _ _ _ _ ti | marked _ _ _ _ ti => exact absurd hlive ti.ended
  | announced _ _ _ e => simp [hlive] at e

theorem Inv.finish (h : Inv c) (hlive : c.ended = none) (a : Actor) (hpast : c'.Past)
    (hpushed : c'.pushed = c.pushed) (hqueued : c'.queued = c.queued) (hpc : c'.pc = c.pc)
    (hended : c'.ended = some .terminated) (hticket : pc.ticket = some .terminated) (hclaims : pc.claims = false)
    (hreclaims : pc.reclaims = false) : Inv (c'.setPc a pc) := by
  obtain ⟨o, -, hp, -, -, hn⟩ := h.live hlive
  have hpast' : (c'.setPc a pc).Past := hpast.same rfl rfl rfl rfl
  refine ⟨.marked a hpast' (hpushed.trans hp) (by simpa using hclaims) ⟨?_, ?_, ?_⟩, ?_, ?_, fun _ _ => hpast'⟩
  · rw [setPc_self, hticket]
    exact hended.symm
  · exact fun he => nomatch hended.symm.trans he
  · intro b hb
    rw [setPc_other _ hb, hpc]
    exact hn b
  · intro hq
    exact absurd hp (h.queued (hqueued.symm.trans hq))
  · intro b hb
    by_cases hba : b = a
    · subst hba
      simp [hreclaims] at hb
    · rw [setPc_other _ hba, hpc] at hb
      exact absurd (h.reclaim b hb) o.not_settled

theorem Inv.owe (h : Inv c) (hlive : c.ended = none) (ha : a = .turn ∨ a = .stop)
    (howes : pc.owes = some status) : Inv ((c.endAs status).setPc a pc) := by
  obtain ⟨o, t, hp, -, -, hn⟩ := h.live hlive
  have hplain := plain_of_owes howes
  have hended : ((c.endAs status).setPc a pc).ended = some status := by simp [setPc, endAs, hlive]
  have hpc : ((c.endAs status).setPc a pc).pc a = pc := setPc_self ..
  have hother : ∀ b, b ≠ a → ((c.endAs status).setPc a pc).pc b = c.pc b := fun b hb => setPc_other _ hb _
  refine ⟨.owed ⟨o.1, o.2, o.3⟩ t hp (by simp [hended]) ?_ ?_, h.queued, ?_, ?_⟩
  · rw [hended]
    rcases ha with rfl | rfl
    · exact .inl (by rw [hpc, howes])
    · exact .inr (by rw [hpc, howes])
  · intro b
    by_cases hba : b = a
    · subst hba
      rw [hpc, hplain.ticket]
    · rw [hother b hba]
      exact hn b
  · intro b hb
    by_cases hba : b = a
    · subst hba
      simp [hplain.reclaims] at hb
    · rw [hother b hba] at hb
      exact absurd (h.reclaim b hb) o.not_settled
  · intro b hb
    by_cases hba : b = a
    · subst hba
      exact absurd (hpc.symm.trans hb) hplain.errored
    · rw [hother b hba] at hb
      exact absurd (h.errored b hb) fun hpast => t (hpast.resolve_left o.not_settled).2

end Moves

theorem Inv.act {c : Child} (h : Inv c) (a : Actor) (ho : Orderly c (.act a)) : Inv (step c (.act a)) := by
  simp only [Orderly, OrderlyAct, step] at ho ⊢
  cases hpc : c.pc a with
  | rest => exact h.goOn hpc ⟨fun _ _ _ => rfl, rfl, rfl, fun _ _ _ => rfl, nofun, nofun⟩
  | appendResponse text =>
    simp only [Child.act]
    split
    · exact h.goOn hpc ⟨nofun, rfl, rfl, fun _ _ _ => rfl, nofun, nofun⟩
    · have h' : Inv { c with lastText := text.or c.lastText } := by
        refine h.shared rfl rfl rfl rfl id ?_ (fun o _ => ⟨o.1, o.2, o.3⟩) id fun hp => hp.same rfl rfl rfl rfl
        cases text <;> simp
      exact h'.goOn hpc ⟨nofun, rfl, rfl, fun _ _ _ => rfl, nofun, nofun⟩
  | error | announce | forcedTermination => exact h.lookUp hpc rfl rfl ⟨rfl, rfl, rfl, nofun⟩
  | errorDedup =>
    simp only [hpc] at ho
    simp only [Child.act]
    split
    · rename_i ht
      exact h.turnAway hpc rfl ⟨rfl, rfl, rfl, nofun⟩ ht
    · rename_i ht
      have he := ho.resolve_left ht
      exact h.goOn hpc ⟨nofun, rfl, rfl, fun _ t => absurd he t, nofun,
        fun _ => h.phase.open_or_past.resolve_left fun hp => hp.2 he⟩
  | markErrored =>
    have hpast := h.errored a hpc
    have hsettled : (c.updateChildState .errored).Settled := by
      rcases hpast with (⟨hr, ht⟩ | ⟨hr, hin, hst⟩) | ⟨o, -⟩
      · refine .inl ⟨hr, ?_⟩
        cases hs : c.state <;> simp_all [isTerminal, updateChildState, ChildSessionState.isTerminal]
      · exact .inr ⟨hr, hin, by simp [updateChildState, hst]⟩
      · exact .inl ⟨o.removed, by simp [isTerminal, updateChildState, o.state, ChildSessionState.isTerminal]⟩
    have h' : Inv (c.updateChildState .errored) :=
      h.shared rfl rfl rfl rfl id id (fun o t => absurd (hpast.resolve_left o.not_settled).2 t) (fun _ => hsettled)
        fun _ => .inl hsettled
    exact h'.goOn hpc ⟨nofun, rfl, rfl, nofun, nofun, nofun⟩
  | dedup =>
    simp only [hpc] at ho
    simp only [Child.act]
    split
    · rename_i ht
      exact h.turnAway hpc rfl ⟨rfl, rfl, rfl, nofun⟩ ht
    · rename_i ht
      obtain ⟨hun, he, htext⟩ := ho.resolve_left ht
      exact h.claim a (h.open_of_unclaimed hun ht) hun (by simp [he]) (fun _ => htext) rfl (by simp [he, ticket])
  | extractText =>
    obtain ⟨ti, -, he, hopen, -⟩ := h.holds (show (c.pc a).ticket = some .completed by rw [hpc]; rfl)
    obtain ⟨o, -, htext⟩ := hopen (by rw [hpc]; rfl)
    obtain ⟨text, ht⟩ := Option.isSome_iff_exists.mp (htext he)
    simp only [Child.act, ht, o.removed]
    exact h.goOn hpc ⟨nofun, rfl, rfl, fun _ _ _ => rfl, nofun, nofun⟩
  | resolveStatus =>
    obtain ⟨ti, -, he, hopen, -⟩ := h.holds (show (c.pc a).ticket = some .completed by rw [hpc]; rfl)
    obtain ⟨o, -, -⟩ := hopen (by rw [hpc]; rfl)
    simp only [Child.act, Child.resolveChildCompletionStatus, o.state]
    exact h.goOn hpc ⟨nofun, rfl, rfl, fun _ _ _ => rfl, nofun, nofun⟩
  | markCompleted | markTerminated => exact h.mark a (by rw [hpc]; rfl) (by rw [hpc]; rfl) rfl rfl rfl
  | push =>
    exact h.push a (by rw [hpc]; rfl) (by rw [hpc]; rfl) rfl fun _ => h.reclaim a (by rw [hpc]; rfl)
  | reclaim =>
    have hs := h.reclaim a (by rw [hpc]; rfl)
    have hsettled : Settled { c with inTree := false } := hs.imp id fun hs => ⟨hs.1, rfl, hs.2.2⟩
    have h' : Inv { c with inTree := false } :=
      h.shared rfl rfl rfl rfl id id (fun o _ => absurd hs o.not_settled) (fun _ => hsettled) fun _ => .inl hsettled
    exact h'.goOn hpc ⟨nofun, rfl, rfl, nofun, nofun, nofun⟩
  | forcedDedup =>
    simp only [hpc] at ho
    simp only [Child.act]
    split
    · rename_i ht
      exact h.turnAway hpc rfl ⟨rfl, rfl, rfl, nofun⟩ ht
    · rename_i ht
      obtain ⟨hun, he⟩ := ho.resolve_left ht
      exact h.claim a (h.open_of_unclaimed hun ht) hun (by simp [he]) (by simp [he]) rfl (by simp [he, ticket])
  | pushTerminated | pushStale | pushTimeout => exact h.push a (by rw [hpc]; rfl) (by rw [hpc]; rfl) rfl nofun
  | sweepTree | sweepIdle | sweepText | staleIdle elapsed =>
    simp only [Child.act]
    split <;> exact h.goOn hpc ⟨nofun, rfl, rfl, nofun, nofun, nofun⟩
  | kill =>
    simp only [hpc] at ho
    exact h.finish ho a (.inl (.inr ⟨rfl, rfl, rfl⟩)) rfl rfl rfl (show c.ended.or _ = _ by rw [ho]; rfl) rfl rfl rfl

theorem Inv.begin_end {c : Child} (h : Inv c) {a : Actor} (ha : a = .turn ∨ a = .stop) {pc : Pc}
    {status : ChildCompletionStatus} (howes : pc.owes = some status) : Inv (begin c a (·.endAs status) pc) := by
  unfold ChildAnnounce.begin
  split
  · rename_i hrest
    by_cases hlive : c.ended = none
    · exact h.owe hlive ha howes
    · have hended : (c.endAs status).ended = c.ended := by
        cases he : c.ended <;> simp_all [endAs]
      have h' : Inv (c.endAs status) := h.shared rfl hended rfl rfl id id (fun o _ => ⟨o.1, o.2, o.3⟩) id fun hp =>
          hp.same rfl rfl rfl rfl
      have hplain := plain_of_owes howes
      exact h'.goOn hrest ⟨fun he => absurd (hended.symm.trans he) hlive, hplain.ticket, hplain.claims,
        fun _ _ hne => absurd rfl hne, fun hr => by simp [hplain.reclaims] at hr, fun he => absurd he hplain.errored⟩
  · exact h

theorem Inv.begin_sweep {c : Child} (h : Inv c) {pc : Pc} (hplain : pc.Plain) : Inv (begin c .sweeper id pc) := by
  unfold ChildAnnounce.begin
  split
  · rename_i hrest
    exact h.goOn hrest ⟨fun _ hne => absurd rfl hne, hplain.ticket, hplain.claims, fun _ _ hne => absurd rfl hne,
      fun hr => by simp [hplain.reclaims] at hr, fun he => absurd he hplain.errored⟩
  · exact h

theorem Inv.step {c : Child} (h : Inv c) {e : Event} (ho : Orderly c e) : Inv (step c e) := by
  cases e with
  | turnStart =>
    exact h.shared rfl rfl rfl rfl id id (fun o _ => ⟨o.1, o.2, o.3⟩) id fun hp =>
      hp.same rfl rfl rfl rfl
  | turnEnd result =>
    cases result with
    | ok | error => exact h.begin_end (.inl rfl) rfl
  | sweep | detectStale => exact h.begin_sweep ⟨rfl, rfl, rfl, nofun⟩
  | stop => exact h.begin_end (.inr rfl) rfl
  | timeout =>
    simp only [ChildAnnounce.step]
    split
    · rename_i harmed
      have hlive := ho harmed
      obtain ⟨o, -⟩ := h.live hlive
      exact h.finish hlive .timer (.inr ⟨⟨o.1, o.2, o.3⟩, rfl⟩) rfl rfl rfl (by simp [endAs, hlive]) rfl rfl rfl
    · exact h
  | act a => exact h.act a ho
  | drainAnnounces =>
    exact h.shared rfl rfl rfl rfl nofun id (fun o _ => ⟨o.1, o.2, o.3⟩) id fun hp =>
      hp.same rfl rfl rfl rfl

/-! ## Every run -/

theorem Inv.spawned (info : ChildSessionInfo) (lastText : Option String) : Inv (.spawned info lastText) where
  phase := .live ⟨rfl, rfl, rfl⟩ (by unfold Child.spawned; dsimp only; split <;> nofun) rfl rfl rfl rfl fun _ => rfl
  queued := nofun
  reclaim := nofun
  errored := nofun

def Pc.left : Pc → Nat
  | .rest => 0
  | .reclaim | .pushTerminated | .pushStale | .pushTimeout => 1
  | .push .. | .markTerminated | .kill => 2
  | .markCompleted .. | .forcedDedup | .staleIdle _ => 3
  | .resolveStatus _ | .forcedTermination => 4
  | .extractText => 5
  | .dedup => 6
  | .announce => 7
  | .appendResponse _ | .markErrored | .sweepText => 8
  | .errorDedup | .sweepIdle => 9
  | .error | .sweepTree => 10

theorem left_act (c : Child) (a : Actor) (h : c.pc a ≠ .rest) : ((step c (.act a)).pc a).left < (c.pc a).left := by
  simp only [step, setPc_self]
  cases hpc : c.pc a with
  | rest => exact absurd hpc h
  | extractText =>
    simp only [Child.act]
    split
    · split <;> simp [left]
    · simp [left]
  | error | errorDedup | announce | dedup | forcedTermination | forcedDedup | sweepTree | sweepIdle | sweepText
  | staleIdle =>
    simp only [Child.act]
    split <;> simp [left]
  | appendResponse _ | markErrored | resolveStatus _ | markCompleted _ _ | push _ _ | reclaim | markTerminated
  | pushTerminated | kill | pushStale | pushTimeout => simp [Child.act, left]

/-- A child that has ended is announced exactly once, as what it was, when no activity is under
way. -/
theorem child_end_announced_once (info : ChildSessionInfo) (lastText : Option String) (events : List Event)
    (h : Trace.Along step Orderly (.spawned info lastText) events) :
    let c := Trace.run step (.spawned info lastText) events
    (∀ status, c.ended = some status → (∀ a, c.pc a = .rest) → ∃ event, c.pushed = [event] ∧ event.status = status) ∧
      ∀ a, c.pc a ≠ .rest → ((step c (.act a)).pc a).left < (c.pc a).left := by
  intro c
  have hi : Inv c := Trace.invariant_along (fun _ _ hi ho => hi.step ho) (.spawned info lastText) h
  refine ⟨fun status he hrest => ?_, left_act c⟩
  cases hi.phase with
  | live _ _ _ hnone => simp [hnone] at he
  | owed _ _ _ hne ow => simp [hrest, owes, he] at ow
  | claimed a _ _ _ _ cl => simp [hrest, claims] at cl
  | marked a _ _ _ ti => exact absurd (ti.status.symm.trans (by rw [hrest]; rfl)) ti.ended
  | announced event _ hp hs => exact ⟨event, hp, Option.some.inj (hs.symm.trans he)⟩

def worker : ChildSessionInfo := ⟨"child", "worker", some 60⟩

def sweptRun : List Event :=
  List.flatten
    [[.turnStart, .turnEnd (.ok (some "done")), .act .turn, .sweep, .act .sweeper, .act .sweeper, .act .sweeper,
      .act .sweeper], List.replicate 5 (.act .turn), [.act .sweeper, .act .turn, .drainAnnounces, .act .turn]]

theorem child_end_announced_once_swept :
    ∃ event, (Trace.run step (.spawned worker none) sweptRun).pushed = [event] ∧ event.status = .completed :=
  (child_end_announced_once worker none sweptRun (by decide +kernel)).1 .completed (by decide +kernel)
    (by decide +kernel)

def failed : Child := Trace.run step (.spawned worker none) (.turnEnd (.error ()) :: List.replicate 5 (.act .turn))

def lateTimer : Child :=
  Trace.run step (.spawned worker none)
    (.turnEnd (.ok (some "done")) ::
      List.flatten [List.replicate 8 (.act .turn), [.drainAnnounces, .timeout, .act .timer]])

theorem child_end_not_announced_once :
    (failed.ended = some .errored ∧ (∀ a, failed.pc a = .rest) ∧ failed.pushed = []) ∧
      lateTimer.ended = some .completed ∧ (∀ a, lateTimer.pc a = .rest) ∧
        lateTimer.pushed.map (·.status) = [.completed, .terminated] := by
  decide +kernel

end CloseClaw.Gateway.ChildAnnounce
