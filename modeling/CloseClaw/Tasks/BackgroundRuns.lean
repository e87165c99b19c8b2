/- What every interleaving of these steps keeps. -/

import CloseClaw.Tasks.Background

namespace CloseClaw.Tasks.Background

open Lib Trace Background.Flow

namespace Flow

def early : Flow → Bool
  | spawning => true
  | failing => true
  | registering => true
  | _ => false

def attends : Flow → Bool
  | registering => true
  | opening => true
  | selecting => true
  | killing => true
  | _ => false

def rank : Flow → Nat
  | spawning => 8
  | registering => 7
  | failing => 7
  | opening => 6
  | selecting => 5
  | killing => 4
  | draining _ => 3
  | finalizing _ => 2
  | finished => 1

end Flow

namespace Task

@[simp] theorem sendKill_frame (t : Task) :
    t.sendKill.flow = t.flow ∧ t.sendKill.child = t.child ∧ t.sendKill.monitor = t.monitor ∧
      t.sendKill.notifications = t.notifications ∧ t.sendKill.killed = t.killed ∧
      t.sendKill.handle.state = t.handle.state ∧ t.sendKill.handle.notified = t.handle.notified ∧
      t.sendKill.handle.killTx = false := by
  unfold sendKill
  split <;> simp_all

variable {t : Task}

theorem sendKill_killSent (h : t.handle.killTx = true) : t.sendKill.killSent = true := by
  simp [sendKill, h]

@[simp] theorem emitStuckAlert_frame (t : Task) :
    t.emitStuckAlert.flow = t.flow ∧ t.emitStuckAlert.child = t.child ∧ t.emitStuckAlert.monitor = t.monitor ∧
      t.emitStuckAlert.killSent = t.killSent ∧ t.emitStuckAlert.killed = t.killed ∧
      t.emitStuckAlert.handle.state = t.handle.state ∧ t.emitStuckAlert.handle.killTx = t.handle.killTx := by
  unfold emitStuckAlert
  split <;> simp_all

@[simp] theorem finalizeState_frame (t : Task) (code : Int) :
    (t.finalizeState code).flow = t.flow ∧ (t.finalizeState code).child = t.child ∧
      (t.finalizeState code).monitor = t.monitor ∧ (t.finalizeState code).killSent = t.killSent ∧
      (t.finalizeState code).killed = t.killed ∧ (t.finalizeState code).handle.killTx = t.handle.killTx := by
  unfold finalizeState
  dsimp only
  split_ifs <;> simp [setState]

theorem finalizeState_killed (h : t.handle.state = .killed) (code : Int) : t.finalizeState code = t := by
  simp [finalizeState, h]

/-- A successful kill finds the channel registered, and the calls of the operating system
    around the child succeed. -/
def KillReaches (t : Task) : Event → Prop
  | .kill => t.handle.state.isRunning = true → t.handle.killTx = true
  | .opened ok => ok = true
  | .waited ok => ok = true
  | .killChild ok => ok = true
  | _ => True

structure KillInv (t : Task) : Prop where
  state : t.killed = true → t.handle.state = .killed
  sent : t.killed = true → t.killSent = true ∧ t.flow.early = false
  unregistered : t.flow.early = true → t.handle.killTx = false
  attended : t.child = .alive → t.flow.attends = true

theorem KillInv.start (spec : TaskSpec) : KillInv (.start spec) := by
  obtain ⟨how, id, command, outputPath, isBackgrounded, maxExecutionSecs, now⟩ := spec
  cases how <;> constructor <;> simp [Task.start, attends]

theorem KillInv.not_killed (h : KillInv t) (he : t.flow.early = true) : t.killed = false := by
  cases hk : t.killed with
  | false => rfl
  | true => simp [(h.sent hk).2] at he

theorem KillInv.not_alive (h : KillInv t) (hf : t.flow.attends = false) : t.child ≠ .alive := by
  intro hc
  simp [h.attended hc] at hf

variable {t' : Task} {f : Flow} {e : Event}

theorem KillInv.flow (h : KillInv t) (hstate : t'.handle.state = t.handle.state)
    (htx : t'.handle.killTx = t.handle.killTx) (hsent : t'.killSent = t.killSent) (hkilled : t'.killed = t.killed)
    (hearly : t'.flow.early = true → t.flow.early = true) (hattends : t'.child = .alive → t'.flow.attends = true) :
    KillInv t' where
  state := by
    rw [hkilled, hstate]
    exact h.state
  sent := by
    rw [hkilled, hsent]
    intro hk
    obtain ⟨hs, hlate⟩ := h.sent hk
    refine ⟨hs, Bool.eq_false_iff.mpr fun he => ?_⟩
    rw [hearly he] at hlate
    cases hlate
  unregistered := by
    rw [htx]
    exact fun he => h.unregistered (hearly he)
  attended := hattends

theorem KillInv.move (h : KillInv t) (hm : Move t e t') (hr : t.KillReaches e) : KillInv t' := by
  cases hm with
  | spawnOk hf => exact h.flow rfl rfl rfl rfl (by simp [hf, early]) fun _ => rfl
  | spawnErr hf =>
    have hc := h.not_alive (by simp [hf, attends])
    exact h.flow rfl rfl rfl rfl (by simp [hf, early]) fun hc' => absurd hc' hc
  | markFailed hf =>
    have hk := h.not_killed (by simp [hf, early])
    have hc := h.not_alive (by simp [hf, attends])
    exact ⟨by simp [markTaskFailed, setState, hk], by simp [markTaskFailed, setState, hk], by simp [early],
      fun hc' => absurd hc' hc⟩
  | register hf =>
    have hk := h.not_killed (by simp [hf, early])
    exact ⟨h.state, by simp [hk], by simp [early], fun _ => rfl⟩
  | openOk hf | receiveKill hf hs | receiveTimeout hf hs =>
    exact h.flow rfl rfl rfl rfl (by simp [early]) fun _ => rfl
  | openErr hf | waitErr hf => cases hr
  | exit => exact h.flow rfl rfl rfl rfl id (by simp)
  | waitOk code hf hc => exact h.flow rfl rfl rfl rfl (by simp [early]) (by simp [hc])
  | killChild ok =>
    obtain rfl : ok = true := hr
    refine h.flow rfl rfl rfl rfl (by simp [early]) ?_
    by_cases hc : t.child = .alive <;> simp [hc]
  | drained code hf =>
    have hc := h.not_alive (by simp [hf, attends])
    exact h.flow rfl rfl rfl rfl (by simp [early]) fun hc' => absurd hc' hc
  | finalize code hf =>
    have hc := h.not_alive (by simp [hf, attends])
    refine ⟨?_, ?_, by simp [early], ?_⟩
    · intro hk
      have hk : t.killed = true := by simpa using hk
      simp [finalizeState_killed (h.state hk), h.state hk]
    · intro hk
      exact ⟨by simpa using (h.sent (by simpa using hk)).1, rfl⟩
    · intro hc'
      exact absurd (by simpa using hc') hc
  | kill hrun =>
    have htx : t.handle.killTx = true := hr hrun
    have hflow : t.flow.early = false := by
      cases he : t.flow.early with
      | false => rfl
      | true => simp [h.unregistered he] at htx
    refine ⟨fun _ => rfl, fun _ => ⟨?_, ?_⟩, ?_, ?_⟩
    · simpa [setState] using sendKill_killSent htx
    · simpa [setState] using hflow
    · simp [setState]
    · simpa [setState] using h.attended
  | timeLimit hm hrun =>
    have hk : t.killed = false := by
      cases hk : t.killed with
      | false => rfl
      | true => simp [h.state hk, TaskState.isRunning] at hrun
    refine ⟨fun _ => rfl, ?_, ?_, ?_⟩
    · simp [setState, hk]
    · simp [setState]
    · simpa [setState] using h.attended
  | timeLimitLate hm hrun | timeLimitMark hm | timeLimitPush hm | poll now size tail detector =>
    exact h.flow rfl rfl rfl rfl id h.attended
  | alert => exact h.flow (by simp) (by simp) (by simp) (by simp) (by simp) (by simpa using h.attended)

theorem KillInv.step (h : KillInv t) (e : Event) (hr : t.KillReaches e) : KillInv (t.step e) :=
  step_rule e h fun _ hm => h.move hm hr

/-! ## The flow goes down -/

theorem Move.rank {t' : Task} {e : Event} (h : Move t e t') : t'.flow = t.flow ∨ t'.flow.rank < t.flow.rank := by
  cases h with
  | spawnOk hf | spawnErr hf | markFailed hf | register hf | openOk hf | openErr hf | waitOk code hf hc | waitErr hf
  | receiveKill hf hs | receiveTimeout hf hs | killChild ok hf | drained code hf | finalize code hf =>
    right
    simp [hf, Flow.rank]
  | exit code hc | timeLimitLate hm hr | timeLimitMark hm | timeLimitPush hm | poll now size tail detector =>
    exact .inl rfl
  | kill hr | timeLimit hm hr | alert hd =>
    left
    simp [setState]

def flowSteps : Task → List Event → Nat
  | _, [] => 0
  | t, e :: events => (if (t.step e).flow = t.flow then 0 else 1) + flowSteps (t.step e) events

theorem flowSteps_le (events : List Event) :
    ∀ t : Task, flowSteps t events + (Trace.run step t events).flow.rank ≤ t.flow.rank := by
  induction events with
  | nil => intro t; simp [flowSteps]
  | cons e events ih =>
    intro t
    have hrest := ih (t.step e)
    have hstep : (t.step e).flow = t.flow ∨ (t.step e).flow.rank < t.flow.rank :=
      step_rule (I := fun u => u.flow = t.flow ∨ u.flow.rank < t.flow.rank) e (.inl rfl) fun _ hm => hm.rank
    rw [flowSteps, run_cons]
    rcases hstep with hsame | hless
    · rw [if_pos hsame]
      rw [hsame] at hrest
      omega
    · rw [if_neg (fun heq => by rw [heq] at hless; omega)]
      omega

/-! ## A kill takes effect -/

theorem Move.killed (h : Move t e t') (hk : t.killed = true) : t'.killed = true := by
  cases h <;> simp [markTaskFailed, setState, hk]

theorem killed_run (hk : t.killed = true) (events : List Event) : (Trace.run step t events).killed = true := by
  refine invariant (I := fun t : Task => t.killed = true) ?_ hk events
  intro t e hk
  exact step_rule e hk fun _ hm => hm.killed hk

theorem kill_ok_iff : t.kill.1 = .ok () ↔ t.handle.state.isRunning = true := by
  unfold kill
  split <;> simp_all

theorem step_kill_killed (h : t.kill.1 = .ok ()) : (t.step .kill).killed = true := by
  simp [step, kill, kill_ok_iff.mp h]

theorem KillInv.flow_enabled (h : KillInv t) (hk : t.killed = true) (hc : t.child = .alive) :
    ∃ e, t.KillReaches e ∧ (t.step e).flow ≠ t.flow := by
  obtain ⟨hsent, hearly⟩ := h.sent hk
  have hattends := h.attended hc
  cases hf : t.flow with
  | opening => exact ⟨.opened true, rfl, by simp [Task.step, hf]⟩
  | selecting => exact ⟨.receiveKill, trivial, by simp [Task.step, hf, hsent]⟩
  | killing => exact ⟨.killChild true, rfl, by simp [Task.step, hf]⟩
  | registering => simp [hf, early] at hearly
  | spawning | failing | draining code | finalizing code | finished => simp [hf, attends] at hattends

theorem Flow.rank_le_of_not_early (h : f.early = false) : f.rank ≤ 6 := by
  cases f <;> simp_all [early, Flow.rank]

theorem Flow.rank_ge_of_attends (h : f.attends = true) : 4 ≤ f.rank := by
  cases f <;> simp_all [attends, Flow.rank]

theorem kill_effective (spec : TaskSpec) (before after : List Event)
    (hreaches : Along step KillReaches (.start spec) (before ++ .kill :: after))
    (hok : (Trace.run step (.start spec) before).kill.1 = .ok ()) :
    let t := Trace.run step (.start spec) (before ++ .kill :: after)
    t.handle.state = .killed ∧
      (t.child = .alive →
        flowSteps (Trace.run step (.start spec) (before ++ [.kill])) after ≤ 2 ∧
        ∃ e, t.KillReaches e ∧ (t.step e).flow ≠ t.flow) := by
  intro t
  have hinv : KillInv t := invariant_along (fun _ e h hr => h.step e hr) (KillInv.start spec) hreaches
  -- the state right after the kill
  set t₁ := Trace.run step (.start spec) (before ++ [.kill]) with ht₁
  have hrun : t = Trace.run step t₁ after := by
    rw [ht₁, ← run_append, List.append_assoc, List.singleton_append]
  have hinv₁ : KillInv t₁ := by
    rw [← List.singleton_append, ← List.append_assoc, along_append] at hreaches
    exact invariant_along (fun _ e h hr => h.step e hr) (KillInv.start spec) hreaches.1
  have hk₁ : t₁.killed = true := by
    rw [ht₁, run_append]
    exact step_kill_killed hok
  have hk : t.killed = true := by
    rw [hrun]
    exact killed_run hk₁ after
  refine ⟨hinv.state hk, fun hc => ⟨?_, hinv.flow_enabled hk hc⟩⟩
  have hsteps := flowSteps_le after t₁
  rw [← hrun] at hsteps
  have hstart := Flow.rank_le_of_not_early (hinv₁.sent hk₁).2
  have hend := Flow.rank_ge_of_attends (hinv.attended hc)
  omega

instance KillReaches.decidable (t : Task) (e : Event) : Decidable (t.KillReaches e) := by
  cases e <;> unfold KillReaches <;> infer_instance

def sleepSpec : TaskSpec where
  how := .spawn
  id := "t"
  command := "sleep 60"
  outputPath := "/tmp/closeclaw/background/t/output"
  isBackgrounded := true
  maxExecutionSecs := 1800
  now := 0

theorem kill_effective_sleep :
    let t := Trace.run step (.start sleepSpec) [.spawned true, .register, .kill, .opened true, .receiveKill]
    t.handle.state = .killed ∧ t.child = .alive ∧ ∃ e, t.KillReaches e ∧ (t.step e).flow ≠ t.flow := by
  have h := kill_effective sleepSpec [.spawned true, .register] [.opened true, .receiveKill] (by decide) (by decide)
  exact ⟨h.1, by decide, (h.2 (by decide)).2⟩

theorem early_kill_is_lost : (Task.start sleepSpec).kill.1 = .ok () ∧
      (Trace.run step (.start sleepSpec) [.kill, .spawned true, .register, .opened true, .exit (some 0), .waited true,
        .drained, .finalize]).child = .exited (some 0) ∧
      (Trace.run step (.start sleepSpec) [.kill, .spawned false, .markFailed]).handle.state = .failed 1 := by
  decide

/-! ## Completion -/

/-- The command starts, and a stuck alert does not fall between the two lock sections of
    the time-limit monitor. -/
def CompletesCleanly (t : Task) : Event → Prop
  | .spawned ok => ok = true
  | .alert => t.monitor ≠ .marked
  | _ => True

structure CompletionInv (t : Task) : Prop where
  startable : t.flow ≠ .failing
  finalized : t.handle.state.isRunning = false → t.handle.state ≠ .killed → t.flow = .finished
  unnotified : t.handle.notified = false → t.notifications = []
  notified : t.handle.notified = true → t.notifications.length = if t.monitor = .pushing then 0 else 1
  marked : t.monitor = .marked → t.handle.state = .killed ∧ t.handle.notified = false
  pushing : t.monitor = .pushing → t.handle.state = .killed ∧ t.handle.notified = true
  ended : t.handle.state.isRunning = false → t.killed = false → t.monitor ≠ .marked → t.handle.notified = true

theorem CompletionInv.start (spec : TaskSpec) : CompletionInv (.start spec) := by
  obtain ⟨how, id, command, outputPath, isBackgrounded, maxExecutionSecs, now⟩ := spec
  cases how <;> constructor <;> simp [Task.start, TaskState.isRunning]

theorem CompletionInv.monitor_of_running (h : CompletionInv t) (hr : t.handle.state.isRunning = true) :
    t.monitor ≠ .marked ∧ t.monitor ≠ .pushing := by
  constructor
  · intro hm
    simp [(h.marked hm).1, TaskState.isRunning] at hr
  · intro hm
    simp [(h.pushing hm).1, TaskState.isRunning] at hr

theorem CompletionInv.flow (h : CompletionInv t) (hhandle : t'.handle.state = t.handle.state)
    (hnotified : t'.handle.notified = t.handle.notified) (hnotifications : t'.notifications = t.notifications)
    (hmonitor : t'.monitor = t.monitor) (hkilled : t'.killed = t.killed) (hfailing : t'.flow ≠ .failing)
    (hfinished : t.flow = .finished → t'.flow = .finished) : CompletionInv t' where
  startable := hfailing
  finalized := by
    rw [hhandle]
    exact fun hr hs => hfinished (h.finalized hr hs)
  unnotified := by
    rw [hnotified, hnotifications]
    exact h.unnotified
  notified := by
    rw [hnotified, hnotifications, hmonitor]
    exact h.notified
  marked := by
    rw [hmonitor, hhandle, hnotified]
    exact h.marked
  pushing := by
    rw [hmonitor, hhandle, hnotified]
    exact h.pushing
  ended := by
    rw [hhandle, hkilled, hmonitor, hnotified]
    exact h.ended

theorem CompletionInv.finalizeState_notifies (h : CompletionInv t)
    (hstate : t.handle.state ≠ .killed) (hpushing : t.monitor ≠ .pushing) (code : Int) :
    (t.finalizeState code).handle.notified = true ∧ (t.finalizeState code).notifications.length = 1 := by
  cases hn : t.handle.notified with
  | true =>
    have hlength := h.notified hn
    rw [if_neg hpushing] at hlength
    simp [finalizeState, hstate, setState, hn, hlength]
  | false => simp [finalizeState, hstate, setState, hn, h.unnotified hn]

theorem CompletionInv.move (h : CompletionInv t) (hm : Move t e t') (hc : t.CompletesCleanly e) : CompletionInv t' := by
  cases hm with
  | spawnErr => cases hc
  | markFailed hf => exact absurd hf h.startable
  | spawnOk hf | register hf | openOk hf | openErr hf | waitOk code hf hc | waitErr hf | receiveKill hf hs
  | receiveTimeout hf hs | killChild ok hf | drained code hf =>
    exact h.flow rfl rfl rfl rfl rfl (by simp) (by simp [hf])
  | exit | poll => exact h.flow rfl rfl rfl rfl rfl h.startable id
  | finalize code hf =>
    by_cases hstate : t.handle.state = .killed
    · rw [finalizeState_killed hstate]
      exact h.flow rfl rfl rfl rfl rfl (by simp) (by simp)
    · have hr : t.handle.state.isRunning = true := by
        cases hr : t.handle.state.isRunning with
        | true => rfl
        | false => simp [h.finalized hr hstate] at hf
      obtain ⟨hmarked, hpushing⟩ := h.monitor_of_running hr
      obtain ⟨hnotified, hlength⟩ := h.finalizeState_notifies hstate hpushing code
      refine ⟨by simp, fun _ _ => rfl, ?_, ?_, ?_, ?_, fun _ _ _ => hnotified⟩
      · simp [hnotified]
      · simp [hlength, hpushing]
      · simp [hmarked]
      · simp [hpushing]
  | kill hr =>
    obtain ⟨hmarked, hpushing⟩ := h.monitor_of_running hr
    refine ⟨by simpa [setState] using h.startable, by simp [setState], ?_, ?_, ?_, ?_, by simp⟩
    · simpa [setState] using h.unnotified
    · simpa [setState] using h.notified
    · simp [setState, hmarked]
    · simp [setState, hpushing]
  | timeLimit hm =>
    refine ⟨by simpa [setState] using h.startable, by simp [setState], ?_, ?_, ?_, ?_, ?_⟩
    · simpa [setState] using h.unnotified
    · intro hn
      have hn : t.handle.notified = true := by simpa [setState] using hn
      simpa [setState, hn, hm] using h.notified hn
    · cases hn : t.handle.notified <;> simp [setState, hn]
    · cases hn : t.handle.notified <;> simp
    · cases hn : t.handle.notified <;> simp [setState, hn]
  | timeLimitLate hm hr =>
    refine ⟨h.startable, h.finalized, h.unnotified, ?_, by simp, by simp, ?_⟩
    · intro hn
      simpa [hm] using h.notified hn
    · intro hr hk _
      exact h.ended hr hk (by simp [hm])
  | timeLimitMark hm =>
    obtain ⟨hstate, hnotified⟩ := h.marked hm
    exact ⟨h.startable, h.finalized, by simp, by simp [h.unnotified hnotified], by simp, by simp [hstate], by simp⟩
  | timeLimitPush hm =>
    obtain ⟨hstate, hnotified⟩ := h.pushing hm
    have hlength := h.notified hnotified
    rw [if_pos hm] at hlength
    exact ⟨h.startable, h.finalized, by simp [hnotified], by simp [hlength], by simp, by simp, fun _ _ _ => hnotified⟩
  | alert =>
    have hmarked : t.monitor ≠ .marked := hc
    by_cases hn : t.handle.notified = true
    · have hsame : t.emitStuckAlert = t := by simp [emitStuckAlert, hn]
      rw [hsame]
      exact h.flow rfl rfl rfl rfl rfl h.startable id
    · have hpushing : t.monitor ≠ .pushing := fun hp => hn (h.pushing hp).2
      have hnil := h.unnotified (by simpa using hn)
      refine ⟨by simpa using h.startable, by simpa using h.finalized, ?_, ?_, by simp [hmarked], by simp [hpushing], ?_⟩
      · simp [emitStuckAlert, hn]
      · simp [emitStuckAlert, hn, hnil, hpushing]
      · simp [emitStuckAlert, hn]

theorem CompletionInv.step (h : CompletionInv t) (e : Event) (hc : t.CompletesCleanly e) : CompletionInv (t.step e) :=
  step_rule e h fun _ hm => h.move hm hc

theorem CompletionInv.run (spec : TaskSpec) {events : List Event}
    (h : Along Task.step CompletesCleanly (.start spec) events) :
    CompletionInv (Trace.run Task.step (.start spec) events) :=
  invariant_along (fun _ e hinv hc => hinv.step e hc) (CompletionInv.start spec) h

theorem CompletionInv.state_final (h : CompletionInv t) (hr : t.handle.state.isRunning = false) (e : Event) :
    (t.step e).handle.state = t.handle.state := by
  refine step_rule (I := fun u => u.handle.state = t.handle.state) e rfl fun t' hm => ?_
  cases hm with
  | markFailed hf => exact absurd hf h.startable
  | finalize code hf =>
    by_cases hstate : t.handle.state = .killed
    · rw [finalizeState_killed hstate]
    · simp [h.finalized hr hstate] at hf
  | kill hrun | timeLimit hm hrun => simp [hr] at hrun
  | alert => simp
  | spawnOk hf | spawnErr hf | register hf | openOk hf | openErr hf | exit code hc | waitOk code hf hc | waitErr hf
  | receiveKill hf hs | receiveTimeout hf hs | killChild ok hf | drained code hf | timeLimitLate hm hrun
  | timeLimitMark hm | timeLimitPush hm | poll now size tail detector => rfl

theorem CompletionInv.run_state_final (h : CompletionInv t)
    (hr : t.handle.state.isRunning = false) {events : List Event} (hc : Along Task.step CompletesCleanly t events) :
    (Trace.run Task.step t events).handle.state = t.handle.state := by
  refine (invariant_along (I := fun u : Task => CompletionInv u ∧ u.handle.state = t.handle.state) ?_ ⟨h, rfl⟩ hc).2
  rintro u e ⟨hinv, hstate⟩ hce
  exact ⟨hinv.step e hce, (hinv.state_final (by rw [hstate, hr]) e).trans hstate⟩

theorem CompletionInv.length_le (h : CompletionInv t) : t.notifications.length ≤ 1 := by
  cases hn : t.handle.notified with
  | false => simp [h.unnotified hn]
  | true =>
    rw [h.notified hn]
    split <;> omega

theorem completion_final_and_notified_once (spec : TaskSpec) (before after : List Event)
    (h : Along step CompletesCleanly (.start spec) (before ++ after)) :
    let t := Trace.run step (.start spec) before
    let t' := Trace.run step (.start spec) (before ++ after)
    (t.handle.state.isRunning = false → t'.handle.state = t.handle.state) ∧
      t'.notifications.length ≤ 1 ∧
      (t'.handle.state.isRunning = false → t'.killed = false → t'.monitor ≠ .marked → t'.monitor ≠ .pushing →
        t'.notifications.length = 1) := by
  intro t t'
  have hinv' : CompletionInv t' := CompletionInv.run spec h
  obtain ⟨hbefore, hafter⟩ := along_append.mp h
  have hinv : CompletionInv t := CompletionInv.run spec hbefore
  refine ⟨?_, hinv'.length_le, ?_⟩
  · intro hr
    have hrun : t' = Trace.run step t after := run_append after
    rw [hrun]
    exact hinv.run_state_final hr hafter
  · intro hr hk hmarked hpushing
    rw [hinv'.notified (hinv'.ended hr hk hmarked), if_neg hpushing]

instance CompletesCleanly.decidable (t : Task) (e : Event) : Decidable (t.CompletesCleanly e) := by
  cases e <;> unfold CompletesCleanly <;> infer_instance

def promptThenLimit : List Event :=
  [.spawned true, .register, .opened true, .poll 50000 (some 7) "Continue?", .poll 100000 (some 7) "Continue?", .alert,
    .timeLimit]

theorem completion_prompt_then_limit :
    (Trace.run step (.start sleepSpec) (promptThenLimit ++ [.receiveTimeout, .killChild true, .drained,
      .finalize])).notifications.length = 1 := by
  have h := completion_final_and_notified_once sleepSpec promptThenLimit
    [.receiveTimeout, .killChild true, .drained, .finalize] (by decide +kernel)
  exact h.2.2 (by decide +kernel) (by decide +kernel) (by decide +kernel) (by decide +kernel)

theorem completion_races : (Trace.run step (.start sleepSpec) [.kill]).handle.state = .killed ∧
      (Trace.run step (.start sleepSpec) [.kill, .spawned false, .markFailed]).handle.state = .failed 1 ∧
      (Trace.run step (.start sleepSpec) [.spawned false, .markFailed]).notifications = [] ∧
      (Trace.run step (.start sleepSpec) [.spawned true, .register, .opened true, .poll 50000 (some 7) "Continue?",
        .poll 100000 (some 7) "Continue?", .timeLimit, .alert, .timeLimitMark, .timeLimitPush]).notifications.length
        = 2 := by
  decide +kernel

end Task

end CloseClaw.Tasks.Background
