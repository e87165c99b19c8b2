/- The life of a background task (`background.rs`, `stuck_detect.rs`): four activities, each lock
   section one step. -/

import CloseClaw.Lib.Text
import CloseClaw.Lib.Trace
import Mathlib.Logic.Function.Basic

namespace CloseClaw.Tasks.Background

open Lib

inductive TaskState where
  | running (isBackgrounded : Bool)
  | completed (exitCode : Int)
  | failed (exitCode : Int)
  | killed
  deriving DecidableEq

def TaskState.isRunning : TaskState → Bool
  | .running _ => true
  | .completed _ => false
  | .failed _ => false
  | .killed => false

inductive NotificationPriority where
  | later
  | next
  | now
  deriving DecidableEq

structure CompletionNotification where
  taskId : String
  command : String
  state : TaskState
  outputPath : String
  priority : NotificationPriority
  summary : String
  suggestion : Option String
  deriving DecidableEq

inductive BackgroundTaskError where
  | notFound (taskId : String)
  | notRunning (taskId : String)
  deriving DecidableEq

structure TaskHandle where
  id : String
  command : String
  state : TaskState
  outputPath : String
  killTx : Bool
  notified : Bool

inductive Child where
  | absent
  | alive
  | exited (code : Option Int)
  | killed
  deriving DecidableEq

inductive Flow where
  | spawning
  | failing
  | registering
  | opening
  | selecting
  | killing
  | draining (code : Int)
  | finalizing (code : Int)
  | finished
  deriving DecidableEq

inductive Monitor where
  | sleeping
  | marked
  | pushing
  | finished
  deriving DecidableEq

inductive Detector where
  | polling (lastSize lastGrowth : Nat)
  | alerting
  | finished

structure Task where
  handle : TaskHandle
  maxExecutionSecs : Nat
  flow : Flow
  child : Child
  killSent : Bool
  timeoutNotified : Bool
  monitor : Monitor
  detector : Detector
  notifications : List CompletionNotification
  killed : Bool

inductive Start where
  | spawn
  | backgroundize

structure TaskSpec where
  how : Start
  id : String
  command : String
  outputPath : String
  isBackgrounded : Bool
  maxExecutionSecs : Nat
  now : Nat

def Task.start (spec : TaskSpec) : Task where
  handle :=
    { id := spec.id, command := spec.command, state := .running spec.isBackgrounded, outputPath := spec.outputPath
      killTx := false, notified := false }
  maxExecutionSecs := spec.maxExecutionSecs
  flow := match spec.how with
    | .spawn => .spawning
    | .backgroundize => .registering
  child := match spec.how with
    | .spawn => .absent
    | .backgroundize => .alive
  killSent := false
  timeoutNotified := false
  monitor := .sleeping
  detector := .polling 0 spec.now
  notifications := []
  killed := false

/-! ## Stuck detection -/

def stuckTimeout : Nat := 45000

def interactivePatterns : List String :=
  ["(y/n)", "[Y/n]", "[y/N]", "Continue?", "Are you sure?", "Password:", "password:"]

def hasInteractivePrompt (tail : String) : Bool := interactivePatterns.any (Text.contains tail ·)

def pollOutput (lastSize lastGrowth now : Nat) (size : Option Nat) (tail : String) : Detector :=
  match size with
  | none => .polling lastSize lastGrowth
  | some size =>
    let (lastSize, lastGrowth) := if size > lastSize then (size, now) else (lastSize, lastGrowth)
    if now - lastGrowth < stuckTimeout then .polling lastSize lastGrowth
    else if hasInteractivePrompt tail then .alerting
    else .polling lastSize lastGrowth

namespace Task

def emitStuckAlert (t : Task) : Task :=
  if t.handle.notified then t
  else
    { t with
      handle := { t.handle with notified := true }
      notifications := t.notifications ++
        [{ taskId := t.handle.id
           command := t.handle.command
           state := t.handle.state
           outputPath := t.handle.outputPath
           priority := .next
           summary := "Background command '" ++ t.handle.command ++ "' appears stuck at an interactive prompt"
           suggestion := some "建议终止任务并以管道输入方式重新运行" }] }

/-! ## Kill and the time limit -/

def sendKill (t : Task) : Task :=
  if t.handle.killTx then { t with handle := { t.handle with killTx := false }, killSent := true } else t

def setState (t : Task) (state : TaskState) : Task := { t with handle := { t.handle with state } }

def kill (t : Task) : Except BackgroundTaskError Unit × Task :=
  if t.handle.state.isRunning then (.ok (), { t.sendKill.setState .killed with killed := true })
  else (.error (.notRunning t.handle.id), t)

def reachTimeLimit (t : Task) : Task :=
  if t.handle.state.isRunning then
    { t.sendKill.setState .killed with
      timeoutNotified := true
      monitor := if t.handle.notified then .finished else .marked }
  else { t with monitor := .finished }

def timeLimitNotification (t : Task) : CompletionNotification where
  taskId := t.handle.id
  command := t.handle.command
  state := .killed
  outputPath := t.handle.outputPath
  priority := .now
  summary := "Background command '" ++ t.handle.command ++ "' killed: total execution time limit (" ++
    toString t.maxExecutionSecs ++ "s) reached"
  suggestion := some ("The command exceeded the total execution time limit of " ++ toString t.maxExecutionSecs ++
    "s. Consider breaking it into smaller tasks or increasing the limit.")

/-! ## The flow -/

def markTaskFailed (t : Task) : Task := t.setState (.failed 1)

def finalizeState (t : Task) (exitCode : Int) : Task :=
  -- an explicit kill is not overwritten
  if t.handle.state = .killed then t
  else
    let newState := if exitCode = 0 then .completed exitCode else .failed exitCode
    let t := t.setState newState
    if t.handle.notified then t
    else
      { t with
        handle := { t.handle with notified := true }
        notifications := t.notifications ++
          [{ taskId := t.handle.id
             command := t.handle.command
             state := newState
             outputPath := t.handle.outputPath
             priority := .later
             summary :=
               if exitCode = 0 then "Background command '" ++ t.handle.command ++ "' completed"
               else "Background command '" ++ t.handle.command ++ "' failed (exit code " ++ toString exitCode ++ ")"
             suggestion := none }] }

end Task

/-! ## Steps -/

inductive Event where
  | spawned (ok : Bool)
  | markFailed
  | register
  | opened (ok : Bool)
  | exit (code : Option Int)
  | waited (ok : Bool)
  | receiveKill
  | receiveTimeout
  | killChild (ok : Bool)
  | drained
  | finalize
  | kill
  | timeLimit
  | timeLimitMark
  | timeLimitPush
  | poll (now : Nat) (size : Option Nat) (tail : String)
  | alert

namespace Task

def step (t : Task) : Event → Task
  | .spawned ok =>
    match t.flow with
    | .spawning => if ok then { t with flow := .registering, child := .alive } else { t with flow := .failing }
    | _ => t
  | .markFailed =>
    match t.flow with
    | .failing => { t.markTaskFailed with flow := .finished }
    | _ => t
  | .register =>
    match t.flow with
    -- the state is not looked at
    | .registering => { t with handle := { t.handle with killTx := true }, flow := .opening }
    | _ => t
  | .opened ok =>
    match t.flow with
    -- without an output file the child is left to itself
    | .opening => { t with flow := if ok then .selecting else .finalizing 1 }
    | _ => t
  | .exit code =>
    match t.child with
    | .alive => { t with child := .exited code }
    | _ => t
  | .waited ok =>
    match t.flow, t.child, ok with
    | .selecting, .exited code, true => { t with flow := .draining (code.getD 1) }
    | .selecting, _, false => { t with flow := .draining 1 }
    | _, _, _ => t
  | .receiveKill =>
    match t.flow, t.killSent with
    | .selecting, true => { t with flow := .killing }
    | _, _ => t
  | .receiveTimeout =>
    match t.flow, t.timeoutNotified with
    | .selecting, true => { t with flow := .killing, timeoutNotified := false }
    | _, _ => t
  | .killChild ok =>
    match t.flow with
    | .killing => { t with flow := .draining (-1), child := if ok ∧ t.child = .alive then .killed else t.child }
    | _ => t
  | .drained =>
    match t.flow with
    | .draining code => { t with flow := .finalizing code }
    | _ => t
  | .finalize =>
    match t.flow with
    | .finalizing code => { t.finalizeState code with flow := .finished }
    | _ => t
  | .kill => t.kill.2
  | .timeLimit =>
    match t.monitor with
    | .sleeping => t.reachTimeLimit
    | _ => t
  | .timeLimitMark =>
    match t.monitor with
    | .marked => { t with handle := { t.handle with notified := true }, monitor := .pushing }
    | _ => t
  | .timeLimitPush =>
    match t.monitor with
    | .pushing => { t with notifications := t.notifications ++ [t.timeLimitNotification], monitor := .finished }
    | _ => t
  | .poll now size tail =>
    match t.detector with
    | .polling lastSize lastGrowth =>
      if t.handle.state.isRunning then { t with detector := pollOutput lastSize lastGrowth now size tail }
      else { t with detector := .finished }
    | _ => t
  | .alert =>
    match t.detector with
    | .alerting => { t.emitStuckAlert with detector := .finished }
    | _ => t

inductive Move (t : Task) : Event → Task → Prop
  | spawnOk (hf : t.flow = .spawning) : Move t (.spawned true) { t with flow := .registering, child := .alive }
  | spawnErr (hf : t.flow = .spawning) : Move t (.spawned false) { t with flow := .failing }
  | markFailed (hf : t.flow = .failing) : Move t .markFailed { t.markTaskFailed with flow := .finished }
  | register (hf : t.flow = .registering) :
    Move t .register { t with handle := { t.handle with killTx := true }, flow := .opening }
  | openOk (hf : t.flow = .opening) : Move t (.opened true) { t with flow := .selecting }
  | openErr (hf : t.flow = .opening) : Move t (.opened false) { t with flow := .finalizing 1 }
  | exit (code : Option Int) (hc : t.child = .alive) : Move t (.exit code) { t with child := .exited code }
  | waitOk (code : Option Int) (hf : t.flow = .selecting) (hc : t.child = .exited code) :
    Move t (.waited true) { t with flow := .draining (code.getD 1) }
  | waitErr (hf : t.flow = .selecting) : Move t (.waited false) { t with flow := .draining 1 }
  | receiveKill (hf : t.flow = .selecting) (hs : t.killSent = true) : Move t .receiveKill { t with flow := .killing }
  | receiveTimeout (hf : t.flow = .selecting) (hs : t.timeoutNotified = true) :
    Move t .receiveTimeout { t with flow := .killing, timeoutNotified := false }
  | killChild (ok : Bool) (hf : t.flow = .killing) :
    Move t (.killChild ok)
      { t with flow := .draining (-1), child := if ok ∧ t.child = .alive then .killed else t.child }
  | drained (code : Int) (hf : t.flow = .draining code) : Move t .drained { t with flow := .finalizing code }
  | finalize (code : Int) (hf : t.flow = .finalizing code) :
    Move t .finalize { t.finalizeState code with flow := .finished }
  | kill (hr : t.handle.state.isRunning = true) : Move t .kill { t.sendKill.setState .killed with killed := true }
  | timeLimit (hm : t.monitor = .sleeping) (hr : t.handle.state.isRunning = true) :
    Move t .timeLimit
      { t.sendKill.setState .killed with
        timeoutNotified := true, monitor := if t.handle.notified then .finished else .marked }
  | timeLimitLate (hm : t.monitor = .sleeping) (hr : t.handle.state.isRunning = false) :
    Move t .timeLimit { t with monitor := .finished }
  | timeLimitMark (hm : t.monitor = .marked) :
    Move t .timeLimitMark { t with handle := { t.handle with notified := true }, monitor := .pushing }
  | timeLimitPush (hm : t.monitor = .pushing) :
    Move t .timeLimitPush
      { t with notifications := t.notifications ++ [t.timeLimitNotification], monitor := .finished }
  | poll (now : Nat) (size : Option Nat) (tail : String) (detector : Detector) :
    Move t (.poll now size tail) { t with detector }
  | alert (hd : t.detector = .alerting) : Move t .alert { t.emitStuckAlert with detector := .finished }

variable (t : Task)

variable (e : Event) {t' : Task}

theorem step_eq_or_move : t.step e = t ∨ Move t e (t.step e) := by
  cases e with
  | spawned ok =>
    simp only [step]
    split
    next hf =>
      right
      cases ok
      · exact .spawnErr hf
      · exact .spawnOk hf
    · exact .inl rfl
  | markFailed =>
    simp only [step]
    split
    next hf => exact .inr (.markFailed hf)
    · exact .inl rfl
  | register =>
    simp only [step]
    split
    next hf => exact .inr (.register hf)
    · exact .inl rfl
  | opened ok =>
    simp only [step]
    split
    next hf =>
      right
      cases ok
      · exact .openErr hf
      · exact .openOk hf
    · exact .inl rfl
  | exit code =>
    simp only [step]
    split
    next hc => exact .inr (.exit code hc)
    · exact .inl rfl
  | waited =>
    simp only [step]
    split
    next code hf hc => exact .inr (.waitOk code hf hc)
    next hf => exact .inr (.waitErr hf)
    · exact .inl rfl
  | receiveKill =>
    simp only [step]
    split
    next hf hs => exact .inr (.receiveKill hf hs)
    · exact .inl rfl
  | receiveTimeout =>
    simp only [step]
    split
    next hf hs => exact .inr (.receiveTimeout hf hs)
    · exact .inl rfl
  | killChild ok =>
    simp only [step]
    split
    next hf => exact .inr (.killChild ok hf)
    · exact .inl rfl
  | drained =>
    simp only [step]
    split
    next code hf => exact .inr (.drained code hf)
    · exact .inl rfl
  | finalize =>
    simp only [step]
    split
    next code hf => exact .inr (.finalize code hf)
    · exact .inl rfl
  | kill =>
    simp only [step, Task.kill]
    split
    next hr => exact .inr (.kill hr)
    · exact .inl rfl
  | timeLimit =>
    simp only [step, reachTimeLimit]
    split
    next hm =>
      right
      split
      next hr => exact .timeLimit hm hr
      next hr => exact .timeLimitLate hm (by simpa using hr)
    · exact .inl rfl
  | timeLimitMark =>
    simp only [step]
    split
    next hm => exact .inr (.timeLimitMark hm)
    · exact .inl rfl
  | timeLimitPush =>
    simp only [step]
    split
    next hm => exact .inr (.timeLimitPush hm)
    · exact .inl rfl
  | poll now size tail =>
    simp only [step]
    split
    · right
      split
      · exact .poll now size tail _
      · exact .poll now size tail _
    · exact .inl rfl
  | alert =>
    simp only [step]
    split
    next hd => exact .inr (.alert hd)
    · exact .inl rfl

theorem step_rule {I : Task → Prop} {t : Task} (h : I t) (hmove : ∀ t', Move t e t' → I t') : I (t.step e) := by
  rcases t.step_eq_or_move e with heq | hm
  · rw [heq]
    exact h
  · exact hmove _ hm

/-! ### What a step pushes -/

structure Notifies (t t' : Task) : Prop where
  id : t'.handle.id = t.handle.id
  notifications : ∃ ns, t'.notifications = t.notifications ++ ns ∧ ∀ n ∈ ns, n.taskId = t.handle.id

theorem Notifies.silent {t : Task} (hid : t'.handle.id = t.handle.id) (h : t'.notifications = t.notifications) :
    Notifies t t' := ⟨hid, [], by simp [h], by simp⟩

theorem Notifies.push {t : Task} (hid : t'.handle.id = t.handle.id) (n : CompletionNotification)
    (hn : n.taskId = t.handle.id) (h : t'.notifications = t.notifications ++ [n]) : Notifies t t' :=
  ⟨hid, [n], h, by simpa using hn⟩

theorem notifies_emitStuckAlert : Notifies t t.emitStuckAlert := by
  unfold emitStuckAlert
  split
  · exact .silent rfl rfl
  · exact .push rfl _ rfl rfl

theorem notifies_sendKill : Notifies t t.sendKill := by
  unfold sendKill
  split <;> exact .silent rfl rfl

theorem notifies_finalizeState (code : Int) : Notifies t (t.finalizeState code) := by
  unfold finalizeState
  split
  · exact .silent rfl rfl
  · by_cases hn : t.handle.notified = true
    · split <;> exact .silent (by simp [setState, hn]) (by simp [setState, hn])
    · split <;> exact .push (by simp [setState, hn]) _ rfl (by simp [setState, hn]; rfl)

theorem Move.notifies {t : Task} {e : Event} (h : Move t e t') : Notifies t t' := by
  cases h with
  | finalize code => exact ⟨(t.notifies_finalizeState code).id, (t.notifies_finalizeState code).notifications⟩
  | kill | timeLimit => exact ⟨t.notifies_sendKill.id, t.notifies_sendKill.notifications⟩
  | timeLimitPush => exact .push rfl _ rfl rfl
  | alert => exact ⟨t.notifies_emitStuckAlert.id, t.notifies_emitStuckAlert.notifications⟩
  | _ => exact .silent rfl rfl

theorem step_notifies : Notifies t (t.step e) :=
  t.step_rule (I := Notifies t) e (.silent rfl rfl) fun _ h => h.notifies

end Task

/-! ## The manager -/

abbrev BackgroundTaskManager := String → Option Task

namespace BackgroundTaskManager

inductive Request where
  | create (spec : TaskSpec)
  | task (id : String) (e : Event)

def kill (m : BackgroundTaskManager) (id : String) : Except BackgroundTaskError Unit × BackgroundTaskManager :=
  match m id with
  | none => (.error (.notFound id), m)
  | some t => (t.kill.1, Function.update m id (some t.kill.2))

def step (m : BackgroundTaskManager) : Request → BackgroundTaskManager
  | .create spec =>
    match m spec.id with
    | none => Function.update m spec.id (some (.start spec))
    | some _ => m
  | .task id e =>
    match m id with
    | none => m
    | some t => Function.update m id (some (t.step e))

theorem kill_eq_step (m : BackgroundTaskManager) (id : String) : (m.kill id).2 = m.step (.task id .kill) := by
  unfold kill step
  split <;> simp_all [Task.step]

def OwnRun (t : Task) : Prop := ∃ spec events, t = Trace.run Task.step (.start spec) events

theorem tasks_run_alone (requests : List Request) :
    ∀ id t, Trace.run step (fun _ => none) requests id = some t → OwnRun t := by
  refine Trace.invariant (I := fun m : BackgroundTaskManager => ∀ id t, m id = some t → OwnRun t) ?_ ?_ requests
  · intro m request h id t ht
    cases request with
    | create spec =>
      cases hm : m spec.id with
      | some =>
        simp only [step, hm] at ht
        exact h id t ht
      | none =>
        simp only [step, hm] at ht
        by_cases hid : id = spec.id
        · rw [hid, Function.update_self] at ht
          exact ⟨spec, [], (Option.some.inj ht).symm⟩
        · rw [Function.update_of_ne hid] at ht
          exact h id t ht
    | task taskId e =>
      cases hm : m taskId with
      | none =>
        simp only [step, hm] at ht
        exact h id t ht
      | some t' =>
        simp only [step, hm] at ht
        by_cases hid : id = taskId
        · rw [hid, Function.update_self] at ht
          obtain ⟨spec, events, rfl⟩ := h taskId t' hm
          refine ⟨spec, events ++ [e], ?_⟩
          rw [← Option.some.inj ht, Trace.run_append]
          rfl
        · rw [Function.update_of_ne hid] at ht
          exact h id t ht
  · intro id t ht
    cases ht

end BackgroundTaskManager

end CloseClaw.Tasks.Background
