/- What a session learns of background tasks at the end of a turn (`session_handler_announce.rs`).
   A stuck warning panics the drain. -/

import CloseClaw.Tasks.Background
import Mathlib.Data.List.Sort

namespace CloseClaw.Gateway.TaskNotices

open Lib Tasks.Background List Trace

structure TaskEntry where
  sessionId : String
  createdAt : Nat
  task : Task

def TaskEntry.id (t : TaskEntry) : String := t.task.handle.id

structure RunningTaskInfo where
  taskId : String
  command : String
  elapsedSecs : Nat
  deriving DecidableEq

inductive SystemMessage where
  | runningTasks (tasks : List RunningTaskInfo)
  | announce (notif : CompletionNotification)
  deriving DecidableEq

def statusLabel : TaskState → Option String
  | .completed _ => some "任务已完成"
  | .failed _ => some "任务出错"
  | .killed => some "任务被终止"
  | .running _ => none

def SystemMessage.taskIds : SystemMessage → List String
  | .runningTasks tasks => tasks.map (·.taskId)
  | .announce n => [n.taskId]

structure System where
  tasks : List TaskEntry
  notifications : List CompletionNotification
  conversations : String → Option (List SystemMessage)

def System.init (sessions : List String) : System where
  tasks := []
  notifications := []
  conversations := fun s => if s ∈ sessions then some [] else none

def level : NotificationPriority → Nat
  | .later => 0
  | .next => 1
  | .now => 2

def byPriority (ns : List CompletionNotification) : List CompletionNotification :=
  ns.insertionSort fun a b => level b.priority ≤ level a.priority

def System.drainNotifications (sys : System) : List CompletionNotification × System :=
  (byPriority sys.notifications, { sys with notifications := [] })

def System.listRunningTasks (sys : System) (now : Nat) : List RunningTaskInfo :=
  (sys.tasks.filter (·.task.handle.state.isRunning)).map fun t =>
    ⟨t.id, t.task.handle.command, now - t.createdAt⟩

def System.inject (sys : System) (sessionId : String) (messages : List SystemMessage) : System :=
  match sys.conversations sessionId with
  | none => sys
  | some old => { sys with conversations := Function.update sys.conversations sessionId (some (old ++ messages)) }

def injectRunningTasksSummary (running : List RunningTaskInfo) : List SystemMessage :=
  if running.isEmpty then [] else [.runningTasks running]

def injectAnnounces (ns : List CompletionNotification) : List SystemMessage :=
  if ns.all fun n => (statusLabel n.state).isSome then ns.map .announce else []

def System.drainAnnouncesRest (sys : System) (sessionId : String) (now : Nat) : System :=
  let drained := sys.drainNotifications
  let running := sys.listRunningTasks now
  drained.2.inject sessionId (injectRunningTasksSummary running ++ injectAnnounces drained.1)

inductive Event where
  | start (sessionId : String) (spec : TaskSpec)
  | task (id : String) (e : Tasks.Background.Event)
  | turnEnd (sessionId : String) (now : Nat)

def TaskEntry.pushed (t : TaskEntry) (id : String) (e : Tasks.Background.Event) : List CompletionNotification :=
  if t.id = id then (t.task.step e).notifications.drop t.task.notifications.length else []

def TaskEntry.step (t : TaskEntry) (id : String) (e : Tasks.Background.Event) : TaskEntry :=
  if t.id = id then { t with task := t.task.step e } else t

def step (sys : System) : Event → System
  | .start sessionId spec =>
    -- ids are fresh UUIDs
    if sys.tasks.any (·.id == spec.id) then sys
    else { sys with tasks := sys.tasks ++ [⟨sessionId, spec.now, .start spec⟩] }
  | .task id e =>
    { sys with
      tasks := sys.tasks.map (·.step id e)
      notifications := sys.notifications ++ sys.tasks.flatMap (·.pushed id e) }
  | .turnEnd sessionId now => sys.drainAnnouncesRest sessionId now

/-! ## What a step does -/

namespace TaskEntry

@[simp] theorem step_sessionId (t : TaskEntry) (id : String) (e : Tasks.Background.Event) :
    (t.step id e).sessionId = t.sessionId := by
  unfold step
  split <;> rfl

@[simp] theorem step_id (t : TaskEntry) (i : String) (e : Tasks.Background.Event) : (t.step i e).id = t.id := by
  unfold step
  split
  · exact (t.task.step_notifies e).id
  · rfl

theorem taskId_of_mem_pushed {t : TaskEntry} {i : String} {e : Tasks.Background.Event} {n : CompletionNotification}
    (h : n ∈ t.pushed i e) : n.taskId = t.id := by
  unfold pushed at h
  split at h
  · obtain ⟨ns, hns, hid⟩ := (t.task.step_notifies e).notifications
    rw [hns, drop_left] at h
    exact hid n h
  · simp at h

end TaskEntry

namespace System

def Started (sys : System) (s id : String) : Prop := ∃ t ∈ sys.tasks, t.id = id ∧ t.sessionId = s

@[simp] theorem tasks_inject (sys : System) (s : String) (ms : List SystemMessage) :
    (sys.inject s ms).tasks = sys.tasks := by
  unfold inject
  split <;> rfl

@[simp] theorem notifications_inject (sys : System) (s : String) (ms : List SystemMessage) :
    (sys.inject s ms).notifications = sys.notifications := by
  unfold inject
  split <;> rfl

theorem conversations_inject_self {sys : System} {s : String} {old : List SystemMessage}
    (h : sys.conversations s = some old) (ms : List SystemMessage) :
    (sys.inject s ms).conversations s = some (old ++ ms) := by
  unfold inject
  rw [h]
  exact Function.update_self ..

theorem conversations_inject_other {sys : System} {s s' : String} (h : s' ≠ s) (ms : List SystemMessage) :
    (sys.inject s ms).conversations s' = sys.conversations s' := by
  unfold inject
  split
  · rfl
  · exact Function.update_of_ne h ..

end System

def told (sys : System) (now : Nat) : List SystemMessage :=
  injectRunningTasksSummary (sys.listRunningTasks now) ++ injectAnnounces (byPriority sys.notifications)

theorem step_turnEnd (sys : System) (s : String) (now : Nat) :
    step sys (.turnEnd s now) = { sys with notifications := [] }.inject s (told sys now) := rfl

variable {sys : System} {s : String} {old : List SystemMessage}

theorem conversations_turnEnd_self (h : sys.conversations s = some old) (now : Nat) :
    (step sys (.turnEnd s now)).conversations s = some (old ++ told sys now) :=
  @System.conversations_inject_self { sys with notifications := [] } s old h _

variable {s' : String} {events : List Event} {n : CompletionNotification}

theorem conversations_turnEnd_other (h : s' ≠ s) (now : Nat) :
    (step sys (.turnEnd s now)).conversations s' = sys.conversations s' :=
  @System.conversations_inject_other { sys with notifications := [] } s s' h _

theorem started_step {id : String} (h : sys.Started s id) (e : Event) : (step sys e).Started s id := by
  obtain ⟨t, ht, hid, hs⟩ := h
  cases e with
  | start =>
    simp only [step]
    split
    · exact ⟨t, ht, hid, hs⟩
    · exact ⟨t, mem_append_left _ ht, hid, hs⟩
  | task i e => exact ⟨t.step i e, mem_map_of_mem ht, by simpa using hid, by simpa using hs⟩
  | turnEnd => exact ⟨t, by simpa [step_turnEnd] using ht, hid, hs⟩

theorem conversations_step (h : sys.conversations s = some old) (e : Event) :
    ∃ more, (step sys e).conversations s = some (old ++ more) := by
  cases e with
  | start =>
    simp only [step]
    split <;> exact ⟨[], by simpa using h⟩
  | task => exact ⟨[], by simpa [step] using h⟩
  | turnEnd s' now =>
    by_cases hs : s = s'
    · subst hs
      exact ⟨_, conversations_turnEnd_self h now⟩
    · refine ⟨[], ?_⟩
      rw [conversations_turnEnd_other hs, append_nil]
      exact h

theorem mem_conversations_run {m : SystemMessage} (h : sys.conversations s = some old)
    (hm : m ∈ old) (events : List Event) : ∃ msgs, (run step sys events).conversations s = some msgs ∧ m ∈ msgs := by
  refine invariant (I := fun sys : System => ∃ msgs, sys.conversations s = some msgs ∧ m ∈ msgs) ?_ ⟨old, h, hm⟩ events
  rintro sys e ⟨msgs, hmsgs, hm⟩
  obtain ⟨more, hmore⟩ := conversations_step hmsgs e
  exact ⟨msgs ++ more, hmore, mem_append_left _ hm⟩

/-! ## Runs -/

/-- When a turn of a session ends, the manager holds tasks and notifications of that session only. -/
def OwnTasksOnly (sys : System) : Event → Prop
  | .turnEnd s _ =>
    (sys.conversations s = none → sys.notifications = []) ∧
    (sys.conversations s ≠ none → ∀ t ∈ sys.tasks, t.task.handle.state.isRunning = true → t.sessionId = s) ∧
    ∀ n ∈ sys.notifications, (statusLabel n.state).isSome = true ∧ ∀ t ∈ sys.tasks, t.id = n.taskId → t.sessionId = s
  | _ => True

structure Inv (sys : System) : Prop where
  ids : (sys.tasks.map (·.id)).Nodup
  pending : ∀ n ∈ sys.notifications, ∃ t ∈ sys.tasks, t.id = n.taskId
  told : ∀ s msgs, sys.conversations s = some msgs → ∀ m ∈ msgs, ∀ id ∈ m.taskIds, sys.Started s id

theorem Inv.init (sessions : List String) : Inv (.init sessions) where
  ids := nodup_nil
  pending := by simp [System.init]
  told := by
    intro s msgs h m hm
    simp only [System.init] at h
    split at h
    · simp [← Option.some.inj h] at hm
    · simp at h

theorem Inv.session_unique (hi : Inv sys) {id : String} (h : sys.Started s id) (h' : sys.Started s' id) : s' = s := by
  obtain ⟨t, ht, hid, rfl⟩ := h
  obtain ⟨t', ht', hid', rfl⟩ := h'
  rw [inj_on_of_nodup_map hi.ids ht' ht (hid'.trans hid.symm)]

theorem told_own {now : Nat} (hi : Inv sys) (hs : sys.conversations s ≠ none)
    (hown : OwnTasksOnly sys (.turnEnd s now)) : ∀ m ∈ told sys now, ∀ id ∈ m.taskIds, sys.Started s id := by
  obtain ⟨-, hrunning, hpending⟩ := hown
  intro m hm id hid
  rcases mem_append.mp hm with hm | hm
  · unfold injectRunningTasksSummary at hm
    split at hm
    · simp at hm
    · obtain rfl := mem_singleton.mp hm
      simp only [SystemMessage.taskIds, System.listRunningTasks, map_map, mem_map, mem_filter] at hid
      obtain ⟨t, ⟨ht, hr⟩, rfl⟩ := hid
      exact ⟨t, ht, rfl, hrunning hs t ht hr⟩
  · unfold injectAnnounces at hm
    split at hm
    · obtain ⟨n, hn, rfl⟩ := mem_map.mp hm
      obtain rfl := mem_singleton.mp hid
      have hn : n ∈ sys.notifications := (mem_insertionSort _).mp hn
      obtain ⟨t, ht, heq⟩ := hi.pending n hn
      exact ⟨t, ht, heq, (hpending n hn).2 t ht heq⟩
    · simp at hm

theorem Inv.step (hi : Inv sys) {e : Event} (hown : OwnTasksOnly sys e) : Inv (step sys e) where
  ids := by
    cases e with
    | start =>
      simp only [TaskNotices.step]
      split
      · exact hi.ids
      · rename_i hfresh
        rw [map_append, nodup_append]
        refine ⟨hi.ids, by simp, ?_⟩
        rintro id hid id' hid' rfl
        obtain rfl := mem_singleton.mp hid'
        obtain ⟨t, ht, heq⟩ := mem_map.mp hid
        exact hfresh (any_eq_true.mpr ⟨t, ht, beq_iff_eq.mpr heq⟩)
    | task => simpa [TaskNotices.step, Function.comp_def] using hi.ids
    | turnEnd => simpa [step_turnEnd] using hi.ids
  pending := by
    cases e with
    | start =>
      simp only [TaskNotices.step]
      split
      · exact hi.pending
      · intro n hn
        obtain ⟨t, ht, heq⟩ := hi.pending n hn
        exact ⟨t, mem_append_left _ ht, heq⟩
    | task i e =>
      intro n hn
      rcases mem_append.mp hn with hn | hn
      · obtain ⟨t, ht, heq⟩ := hi.pending n hn
        exact ⟨t.step i e, mem_map_of_mem ht, by simpa using heq⟩
      · obtain ⟨t, ht, hpushed⟩ := mem_flatMap.mp hn
        exact ⟨t.step i e, mem_map_of_mem ht, by simpa using (t.taskId_of_mem_pushed hpushed).symm⟩
    | turnEnd => simp [step_turnEnd]
  told := by
    intro s msgs hmsgs m hm id hid
    apply started_step
    cases e with
    | start =>
      simp only [TaskNotices.step] at hmsgs
      split at hmsgs <;> exact hi.told s msgs hmsgs m hm id hid
    | task => exact hi.told s msgs hmsgs m hm id hid
    | turnEnd s' =>
      by_cases hs : s = s'
      · subst hs
        cases hold : sys.conversations s with
        | none => simp [step_turnEnd, System.inject, hold] at hmsgs
        | some old =>
          rw [conversations_turnEnd_self hold] at hmsgs
          obtain rfl := Option.some.inj hmsgs
          rcases mem_append.mp hm with hm | hm
          · exact hi.told s old hold m hm id hid
          · exact told_own hi (by simp [hold]) hown m hm id hid
      · rw [conversations_turnEnd_other hs] at hmsgs
        exact hi.told s msgs hmsgs m hm id hid

theorem Inv.run {sessions : List String} (h : Along TaskNotices.step OwnTasksOnly (.init sessions) events) :
    Inv (run TaskNotices.step (.init sessions) events) :=
  invariant_along (fun _ _ hi hown => hi.step hown) (.init sessions) h

theorem notification_step {e : Event} (hown : OwnTasksOnly sys e) (hn : n ∈ sys.notifications)
    (hs : sys.Started s n.taskId) :
    n ∈ (step sys e).notifications ∧ (∀ now, e ≠ .turnEnd s now) ∨
      ∃ msgs, (step sys e).conversations s = some msgs ∧ .announce n ∈ msgs := by
  cases e with
  | start =>
    refine .inl ⟨?_, by simp⟩
    simp only [step]
    split <;> exact hn
  | task => exact .inl ⟨mem_append_left _ hn, by simp⟩
  | turnEnd s' now =>
    right
    obtain ⟨hgone, -, hpending⟩ := hown
    obtain ⟨t, ht, hid, rfl⟩ := hs
    obtain rfl := (hpending n hn).2 t ht hid
    cases hold : sys.conversations t.sessionId with
    | none => simp [hgone hold] at hn
    | some =>
      refine ⟨_, conversations_turnEnd_self hold now, ?_⟩
      refine mem_append_right _ (mem_append_right _ ?_)
      have hall : (byPriority sys.notifications).all (fun n => (statusLabel n.state).isSome) = true := by
        rw [all_eq_true]
        exact fun n hn => (hpending n ((mem_insertionSort _).mp hn)).1
      rw [injectAnnounces, if_pos hall]
      exact mem_map_of_mem ((mem_insertionSort _).mpr hn)

theorem notification_arrives (hi : Inv sys) (hown : Along step OwnTasksOnly sys events) (hn : n ∈ sys.notifications)
    (hs : sys.Started s n.taskId) {now : Nat} (hturn : .turnEnd s now ∈ events) :
    ∃ msgs, (run step sys events).conversations s = some msgs ∧ .announce n ∈ msgs := by
  induction events generalizing sys with
  | nil => simp at hturn
  | cons e events ih =>
    rcases notification_step hown.1 hn hs with ⟨hwaits, hother⟩ | ⟨msgs, hmsgs, hm⟩
    · rcases mem_cons.mp hturn with rfl | hturn
      · exact absurd rfl (hother now)
      · exact ih (hi.step hown.1) hown.2 hwaits (started_step hs e) hturn
    · exact mem_conversations_run hmsgs hm events

/-- The session of a task is the only one that is told of it, when its next turn ends at the
latest. -/
theorem task_notices_stay (sessions : List String) (before after : List Event)
    (hown : Along step OwnTasksOnly (.init sessions) (before ++ after)) :
    (∀ s msgs, (run step (.init sessions) before).conversations s = some msgs → ∀ m ∈ msgs, ∀ id ∈ m.taskIds,
      ∀ s', (run step (.init sessions) before).Started s' id → s' = s) ∧
    ∀ n ∈ (run step (.init sessions) before).notifications, ∀ s now,
      (run step (.init sessions) before).Started s n.taskId → .turnEnd s now ∈ after →
      ∃ msgs, (run step (.init sessions) (before ++ after)).conversations s = some msgs ∧ .announce n ∈ msgs := by
  obtain ⟨hbefore, hafter⟩ := along_append.mp hown
  have hi := Inv.run hbefore
  constructor
  · intro s msgs hmsgs m hm id hid s' hs'
    exact hi.session_unique (hi.told s msgs hmsgs m hm id hid) hs'
  · intro n hn s now hs hturn
    rw [run_append]
    exact notification_arrives hi hafter hn hs hturn

instance OwnTasksOnly.decidable (sys : System) : ∀ e, Decidable (OwnTasksOnly sys e)
  | .start _ _ => isTrue trivial
  | .task _ _ => isTrue trivial
  | .turnEnd _ _ => inferInstanceAs (Decidable (_ ∧ _ ∧ _))

instance Started.decidable (sys : System) (s id : String) : Decidable (sys.Started s id) :=
  inferInstanceAs (Decidable (∃ t ∈ sys.tasks, _))

def deploySpec : TaskSpec where
  how := .spawn
  id := "t1"
  command := "deploy --key k"
  outputPath := "/tmp/t1"
  isBackgrounded := true
  maxExecutionSecs := 600
  now := 0

def deployed : CompletionNotification where
  taskId := "t1"
  command := "deploy --key k"
  state := .completed 0
  outputPath := "/tmp/t1"
  priority := .later
  summary := "Background command 'deploy --key k' completed"
  suggestion := none

def runsToItsEnd (id : String) : List Event :=
  [.spawned true, .register, .opened true, .exit (some 0), .waited true, .drained, .finalize].map (.task id)

theorem task_notices_stay_alice : ∃ msgs, (run step (.init ["alice", "bob"])
      ((.start "alice" deploySpec :: runsToItsEnd "t1") ++ [.turnEnd "alice" 5])).conversations "alice" = some msgs ∧
      .announce deployed ∈ msgs :=
  (task_notices_stay ["alice", "bob"] (.start "alice" deploySpec :: runsToItsEnd "t1") [.turnEnd "alice" 5]
    (by decide +kernel)).2 deployed (by decide +kernel) "alice" 5 (by decide +kernel) (by simp)

theorem command_told_to_another_session :
    (run step (.init ["alice", "bob"]) (.start "alice" deploySpec :: .turnEnd "bob" 3 :: runsToItsEnd "t1" ++
      [.turnEnd "bob" 8, .turnEnd "alice" 9])).conversations "bob" =
      some [.runningTasks [⟨"t1", "deploy --key k", 3⟩], .announce deployed] ∧
    (run step (.init ["alice", "bob"]) (.start "alice" deploySpec :: .turnEnd "bob" 3 :: runsToItsEnd "t1" ++
      [.turnEnd "bob" 8, .turnEnd "alice" 9])).conversations "alice" = some [] := by
  decide +kernel

example : injectAnnounces [{ deployed with state := .running true }, deployed] = [] := by decide +kernel

end CloseClaw.Gateway.TaskNotices
