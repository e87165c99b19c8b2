/- The message queue of a session (`session_pending_queue.rs`). -/

import CloseClaw.Lib.LaneQueue

namespace CloseClaw.Session

open Lib

inductive NotificationPriority where
  | later
  | next
  | now

inductive QueuePriority where
  | later
  | next
  | now
  deriving DecidableEq

def QueuePriority.level : QueuePriority → Nat
  | .later => 0
  | .next => 1
  | .now => 2

theorem QueuePriority.level_injective : Function.Injective QueuePriority.level := by
  intro a b h
  cases a <;> cases b <;> first | rfl | exact absurd h (by decide)

instance QueuePriority.linearOrder : LinearOrder QueuePriority := LinearOrder.lift' QueuePriority.level level_injective

def QueuePriority.from : NotificationPriority → QueuePriority
  | .later => .later
  | .next => .next
  | .now => .now

inductive NotificationAudience where
  | all
  | ownerOnly

structure PendingMessage where
  messageId : String
  content : String
  sent : Bool
  role : Option String
  deriving DecidableEq

structure AnnounceEvent where
  childSessionId : String
  resultText : String
  priority : NotificationPriority

structure CompletionNotification where
  taskId : String
  summary : String
  priority : NotificationPriority

inductive QueueEntry where
  | userMessage (msg : PendingMessage)
  | announce (event : AnnounceEvent)
  | backgroundToolNotification (notif : CompletionNotification)
  | systemNotification (text : String) (priority : NotificationPriority) (audience : NotificationAudience)

namespace QueueEntry

def priority : QueueEntry → QueuePriority
  | .userMessage _ => .later
  | .announce e => .from e.priority
  | .backgroundToolNotification n => .from n.priority
  | .systemNotification _ p _ => .from p

def isUser : QueueEntry → Bool
  | .userMessage _ => true
  | _ => false

def asUser : QueueEntry → Option PendingMessage
  | .userMessage msg => some msg
  | _ => none

def asAnnounce : QueueEntry → Option AnnounceEvent
  | .announce e => some e
  | _ => none

end QueueEntry

structure QueueItem where
  entry : QueueEntry
  seq : Nat

abbrev Group := QueuePriorityᵒᵈ ×ₗ Bool

def QueueEntry.group (e : QueueEntry) : Group := toLex (OrderDual.toDual e.priority, e.isUser)

namespace QueueItem

def group (i : QueueItem) : Group := i.entry.group

def sortKey (i : QueueItem) : Group ×ₗ Nat := LaneQueue.key QueueItem.group QueueItem.seq i

end QueueItem

structure UnifiedMessageQueue where
  entries : List QueueItem
  nextSeq : Nat

namespace UnifiedMessageQueue

def default : UnifiedMessageQueue := ⟨[], 0⟩

def announceEvents (q : UnifiedMessageQueue) : List AnnounceEvent := q.entries.filterMap fun i => i.entry.asAnnounce

def isDuplicate (q : UnifiedMessageQueue) : QueueEntry → Bool
  | .announce event => q.announceEvents.any fun e => e.childSessionId == event.childSessionId
  | _ => false

def insertSorted (entries : List QueueItem) (item : QueueItem) : List QueueItem :=
  entries.insertIdx (entries.findIdx fun i => decide (item.sortKey < i.sortKey)) item

def push (q : UnifiedMessageQueue) (entry : QueueEntry) : UnifiedMessageQueue :=
  if q.isDuplicate entry then q
  else ⟨insertSorted q.entries ⟨entry, q.nextSeq⟩, q.nextSeq + 1⟩

def pop (q : UnifiedMessageQueue) : Option QueueEntry × UnifiedMessageQueue :=
  match q.entries with
  | [] => (none, q)
  | i :: rest => (some i.entry, { q with entries := rest })

def pushPreservingSeq (q : UnifiedMessageQueue) (entry : QueueEntry) (seq : Nat) : UnifiedMessageQueue :=
  { q with entries := insertSorted q.entries ⟨entry, seq⟩ }

def drainAll (q : UnifiedMessageQueue) : List QueueEntry × UnifiedMessageQueue :=
  (q.entries.map QueueItem.entry, { q with entries := [] })

def drainAllItems (q : UnifiedMessageQueue) : List QueueItem × UnifiedMessageQueue :=
  (q.entries, { q with entries := [] })

def clear (q : UnifiedMessageQueue) : Nat × UnifiedMessageQueue := (q.entries.length, { q with entries := [] })

def clearUserMessages (q : UnifiedMessageQueue) : Nat × UnifiedMessageQueue :=
  let kept := q.entries.filter fun i => !i.entry.isUser
  (q.entries.length - kept.length, { q with entries := kept })

def takeUser : List QueueEntry → Option PendingMessage × List QueueEntry
  | [] => (none, [])
  | e :: rest =>
    match e.asUser with
    | some msg => (some msg, rest)
    | none => ((takeUser rest).1, e :: (takeUser rest).2)

def popPending (q : UnifiedMessageQueue) : Option PendingMessage × UnifiedMessageQueue :=
  let (all, empty) := q.drainAll
  let (result, kept) := takeUser all
  (result, kept.foldl push empty)

def drainAnnounceStep (acc : List AnnounceEvent × UnifiedMessageQueue) (item : QueueItem) :
    List AnnounceEvent × UnifiedMessageQueue :=
  match item.entry.asAnnounce with
  | some e => (acc.1 ++ [e], acc.2)
  | none => (acc.1, acc.2.pushPreservingSeq item.entry item.seq)

def drainAnnounceQueue (q : UnifiedMessageQueue) : List AnnounceEvent × UnifiedMessageQueue :=
  let (all, empty) := q.drainAllItems
  all.foldl drainAnnounceStep ([], empty)

def restorePendingMessages (q : UnifiedMessageQueue) (messages : List PendingMessage) : UnifiedMessageQueue :=
  messages.foldl (fun q msg => if msg.sent then q else q.push (.userMessage msg)) q

end UnifiedMessageQueue

inductive QueueOp where
  | push (entry : QueueEntry)
  | pop
  | drainQueue
  | popPending
  | drainAnnounceQueue
  | restorePendingMessages (messages : List PendingMessage)
  | clearQueue
  | clearPending

inductive QueueReply where
  | done
  | entry (e : Option QueueEntry)
  | entries (es : List QueueEntry)
  | message (msg : Option PendingMessage)
  | announces (events : List AnnounceEvent)
  | count (n : Nat)

namespace UnifiedMessageQueue

def apply (q : UnifiedMessageQueue) : QueueOp → QueueReply × UnifiedMessageQueue
  | .push entry => (.done, q.push entry)
  | .pop => (.entry q.pop.1, q.pop.2)
  | .drainQueue => (.entries q.drainAll.1, q.drainAll.2)
  | .popPending => (.message q.popPending.1, q.popPending.2)
  | .drainAnnounceQueue => (.announces q.drainAnnounceQueue.1, q.drainAnnounceQueue.2)
  | .restorePendingMessages messages => (.done, q.restorePendingMessages messages)
  | .clearQueue => (.count q.clear.1, q.clear.2)
  | .clearPending => (.count q.clearUserMessages.1, q.clearUserMessages.2)

def pending (q : UnifiedMessageQueue) : List QueueEntry := q.entries.map QueueItem.entry

def acceptedBy (q : UnifiedMessageQueue) : QueueOp → List QueueEntry
  | .push entry => if q.isDuplicate entry then [] else [entry]
  | .restorePendingMessages messages => (messages.filter fun msg => !msg.sent).map .userMessage
  | _ => []

def clearedBy (q : UnifiedMessageQueue) : QueueOp → List QueueEntry
  | .clearQueue => q.pending
  | .clearPending => q.pending.filter QueueEntry.isUser
  | _ => []

end UnifiedMessageQueue

def QueueReply.handed : QueueReply → List QueueEntry
  | .entry e => e.toList
  | .entries es => es
  | .message msg => msg.toList.map .userMessage
  | .announces events => events.map .announce
  | .done | .count _ => []

structure QueueRun where
  queue : UnifiedMessageQueue
  accepted : List QueueEntry
  handed : List QueueEntry
  cleared : List QueueEntry

namespace QueueRun

def start : QueueRun := ⟨.default, [], [], []⟩

def step (s : QueueRun) (op : QueueOp) : QueueRun where
  queue := (s.queue.apply op).2
  accepted := s.accepted ++ s.queue.acceptedBy op
  handed := s.handed ++ (s.queue.apply op).1.handed
  cleared := s.cleared ++ s.queue.clearedBy op

def run (ops : List QueueOp) : QueueRun := ops.foldl step start

end QueueRun

end CloseClaw.Session
