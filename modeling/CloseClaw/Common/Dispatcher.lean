/- A batch of tool calls (`dispatcher.rs`), as a `ForkJoin` process. A position without a result
   is a panic. -/

import CloseClaw.Lib.ForkJoin
import CloseClaw.Lib.Json

namespace CloseClaw.Common.Dispatcher

open Lib Lib.ForkJoin

structure PendingToolCall (P : Type) where
  id : String
  toolName : String
  args : Json
  filePath : Option P
  isConcurrencySafe : Bool

inductive DispatchGroup where
  | parallel
  | mutexByFile
  | serial
  deriving DecidableEq

structure ToolCallDispatcher where
  isParallelEnabled : Bool

structure CallRef (P : Type) where
  index : Nat
  call : PendingToolCall P

variable {P : Type}

def callRefs (calls : List (PendingToolCall P)) : List (CallRef P) := calls.mapIdx CallRef.mk

namespace ToolCallDispatcher

variable (d : ToolCallDispatcher)

def shouldFallbackToSerial (providerSupportsParallel : Bool) : Bool :=
  !d.isParallelEnabled || !providerSupportsParallel

def classify (call : PendingToolCall P) : DispatchGroup :=
  if !d.isParallelEnabled then .serial
  else if call.isConcurrencySafe then .parallel
  else if call.filePath.isSome then .mutexByFile
  else .serial

def classifyCalls (calls : List (PendingToolCall P)) : List (CallRef P × DispatchGroup) :=
  (callRefs calls).map fun r => (r, d.classify r.call)

end ToolCallDispatcher

def filterGroup (classified : List (CallRef P × DispatchGroup)) (group : DispatchGroup) : List (CallRef P) :=
  (classified.filter fun c => c.2 = group).map (·.1)

section Paths

variable [DecidableEq P]

def reorderReadEdit (parallel : List (CallRef P)) (mutexFiles : List P) : List (CallRef P) × List (CallRef P) :=
  parallel.partition fun c => c.call.filePath.any fun p => decide (p ∈ mutexFiles)

def pushTo (path : P) (call : CallRef P) : List (P × List (CallRef P)) → List (P × List (CallRef P))
  | [] => [(path, [call])]
  | (p, calls) :: rest => if p = path then (p, calls ++ [call]) :: rest else (p, calls) :: pushTo path call rest

def fileCall (byFile : List (P × List (CallRef P))) (c : CallRef P) : List (P × List (CallRef P)) :=
  match c.call.filePath with
  | some path => pushTo path c byFile
  -- `file_path.clone().unwrap()`: a MutexByFile call has a path
  | none => byFile

def groupByFile (calls : List (CallRef P)) : List (P × List (CallRef P)) := calls.foldl fileCall []

structure Batch (P : Type) where
  ordered : List (CallRef P)
  remaining : List (CallRef P)
  mutex : List (CallRef P)
  serial : List (CallRef P)

namespace ToolCallDispatcher

variable (d : ToolCallDispatcher)

def classified (calls : List (PendingToolCall P)) (providerSupportsParallel : Bool) :
    List (CallRef P × DispatchGroup) :=
  if d.shouldFallbackToSerial providerSupportsParallel then (callRefs calls).map fun r => (r, .serial)
  else d.classifyCalls calls

def batch (calls : List (PendingToolCall P)) (providerSupportsParallel : Bool) : Batch P :=
  let classified := d.classified calls providerSupportsParallel
  let mutex := filterGroup classified .mutexByFile
  let mutexFiles := mutex.filterMap (·.call.filePath)
  let (ordered, remaining) := reorderReadEdit (filterGroup classified .parallel) mutexFiles
  { ordered, remaining, mutex, serial := filterGroup classified .serial }

end ToolCallDispatcher

namespace Batch

variable {R : Type}

def body (b : Batch P) (files : List (P × List (CallRef P))) : Proc Nat :=
  .seq (.joinAll (b.ordered.map fun c => .job c.index)) <|
  .seq (.joinAll (b.remaining.map fun c => .job c.index)) <|
  .seq (.joinAll (files.map fun f => .inOrder (f.2.map (·.index)))) <|
  .inOrder (b.serial.map (·.index))

end Batch

variable {R : Type}

def resultOf (log : List (Event Nat R)) (index : Nat) : Option R :=
  log.findSome? fun e =>
    match e with
    | .started _ => none
    | .finished i result => if i = index then some result else none

def executed (log : List (Event Nat R)) (calls : List (CallRef P)) : List (String × R) :=
  calls.filterMap fun c => (resultOf log c.index).map (c.call.id, ·)

def idToIndex (calls : List (PendingToolCall P)) (id : String) : Option Nat :=
  (((callRefs calls).filter fun c => c.call.id = id).getLast?).map (·.index)

def fillResults (calls : List (PendingToolCall P)) (results : List (Option R)) (pairs : List (String × R)) :
    List (Option R) :=
  pairs.foldl (fun results pair =>
    match idToIndex calls pair.1 with
    | some i => results.set i (some pair.2)
    -- `get(id).unwrap()`: the pairs carry ids of the calls
    | none => results) results

def expectAll : List (Option R) → Option (List R)
  | [] => some []
  | none :: _ => none
  | some r :: rest => (expectAll rest).map (r :: ·)

def Batch.answer (b : Batch P) (calls : List (PendingToolCall P)) (files : List (P × List (CallRef P)))
    (log : List (Event Nat R)) : Option (List R) :=
  let results := List.replicate calls.length none
  let results := fillResults calls results (executed log b.ordered)
  let results := fillResults calls results (executed log b.remaining)
  let results := fillResults calls results (executed log (files.flatMap (·.2)))
  let results := fillResults calls results (executed log b.serial)
  expectAll results

structure Schedule (R : Type) (b : Batch P) where
  files : List (P × List (CallRef P))
  files_perm : files.Perm (groupByFile b.mutex)
  log : List (Event Nat R)
  rest : Proc Nat
  run : Proc.Run (b.body files) log rest

end Paths

end CloseClaw.Common.Dispatcher
