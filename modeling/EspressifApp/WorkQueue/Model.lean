import EspressifApp.Collections.Queue
import EspressifApp.Reactive.Parties

/-!
`workqueue.c`: work items that clients queue and a thread carries out.

Clients call `QueueWorkItem` and `DestroyWorkQueue`, the worker runs
`WorkerThread`, and the scheduler runs all of them in any order, one statement at
a time. A thread whose semaphore is not available takes no step. The queue is
that of `queue_simple.c`, in memory.
-/

namespace EspressifApp.WorkQueue

open Reactive Collections

/-- Where a thread is: before which statement, and in no call at all (`idle`).
`n` is the local `Node` of the worker, `WorkItem` of a client. -/
inductive Pc (ν : Type*)
  /-- `WorkerThread`: `xSemaphoreTake(Event)`. -/
  | waitEvent
  /-- `xSemaphoreTake(Lock)` before the loop. -/
  | waitLock
  | check
  | dequeue
  | unlock (n : Option ν)
  | call (n : Option ν)
  | free (n : Option ν)
  /-- `xSemaphoreTake(Lock)` at the end of the loop. -/
  | relock
  | readExit
  | release (exit : Bool)
  | cleanLock
  | cleanCheck
  | cleanDequeue
  | cleanFree (n : Option ν)
  | cleanUnlock
  | deleteLock
  | deleteEvent
  | freeQueue
  | exited
  | idle
  | queueLock (n : ν)
  | enqueue (n : ν)
  | queueEvent
  | queueUnlock
  | destroyLock
  | destroyFlag
  | destroyEvent
  | destroyUnlock
  deriving DecidableEq, Repr

/-- What is seen of a run: a work item enters the queue, its function is called,
a call of `QueueWorkItem` returns `pdPASS` or not, and a use of memory or of a
semaphore that is no longer there. -/
inductive Event (ω : Type*)
  | queued (w : ω)
  | called (w : ω)
  | returned (pass : Bool)
  | fault
  deriving DecidableEq, Repr

/-- What the threads share: all queues in memory, the work items allocated, and
the members of `pvtWorkQueue_t`. A work item is its function and its data; a
semaphore is `none` when deleted. -/
structure Shared (ν ω : Type*) where
  queues : Queues ν
  items : ν → Option ω
  event : Option Semaphore
  lock : Option Semaphore
  exitThread : Bool
  freed : Bool

variable {ν ω : Type*}

abbrev Outcome (ν ω : Type*) := Option (Shared ν ω × Pc ν × List (Event ω))

namespace Shared

variable (s : Shared ν ω) (here next : Pc ν) (out : List (Event ω))

def fault : Outcome ν ω := some (s, here, [.fault])

def use (r : Outcome ν ω) : Outcome ν ω := if s.freed then s.fault here else r

def takeLock : Outcome ν ω :=
  s.use here <| match s.lock with
    | none => s.fault here
    | some false => none
    | some true => some ({ s with lock := some false }, next, [])

def giveLock : Outcome ν ω :=
  s.use here <| match s.lock with
    | none => s.fault here
    | some _ => some ({ s with lock := some true }, next, out)

def takeEvent : Outcome ν ω :=
  s.use here <| match s.event with
    | none => s.fault here
    | some false => none
    | some true => some ({ s with event := some false }, next, [])

def giveEvent : Outcome ν ω :=
  s.use here <| match s.event with
    | none => s.fault here
    | some _ => some ({ s with event := some true }, next, [])

def useItem (n : Option ν) (f : ν → ω → Outcome ν ω) : Outcome ν ω :=
  match n with
  | none => s.fault here
  | some n =>
      match s.items n with
      | none => s.fault here
      | some w => f n w

variable [DecidableEq ν]

def freeItem (n : Option ν) : Outcome ν ω :=
  s.useItem here n fun n _ => some ({ s with items := Function.update s.items n none }, next, [])

def dequeue (head : ν) (next : Option ν → Pc ν) : Outcome ν ω :=
  let (queues, n) := Collections.dequeue s.queues (some head)
  s.use here <| some ({ s with queues := queues }, next n, [])

def stmt (head : ν) : Pc ν → Outcome ν ω
  | .waitEvent => s.takeEvent .waitEvent .waitLock
  | .waitLock => s.takeLock .waitLock .check
  | .check =>
      s.use .check <| some (s, if isQueueEmpty s.queues head then .readExit else .dequeue, [])
  | .dequeue => s.dequeue .dequeue head .unlock
  | .unlock n => s.giveLock (.unlock n) (.call n) []
  | .call n => s.useItem (.call n) n fun _ w => some (s, .free n, [.called w])
  | .free n => s.freeItem (.free n) .relock n
  | .relock => s.takeLock .relock .check
  | .readExit => s.use .readExit <| some (s, .release s.exitThread, [])
  | .release exit => s.giveLock (.release exit) (if exit then .cleanLock else .waitEvent) []
  | .cleanLock => s.takeLock .cleanLock .cleanCheck
  | .cleanCheck =>
      s.use .cleanCheck <|
        some (s, if isQueueEmpty s.queues head then .cleanUnlock else .cleanDequeue, [])
  | .cleanDequeue => s.dequeue .cleanDequeue head .cleanFree
  | .cleanFree n => s.freeItem (.cleanFree n) .cleanCheck n
  | .cleanUnlock => s.giveLock .cleanUnlock .deleteLock []
  | .deleteLock =>
      s.use .deleteLock <|
        if s.lock = none then s.fault .deleteLock
        else some ({ s with lock := none }, .deleteEvent, [])
  | .deleteEvent =>
      s.use .deleteEvent <|
        if s.event = none then s.fault .deleteEvent
        else some ({ s with event := none }, .freeQueue, [])
  | .freeQueue => s.use .freeQueue <| some ({ s with freed := true }, .exited, [])
  | .exited => none
  | .idle => none
  | .queueLock n => s.takeLock (.queueLock n) (.enqueue n)
  | .enqueue n =>
      s.use (.enqueue n) <| s.useItem (.enqueue n) (some n) fun n w =>
        some ({ s with queues := enqueue s.queues (some head) (some n) }, .queueEvent, [.queued w])
  | .queueEvent => s.giveEvent .queueEvent .queueUnlock
  | .queueUnlock => s.giveLock .queueUnlock .idle [.returned true]
  | .destroyLock => s.takeLock .destroyLock .destroyFlag
  | .destroyFlag => s.use .destroyFlag <| some ({ s with exitThread := true }, .destroyEvent, [])
  | .destroyEvent => s.giveEvent .destroyEvent .destroyUnlock
  | .destroyUnlock => s.giveLock .destroyUnlock .idle []

end Shared

inductive Party (τ : Type*)
  | worker
  | client (t : τ)
  deriving DecidableEq, Repr

/-- A client makes a call, with what `malloc` gives it, or a thread runs. -/
inductive Action (τ ν ω : Type*)
  | queueWorkItem (t : τ) (w : ω) (item : Option ν)
  | destroyWorkQueue (t : τ)
  | run (p : Party τ)
  deriving DecidableEq, Repr

structure State (τ ν ω : Type*) where
  shared : Shared ν ω
  pc : Party τ → Pc ν

namespace State

variable {τ : Type*} [DecidableEq τ] [DecidableEq ν]

def move (s : State τ ν ω) (v : Shared ν ω) (p : Party τ) (q : Pc ν) : State τ ν ω :=
  ⟨v, Function.update s.pc p q⟩

def step (head : ν) (s : State τ ν ω) : Action τ ν ω → Option (State τ ν ω × List (Event ω))
  | .queueWorkItem t w item =>
      if s.pc (.client t) = .idle then
        match item with
        | none => some (s, [.returned false])
        | some n =>
            let items := Function.update s.shared.items n (some w)
            some (s.move { s.shared with items := items } (.client t) (.queueLock n), [])
      else none
  | .destroyWorkQueue t =>
      if s.pc (.client t) = .idle then some (s.move s.shared (.client t) .destroyLock, [])
      else none
  | .run p => (s.shared.stmt head (s.pc p)).map fun r => (s.move r.1 p r.2.1, r.2.2)

end State

/-- The members as `CreateWorkQueueEx` leaves them, its thread about to run. -/
def create (m : Queues ν) [DecidableEq ν] (head : ν) : Shared ν ω where
  queues := initQueue m (some head)
  items := fun _ => none
  event := some false
  lock := some true
  exitThread := false
  freed := false

def workQueue (τ ω : Type*) [DecidableEq τ] [DecidableEq ν] (m : Queues ν) (head : ν) :
    Machine (State τ ν ω) (Action τ ν ω) (Event ω) where
  init := ⟨create m head, fun p => match p with | .worker => .waitEvent | .client _ => .idle⟩
  next s a := ((s.step head a).map Prod.fst).getD s
  out s a := ((s.step head a).map Prod.snd).getD []

end EspressifApp.WorkQueue
