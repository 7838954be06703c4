import EspressifApp.Reactive.Blocks
import EspressifApp.Reactive.Machine
import EspressifApp.Reactive.Parties
import Mathlib.Data.List.DropRight

/-!
`Logger.cpp`. A task that logs formats its message under `logLock`, into a
block that `vasprintf` allocates, and posts the pointer to the logger's event
loop; the loop task trims the message, prints it and frees the block.

The tasks and the loop task take turns in any order, so a run is a list of
actions, each one step of one of them. `step` says what an action does and when
it can be taken: a task waits for the semaphore, and the loop task for an event.
-/

namespace EspressifApp.Logger

open Reactive

/-! ### Messages -/

/-- A pointer to a block; `NULL` is the `none` of `Option Ptr`. -/
abbrev Ptr := ℕ

/-- What `vasprintf` has formatted. It counts the bytes in an `int`. -/
structure Text where
  bytes : List UInt8
  short : bytes.length < 0x80000000
  deriving DecidableEq, Repr

/-- The outcome of a `vasprintf`: a text, or -1 and a `NULL` pointer. -/
inductive Formatted
  | text (t : Text)
  | failed
  deriving DecidableEq, Repr

/-- The result of `vasprintf`, stored in a `size_t`. -/
def Formatted.len : Formatted → UInt32
  | .text t => t.bytes.length.toUInt32
  | .failed => 0xffffffff

/-- The string in a buffer: its bytes up to the first NUL. -/
def cstr (buf : List UInt8) : List UInt8 := buf.takeWhile (· ≠ 0)

def strlen (buf : List UInt8) : ℕ := (cstr buf).length

def isEol (c : UInt8) : Bool := c = 0x0a || c = 0x0d

/-- The loop of `handlePostedLogMessage`, entered with `msgEnd` equal to
`n - 1`: a newline at the end becomes a NUL. -/
def trimLoop (actual : List UInt8) : ℕ → List UInt8
  | 0 => actual
  | msgEnd + 1 =>
      if isEol (actual.getD msgEnd 0) then trimLoop (actual.set msgEnd 0) msgEnd else actual

def trim (actual : List UInt8) : List UInt8 := trimLoop actual (strlen actual)

/-! ### Events -/

inductive EventBase
  | loggerEvent
  | other (name : String)
  deriving DecidableEq, Repr

def postLogMessage : ℤ := 0

/-- An event in the queue. Its data is a copy of the pointer posted. -/
structure Event where
  base : EventBase
  id : ℤ
  data : Option Ptr
  deriving DecidableEq, Repr

def queueSize : ℕ := 40

/-- `Logger::log`: the event it posts, if it posts one. -/
def log (msg : Option Ptr) (len : UInt32) : Option Event :=
  if msg ≠ none ∧ 0 < len then some ⟨.loggerEvent, postLogMessage, msg⟩ else none

/-- The event `log_formatting_func` posts after `vasprintf`. -/
def posting (logMessage : Option Ptr) (len : UInt32) : Option Event :=
  if logMessage ≠ none ∧ 0 < len then log logMessage len else none

/-! ### Setting up -/

structure BeginResults where
  semaphoreCreate : Bool
  loopCreate : Bool
  handlerRegister : Bool
  deriving DecidableEq, Repr

/-- What `Logger::begin` leaves: `logLock`, or `NULL`, and whether the log output
goes to `log_formatting_func`. -/
structure Setup where
  logLock : Option Semaphore
  vprintfSet : Bool
  deriving DecidableEq, Repr

def begin (r : BeginResults) : Setup :=
  if r.semaphoreCreate = false then { logLock := none, vprintfSet := false }
  else if r.loopCreate = false then { logLock := some true, vprintfSet := false }
  else if r.handlerRegister = false then { logLock := some true, vprintfSet := false }
  else { logLock := some true, vprintfSet := true }

/-! ### State -/

/-- What became of the message of a call: its event is posted, its post failed,
or there was nothing to post. -/
inductive Outcome
  | posted
  | failed
  | skipped
  deriving DecidableEq, Repr

/-- Where a task is in `log_formatting_func`, with the local variables it has
there. -/
inductive Stage
  | idle
  -- before the lock is taken
  | waiting (msg : Formatted)
  -- before vasprintf
  | holding (msg : Formatted)
  -- before the message is posted
  | formatted (logMessage : Option Ptr) (len : UInt32)
  -- before the lock is given back
  | leaving (logMessage : Option Ptr) (len : UInt32) (outcome : Outcome)
  deriving DecidableEq, Repr

structure Task where
  stage : Stage
  calls : List Formatted
  deriving DecidableEq, Repr

inductive Handler
  | idle
  | received (event : Event)
  | trimmed (msg : Ptr)
  | printed (msg : Ptr)
  deriving DecidableEq, Repr

structure State (τ : Type*) where
  logLock : Option Semaphore
  tasks : τ → Task
  heap : Ptr → Option (List UInt8)
  queue : List Event
  handler : Handler

/-- What a step does to the outside: operations on blocks, output, and the
return of a call. -/
inductive Effect
  | alloc (p : Ptr)
  | access (p : Ptr)
  | free (p : Ptr)
  | puts (p : Ptr) (line : List UInt8)
  | unknownId (id : ℤ)
  | unknownBase (base : EventBase)
  | returned (len : UInt32)
  deriving DecidableEq, Repr

/-- A step of a task `t`, or of the loop task. The allocator chooses the block
of a message; a post is accepted or fails. -/
inductive Action (τ : Type*)
  | enter (t : τ)
  | take (t : τ)
  | vasprintf (t : τ) (p : Ptr)
  | post (t : τ) (accepted : Bool)
  | give (t : τ)
  | receive
  | handle
  | puts
  | free
  deriving DecidableEq, Repr

/-! ### Steps -/

variable {τ : Type*} [DecidableEq τ]

def State.setTask (s : State τ) (t : τ) (stage : Stage) (calls : List Formatted) : State τ :=
  { s with tasks := Function.update s.tasks t { stage := stage, calls := calls } }

def eventHandler (s : State τ) (event : Event) : State τ × List Effect :=
  if event.base = .loggerEvent then
    if event.id = postLogMessage then
      match event.data with
      | none => ({ s with handler := .idle }, [])
      | some msg =>
          let actual := (s.heap msg).getD []
          ({ s with
              heap := Function.update s.heap msg (some (trim actual))
              handler := .trimmed msg },
            [.access msg])
    else ({ s with handler := .idle }, [.unknownId event.id])
  else ({ s with handler := .idle }, [.unknownBase event.base])

def step (s : State τ) : Action τ → Option (State τ × List Effect)
  | .enter t =>
      match s.tasks t with
      | { stage := .idle, calls := msg :: calls } =>
          if s.logLock = none then some (s.setTask t .idle calls, [.returned 0])
          else some (s.setTask t (.waiting msg) calls, [])
      | _ => none
  | .take t =>
      match s.tasks t with
      | { stage := .waiting msg, calls := calls } =>
          if s.logLock = some true then
            some ({ s with logLock := some false }.setTask t (.holding msg) calls, [])
          else none
      | _ => none
  | .vasprintf t p =>
      match s.tasks t with
      | { stage := .holding (.text text), calls := calls } =>
          if s.heap p = none then
            some ({ s with heap := Function.update s.heap p (some (text.bytes ++ [0])) }.setTask t
              (.formatted (some p) (Formatted.text text).len) calls, [.alloc p])
          else none
      | { stage := .holding .failed, calls := calls } =>
          some (s.setTask t (.formatted none Formatted.failed.len) calls, [])
      | _ => none
  | .post t accepted =>
      match s.tasks t with
      | { stage := .formatted logMessage len, calls := calls } =>
          match posting logMessage len with
          | none => some (s.setTask t (.leaving logMessage len .skipped) calls, [])
          | some event =>
              if accepted then
                if s.queue.length < queueSize then
                  some ({ s with queue := s.queue ++ [event] }.setTask t
                    (.leaving logMessage len .posted) calls, [])
                else none
              else some (s.setTask t (.leaving logMessage len .failed) calls, [])
      | _ => none
  | .give t =>
      match s.tasks t with
      | { stage := .leaving _ len _, calls := calls } =>
          some ({ s with logLock := some true }.setTask t .idle calls, [.returned len])
      | _ => none
  | .receive =>
      match s.handler, s.queue with
      | .idle, event :: queue => some ({ s with queue := queue, handler := .received event }, [])
      | _, _ => none
  | .handle =>
      match s.handler with
      | .received event => some (eventHandler s event)
      | _ => none
  | .puts =>
      match s.handler with
      | .trimmed msg =>
          some ({ s with handler := .printed msg }, [.puts msg (cstr ((s.heap msg).getD []))])
      | _ => none
  | .free =>
      match s.handler with
      | .printed msg =>
          some ({ s with heap := Function.update s.heap msg none, handler := .idle }, [.free msg])
      | _ => none

def State.boot (r : BeginResults) (calls : τ → List Formatted) : State τ where
  logLock := (begin r).logLock
  tasks t := { stage := .idle, calls := calls t }
  heap _ := none
  queue := []
  handler := .idle

/-- The logger and its tasks. An action that cannot be taken does nothing. -/
def logger (r : BeginResults) (calls : τ → List Formatted) :
    Machine (State τ) (Action τ) Effect where
  init := State.boot r calls
  next s a := (step s a).elim s Prod.fst
  out s a := (step s a).elim [] Prod.snd

def Enabled (s : State τ) (a : Action τ) : Prop := step s a ≠ none

instance (s : State τ) (a : Action τ) : Decidable (Enabled s a) :=
  inferInstanceAs (Decidable (¬ step s a = none))

end EspressifApp.Logger
