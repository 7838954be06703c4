import EspressifApp.Reactive.Machine
import EspressifApp.Reactive.Switch

/-!
`read_write_lock.c` and `cread_write_lock.cpp`: the read/write locks, in C with
a `Type` tag and in C++ as two classes with the same code.

Threads call `ReaderLock`, `ReaderUnlock`, `WriterLock` and `WriterUnlock` in any
order that pairs a lock with an unlock, and the scheduler runs them in any order,
one statement at a time. A run is a list of actions: a thread makes a call, or
takes the next step of the one it is in. A thread whose semaphore is not
available takes no step.
-/

namespace EspressifApp.Addons

open Reactive

inductive LockType
  | preferReader
  | preferWriter
  deriving DecidableEq, Repr

/-- `RWLockPreferWriter_t`. The first five members but `WriteCount` are those of
`RWLockPreferReader_t`, which has no others. -/
structure RWLock where
  type : LockType
  readCount : ℤ
  readLock : Semaphore
  resourceLock : Semaphore
  writeCount : ℤ
  writeLock : Semaphore
  blockReadersLock : Semaphore
  deriving DecidableEq, Repr

/-- A lock as created: both binary semaphores are given once. -/
def RWLock.create (type : LockType) : RWLock where
  type := type
  readCount := 0
  readLock := true
  resourceLock := true
  writeCount := 0
  writeLock := true
  blockReadersLock := true

/-- What `ReaderLock` and `ReaderUnlock` do under `ReadLock`. -/
def RWLock.readSwitch (l : RWLock) : Switch := ⟨l.readLock, l.readCount, l.resourceLock⟩

/-- What `WriterLock` and `WriterUnlock` do under `WriteLock`. -/
def RWLock.writeSwitch (l : RWLock) : Switch := ⟨l.writeLock, l.writeCount, l.blockReadersLock⟩

def RWLock.setRead (l : RWLock) (s : Switch) : RWLock :=
  { l with readLock := s.mutex, readCount := s.count, resourceLock := s.sem }

def RWLock.setWrite (l : RWLock) (s : Switch) : RWLock :=
  { l with writeLock := s.mutex, writeCount := s.count, blockReadersLock := s.sem }

/-- Where a thread is: in none of the functions, before a statement of one, or
between a lock and its unlock. -/
inductive Pc
  | idle
  /-- `ReaderLock`: `xSemaphoreTake(BlockReadersLock)`. -/
  | readerBlock
  | readerLock (g : Stage)
  /-- `ReaderLock`: `xSemaphoreGive(BlockReadersLock)`. -/
  | readerUnblock
  | reading
  | readerUnlock (g : Stage)
  | writerLock (g : Stage)
  /-- `WriterLock`: `xSemaphoreTake(ResourceLock)`. -/
  | writerResource
  | writing
  /-- `WriterUnlock`: `xSemaphoreGive(ResourceLock)`. -/
  | writerRelease
  | writerUnlock (g : Stage)
  deriving DecidableEq, Repr

structure Threads (τ : Type*) where
  lock : RWLock
  pc : τ → Pc

inductive Action (τ : Type*)
  | readerLock (t : τ)
  | readerUnlock (t : τ)
  | writerLock (t : τ)
  | writerUnlock (t : τ)
  | run (t : τ)
  deriving DecidableEq, Repr

def readerLockStart : LockType → Pc
  | .preferReader => .readerLock .take
  | .preferWriter => .readerBlock

def readerLockEnd : LockType → Pc
  | .preferReader => .reading
  | .preferWriter => .readerUnblock

def writerLockStart : LockType → Pc
  | .preferReader => .writerResource
  | .preferWriter => .writerLock .take

def writerUnlockRest : LockType → Pc
  | .preferReader => .idle
  | .preferWriter => .writerUnlock .take

def RWLock.stmt (l : RWLock) : Pc → Option (RWLock × Pc)
  | .idle | .reading | .writing => none
  | .readerBlock =>
      if l.blockReadersLock then some ({ l with blockReadersLock := false }, .readerLock .take)
      else none
  | .readerLock g =>
      (l.readSwitch.enter g).map fun s =>
        (l.setRead s.1, s.2.elim (readerLockEnd l.type) .readerLock)
  | .readerUnblock => some ({ l with blockReadersLock := true }, .reading)
  | .readerUnlock g =>
      (l.readSwitch.leave g).map fun s => (l.setRead s.1, s.2.elim .idle .readerUnlock)
  | .writerLock g =>
      (l.writeSwitch.enter g).map fun s => (l.setWrite s.1, s.2.elim .writerResource .writerLock)
  | .writerResource =>
      if l.resourceLock then some ({ l with resourceLock := false }, .writing) else none
  | .writerRelease => some ({ l with resourceLock := true }, writerUnlockRest l.type)
  | .writerUnlock g =>
      (l.writeSwitch.leave g).map fun s => (l.setWrite s.1, s.2.elim .idle .writerUnlock)

namespace Threads

variable {τ : Type*} [DecidableEq τ]

def move (s : Threads τ) (l : RWLock) (t : τ) (p : Pc) : Threads τ :=
  ⟨l, Function.update s.pc t p⟩

/-- `none` for a call that is not due and for a thread that cannot run. -/
def step (s : Threads τ) : Action τ → Option (Threads τ)
  | .readerLock t =>
      if s.pc t = .idle then some (s.move s.lock t (readerLockStart s.lock.type)) else none
  | .readerUnlock t =>
      if s.pc t = .reading then some (s.move s.lock t (.readerUnlock .take)) else none
  | .writerLock t =>
      if s.pc t = .idle then some (s.move s.lock t (writerLockStart s.lock.type)) else none
  | .writerUnlock t => if s.pc t = .writing then some (s.move s.lock t .writerRelease) else none
  | .run t => (s.lock.stmt (s.pc t)).map fun r => s.move r.1 t r.2

end Threads

def readWriteLock (τ : Type*) [DecidableEq τ] (type : LockType) :
    Machine (Threads τ) (Action τ) Unit where
  init := ⟨.create type, fun _ => .idle⟩
  next s a := (s.step a).getD s
  out _ _ := []

end EspressifApp.Addons
