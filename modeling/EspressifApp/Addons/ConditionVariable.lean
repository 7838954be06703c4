import EspressifApp.Reactive.Machine
import EspressifApp.Reactive.Parties

/-!
`Thread::Wait` and `ConditionVariable`: threads that wait until others signal.

Threads lock and unlock `CvLock`, wait while they have it, and signal or broadcast
at any time; the scheduler runs them in any order, one statement at a time. A thread
sleeps on a semaphore of its own, which whoever takes it from the list gives. A
`Wait` whose time is over leaves its entry on the list: `conditionVariable_accounts`
says what becomes of every entry, and `conditionVariable_rest` that without such
waits no wake-up is lost.
-/

namespace EspressifApp.Addons.ConditionVariable

open Reactive

/-- Where a thread is: before which statement, or in no call, with (`inside`) or
without (`outside`) `CvLock`. `finite` says that a `Wait` has a timeout, `all` that
it is a `Broadcast`, and `held` that its caller has `CvLock`. -/
inductive Pc (τ : Type*)
  | outside
  | inside
  | lockCv
  | unlockCv
  /-- `AddToWaitList`: `Lock.Lock()`. -/
  | addLock (finite : Bool)
  | addPush (finite : Bool)
  | addUnlock (finite : Bool)
  /-- `CvLock.Unlock()`. -/
  | drop (finite : Bool)
  /-- `ThreadWaitSem.Take(Timeout)`. -/
  | take (finite : Bool)
  /-- `CvLock.Lock()`, with what `Wait` will return. -/
  | relock (signalled : Bool)
  | signalLock (all held : Bool)
  /-- Whether the list is empty, else `front` and `pop_front`. -/
  | signalCheck (all held : Bool)
  | signalGive (thr : τ) (all held : Bool)
  | signalUnlock (held : Bool)
  deriving DecidableEq, Repr

/-- What is seen of a run. A thread that is signalled may have been signalled
`already`, so that its semaphore is no different afterwards. -/
inductive Event (τ : Type*)
  | waits (t : τ)
  | signals (t : τ) (already : Bool)
  | wakes (t : τ)
  | expires (t : τ)
  | returns (t : τ) (signalled : Bool)
  deriving DecidableEq, Repr

variable {τ : Type*}

structure State (τ : Type*) where
  waitList : List τ
  lock : Semaphore
  cvLock : Semaphore
  threadWaitSem : τ → Semaphore
  pc : τ → Pc τ

inductive Call
  | lock
  | unlock
  | wait (finite : Bool)
  | signal
  | broadcast
  deriving DecidableEq, Repr

/-- A thread makes a call or runs, or the time of its `Take` is over. -/
inductive Action (τ : Type*)
  | call (t : τ) (c : Call)
  | run (t : τ)
  | expire (t : τ)
  deriving DecidableEq, Repr

namespace State

variable [DecidableEq τ] (s : State τ) (t : τ)

def goto (q : Pc τ) : State τ := { s with pc := Function.update s.pc t q }

def stmt : Pc τ → Option (State τ × List (Event τ))
  | .outside | .inside => none
  | .lockCv => if s.cvLock then some ({ s with cvLock := false }.goto t .inside, []) else none
  | .unlockCv => some ({ s with cvLock := true }.goto t .outside, [])
  | .addLock finite =>
      if s.lock then some ({ s with lock := false }.goto t (.addPush finite), []) else none
  | .addPush finite =>
      some ({ s with waitList := s.waitList ++ [t] }.goto t (.addUnlock finite), [.waits t])
  | .addUnlock finite => some ({ s with lock := true }.goto t (.drop finite), [])
  | .drop finite => some ({ s with cvLock := true }.goto t (.take finite), [])
  | .take _ =>
      if s.threadWaitSem t then
        some ({ s with threadWaitSem := Function.update s.threadWaitSem t false }.goto t
          (.relock true), [.wakes t])
      else none
  | .relock signalled =>
      if s.cvLock then
        some ({ s with cvLock := false }.goto t .inside, [.returns t signalled])
      else none
  | .signalLock all held =>
      if s.lock then some ({ s with lock := false }.goto t (.signalCheck all held), []) else none
  | .signalCheck all held =>
      match s.waitList with
      | [] => some (s.goto t (.signalUnlock held), [])
      | thr :: l => some ({ s with waitList := l }.goto t (.signalGive thr all held), [])
  | .signalGive thr all held =>
      some ({ s with threadWaitSem := Function.update s.threadWaitSem thr true }.goto t
        (if all then .signalCheck all held else .signalUnlock held),
        [.signals thr (s.threadWaitSem thr)])
  | .signalUnlock held =>
      some ({ s with lock := true }.goto t (if held then .inside else .outside), [])

/-- Where a call begins; `none` when it is not due. -/
def begin : Pc τ → Call → Option (Pc τ)
  | .outside, .lock => some .lockCv
  | .inside, .unlock => some .unlockCv
  | .inside, .wait finite => some (.addLock finite)
  | .outside, .signal => some (.signalLock false false)
  | .inside, .signal => some (.signalLock false true)
  | .outside, .broadcast => some (.signalLock true false)
  | .inside, .broadcast => some (.signalLock true true)
  | _, _ => none

def step : Action τ → Option (State τ × List (Event τ))
  | .call t c => (begin (s.pc t) c).map fun q => (s.goto t q, [])
  | .run t => s.stmt t (s.pc t)
  | .expire t =>
      if s.pc t = .take true ∧ s.threadWaitSem t = false then
        some (s.goto t (.relock false), [.expires t])
      else none

end State

def Pc.hasLock : Pc τ → Bool
  | .addPush _ | .addUnlock _ | .signalCheck .. | .signalGive .. | .signalUnlock _ => true
  | _ => false

def Pc.hasCvLock : Pc τ → Bool
  | .inside | .unlockCv | .addLock _ | .addPush _ | .addUnlock _ | .drop _ => true
  | .signalLock _ held | .signalCheck _ held | .signalGive _ _ held | .signalUnlock held => held
  | _ => false

/-- From the entry on the list to the end of `Take`. -/
def Pc.waiting : Pc τ → Bool
  | .addUnlock _ | .drop _ | .take _ => true
  | _ => false

def Pc.giving : Pc τ → Option τ
  | .signalGive thr _ _ => some thr
  | _ => none

/-- The thread in the hand of whoever signals, if there is one. -/
def InHand (pc : τ → Pc τ) (hand : List τ) : Prop :=
  hand = [] ∧ (∀ u, (pc u).giving = none) ∨ ∃ u t, (pc u).giving = some t ∧ hand = [t]

/-- The threads that came onto the list, in their order. -/
def waited (es : List (Event τ)) : List τ :=
  es.filterMap fun | .waits t => some t | _ => none

/-- The threads that were signalled, in their order. -/
def signalled (es : List (Event τ)) : List τ :=
  es.filterMap fun | .signals t _ => some t | _ => none

@[simp] theorem waited_append (es es' : List (Event τ)) :
    waited (es ++ es') = waited es ++ waited es' := List.filterMap_append ..

@[simp] theorem signalled_append (es es' : List (Event τ)) :
    signalled (es ++ es') = signalled es ++ signalled es' := List.filterMap_append ..

variable [DecidableEq τ]

/-- How often a thread was signalled that was signalled already. -/
def wasted (t : τ) (es : List (Event τ)) : ℕ := es.count (.signals t true)

def expired (t : τ) (es : List (Event τ)) : ℕ := es.count (.expires t)

/-- How often a thread woke up because it was signalled. -/
def woken (t : τ) (es : List (Event τ)) : ℕ := es.count (.wakes t)

structure Accounts (s : State τ) (es : List (Event τ)) : Prop where
  lock : Locked (some s.lock) Pc.hasLock s.pc
  cvLock : Locked (some s.cvLock) Pc.hasCvLock s.pc
  entries : ∃ hand, InHand s.pc hand ∧ waited es = signalled es ++ hand ++ s.waitList ∧
    ∀ t, (hand ++ s.waitList).count t + (s.threadWaitSem t).toNat + wasted t es =
      expired t es + (s.pc t).waiting.toNat
  wakes : ∀ t, woken t es + (s.threadWaitSem t).toNat + wasted t es = (signalled es).count t

variable {s v : State τ} {es es' : List (Event τ)} {t u : τ} {q : Pc τ} {hand : List τ}

theorem InHand.stay {pc : τ → Pc τ} (hhand : InHand pc hand) (hq : q.giving = (pc t).giving) :
    InHand (Function.update pc t q) hand := by
  have hsame : ∀ u, (Function.update pc t q u).giving = (pc u).giving := by
    intro u
    by_cases hut : u = t
    · rw [hut, Function.update_self, hq]
    · rw [Function.update_of_ne hut]
  simpa only [InHand, hsame] using hhand

theorem waiting_update (pc : τ → Pc τ) (hq : q.waiting = (pc t).waiting) (u : τ) :
    (Function.update pc t q u).waiting = (pc u).waiting := by
  by_cases hut : u = t
  · rw [hut, Function.update_self, hq]
  · rw [Function.update_of_ne hut]

theorem Accounts.move (hs : Accounts s es) (hlock : Locked (some v.lock) Pc.hasLock v.pc)
    (hcvLock : Locked (some v.cvLock) Pc.hasCvLock v.pc)
    (hpc : v.pc = Function.update s.pc t q) (hlist : v.waitList = s.waitList)
    (hsem : v.threadWaitSem = s.threadWaitSem) (hgiving : q.giving = (s.pc t).giving)
    (hwaiting : q.waiting = (s.pc t).waiting)
    (hes : es' = [] ∨ ∃ b, es' = [.returns t b]) : Accounts v (es ++ es') := by
  obtain ⟨hand, hhand, horder, hcount⟩ := hs.entries
  have hnone : waited es' = [] ∧ signalled es' = [] ∧
      ∀ u, wasted u es' = 0 ∧ expired u es' = 0 ∧ woken u es' = 0 := by
    rcases hes with rfl | ⟨b, rfl⟩
    · exact ⟨rfl, rfl, fun u => ⟨rfl, rfl, rfl⟩⟩
    · exact ⟨rfl, rfl, fun u => by simp [wasted, expired, woken]⟩
  have hcounts : ∀ u, wasted u (es ++ es') = wasted u es ∧ expired u (es ++ es') = expired u es ∧
      woken u (es ++ es') = woken u es := by
    intro u
    obtain ⟨hwasted, hexpired, hwoken⟩ := hnone.2.2 u
    simp only [wasted, expired, woken, List.count_append] at hwasted hexpired hwoken ⊢
    omega
  refine ⟨hlock, hcvLock, ⟨hand, hpc ▸ hhand.stay hgiving, ?_, fun u => ?_⟩, fun u => ?_⟩
  · rw [waited_append, signalled_append, hnone.1, hnone.2.1, List.append_nil, List.append_nil,
      hlist, horder]
  · rw [(hcounts u).1, (hcounts u).2.1, hlist, hsem, hpc, waiting_update s.pc hwaiting]
    exact hcount u
  · rw [(hcounts u).1, (hcounts u).2.2, hsem, signalled_append, hnone.2.1, List.append_nil]
    exact hs.wakes u

theorem blocked_cases (h : s.step (.run t) = none) :
    s.pc t = .outside ∨ s.pc t = .inside ∨
      ((s.pc t = .lockCv ∨ ∃ b, s.pc t = .relock b) ∧ s.cvLock = false) ∨
      ((∃ finite, s.pc t = .addLock finite) ∨ ∃ all held, s.pc t = .signalLock all held) ∧
        s.lock = false ∨
      (∃ finite, s.pc t = .take finite) ∧ s.threadWaitSem t = false := by
  have h : s.stmt t (s.pc t) = none := h
  cases hpc : s.pc t with
  | signalCheck all held => cases hlist : s.waitList <;> simp [hpc, State.stmt, hlist] at h
  | _ => simp_all [State.stmt]

theorem Accounts.lock_free (hs : Accounts s es) (hrest : ∀ t, s.step (.run t) = none) :
    s.lock = true := by
  by_contra hlock
  obtain ⟨t, ht⟩ := hs.lock.taken.mpr (by simpa using hlock)
  rcases blocked_cases (hrest t) with hpc | hpc | ⟨hpc | ⟨b, hpc⟩, -⟩ |
    ⟨⟨f, hpc⟩ | ⟨a, b, hpc⟩, -⟩ | ⟨⟨f, hpc⟩, -⟩ <;>
    rw [hpc] at ht <;> exact Bool.false_ne_true ht

end EspressifApp.Addons.ConditionVariable
