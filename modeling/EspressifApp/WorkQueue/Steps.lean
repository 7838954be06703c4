import EspressifApp.WorkQueue.Model

/-!
What a statement of `workqueue.c` can do. `Move` is one constructor for each kind
of statement, with its guard; where nothing that a statement uses is gone, the
statement is such a move (`move_of_stmt`). All invariants are proved from `Move`.
-/

namespace EspressifApp.WorkQueue

open Reactive Collections

variable {ν ω : Type*}

namespace Pc

def ofWorker : Pc ν → Bool
  | .idle | .queueLock _ | .enqueue _ | .queueEvent | .queueUnlock
  | .destroyLock | .destroyFlag | .destroyEvent | .destroyUnlock => false
  | _ => true

/-- Between `xSemaphoreTake(Lock)` and `xSemaphoreGive(Lock)`. -/
def holds : Pc ν → Bool
  | .check | .dequeue | .unlock _ | .readExit | .release _
  | .cleanCheck | .cleanDequeue | .cleanFree _ | .cleanUnlock
  | .enqueue _ | .queueEvent | .queueUnlock
  | .destroyFlag | .destroyEvent | .destroyUnlock => true
  | _ => false

def item : Pc ν → Option ν
  | .unlock n | .call n | .free n | .cleanFree n => n
  | .queueLock n | .enqueue n => some n
  | _ => none

def destroys : Pc ν → Bool
  | .destroyLock | .destroyFlag | .destroyEvent | .destroyUnlock => true
  | _ => false

def flagged : Pc ν → Bool
  | .destroyEvent | .destroyUnlock => true
  | _ => false

def signals : Pc ν → Bool
  | .queueEvent | .destroyEvent => true
  | _ => false

/-- Out of the task loop, or about to leave it. -/
def cleans : Pc ν → Bool
  | .release exit => exit
  | .cleanLock | .cleanCheck | .cleanDequeue | .cleanFree _ | .cleanUnlock
  | .deleteLock | .deleteEvent | .freeQueue | .exited => true
  | _ => false

/-- The worker has seen the queue empty and holds the lock, or is past that. -/
def drained : Pc ν → Bool
  | .readExit | .release _ => true
  | p => p.cleans

def due : Pc ν → Option ν
  | .unlock n | .call n => n
  | _ => none

def list : Pc ν → List ν → List ν
  | .dequeue, l => l.tail
  | .enqueue n, l => l ++ [n]
  | _, l => l

/-- Where the worker never is. -/
def lost : Pc ν → Bool
  | .unlock none | .call none | .free none | .cleanDequeue | .cleanFree _ => true
  | _ => false

def lockGone : Pc ν → Bool
  | .deleteEvent | .freeQueue | .exited => true
  | _ => false

def eventGone : Pc ν → Bool
  | .freeQueue | .exited => true
  | _ => false

theorem lockGone_of_client {p : Pc ν} (hp : p.ofWorker = false) : p.lockGone = false := by
  cases p <;> first | rfl | contradiction

theorem eventGone_of_client {p : Pc ν} (hp : p.ofWorker = false) : p.eventGone = false := by
  cases p <;> first | rfl | contradiction

theorem lockGone_of_notCleans {p : Pc ν} (hp : ¬ p.cleans = true) : p.lockGone = false := by
  cases p <;> first | rfl | exact absurd rfl hp

theorem eventGone_of_notCleans {p : Pc ν} (hp : ¬ p.cleans = true) : p.eventGone = false := by
  cases p <;> first | rfl | exact absurd rfl hp

end Pc

/-! ### Moves -/

/-- The work items that entered the queue, and those whose function was called. -/
def queued (tr : List (Event ω)) : List ω :=
  tr.filterMap fun | .queued w => some w | _ => none

def called (tr : List (Event ω)) : List ω :=
  tr.filterMap fun | .called w => some w | _ => none

@[simp] theorem queued_append (tr tr' : List (Event ω)) :
    queued (tr ++ tr') = queued tr ++ queued tr' :=
  List.filterMap_append

@[simp] theorem called_append (tr tr' : List (Event ω)) :
    called (tr ++ tr') = called tr ++ called tr' :=
  List.filterMap_append

/-- `xSemaphoreTake(Lock)`: from where to where. -/
inductive Takes : Pc ν → Pc ν → Prop
  | wait : Takes .waitLock .check
  | again : Takes .relock .check
  | clean : Takes .cleanLock .cleanCheck
  | queue (n : ν) : Takes (.queueLock n) (.enqueue n)
  | destroy : Takes .destroyLock .destroyFlag

inductive Gives : Pc ν → Pc ν → List (Event ω) → Prop
  | unlock (n : Option ν) : Gives (.unlock n) (.call n) []
  | again : Gives (.release false) .waitEvent []
  | leave : Gives (.release true) .cleanLock []
  | clean : Gives .cleanUnlock .deleteLock []
  | queue : Gives .queueUnlock .idle [.returned true]
  | destroy : Gives .destroyUnlock .idle []

inductive Signals : Pc ν → Pc ν → Prop
  | queue : Signals .queueEvent .queueUnlock
  | destroy : Signals .destroyEvent .destroyUnlock

structure Usable (head : ν) (v : Shared ν ω) (p : Pc ν) : Prop where
  freed : v.freed = true → p = .idle ∨ p = .exited
  lock : v.lock = none → p = .idle ∨ p.lockGone = true
  event : v.event = none → p = .idle ∨ p.eventGone = true
  item : ∀ {n}, p.item = some n → (v.items n).isSome
  node : p ≠ .unlock none ∧ p ≠ .call none ∧ p ≠ .free none
  clean : p = .cleanCheck → isQueueEmpty v.queues head = true
  never : p ≠ .cleanDequeue ∧ ∀ n, p ≠ .cleanFree n

section

variable {head : ν} {v v' : Shared ν ω} {p q q' : Pc ν} {out out' : List (Event ω)}

theorem use_eq (hfreed : v.freed = false) (r : Outcome ν ω) : v.use p r = r :=
  if_neg (ne_true_of_eq_false hfreed)

theorem takeLock_eq (hfreed : v.freed = false) (hlock : v.lock ≠ none)
    (hstep : v.takeLock p q = some (v', q', out)) :
    v.lock = some true ∧ v' = { v with lock := some false } ∧ q' = q ∧ out = [] := by
  rw [Shared.takeLock, use_eq hfreed] at hstep
  split at hstep
  · contradiction
  · contradiction
  · next hfree => exact ⟨hfree, by simpa [eq_comm] using hstep⟩

theorem giveLock_eq (hfreed : v.freed = false) (hlock : v.lock ≠ none)
    (hstep : v.giveLock p q out = some (v', q', out')) :
    v' = { v with lock := some true } ∧ q' = q ∧ out' = out := by
  rw [Shared.giveLock, use_eq hfreed] at hstep
  split at hstep
  · contradiction
  · simpa [eq_comm] using hstep

theorem takeEvent_eq (hfreed : v.freed = false) (hevent : v.event ≠ none)
    (hstep : v.takeEvent p q = some (v', q', out)) :
    v.event = some true ∧ v' = { v with event := some false } ∧ q' = q ∧ out = [] := by
  rw [Shared.takeEvent, use_eq hfreed] at hstep
  split at hstep
  · contradiction
  · contradiction
  · next hgiven => exact ⟨hgiven, by simpa [eq_comm] using hstep⟩

theorem giveEvent_eq (hfreed : v.freed = false) (hevent : v.event ≠ none)
    (hstep : v.giveEvent p q = some (v', q', out)) :
    v' = { v with event := some true } ∧ q' = q ∧ out = [] := by
  rw [Shared.giveEvent, use_eq hfreed] at hstep
  split at hstep
  · contradiction
  · simpa [eq_comm] using hstep

theorem useItem_eq {n : ν} {w : ω} (hn : v.items n = some w) (f : ν → ω → Outcome ν ω) :
    v.useItem p (some n) f = f n w := by
  simp only [Shared.useItem, hn]

section

variable (hu : Usable head v p)

include hu

theorem Usable.freed_eq (hidle : p ≠ .idle) (hexited : p ≠ .exited) : v.freed = false :=
  Bool.eq_false_iff.mpr fun hf => (hu.freed hf).elim hidle hexited

theorem Usable.lock_ne (hidle : p ≠ .idle) (hgone : p.lockGone = false) : v.lock ≠ none :=
  fun hl => (hu.lock hl).elim hidle (ne_true_of_eq_false hgone)

theorem Usable.event_ne (hidle : p ≠ .idle) (hgone : p.eventGone = false) : v.event ≠ none :=
  fun he => (hu.event he).elim hidle (ne_true_of_eq_false hgone)

theorem Usable.exists_item {n : ν} (hn : p.item = some n) : ∃ w, v.items n = some w :=
  Option.isSome_iff_exists.mp (hu.item hn)

end

theorem takeLock_none (hstep : v.takeLock p q = none) : v.lock = some false := by
  rw [Shared.takeLock, Shared.use] at hstep
  grind [Shared.fault]

theorem giveLock_isSome (out : List (Event ω)) : (v.giveLock p q out).isSome := by
  rw [Shared.giveLock, Shared.use]
  grind [Shared.fault]

theorem takeEvent_none (hstep : v.takeEvent p q = none) : v.event = some false := by
  rw [Shared.takeEvent, Shared.use] at hstep
  grind [Shared.fault]

theorem giveEvent_isSome : (v.giveEvent p q).isSome := by
  rw [Shared.giveEvent, Shared.use]
  grind [Shared.fault]

theorem useItem_isSome {n : Option ν} {f : ν → ω → Outcome ν ω} (hf : ∀ n w, (f n w).isSome) :
    (v.useItem p n f).isSome := by
  unfold Shared.useItem
  grind [Shared.fault]

theorem use_isSome {r : Outcome ν ω} (hr : r.isSome) : (v.use p r).isSome := by
  rw [Shared.use]
  grind [Shared.fault]

variable [DecidableEq ν]

/-- The statements at work, from `p` to `q`. The cleanup of a queue that is not
empty is not among them. -/
inductive Move (head : ν) (v : Shared ν ω) : Pc ν → Shared ν ω → Pc ν → List (Event ω) → Prop
  | take {p q : Pc ν} (hpq : Takes p q) (hlock : v.lock = some true) :
      Move head v p { v with lock := some false } q []
  | give {p q : Pc ν} {out : List (Event ω)} (hpq : Gives p q out) (hlock : v.lock ≠ none) :
      Move head v p { v with lock := some true } q out
  | wake (hevent : v.event = some true) :
      Move head v .waitEvent { v with event := some false } .waitLock []
  | signal {p q : Pc ν} (hpq : Signals p q) (hevent : v.event ≠ none) :
      Move head v p { v with event := some true } q []
  | more (hempty : isQueueEmpty v.queues head = false) : Move head v .check v .dequeue []
  | done (hempty : isQueueEmpty v.queues head = true) : Move head v .check v .readExit []
  | dequeue :
      Move head v .dequeue { v with queues := (Collections.dequeue v.queues (some head)).1 }
        (.unlock (Collections.dequeue v.queues (some head)).2) []
  | call {n : ν} {w : ω} (hn : v.items n = some w) :
      Move head v (.call (some n)) v (.free (some n)) [.called w]
  | free {n : ν} {w : ω} (hn : v.items n = some w) :
      Move head v (.free (some n)) { v with items := Function.update v.items n none } .relock []
  | readExit : Move head v .readExit v (.release v.exitThread) []
  | clean (hempty : isQueueEmpty v.queues head = true) : Move head v .cleanCheck v .cleanUnlock []
  | deleteLock (hlock : v.lock ≠ none) :
      Move head v .deleteLock { v with lock := none } .deleteEvent []
  | deleteEvent (hevent : v.event ≠ none) :
      Move head v .deleteEvent { v with event := none } .freeQueue []
  | freeQueue : Move head v .freeQueue { v with freed := true } .exited []
  | enqueue {n : ν} {w : ω} (hn : v.items n = some w) :
      Move head v (.enqueue n)
        { v with queues := Collections.enqueue v.queues (some head) (some n) } .queueEvent
        [.queued w]
  | flag : Move head v .destroyFlag { v with exitThread := true } .destroyEvent []

section

variable (hu : Usable head v p)

include hu

theorem take_move (hidle : p ≠ .idle) (hexited : p ≠ .exited) (hgone : p.lockGone = false)
    (hpq : Takes p q) (hstep : v.takeLock p q = some (v', q', out)) : Move head v p v' q' out := by
  obtain ⟨hfree, rfl, rfl, rfl⟩ :=
    takeLock_eq (hu.freed_eq hidle hexited) (hu.lock_ne hidle hgone) hstep
  exact .take hpq hfree

theorem give_move (hidle : p ≠ .idle) (hexited : p ≠ .exited) (hgone : p.lockGone = false)
    (hpq : Gives p q out) (hstep : v.giveLock p q out = some (v', q', out')) :
    Move head v p v' q' out' := by
  have hlock := hu.lock_ne hidle hgone
  obtain ⟨rfl, rfl, rfl⟩ := giveLock_eq (hu.freed_eq hidle hexited) hlock hstep
  exact .give hpq hlock

theorem signal_move (hidle : p ≠ .idle) (hexited : p ≠ .exited) (hgone : p.eventGone = false)
    (hpq : Signals p q) (hstep : v.giveEvent p q = some (v', q', out)) :
    Move head v p v' q' out := by
  have hevent := hu.event_ne hidle hgone
  obtain ⟨rfl, rfl, rfl⟩ := giveEvent_eq (hu.freed_eq hidle hexited) hevent hstep
  exact .signal hpq hevent

end

/-- Where nothing is gone that a statement uses, it does what it should. -/
theorem move_of_stmt (hu : Usable head v p) (hstep : v.stmt head p = some (v', q, out)) :
    Move head v p v' q out := by
  have hfreed := hu.freed_eq
  cases p with
  | waitEvent =>
      obtain ⟨hgiven, rfl, rfl, rfl⟩ :=
        takeEvent_eq (hfreed (by simp) (by simp)) (hu.event_ne (by simp) rfl) hstep
      exact .wake hgiven
  | waitLock => exact take_move hu (by simp) (by simp) rfl .wait hstep
  | check =>
      rw [Shared.stmt, use_eq (hfreed (by simp) (by simp))] at hstep
      split at hstep
      · next hempty =>
          obtain ⟨rfl, rfl, rfl⟩ := by simpa [eq_comm] using hstep
          exact .done hempty
      · next hempty =>
          obtain ⟨rfl, rfl, rfl⟩ := by simpa [eq_comm] using hstep
          exact .more (Bool.eq_false_iff.mpr hempty)
  | dequeue =>
      simp only [Shared.stmt, Shared.dequeue, use_eq (hfreed (by simp) (by simp))] at hstep
      obtain ⟨rfl, rfl, rfl⟩ := by simpa [eq_comm] using hstep
      exact .dequeue
  | unlock n => exact give_move hu (by simp) (by simp) rfl (.unlock n) hstep
  | call n =>
      -- what was dequeued is a work item: the queue was not empty
      rcases n with _ | n
      · exact absurd rfl hu.node.2.1
      obtain ⟨w, hw⟩ := hu.exists_item rfl
      rw [Shared.stmt, useItem_eq hw] at hstep
      obtain ⟨rfl, rfl, rfl⟩ := by simpa [eq_comm] using hstep
      exact .call hw
  | free n =>
      rcases n with _ | n
      · exact absurd rfl hu.node.2.2
      obtain ⟨w, hw⟩ := hu.exists_item rfl
      rw [Shared.stmt, Shared.freeItem, useItem_eq hw] at hstep
      obtain ⟨rfl, rfl, rfl⟩ := by simpa [eq_comm] using hstep
      exact .free hw
  | relock => exact take_move hu (by simp) (by simp) rfl .again hstep
  | readExit =>
      rw [Shared.stmt, use_eq (hfreed (by simp) (by simp))] at hstep
      obtain ⟨rfl, rfl, rfl⟩ := by simpa [eq_comm] using hstep
      exact .readExit
  | release exit =>
      cases exit with
      | false => exact give_move hu (by simp) (by simp) rfl .again hstep
      | true => exact give_move hu (by simp) (by simp) rfl .leave hstep
  | cleanLock => exact take_move hu (by simp) (by simp) rfl .clean hstep
  | cleanCheck =>
      -- the task loop is left with the queue empty, so the draining loop has nothing to do
      have hempty := hu.clean rfl
      rw [Shared.stmt, use_eq (hfreed (by simp) (by simp)), if_pos hempty] at hstep
      obtain ⟨rfl, rfl, rfl⟩ := by simpa [eq_comm] using hstep
      exact .clean hempty
  | cleanDequeue => exact absurd rfl hu.never.1
  | cleanFree n => exact absurd rfl (hu.never.2 n)
  | cleanUnlock => exact give_move hu (by simp) (by simp) rfl .clean hstep
  | deleteLock =>
      have hlock := hu.lock_ne (by simp) rfl
      rw [Shared.stmt, use_eq (hfreed (by simp) (by simp)), if_neg hlock] at hstep
      obtain ⟨rfl, rfl, rfl⟩ := by simpa [eq_comm] using hstep
      exact .deleteLock hlock
  | deleteEvent =>
      have hevent := hu.event_ne (by simp) rfl
      rw [Shared.stmt, use_eq (hfreed (by simp) (by simp)), if_neg hevent] at hstep
      obtain ⟨rfl, rfl, rfl⟩ := by simpa [eq_comm] using hstep
      exact .deleteEvent hevent
  | freeQueue =>
      rw [Shared.stmt, use_eq (hfreed (by simp) (by simp))] at hstep
      obtain ⟨rfl, rfl, rfl⟩ := by simpa [eq_comm] using hstep
      exact .freeQueue
  | exited => contradiction
  | idle => contradiction
  | queueLock n => exact take_move hu (by simp) (by simp) rfl (.queue n) hstep
  | enqueue n =>
      obtain ⟨w, hw⟩ := hu.exists_item rfl
      rw [Shared.stmt, use_eq (hfreed (by simp) (by simp)), useItem_eq hw] at hstep
      obtain ⟨rfl, rfl, rfl⟩ := by simpa [eq_comm] using hstep
      exact .enqueue hw
  | queueEvent => exact signal_move hu (by simp) (by simp) rfl .queue hstep
  | queueUnlock => exact give_move hu (by simp) (by simp) rfl .queue hstep
  | destroyLock => exact take_move hu (by simp) (by simp) rfl .destroy hstep
  | destroyFlag =>
      rw [Shared.stmt, use_eq (hfreed (by simp) (by simp))] at hstep
      obtain ⟨rfl, rfl, rfl⟩ := by simpa [eq_comm] using hstep
      exact .flag
  | destroyEvent => exact signal_move hu (by simp) (by simp) rfl .destroy hstep
  | destroyUnlock => exact give_move hu (by simp) (by simp) rfl .destroy hstep

theorem blocked_of_stmt (hstep : v.stmt head p = none) :
    p = .idle ∨ p = .exited ∨ (p = .waitEvent ∧ v.event = some false) ∨
      (∃ q, Takes p q) ∧ v.lock = some false := by
  have hsome : ∀ {r : Outcome ν ω}, r.isSome → v.stmt head p = r → False := by
    rintro r hr rfl
    simp [hstep] at hr
  cases p with
  | idle => exact .inl rfl
  | exited => exact .inr (.inl rfl)
  | waitEvent => exact .inr (.inr (.inl ⟨rfl, takeEvent_none hstep⟩))
  | waitLock => exact .inr (.inr (.inr ⟨⟨_, .wait⟩, takeLock_none hstep⟩))
  | relock => exact .inr (.inr (.inr ⟨⟨_, .again⟩, takeLock_none hstep⟩))
  | cleanLock => exact .inr (.inr (.inr ⟨⟨_, .clean⟩, takeLock_none hstep⟩))
  | queueLock n => exact .inr (.inr (.inr ⟨⟨_, .queue n⟩, takeLock_none hstep⟩))
  | destroyLock => exact .inr (.inr (.inr ⟨⟨_, .destroy⟩, takeLock_none hstep⟩))
  | unlock | release | cleanUnlock | queueUnlock | destroyUnlock =>
      exact (hsome (giveLock_isSome _) rfl).elim
  | queueEvent | destroyEvent => exact (hsome giveEvent_isSome rfl).elim
  | call | free | cleanFree => exact (hsome (useItem_isSome fun _ _ => rfl) rfl).elim
  | enqueue => exact (hsome (use_isSome (useItem_isSome fun _ _ => rfl)) rfl).elim
  | check | dequeue | readExit | cleanCheck | cleanDequeue | freeQueue | destroyFlag =>
      exact (hsome (use_isSome rfl) rfl).elim
  | deleteLock | deleteEvent =>
      refine (hsome (use_isSome ?_) rfl).elim
      split <;> rfl

/-! ### What a move keeps -/

theorem move_ofWorker (hm : Move head v p v' q out) : q.ofWorker = p.ofWorker := by
  cases hm with
  | take hpq _ | give hpq _ | signal hpq _ => cases hpq <;> rfl
  | _ => rfl

theorem move_exitThread (hm : Move head v p v' q out) (hp : p ≠ .destroyFlag) :
    v'.exitThread = v.exitThread := by
  cases hm with
  | flag => exact absurd rfl hp
  | _ => rfl

theorem move_lock (hm : Move head v p v' q out) (hlock : v.lock = none ↔ p.lockGone = true) :
    v'.lock = none ↔ q.lockGone = true := by
  cases hm with
  | take hpq _ | give hpq _ => cases hpq <;> simp [Pc.lockGone]
  | signal hpq _ => cases hpq <;> exact hlock
  | deleteLock _ => simp [Pc.lockGone]
  | _ => simpa [Pc.lockGone] using hlock

theorem move_event (hm : Move head v p v' q out) (hevent : v.event = none ↔ p.eventGone = true) :
    v'.event = none ↔ q.eventGone = true := by
  cases hm with
  | take hpq _ | give hpq _ => cases hpq <;> exact hevent
  | signal hpq _ => cases hpq <;> simp [Pc.eventGone]
  | wake _ | deleteEvent _ => simp [Pc.eventGone]
  | _ => simpa [Pc.eventGone] using hevent

theorem move_freed (hm : Move head v p v' q out) (hfreed : v.freed = true ↔ p = .exited) :
    v'.freed = true ↔ q = .exited := by
  cases hm with
  | take hpq _ | give hpq _ | signal hpq _ => cases hpq <;> simpa using hfreed
  | freeQueue => simp
  | _ => simpa using hfreed

theorem not_move_idle : ¬ Move head v .idle v' q out := by
  intro hm
  cases hm with
  | take hpq _ | give hpq _ | signal hpq _ => cases hpq

theorem move_release {exit : Bool} (hm : Move head v p v' q out) (hq : q = .release exit) :
    exit = v'.exitThread := by
  cases hm with
  | readExit => cases hq; rfl
  | take hpq _ | give hpq _ | signal hpq _ => cases hpq <;> cases hq
  | _ => cases hq

/-- Cleaning up begins when the worker sees `ExitThread`. -/
theorem move_cleans (hm : Move head v p v' q out) (hq : q.cleans = true) :
    p.cleans = true ∨ p = .readExit ∧ v.exitThread = true := by
  cases hm with
  | readExit => exact .inr ⟨rfl, hq⟩
  | take hpq _ | give hpq _ | signal hpq _ => cases hpq <;> exact .inl hq
  | _ => first | exact .inl rfl | contradiction

theorem move_destroys (hm : Move head v p v' q out) (hq : q.destroys = true) :
    p.destroys = true := by
  cases hm with
  | take hpq _ | give hpq _ | signal hpq _ => cases hpq <;> first | rfl | contradiction
  | flag => rfl
  | _ => contradiction

theorem move_flagged (hm : Move head v p v' q out) (hp : p.flagged = true) :
    q = .idle ∨ q.flagged = true := by
  cases hm with
  | take hpq _ | give hpq _ | signal hpq _ => cases hpq <;> simp_all [Pc.flagged]
  | _ => contradiction

theorem move_flags (hm : Move head v p v' q out) (hq : q.flagged = true) :
    p.flagged = true ∨ v'.exitThread = true := by
  cases hm with
  | flag => exact .inr rfl
  | take hpq _ | give hpq _ | signal hpq _ => cases hpq <;> first | exact .inl rfl | contradiction
  | _ => contradiction

theorem move_set (hm : Move head v p v' q out) (hexit : v'.exitThread = true) :
    v.exitThread = true ∨ p = .destroyFlag ∧ q.flagged = true := by
  cases hm with
  | flag => exact .inr ⟨rfl, rfl⟩
  | _ => exact .inl hexit

theorem move_exit (hm : Move head v p v' q out) (hexit : v.exitThread = true) :
    v'.exitThread = true := by
  cases hm with
  | flag => rfl
  | _ => exact hexit

/-- What neither queues nor dequeues nor frees leaves the memory alone. -/
theorem move_frame (hm : Move head v p v' q out) (hdequeue : p ≠ .dequeue)
    (henqueue : ∀ n, p ≠ .enqueue n) (hfree : ∀ n, p ≠ .free n) :
    v'.queues = v.queues ∧ v'.items = v.items ∧ q.item = p.item ∧ ∀ l, p.list l = l := by
  cases hm with
  | take hpq _ | give hpq _ | signal hpq _ => cases hpq <;> exact ⟨rfl, rfl, rfl, fun _ => rfl⟩
  | dequeue => exact absurd rfl hdequeue
  | enqueue _ => exact absurd rfl (henqueue _)
  | free _ => exact absurd rfl (hfree _)
  | _ => exact ⟨rfl, rfl, rfl, fun _ => rfl⟩

theorem move_dequeue (hm : Move head v p v' q out) (hq : q = .dequeue) :
    p = .check ∧ isQueueEmpty v.queues head = false := by
  cases hm with
  | more hempty => exact ⟨rfl, hempty⟩
  | take hpq _ | give hpq _ | signal hpq _ => cases hpq <;> contradiction
  | _ => contradiction

theorem move_drained (hm : Move head v p v' q out) (hq : q.drained = true) :
    p = .check ∧ isQueueEmpty v.queues head = true ∨ p.drained = true := by
  cases hm with
  | done hempty => exact .inl ⟨rfl, hempty⟩
  | take hpq _ | give hpq _ | signal hpq _ =>
      cases hpq <;> first | exact .inr rfl | contradiction
  | _ => first | exact .inr rfl | contradiction

theorem move_lost (hm : Move head v p v' q out) (hq : q.lost = true) :
    p = .dequeue ∧ (Collections.dequeue v.queues (some head)).2 = none ∨ p.lost = true := by
  cases hm with
  | dequeue =>
      cases hn : (Collections.dequeue v.queues (some head)).2 with
      | none => exact .inl ⟨rfl, rfl⟩
      | some n => rw [hn] at hq; contradiction
  | give hpq _ =>
      cases hpq with
      | unlock n => cases n <;> first | exact .inr rfl | contradiction
      | _ => contradiction
  | take hpq _ | signal hpq _ => cases hpq <;> contradiction
  | _ => contradiction

theorem move_waitEvent (hm : Move head v p v' q out) (hq : q = .waitEvent) :
    p = .release false := by
  cases hm with
  | give hpq _ => cases hpq <;> first | rfl | contradiction
  | take hpq _ | signal hpq _ => cases hpq <;> contradiction
  | _ => contradiction

theorem move_due (hm : Move head v p v' q out) (hdequeue : p ≠ .dequeue)
    (henqueue : ∀ n, p ≠ .enqueue n) :
    called out = [] ∧ queued out = [] ∧ q.due = p.due ∨
      ∃ n w, p = .call (some n) ∧ v.items n = some w ∧ q = .free (some n) ∧ out = [.called w] := by
  cases hm with
  | call hn => exact .inr ⟨_, _, rfl, hn, rfl, rfl⟩
  | take hpq _ | give hpq _ | signal hpq _ => cases hpq <;> exact .inl ⟨rfl, rfl, rfl⟩
  | dequeue => exact absurd rfl hdequeue
  | enqueue _ => exact absurd rfl (henqueue _)
  | _ => exact .inl ⟨rfl, rfl, rfl⟩

theorem move_calm (hm : Move head v p v' q out) : .fault ∉ out := by
  cases hm with
  | take hpq _ | give hpq _ | signal hpq _ => cases hpq <;> simp
  | _ => simp

/-- A client's move gives `Event`, or is about to, or does nothing that the
worker waits for. -/
theorem move_wakes (hm : Move head v p v' q out) (hp : p.ofWorker = false) :
    v'.event = some true ∨ q.signals = true ∨
      v'.event = v.event ∧ p.signals = false ∧ (∀ l, p.list l = l) ∧
        v'.exitThread = v.exitThread := by
  cases hm with
  | signal _ _ => exact .inl rfl
  | enqueue _ | flag => exact .inr (.inl rfl)
  | take hpq _ | give hpq _ =>
      cases hpq <;> exact .inr (.inr ⟨rfl, rfl, fun _ => rfl, rfl⟩)
  | _ => contradiction

end

namespace Pc

variable {p : Pc ν} {l : List ν}

theorem list_of_drained (hp : p.drained = true) : p.list l = l := by
  cases p <;> first | rfl | contradiction

theorem list_of_client (hp : p.ofWorker = false) (henqueue : ∀ n, p ≠ .enqueue n) :
    p.list l = l := by
  cases p <;> first | rfl | contradiction | exact absurd rfl (henqueue _)

theorem list_ne_nil (hp : p.ofWorker = false) (hl : l ≠ []) : p.list l ≠ [] := by
  cases p <;> first | exact hl | contradiction | simp [list]

theorem holds_of_drained (hp : p.drained = true) : p.holds = true ∨ p.cleans = true := by
  cases p <;> first | exact .inl rfl | exact .inr rfl | contradiction

end Pc

end EspressifApp.WorkQueue
