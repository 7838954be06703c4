import EspressifApp.WorkQueue.Order

/-!
Work queues come to rest. Every statement uses up some of what a run has left to
do (`Pc.weight`, `State.work`), so without new calls no schedule goes on for
ever; and where nobody can run, nothing is left to do.
-/

namespace EspressifApp.WorkQueue

open Reactive Collections

variable {τ ν ω : Type*}

/-- How many statements a thread has before it, more or less: a work item in the
queue counts six, and `Event` twelve when given. -/
def Pc.weight : Pc ν → ℕ
  | .waitEvent | .exited | .idle | .cleanDequeue | .cleanFree _ => 0
  | .freeQueue | .queueUnlock | .destroyUnlock => 1
  | .deleteEvent => 2
  | .deleteLock => 3
  | .cleanUnlock => 4
  | .cleanCheck => 5
  | .cleanLock => 6
  | .release _ => 7
  | .readExit => 8
  | .dequeue => 9
  | .check => 10
  | .waitLock | .relock => 11
  | .free _ => 12
  | .call _ => 13
  | .unlock _ | .queueEvent | .destroyEvent => 14
  | .destroyFlag => 15
  | .destroyLock => 16
  | .enqueue _ => 21
  | .queueLock _ => 22

def eventWeight (event : Option Bool) : ℕ := if event = some true then 12 else 0

section

variable [DecidableEq ν] {head : ν} {v v' : Shared ν ω} {p q : Pc ν} {out : List (Event ω)}
  {l : List ν}

theorem move_weight (hm : Move head v p v' q out) (hl : p = .dequeue → l ≠ []) :
    q.weight + 6 * (p.list l).length + eventWeight v'.event <
      p.weight + 6 * l.length + eventWeight v.event := by
  have hevent : eventWeight v.event ≤ 12 := by
    rw [eventWeight]
    split <;> omega
  cases hm with
  | take hpq _ | give hpq _ => cases hpq <;> simp [Pc.weight, Pc.list]
  | signal hpq _ => cases hpq <;> simp [Pc.weight, Pc.list, eventWeight] <;> omega
  | wake hgiven => simp [Pc.weight, Pc.list, eventWeight, hgiven]; omega
  | dequeue =>
      obtain ⟨a, k, rfl⟩ := List.exists_cons_of_ne_nil (hl rfl)
      simp only [Pc.weight, Pc.list, List.tail_cons, List.length_cons]
      omega
  | enqueue _ =>
      simp only [Pc.weight, Pc.list, List.length_append, List.length_singleton]
      omega
  | deleteEvent _ => simp [Pc.weight, Pc.list, eventWeight]; omega
  | _ => simp [Pc.weight, Pc.list]

end

section

variable [DecidableEq τ] [DecidableEq ν] [Fintype τ] {head : ν} {s : State τ ν ω}
  {v : Shared ν ω} {p : Party τ} {q : Pc ν} {out tr : List (Event ω)} {l : List ν}

def State.work (s : State τ ν ω) (l : List ν) : ℕ :=
  s.worker.weight + total Pc.weight s.client + 6 * l.length + eventWeight s.shared.event

theorem Inv.work_lt (hI : Inv head s l tr)
    (hstep : s.shared.stmt head (s.pc p) = some (v, q, out)) :
    (s.move v p q).work ((s.pc p).list l) < s.work l := by
  have hlt := move_weight (l := l) (move_of_stmt (hI.usable p) hstep) fun hp => ?_
  · cases p with
    | worker =>
        have hclients : (s.move v .worker q).client = s.client := by
          ext1 t
          rw [State.client_move_worker]
        rw [State.work, State.work, State.worker_move, hclients, State.move_shared]
        rw [show s.pc .worker = s.worker from rfl] at hlt ⊢
        omega
    | client t =>
        have hclients : (s.move v (.client t) q).client = Function.update s.client t q := by
          ext1 u
          rw [State.client_move, Function.update_apply]
        have htotal := total_move Pc.weight s.client t q
        rw [State.work, State.work, State.worker_move_client, hclients, State.move_shared]
        rw [show s.pc (.client t) = s.client t from rfl] at hlt ⊢
        omega
  · cases p with
    | worker => exact hI.flow.more hp
    | client t =>
        have hclient := hI.life.client t
        rw [show s.client t = .dequeue from hp] at hclient
        contradiction

/-- Schedules without new calls are bounded. -/
theorem Inv.bounded (m : Queues ν) (sched : List (Party τ)) (hI : Inv head s l tr)
    (hruns : (workQueue τ ω m head).AlongFrom (fun s a => (s.step head a).isSome) s
      (sched.map .run)) :
    sched.length ≤ s.work l := by
  induction sched generalizing s l tr with
  | nil => exact Nat.zero_le _
  | cons p sched ih =>
      obtain ⟨hstep, hrest⟩ := hruns
      obtain ⟨⟨s', out⟩, hs'⟩ := Option.isSome_iff_exists.mp hstep
      obtain ⟨⟨v, q, out⟩, hstmt, hnext⟩ := Option.map_eq_some_iff.mp hs'
      obtain ⟨rfl, rfl⟩ := Prod.mk.injEq .. ▸ hnext
      have hlt := hI.work_lt hstmt
      have hnext : (workQueue τ ω m head).next s (.run p) = s.move v p q := by
        simp [workQueue, hs']
      rw [hnext] at hrest
      have hle := ih (hI.run hstmt) hrest
      rw [List.length_cons]
      omega

end

theorem Takes.free {p q : Pc ν} (hpq : Takes p q) : p.holds = false := by
  cases hpq <;> rfl

section

variable [DecidableEq τ] [DecidableEq ν] {head : ν} {s : State τ ν ω} {tr : List (Event ω)}
  {l : List ν}

/-- Where nobody can run, nobody waits for the lock. -/
theorem Inv.lock_free (hI : Inv head s l tr) (hstuck : ∀ p, s.step head (.run p) = none) :
    s.shared.lock ≠ some false := by
  intro hlock
  obtain ⟨p, hp⟩ := hI.life.mutex.taken.mpr hlock
  rcases blocked_of_stmt (Option.map_eq_none_iff.mp (hstuck p)) with
    h | h | ⟨h, -⟩ | ⟨⟨q, h⟩, -⟩
  · rw [h] at hp
    contradiction
  · rw [h] at hp
    contradiction
  · rw [h] at hp
    contradiction
  · rw [h.free] at hp
    contradiction

/-- Where nobody can run, everything is done: the clients have returned, every
work item that was queued has been called and freed, and the worker waits, or
the work queue is gone. -/
theorem Inv.rest (hI : Inv head s l tr) (hstuck : ∀ p, s.step head (.run p) = none) :
    (∀ t, s.client t = .idle) ∧ called tr = queued tr ∧ (∀ n, s.shared.items n = none) ∧
      (s.worker = .waitEvent ∧ s.shared.exitThread = false ∧ s.shared.lock = some true ∨
        s.worker = .exited ∧ s.shared.freed = true ∧ s.shared.lock = none ∧
          s.shared.event = none) := by
  have hlock := hI.lock_free hstuck
  have hidle : ∀ t, s.client t = .idle := by
    intro t
    have hclient := hI.life.client t
    rcases blocked_of_stmt (Option.map_eq_none_iff.mp (hstuck (.client t))) with
      h | h | ⟨h, -⟩ | ⟨-, h⟩
    · exact h
    · rw [show s.client t = .exited from h] at hclient
      contradiction
    · rw [show s.client t = .waitEvent from h] at hclient
      contradiction
    · exact absurd h hlock
  have hdone : s.worker.item = none → s.worker.due = none → l = [] →
      called tr = queued tr ∧ ∀ n, s.shared.items n = none := by
    rintro hitem hdue rfl
    refine ⟨by simpa [hdue] using hI.items.order, fun n => ?_⟩
    have hnone : ∀ r, (s.pc r).item = none :=
      forall_party (P := fun pc => pc.item = none) hitem fun t => by rw [hidle t]; rfl
    rw [← Option.not_isSome_iff_eq_none, hI.items.items]
    simp [hnone]
  rcases blocked_of_stmt (Option.map_eq_none_iff.mp (hstuck .worker)) with
    h | h | ⟨h, hevent⟩ | ⟨-, h⟩
  · have hworker := hI.life.worker
    rw [show s.worker = .idle from h] at hworker
    contradiction
  · have hw : s.worker = .exited := h
    obtain ⟨hcalled, hitems⟩ := hdone (by rw [hw]; rfl) (by rw [hw]; rfl)
      (hI.flow.empty (by rw [hw]; rfl))
    exact ⟨hidle, hcalled, hitems, .inr ⟨hw, hI.life.freed.mpr hw,
      hI.life.lock.mpr (by rw [hw]; rfl), hI.life.event.mpr (by rw [hw]; rfl)⟩⟩
  · have hw : s.worker = .waitEvent := h
    -- a worker that sleeps with a reason to wake up has `Event` given, or about to be
    have hasleep : ¬ (l ≠ [] ∨ s.shared.exitThread = true) := by
      intro hreason
      rcases hI.flow.wake hw hreason with hgiven | ⟨t, ht⟩
      · rw [hevent] at hgiven
        contradiction
      · rw [hidle t] at ht
        contradiction
    rw [not_or, not_not, Bool.not_eq_true] at hasleep
    obtain ⟨hcalled, hitems⟩ := hdone (by rw [hw]; rfl) (by rw [hw]; rfl) hasleep.1
    have hgone : s.shared.lock ≠ none := hI.life.lock.not.mpr (by simp [hw, Pc.lockGone])
    refine ⟨hidle, hcalled, hitems, .inl ⟨hw, hasleep.2, ?_⟩⟩
    cases hl : s.shared.lock with
    | none => exact absurd hl hgone
    | some b =>
        cases b with
        | false => exact absurd hl hlock
        | true => rfl
  · exact absurd h hlock

end

/-- Without new calls a run ends, after so many statements at most, whatever the
schedule; and a run ends, with new calls or without, only where everything is
done: no wake-up is lost, and nothing that was allocated is left. -/
theorem workQueue_settles [Fintype τ] [DecidableEq τ] [DecidableEq ν] (m : Queues ν) (head : ν)
    (h : List (Action τ ν ω)) (hmay : (workQueue τ ω m head).Along (MayAct head) h) :
    let s := (workQueue τ ω m head).after h
    let tr := (workQueue τ ω m head).traceFrom (workQueue τ ω m head).init h
    (∃ N, ∀ sched : List (Party τ),
      (workQueue τ ω m head).AlongFrom (fun s a => (s.step head a).isSome) s (sched.map .run) →
        sched.length ≤ N) ∧
      ((∀ p, s.step head (.run p) = none) →
        (∀ t, s.client t = .idle) ∧ called tr = queued tr ∧ (∀ n, s.shared.items n = none) ∧
          (s.worker = .waitEvent ∧ s.shared.exitThread = false ∧ s.shared.lock = some true ∨
            s.worker = .exited ∧ s.shared.freed = true ∧ s.shared.lock = none ∧
              s.shared.event = none)) := by
  obtain ⟨l, hI⟩ := exists_inv m head hmay
  exact ⟨⟨_, fun sched => hI.bounded m sched⟩, hI.rest⟩

/-- One work item, and the end of the work queue, run until nobody can run. -/
def oneItem : List (Action Bool ℕ ℕ) :=
  .queueWorkItem true 5 (some 1) :: (List.replicate 4 (.run (.client true)) ++
    (.destroyWorkQueue false :: (List.replicate 4 (.run (.client false)) ++
      List.replicate 18 (.run .worker))))

theorem workQueue_settles_one :
    let W := workQueue Bool ℕ (⟨⟨id, id⟩, fun _ => 0⟩ : Queues ℕ) 0
    let s := W.after oneItem
    let tr := W.traceFrom W.init oneItem
    (∃ N, ∀ sched : List (Party Bool),
      W.AlongFrom (fun s a => (s.step 0 a).isSome) s (sched.map .run) → sched.length ≤ N) ∧
      (∀ t, s.client t = .idle) ∧ called tr = queued tr ∧ (∀ n, s.shared.items n = none) ∧
        (s.worker = .waitEvent ∧ s.shared.exitThread = false ∧ s.shared.lock = some true ∨
          s.worker = .exited ∧ s.shared.freed = true ∧ s.shared.lock = none ∧
            s.shared.event = none) := by
  refine (workQueue_settles _ 0 oneItem ?_).imp_right fun hrest => hrest fun p => ?_
  · refine ⟨⟨rfl, fun u => by cases u <;> rfl, ?_⟩, trivial, trivial, trivial, trivial,
      ⟨by decide +kernel, by decide +kernel⟩, ?_⟩
    · rintro n ⟨⟩
      exact ⟨rfl, by decide⟩
    · simp [Machine.AlongFrom, MayAct, List.replicate]
  · rw [← Option.isNone_iff_eq_none]
    cases p with
    | worker => decide +kernel
    | client t => cases t <;> decide +kernel

end EspressifApp.WorkQueue
