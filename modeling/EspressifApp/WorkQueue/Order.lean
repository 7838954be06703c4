import EspressifApp.WorkQueue.Steps

/-!
Every order of the threads of a work queue.
-/

namespace EspressifApp.WorkQueue

open Reactive Collections

variable {τ ν ω : Type*}

namespace State

def worker (s : State τ ν ω) : Pc ν := s.pc .worker

def client (s : State τ ν ω) (t : τ) : Pc ν := s.pc (.client t)

section

variable [DecidableEq τ] (s : State τ ν ω) (v : Shared ν ω) (t : τ) (p : Party τ) (q : Pc ν)

@[simp, grind =] theorem move_shared : (s.move v p q).shared = v := rfl

@[simp] theorem move_pc : (s.move v p q).pc = Function.update s.pc p q := rfl

@[simp, grind =] theorem worker_move : (s.move v .worker q).worker = q := by
  simp [worker]

@[simp, grind =] theorem client_move_worker : (s.move v .worker q).client t = s.client t := by
  simp [client]

@[simp, grind =] theorem worker_move_client : (s.move v (.client t) q).worker = s.worker := by
  simp [worker]

@[grind =] theorem client_move (u : τ) :
    (s.move v (.client t) q).client u = if u = t then q else s.client u := by
  simp [client, Function.update_apply]

end

end State

/-! ### The lock, and the end -/

/-- Who is where: `DestroyWorkQueue` is called alone, and the worker cleans up
when no call is left. -/
structure Life (s : State τ ν ω) : Prop where
  worker : s.worker.ofWorker = true
  client : ∀ t, (s.client t).ofWorker = false
  mutex : Locked s.shared.lock Pc.holds s.pc
  alone : ∀ {t u}, (s.client t).destroys = true → u ≠ t → s.client u = .idle
  flagged : s.shared.exitThread = true → ∀ t, s.client t = .idle ∨ (s.client t).flagged = true
  flags : ∀ {t}, (s.client t).flagged = true → s.shared.exitThread = true
  exits : ∀ {exit}, s.worker = .release exit → exit = s.shared.exitThread
  cleans : s.worker.cleans = true → s.shared.exitThread = true ∧ ∀ t, s.client t = .idle
  lock : s.shared.lock = none ↔ s.worker.lockGone = true
  event : s.shared.event = none ↔ s.worker.eventGone = true
  freed : s.shared.freed = true ↔ s.worker = .exited

section

variable [DecidableEq τ] [DecidableEq ν] {head : ν} {s : State τ ν ω}
  {v v' : Shared ν ω} {p : Party τ} {q : Pc ν} {out : List (Event ω)}

omit [DecidableEq τ] [DecidableEq ν] in
theorem forall_party {P : Pc ν → Prop} (hworker : P s.worker) (hclient : ∀ t, P (s.client t))
    (r : Party τ) : P (s.pc r) := by
  cases r with
  | worker => exact hworker
  | client t => exact hclient t

theorem locked_move {pc : Pc ν} (hl : Locked s.shared.lock Pc.holds s.pc) (hpc : s.pc p = pc)
    (hdelete : pc = .deleteLock → ∀ r, (s.pc r).holds = false)
    (hm : Move head s.shared pc v q out) : Locked v.lock Pc.holds (s.move v p q).pc := by
  rw [State.move_pc]
  cases hm with
  | take hpq hlock => exact hl.take hlock (by cases hpq <;> rfl)
  | give hpq hlock => exact hl.give (t := p) (hpc ▸ by cases hpq <;> rfl) (by cases hpq <;> rfl)
  | deleteLock hlock =>
      refine (hl.stay (by rw [hpc]; rfl)).delete fun htaken => ?_
      obtain ⟨r, hr⟩ := hl.taken.mpr htaken
      simp [hdelete rfl r] at hr
  | signal hpq _ => cases hpq <;> exact hl.stay (by rw [hpc]; rfl)
  | _ => exact hl.stay (by rw [hpc]; rfl)

omit [DecidableEq τ] [DecidableEq ν] in
theorem Life.others (hL : Life s) (hp : (s.pc p).holds = true) {r : Party τ} (hr : r ≠ p) :
    (s.pc r).holds = false :=
  Bool.eq_false_iff.mpr fun h => hr (hL.mutex.one h hp)

omit [DecidableEq τ] [DecidableEq ν] in
/-- With `ExitThread` set and the lock with the worker, no call is left. -/
theorem Life.alone_of_exit (hL : Life s) (hexit : s.shared.exitThread = true)
    (hw : s.worker.holds = true) (t : τ) : s.client t = .idle := by
  refine (hL.flagged hexit t).resolve_right fun hf => ?_
  have hfree : (s.client t).holds = false := hL.others (p := .worker) hw (by simp)
  cases hc : s.client t <;> simp [hc, Pc.flagged, Pc.holds] at hf hfree

theorem Life.worker_move (hL : Life s) (hm : Move head s.shared s.worker v q out) :
    Life (s.move v .worker q) := by
  have hmutex : Locked v.lock Pc.holds (s.move v .worker q).pc := by
    refine locked_move hL.mutex rfl (fun hdelete => ?_) hm
    have hw : s.worker = .deleteLock := hdelete
    refine forall_party (P := fun pc => pc.holds = false) (by rw [hw]; rfl) fun t => ?_
    rw [(hL.cleans (by rw [hw]; rfl)).2 t]
    rfl
  have hexit : v.exitThread = s.shared.exitThread :=
    move_exitThread hm fun hw => by simpa [hw, Pc.ofWorker] using hL.worker
  constructor
  · rw [State.worker_move, move_ofWorker hm, hL.worker]
  · simpa using hL.client
  · exact hmutex
  · intro t u
    rw [State.client_move_worker, State.client_move_worker]
    exact hL.alone
  · simpa [hexit] using hL.flagged
  · intro t
    rw [State.client_move_worker, State.move_shared, hexit]
    exact hL.flags
  · intro exit hw
    rw [State.worker_move] at hw
    exact move_release hm hw
  · intro hq
    rw [State.worker_move] at hq
    simp only [State.move_shared, State.client_move_worker, hexit]
    rcases move_cleans hm hq with hw | ⟨hw, hset⟩
    · exact hL.cleans hw
    · exact ⟨hset, hL.alone_of_exit hset (by rw [hw]; rfl)⟩
  · simpa using move_lock hm hL.lock
  · simpa using move_event hm hL.event
  · simpa using move_freed hm hL.freed

theorem Life.client_move {t : τ} (hL : Life s) (hm : Move head s.shared (s.client t) v q out) :
    Life (s.move v (.client t) q) := by
  have hclient := hL.client t
  have hbusy : s.client t ≠ .idle := fun hidle => not_move_idle (hidle ▸ hm)
  -- the worker does not clean up while a client is in a call
  have hdirty : ¬ s.worker.cleans = true := fun hw => hbusy ((hL.cleans hw).2 t)
  have hq : q.ofWorker = false := (move_ofWorker hm).trans hclient
  have hlock : s.shared.lock ≠ none :=
    hL.lock.not.mpr (by simp [Pc.lockGone_of_notCleans hdirty])
  have hevent : s.shared.event ≠ none :=
    hL.event.not.mpr (by simp [Pc.eventGone_of_notCleans hdirty])
  constructor
  · rw [State.worker_move_client, hL.worker]
  · intro u
    rw [State.client_move]
    split
    · exact hq
    · exact hL.client u
  · refine locked_move hL.mutex rfl (fun hdelete => ?_) hm
    have hc : s.client t = .deleteLock := hdelete
    rw [hc] at hclient
    contradiction
  · intro r u hr hur
    rw [State.client_move] at hr ⊢
    by_cases hrt : r = t
    · subst hrt
      rw [if_pos rfl] at hr
      rw [if_neg hur]
      exact hL.alone (move_destroys hm hr) hur
    · rw [if_neg hrt] at hr
      exact absurd (hL.alone hr (Ne.symm hrt)) hbusy
  · intro hexit u
    rw [State.client_move]
    -- `ExitThread` was set before, or this statement sets it
    rcases move_set hm hexit with hset | ⟨hflag, hqf⟩
    · split
      · exact move_flagged hm ((hL.flagged hset t).resolve_left hbusy)
      · exact hL.flagged hset u
    · split
      · exact .inr hqf
      · next hut => exact .inl (hL.alone (by rw [hflag]; rfl) hut)
  · intro u hu
    rw [State.client_move] at hu
    split at hu
    · exact (move_flags hm hu).elim (fun hp => move_exit hm (hL.flags hp)) id
    · exact move_exit hm (hL.flags hu)
  · intro exit hw
    rw [State.worker_move_client] at hw
    rw [State.move_shared, move_exitThread hm fun hflag => ?_]
    · exact hL.exits hw
    · have hfree := hL.others (p := .client t) (r := .worker) (congrArg Pc.holds hflag) (by simp)
      exact absurd ((congrArg Pc.holds hw).symm.trans hfree) (by simp [Pc.holds])
  · rw [State.worker_move_client]
    exact fun hw => absurd hw hdirty
  · rw [State.worker_move_client, State.move_shared, Pc.lockGone_of_notCleans hdirty,
      move_lock hm (iff_of_false hlock (by simp [Pc.lockGone_of_client hclient])),
      Pc.lockGone_of_client hq]
  · rw [State.worker_move_client, State.move_shared, Pc.eventGone_of_notCleans hdirty,
      move_event hm (iff_of_false hevent (by simp [Pc.eventGone_of_client hclient])),
      Pc.eventGone_of_client hq]
  · have hworker : s.worker ≠ .exited := fun hw => hdirty (by rw [hw]; rfl)
    have hexited : ∀ {pc : Pc ν}, pc.ofWorker = false → pc ≠ .exited := by
      rintro pc hpc rfl
      contradiction
    rw [State.worker_move_client, State.move_shared,
      move_freed hm (iff_of_false (hL.freed.not.mpr hworker) (hexited hclient))]
    exact iff_of_false (hexited hq) hworker

end

/-! ### The work items -/

def single [DecidableEq ν] (head : ν) (l : List ν) : HeadedLists ν :=
  Function.update (fun _ => none) head (some l)

/-- The queue is `l`. Every work item there is, is in the queue or in the hand of
one thread, and what entered the queue was called or is in order. -/
structure Items [DecidableEq ν] (head : ν) (s : State τ ν ω) (l : List ν) (tr : List (Event ω)) :
    Prop where
  holds : Holds s.shared.queues (single head l)
  items : ∀ n, (s.shared.items n).isSome ↔ n ∈ l ∨ ∃ p, (s.pc p).item = some n
  apart : ∀ {p n}, (s.pc p).item = some n → n ∉ l
  one : ∀ {p r n}, (s.pc p).item = some n → (s.pc r).item = some n → p = r
  head : s.shared.items head = none
  order : called tr ++ (s.worker.due.bind s.shared.items).toList ++ l.filterMap s.shared.items =
    queued tr

section

variable [DecidableEq τ] [DecidableEq ν] {head : ν} {s : State τ ν ω} {v : Shared ν ω}
  {p : Party τ} {q : Pc ν} {out tr : List (Event ω)} {l : List ν}

@[simp] theorem single_self (head : ν) (l : List ν) : single head l head = some l :=
  Function.update_self ..

theorem update_single (head : ν) (l k : List ν) :
    Function.update (single head l) head (some k) = single head k :=
  Function.update_idem ..

theorem member_single {a : ν} : (single head l).Member a ↔ a ∈ head :: l := by
  constructor
  · rintro ⟨h, k, hk, ha⟩
    by_cases hh : h = head
    · subst hh
      rw [single_self, Option.some_inj] at hk
      exact hk ▸ ha
    · simp [single, Function.update_of_ne hh] at hk
  · exact fun ha => ⟨head, l, single_self .., ha⟩

omit [DecidableEq τ] in
theorem Items.nodup (hI : Items head s l tr) : l.Nodup := by
  have hring := hI.holds.rings.each (reverse_eq_some (single_self head l))
  exact List.nodup_reverse.mp (List.nodup_cons.mp hring.nodup).2

omit [DecidableEq ν] in
theorem item_move (s : State τ ν ω) (v : Shared ν ω) (p : Party τ) (q : Pc ν) (r : Party τ) :
    ((s.move v p q).pc r).item = if r = p then q.item else (s.pc r).item := by
  rw [State.move_pc, Function.update_apply]
  split <;> rfl

omit [DecidableEq ν] in
theorem exists_item_gain {n a : ν} (hp : (s.pc p).item = none) (hq : q.item = some a) :
    (∃ r, ((s.move v p q).pc r).item = some n) ↔ n = a ∨ ∃ r, (s.pc r).item = some n := by
  simp only [item_move]
  grind

omit [DecidableEq ν] in
theorem exists_item_lose {n a : ν} (hp : (s.pc p).item = some a) (hq : q.item = none)
    (hone : ∀ {r}, (s.pc r).item = some a → r = p) :
    (∃ r, ((s.move v p q).pc r).item = some n) ↔ n ≠ a ∧ ∃ r, (s.pc r).item = some n := by
  simp only [item_move]
  grind

theorem Items.frame (hI : Items head s l tr) (hqueues : v.queues = s.shared.queues)
    (hitems : v.items = s.shared.items) (hitem : q.item = (s.pc p).item)
    (hdue : called (tr ++ out) ++ ((s.move v p q).worker.due.bind s.shared.items).toList ++
      l.filterMap s.shared.items = queued (tr ++ out)) :
    Items head (s.move v p q) l (tr ++ out) := by
  have hsame : ∀ r, ((s.move v p q).pc r).item = (s.pc r).item := by
    intro r
    rw [item_move]
    split
    · next hr => rw [hr, hitem]
    · rfl
  constructor
  · simpa [hqueues] using hI.holds
  · simpa only [State.move_shared, hitems, hsame] using hI.items
  · intro r n
    rw [hsame]
    exact hI.apart
  · intro r r' n
    rw [hsame, hsame]
    exact hI.one
  · simpa [hitems] using hI.head
  · rw [State.move_shared, hitems]
    exact hdue

theorem Items.dequeue {a : ν} {k : List ν} (hI : Items head s (a :: k) tr)
    (hw : s.worker = .dequeue) :
    (Collections.dequeue s.shared.queues (some head)).2 = some a ∧
      Items head
        (s.move
          { s.shared with queues := (Collections.dequeue s.shared.queues (some head)).1 }
          .worker (.unlock (some a)))
        k tr := by
  have hnone : (s.pc .worker).item = none := congrArg Pc.item hw
  have hnodup := List.nodup_cons.mp hI.nodup
  obtain ⟨hholds, hnode⟩ := hI.holds.dequeue (single_self head (a :: k))
  rw [update_single] at hholds
  refine ⟨hnode, hholds, fun n => ?_, fun {r n} hr => ?_, fun {r r' n} hr hr' => ?_, hI.head, ?_⟩
  · rw [exists_item_gain hnone rfl, State.move_shared, hI.items, List.mem_cons]
    tauto
  · rw [item_move] at hr
    split at hr
    · exact Option.some_inj.mp hr ▸ hnodup.1
    · exact List.not_mem_of_not_mem_cons (hI.apart hr)
  · rw [item_move] at hr hr'
    have hother : ∀ r, (s.pc r).item ≠ some a := fun r hr => hI.apart hr List.mem_cons_self
    have hone := @hI.one r r' n
    grind [Pc.item]
  · obtain ⟨w, hw'⟩ := Option.isSome_iff_exists.mp ((hI.items a).mpr (.inl List.mem_cons_self))
    have horder := hI.order
    rw [hw, List.filterMap_cons_some hw'] at horder
    rw [State.worker_move, ← horder]
    simp [Pc.due, hw']

theorem Items.free {a : ν} (hI : Items head s l tr) (hw : s.worker = .free (some a)) :
    Items head
      (s.move { s.shared with items := Function.update s.shared.items a none } .worker .relock)
      l tr := by
  have hp : (s.pc .worker).item = some a := congrArg Pc.item hw
  refine ⟨hI.holds, fun n => ?_, fun {r n} hr => ?_, fun {r r' n} hr hr' => ?_, ?_, ?_⟩
  · rw [exists_item_lose hp rfl fun hr => hI.one hr hp, State.move_shared]
    by_cases hn : n = a
    · subst hn
      simp [hI.apart hp]
    · simp [hI.items, hn]
  · rw [item_move] at hr
    split at hr
    · contradiction
    · exact hI.apart hr
  · rw [item_move] at hr hr'
    have hone := @hI.one r r' n
    grind [Pc.item]
  · show Function.update s.shared.items a none head = none
    rw [Function.update_apply, hI.head, ite_self]
  · have horder := hI.order
    rw [hw] at horder
    rw [State.worker_move, ← horder]
    have hfilter : l.filterMap (Function.update s.shared.items a none) =
        l.filterMap s.shared.items := by
      refine List.filterMap_congr fun n hn => Function.update_of_ne ?_ ..
      rintro rfl
      exact hI.apart hp hn
    simp [Pc.due, hfilter]

theorem Items.enqueue {t : τ} {a : ν} {w : ω} (hI : Items head s l tr)
    (hc : s.client t = .enqueue a) (ha : s.shared.items a = some w) :
    Items head
      (s.move
        { s.shared with queues := Collections.enqueue s.shared.queues (some head) (some a) }
        (.client t) .queueEvent)
      (l ++ [a]) (tr ++ [.queued w]) := by
  have hp : (s.pc (.client t)).item = some a := congrArg Pc.item hc
  have hfresh : ¬ (single head l).Member a := by
    rw [member_single, List.mem_cons, not_or]
    refine ⟨?_, hI.apart hp⟩
    rintro rfl
    rw [hI.head] at ha
    contradiction
  have hholds := hI.holds.enqueue (single_self head l) hfresh
  rw [update_single] at hholds
  refine ⟨hholds, fun n => ?_, fun {r n} hr => ?_, fun {r r' n} hr hr' => ?_, hI.head, ?_⟩
  · rw [exists_item_lose hp rfl fun hr => hI.one hr hp, State.move_shared, hI.items]
    by_cases hn : n = a
    · subst hn
      simpa using Or.inr ⟨_, hp⟩
    · simp [hn]
  · rw [item_move] at hr
    split at hr
    · contradiction
    · next hne =>
        rw [List.mem_append, List.mem_singleton, not_or]
        refine ⟨hI.apart hr, ?_⟩
        rintro rfl
        exact hne (hI.one hr hp)
  · rw [item_move] at hr hr'
    have hone := @hI.one r r' n
    grind [Pc.item]
  · have horder := hI.order
    rw [State.worker_move_client, State.move_shared]
    simp only [called, queued, List.filterMap_append] at horder ⊢
    rw [← horder]
    simp [ha]

theorem Items.begin {t : τ} {a : ν} {w : ω} (hI : Items head s l tr) (hc : s.client t = .idle)
    (ha : s.shared.items a = none) (hhead : a ≠ head) :
    Items head
      (s.move { s.shared with items := Function.update s.shared.items a (some w) } (.client t)
        (.queueLock a))
      l tr := by
  have hp : (s.pc (.client t)).item = none := congrArg Pc.item hc
  -- the block is not in use, so nobody has it
  have hnew : ¬ (a ∈ l ∨ ∃ r, (s.pc r).item = some a) := by
    rw [← hI.items, ha]
    simp
  rw [not_or, not_exists] at hnew
  refine ⟨hI.holds, fun n => ?_, fun {r n} hr => ?_, fun {r r' n} hr hr' => ?_, ?_, ?_⟩
  · rw [exists_item_gain hp rfl, State.move_shared]
    by_cases hn : n = a
    · simp [hn]
    · simp [hI.items, hn]
  · rw [item_move] at hr
    split at hr
    · exact Option.some_inj.mp hr ▸ hnew.1
    · exact hI.apart hr
  · rw [item_move] at hr hr'
    have hone := @hI.one r r' n
    grind [Pc.item]
  · show Function.update s.shared.items a (some w) head = none
    rw [Function.update_of_ne hhead.symm, hI.head]
  · rw [State.worker_move_client, State.move_shared, ← hI.order]
    have hdue : s.worker.due.bind (Function.update s.shared.items a (some w)) =
        s.worker.due.bind s.shared.items := by
      cases hd : s.worker.due with
      | none => rfl
      | some n =>
          refine Function.update_of_ne ?_ ..
          rintro rfl
          refine hnew.2 .worker ?_
          show s.worker.item = some n
          cases hw : s.worker <;> simp_all [Pc.due, Pc.item]
    have hfilter : l.filterMap (Function.update s.shared.items a (some w)) =
        l.filterMap s.shared.items := by
      refine List.filterMap_congr fun n hn => Function.update_of_ne ?_ ..
      rintro rfl
      exact hnew.1 hn
    simp only [hdue, hfilter]

end

/-! ### Nothing is forgotten -/

/-- What the worker knows of the queue, and that it is woken when there is work
or an end. -/
structure Flow (s : State τ ν ω) (l : List ν) : Prop where
  more : s.worker = .dequeue → l ≠ []
  empty : s.worker.drained = true → l = []
  sound : s.worker.lost = false
  wake : s.worker = .waitEvent → l ≠ [] ∨ s.shared.exitThread = true →
    s.shared.event = some true ∨ ∃ t, (s.client t).signals = true

section

variable [DecidableEq τ] [DecidableEq ν] {head : ν} {s : State τ ν ω} {v : Shared ν ω}
  {p : Party τ} {q : Pc ν} {out tr : List (Event ω)} {l : List ν}

theorem Flow.worker_move (hF : Flow s l) (hL : Life s) (hI : Items head s l tr)
    (hm : Move head s.shared s.worker v q out) :
    Flow (s.move v .worker q) (s.worker.list l) := by
  have hisEmpty := hI.holds.isQueueEmpty (single_self head l)
  constructor
  · intro hq
    rw [State.worker_move] at hq
    obtain ⟨hp, hempty⟩ := move_dequeue hm hq
    rw [hp]
    rintro rfl
    exact Bool.false_ne_true (hempty.symm.trans hisEmpty)
  · intro hq
    rw [State.worker_move] at hq
    rcases move_drained hm hq with ⟨hp, hempty⟩ | hp
    · rw [hp]
      exact List.isEmpty_iff.mp (hisEmpty.symm.trans hempty)
    · rw [Pc.list_of_drained hp]
      exact hF.empty hp
  · rw [State.worker_move, Bool.eq_false_iff]
    intro hq
    rcases move_lost hm hq with ⟨hp, hnode⟩ | hp
    · obtain ⟨a, k, rfl⟩ := List.exists_cons_of_ne_nil (hF.more hp)
      rw [(hI.dequeue hp).1] at hnode
      contradiction
    · rw [hF.sound] at hp
      contradiction
  · intro hq hreason
    rw [State.worker_move] at hq
    have hp := move_waitEvent hm hq
    rw [hp, Pc.list_of_drained rfl, hF.empty (hp ▸ rfl), State.move_shared,
      move_exitThread hm (by simp [hp]), ← hL.exits hp] at hreason
    simp at hreason

theorem Flow.client_move {t : τ} (hF : Flow s l) (hL : Life s)
    (hm : Move head s.shared (s.client t) v q out) :
    Flow (s.move v (.client t) q) ((s.client t).list l) := by
  have hclient := hL.client t
  constructor
  · rw [State.worker_move_client]
    exact fun hw => Pc.list_ne_nil hclient (hF.more hw)
  · rw [State.worker_move_client]
    intro hw
    rw [Pc.list_of_client hclient, hF.empty hw]
    intro n hn
    rcases Pc.holds_of_drained hw with hholds | hcleans
    · have hfree := hL.others (p := .client t) (r := .worker) (congrArg Pc.holds hn) (by simp)
      exact Bool.false_ne_true (hfree.symm.trans hholds)
    · rw [(hL.cleans hcleans).2 t] at hn
      contradiction
  · rw [State.worker_move_client]
    exact hF.sound
  · rw [State.worker_move_client, State.move_shared]
    intro hw hreason
    rcases move_wakes hm hclient with hevent | hq | ⟨hevent, hp, hlist, hexit⟩
    · exact .inl hevent
    · refine .inr ⟨t, ?_⟩
      rwa [State.client_move, if_pos rfl]
    · rw [hlist, hexit] at hreason
      rw [hevent]
      refine (hF.wake hw hreason).imp_right fun ⟨u, hu⟩ => ⟨u, ?_⟩
      rwa [State.client_move, if_neg]
      rintro rfl
      rw [hp] at hu
      contradiction

/-! ### One step -/

theorem Items.worker_move (hI : Items head s l tr) (hL : Life s) (hF : Flow s l)
    (hm : Move head s.shared s.worker v q out) :
    Items head (s.move v .worker q) (s.worker.list l) (tr ++ out) := by
  -- only `Dequeue` and `free` touch what the items are
  by_cases hdequeue : s.worker = .dequeue
  · obtain ⟨a, k, rfl⟩ := List.exists_cons_of_ne_nil (hF.more hdequeue)
    obtain ⟨hnode, hnext⟩ := hI.dequeue hdequeue
    rw [hdequeue] at hm ⊢
    cases hm with
    | take hpq _ | give hpq _ | signal hpq _ => cases hpq
    | dequeue =>
        rw [hnode, List.append_nil]
        exact hnext
  by_cases hfree : ∃ n, s.worker = .free n
  · obtain ⟨n, hfree⟩ := hfree
    rw [hfree] at hm ⊢
    cases hm with
    | take hpq _ | give hpq _ | signal hpq _ => cases hpq
    | free _ =>
        rw [List.append_nil]
        exact hI.free hfree
  have hclient : ∀ n, s.worker ≠ .enqueue n := by
    intro n hn
    have hworker := hL.worker
    rw [hn] at hworker
    contradiction
  obtain ⟨hqueues, hitems, hitem, hlist⟩ :=
    move_frame hm hdequeue hclient fun n hn => hfree ⟨n, hn⟩
  rw [hlist]
  refine hI.frame hqueues hitems hitem ?_
  have horder := hI.order
  rw [State.worker_move]
  rcases move_due hm hdequeue hclient with ⟨hcalled, hqueued, hdue⟩ | ⟨n, w, hp, hn, rfl, rfl⟩
  · rw [hdue, called_append, queued_append, hcalled, hqueued, List.append_nil, List.append_nil]
    exact horder
  · rw [hp] at horder
    rw [called_append, queued_append, ← horder]
    simp [Pc.due, hn, called, queued]

theorem Items.client_move {t : τ} (hI : Items head s l tr) (hL : Life s)
    (hm : Move head s.shared (s.client t) v q out) :
    Items head (s.move v (.client t) q) ((s.client t).list l) (tr ++ out) := by
  have hclient := hL.client t
  by_cases henqueue : ∃ n, s.client t = .enqueue n
  · obtain ⟨n, henqueue⟩ := henqueue
    rw [henqueue] at hm ⊢
    cases hm with
    | take hpq _ | give hpq _ | signal hpq _ => cases hpq
    | enqueue hn => exact hI.enqueue henqueue hn
  have hne : ∀ {pc : Pc ν}, pc.ofWorker = true → s.client t ≠ pc := by
    rintro pc hpc rfl
    rw [hclient] at hpc
    contradiction
  obtain ⟨hqueues, hitems, hitem, hlist⟩ := move_frame hm (hne rfl)
    (fun n hn => henqueue ⟨n, hn⟩) fun n => hne rfl
  rw [hlist]
  refine hI.frame hqueues hitems hitem ?_
  rw [State.worker_move_client]
  rcases move_due hm (hne rfl) fun n hn => henqueue ⟨n, hn⟩ with
    ⟨hcalled, hqueued, -⟩ | ⟨n, w, hp, -⟩
  · rw [called_append, queued_append, hcalled, hqueued, List.append_nil, List.append_nil]
    exact hI.order
  · exact absurd hp (hne rfl)

/-- What holds after every run. -/
structure Inv (head : ν) (s : State τ ν ω) (l : List ν) (tr : List (Event ω)) : Prop where
  life : Life s
  items : Items head s l tr
  flow : Flow s l
  calm : .fault ∉ tr

omit [DecidableEq τ] in
/-- Nothing that a thread uses is gone. -/
theorem Inv.usable (hI : Inv head s l tr) (p : Party τ) : Usable head s.shared (s.pc p) := by
  obtain ⟨hL, hM, hF, -⟩ := hI
  have hitem : ∀ {n}, (s.pc p).item = some n → (s.shared.items n).isSome :=
    fun hn => (hM.items _).mpr (.inr ⟨p, hn⟩)
  cases p with
  | worker =>
      have hlost : ∀ {pc : Pc ν}, pc.lost = true → s.pc .worker ≠ pc := by
        rintro pc hpc rfl
        exact Bool.false_ne_true (hF.sound.symm.trans hpc)
      refine ⟨fun h => .inr (hL.freed.mp h), fun h => .inr (hL.lock.mp h),
        fun h => .inr (hL.event.mp h), hitem, ⟨hlost rfl, hlost rfl, hlost rfl⟩, fun hc => ?_,
        hlost rfl, fun n => hlost rfl⟩
      have hl := hF.empty (by rw [State.worker, hc]; rfl)
      rw [hM.holds.isQueueEmpty (single_self head l), hl, List.isEmpty_nil]
  | client t =>
      have hclient := hL.client t
      have hidle : s.worker.cleans = true → s.client t = .idle := fun h => (hL.cleans h).2 t
      have hne : ∀ {pc : Pc ν}, pc.ofWorker = true → s.client t ≠ pc := by
        rintro pc hpc rfl
        rw [hclient] at hpc
        contradiction
      refine ⟨fun h => .inl (hidle ?_), fun h => .inl (hidle ?_), fun h => .inl (hidle ?_), hitem,
        ⟨hne rfl, hne rfl, hne rfl⟩, fun hc => absurd hc (hne rfl), hne rfl, fun n => hne rfl⟩
      · rw [hL.freed.mp h]
        rfl
      · by_contra hdirty
        exact absurd (hL.lock.mp h) (by simp [Pc.lockGone_of_notCleans hdirty])
      · by_contra hdirty
        exact absurd (hL.event.mp h) (by simp [Pc.eventGone_of_notCleans hdirty])

theorem Inv.run (hI : Inv head s l tr) {p : Party τ}
    (hstep : s.shared.stmt head (s.pc p) = some (v, q, out)) :
    Inv head (s.move v p q) ((s.pc p).list l) (tr ++ out) := by
  have hm := move_of_stmt (hI.usable p) hstep
  have hcalm : .fault ∉ tr ++ out := by
    rw [List.mem_append, not_or]
    exact ⟨hI.calm, move_calm hm⟩
  obtain ⟨hL, hM, hF, -⟩ := hI
  cases p with
  | worker => exact ⟨hL.worker_move hm, hM.worker_move hL hF hm, hF.worker_move hL hM hm, hcalm⟩
  | client t => exact ⟨hL.client_move hm, hM.client_move hL hm, hF.client_move hL hm, hcalm⟩

/-- What the callers owe. No call is made after `DestroyWorkQueue`, which is
called when no other call is under way; and `malloc` gives memory that is not in
use. -/
def MayAct (head : ν) (s : State τ ν ω) : Action τ ν ω → Prop
  | .queueWorkItem _ _ item =>
      s.shared.exitThread = false ∧ (∀ u, (s.client u).destroys = false) ∧
        ∀ n, item = some n → s.shared.items n = none ∧ n ≠ head
  | .destroyWorkQueue _ => s.shared.exitThread = false ∧ ∀ u, s.client u = .idle
  | .run _ => True

omit [DecidableEq ν] in
theorem Life.begin {t : τ} (hL : Life s) (hidle : s.client t = .idle)
    (hexit : s.shared.exitThread = false) (hv : v.lock = s.shared.lock ∧ v.event = s.shared.event ∧
      v.exitThread = s.shared.exitThread ∧ v.freed = s.shared.freed)
    (hq : q.ofWorker = false ∧ q.holds = false ∧ q.flagged = false)
    (halone : ∀ u, u ≠ t → q.destroys = true ∨ (s.client u).destroys = true →
      q.destroys = true ∧ s.client u = .idle) :
    Life (s.move v (.client t) q) := by
  obtain ⟨hlock, hevent, hvexit, hfreed⟩ := hv
  constructor
  · simpa using hL.worker
  · intro u
    rw [State.client_move]
    split
    · exact hq.1
    · exact hL.client u
  · rw [State.move_shared, hlock, State.move_pc]
    refine hL.mutex.stay (hq.2.1.trans ?_)
    rw [show s.pc (.client t) = .idle from hidle]
    rfl
  · intro r u hr hur
    rw [State.client_move] at hr ⊢
    by_cases hrt : r = t
    · subst hrt
      rw [if_pos rfl] at hr
      rw [if_neg hur]
      exact (halone u hur (.inl hr)).2
    · rw [if_neg hrt] at hr
      have hr' := (halone r hrt (.inr hr)).2
      rw [hr'] at hr
      contradiction
  · intro h
    rw [State.move_shared, hvexit, hexit] at h
    contradiction
  · intro u hu
    rw [State.client_move] at hu
    split at hu
    · rw [hq.2.2] at hu
      contradiction
    · rw [State.move_shared, hvexit]
      exact hL.flags hu
  · intro exit hw
    rw [State.worker_move_client] at hw
    rw [State.move_shared, hvexit]
    exact hL.exits hw
  · intro h
    rw [State.worker_move_client] at h
    rw [(hL.cleans h).1] at hexit
    contradiction
  · simpa [hlock] using hL.lock
  · simpa [hevent] using hL.event
  · simpa [hfreed] using hL.freed

omit [DecidableEq ν] in
theorem Flow.begin {t : τ} (hF : Flow s l) (hidle : s.client t = .idle)
    (hevent : v.event = s.shared.event) (hexit : v.exitThread = s.shared.exitThread) :
    Flow (s.move v (.client t) q) l := by
  constructor
  · simpa using hF.more
  · simpa using hF.empty
  · simpa using hF.sound
  · rw [State.worker_move_client, State.move_shared, hevent, hexit]
    refine fun hw hreason => (hF.wake hw hreason).imp_right fun ⟨u, hu⟩ => ⟨u, ?_⟩
    rwa [State.client_move, if_neg]
    rintro rfl
    rw [hidle] at hu
    contradiction

/-- The invariant is kept by whatever happens. -/
theorem Inv.step (hI : Inv head s l tr) {a : Action τ ν ω} (hmay : MayAct head s a)
    {s' : State τ ν ω} (hstep : s.step head a = some (s', out)) :
    ∃ l', Inv head s' l' (tr ++ out) := by
  cases a with
  | run p =>
      obtain ⟨⟨v, q, out⟩, hstmt, hnext⟩ := Option.map_eq_some_iff.mp hstep
      obtain ⟨rfl, rfl⟩ := Prod.mk.injEq .. ▸ hnext
      exact ⟨_, hI.run hstmt⟩
  | destroyWorkQueue t =>
      obtain ⟨hidle, hnext⟩ := Option.ite_none_right_eq_some.mp hstep
      obtain ⟨rfl, rfl⟩ := Prod.mk.injEq .. ▸ Option.some_inj.mp hnext
      have hitem : (s.pc (.client t)).item = none := congrArg Pc.item hidle
      refine ⟨l, hI.life.begin hidle hmay.1 ⟨rfl, rfl, rfl, rfl⟩ ⟨rfl, rfl, rfl⟩
        fun u _ _ => ⟨rfl, hmay.2 u⟩, hI.items.frame rfl rfl hitem.symm ?_,
        hI.flow.begin hidle rfl rfl, by simpa using hI.calm⟩
      rw [State.worker_move_client, List.append_nil]
      exact hI.items.order
  | queueWorkItem t w item =>
      obtain ⟨hidle, hnext⟩ := Option.ite_none_right_eq_some.mp hstep
      obtain ⟨hexit, hnone, hfresh⟩ := hmay
      cases item with
      | none =>
          obtain ⟨rfl, rfl⟩ := Prod.mk.injEq .. ▸ Option.some_inj.mp hnext
          obtain ⟨hholds, hitems, hapart, hone, hhead, horder⟩ := hI.items
          refine ⟨l, hI.life, ⟨hholds, hitems, hapart, hone, hhead, ?_⟩, hI.flow, ?_⟩
          · simpa [called, queued] using horder
          · simpa using hI.calm
      | some n =>
          obtain ⟨rfl, rfl⟩ := Prod.mk.injEq .. ▸ Option.some_inj.mp hnext
          obtain ⟨hn, hhead⟩ := hfresh n rfl
          refine ⟨l, hI.life.begin hidle hexit ⟨rfl, rfl, rfl, rfl⟩ ⟨rfl, rfl, rfl⟩
            fun u _ hu => ?_, ?_, hI.flow.begin hidle rfl rfl, by simpa using hI.calm⟩
          · rw [hnone u] at hu
            exact absurd hu (by simp [Pc.destroys])
          · rw [List.append_nil]
            exact hI.items.begin hidle hn hhead

theorem Inv.init (m : Queues ν) (head : ν) : Inv head (workQueue τ ω m head).init [] [] := by
  have hfree : ∀ r, ((workQueue τ ω m head).init.pc r).holds = false := by
    rintro (_ | t) <;> rfl
  have hnone : ∀ r, ((workQueue τ ω m head).init.pc r).item = none := by
    rintro (_ | t) <;> rfl
  have hholds : Holds (initQueue m (some head)) (single head []) := by
    have hempty : Holds m fun _ => none := ⟨⟨by simp, by simp⟩, by simp⟩
    exact hempty.initQueue (by simp)
  have hw : (workQueue τ ω m head).init.worker = .waitEvent := rfl
  have hno : ∀ {P : Prop}, false = true → P := fun h => (Bool.false_ne_true h).elim
  constructor
  · refine ⟨rfl, fun _ => rfl, ⟨fun {r u} hr => ?_, iff_of_false ?_ ?_⟩, hno, hno, hno,
      fun h => absurd h (by simp [hw]), hno, iff_of_false ?_ ?_, iff_of_false ?_ ?_,
      iff_of_false ?_ ?_⟩
    · exact absurd hr (by simp [hfree r])
    · simp [hfree]
    all_goals simp [workQueue, create, State.worker, Pc.lockGone, Pc.eventGone]
  · refine ⟨hholds, fun n => iff_of_false ?_ ?_, fun {r n} hr => ?_, fun {r r' n} hr => ?_, rfl,
      rfl⟩
    · simp [workQueue, create]
    · simp [hnone]
    · exact absurd hr (by simp [hnone r])
    · exact absurd hr (by simp [hnone r])
  · refine ⟨fun h => absurd h (by simp [hw]), hno, rfl, fun _ h => absurd h ?_⟩
    simp [workQueue, create]
  · simp

theorem exists_inv (m : Queues ν) (head : ν) {h : List (Action τ ν ω)}
    (hmay : (workQueue τ ω m head).Along (MayAct head) h) :
    ∃ l, Inv head ((workQueue τ ω m head).after h) l
      ((workQueue τ ω m head).traceFrom (workQueue τ ω m head).init h) := by
  refine Machine.Along.trace_of_invariant (J := fun s tr => ∃ l, Inv head s l tr)
    ⟨[], Inv.init m head⟩ ?_ hmay
  rintro s tr a ⟨l, hI⟩ ha
  show ∃ l, Inv head (((s.step head a).map Prod.fst).getD s) l
    (tr ++ ((s.step head a).map Prod.snd).getD [])
  cases hstep : s.step head a with
  | none => exact ⟨l, by simpa using hI⟩
  | some r => exact hI.step ha hstep

/-- Whatever the order in which the threads run: no thread uses memory or a
semaphore that is gone, one thread at a time is in a part guarded by `Lock`, and
the functions are called in the order in which their work items entered the
queue, each once. What is still to be called is in the worker's hand or in the
queue. -/
theorem workQueue_order (m : Queues ν) (head : ν) (h : List (Action τ ν ω))
    (hmay : (workQueue τ ω m head).Along (MayAct head) h) :
    let s := (workQueue τ ω m head).after h
    let tr := (workQueue τ ω m head).traceFrom (workQueue τ ω m head).init h
    .fault ∉ tr ∧ (∀ p r, (s.pc p).holds = true → (s.pc r).holds = true → p = r) ∧
      ∃ l, Holds s.shared.queues (single head l) ∧
        queued tr = called tr ++ (s.worker.due.bind s.shared.items).toList ++
          l.filterMap s.shared.items := by
  obtain ⟨l, hI⟩ := exists_inv m head hmay
  exact ⟨hI.calm, fun _ _ => hI.life.mutex.one, l, hI.items.holds, hI.items.order.symm⟩

/-- Two work items, of which the first to enter the queue is called. -/
theorem workQueue_order_two :
    let m : Queues ℕ := ⟨⟨id, id⟩, fun _ => 0⟩
    let h : List (Action Bool ℕ ℕ) :=
      [.queueWorkItem true 5 (some 1), .queueWorkItem false 6 (some 2), .run (.client false),
        .run (.client false), .run (.client false), .run .worker, .run (.client false),
        .run (.client true), .run (.client true), .run (.client true), .run (.client true),
        .run .worker, .run .worker, .run .worker, .run .worker, .run .worker]
    let tr := (workQueue Bool ℕ m 0).traceFrom (workQueue Bool ℕ m 0).init h
    queued tr = [6, 5] ∧ called tr = [6] ∧ .fault ∉ tr := by
  refine ⟨by decide +kernel, by decide +kernel, (workQueue_order _ 0 _ ?_).1⟩
  refine ⟨⟨rfl, fun u => by cases u <;> rfl, ?_⟩, ⟨rfl, fun u => by cases u <;> rfl, ?_⟩, ?_⟩
  · rintro n ⟨⟩
    exact ⟨rfl, by decide⟩
  · rintro n ⟨⟩
    exact ⟨rfl, by decide⟩
  · simp [Machine.AlongFrom, MayAct]

end

end EspressifApp.WorkQueue
