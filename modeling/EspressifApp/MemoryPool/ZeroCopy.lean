import EspressifApp.MemoryPool.Blocks

/-!
`zero_copy_queue.c`: a memory pool, and a queue of FreeRTOS for pointers to its
items. A producer allocates an item, fills it and enqueues it; a consumer dequeues
it, reads it and frees it. The queue has as many places as the pool has items, so
that it is never full (`zeroCopyQueue_exchange`).

The queues of FreeRTOS are not part of the repository. They are a parameter here
(`QueueApi`), with what is promised of them (`QueueApi.Fifo`).
-/

namespace EspressifApp.MemoryPool

open Reactive Collections

/-- The queues of FreeRTOS, for pointers; `ρ` is the state of one. A call that
may wait says how long, and answers when it is done or the time is over. -/
structure QueueApi (ρ : Type*) where
  xQueueCreate : UInt32 → Option ρ
  xQueueSendToBack : ρ → ℕ → UInt32 → ρ × Bool
  xQueueReceive : ρ → UInt32 → ρ × Option ℕ

/-- What FreeRTOS promises: a queue has as many places as were asked for, a
pointer that is sent while one of them is free goes behind the others, and the
first one is received, or none while there is none. -/
structure QueueApi.Fifo {ρ : Type*} (api : QueueApi ρ) (length : ρ → ℕ) (items : ρ → List ℕ) :
    Prop where
  create : ∀ {n q}, api.xQueueCreate n = some q → length q = n.toNat ∧ items q = []
  send : ∀ {q} item ticks, (items q).length < length q →
    (api.xQueueSendToBack q item ticks).2 = true ∧
      length (api.xQueueSendToBack q item ticks).1 = length q ∧
      items (api.xQueueSendToBack q item ticks).1 = items q ++ [item]
  receive : ∀ q ticks, (api.xQueueReceive q ticks).2 = (items q).head? ∧
    length (api.xQueueReceive q ticks).1 = length q ∧
    items (api.xQueueReceive q ticks).1 = (items q).tail

/-- A `PvtZeroCopyQueue_t`, with the memory and the queue that its handles stand
for. -/
structure ZeroCopyQueue (ρ : Type*) where
  memory : Bytes
  pool : ℕ
  handle : ρ

section

variable {ρ : Type*} (api : QueueApi ρ)

/-- `ZcqCreateQueue`; `zcq` is what `malloc` answers. -/
def zcqCreateQueue (m : Bytes) (zcq block lock : ℕ) (itemSize itemCount alignment : ℤ) :
    Option (ZeroCopyQueue ρ) :=
  if zcq = 0 then none
  else
    match api.xQueueCreate (UInt32.ofInt itemCount) with
    | none => none
    | some handle =>
        let (m, pool) := createMemoryPool m block lock itemSize itemCount alignment
        if pool = 0 then none else some ⟨m, pool, handle⟩

def zcqAllocateItem (z : ZeroCopyQueue ρ) : ZeroCopyQueue ρ × ℕ :=
  let (m, item) := memoryPoolAllocate z.memory z.pool
  ({ z with memory := m }, item)

def zcqFreeItem (z : ZeroCopyQueue ρ) (item : ℕ) : ZeroCopyQueue ρ :=
  { z with memory := memoryPoolFree z.memory z.pool item }

def zcqEnqueueItem (z : ZeroCopyQueue ρ) (item : ℕ) (timeout : UInt32) : ZeroCopyQueue ρ × ℕ :=
  let (handle, success) := api.xQueueSendToBack z.handle item timeout
  ({ z with handle := handle }, if success then 1 else 0)

def zcqDequeueItem (z : ZeroCopyQueue ρ) (timeout : UInt32) : ZeroCopyQueue ρ × ℕ :=
  let (handle, received) := api.xQueueReceive z.handle timeout
  ({ z with handle := handle }, received.getD 0)

end

/-! ### What it is for -/

/-- The calls, and the bytes that producers and consumers write and read. -/
inductive ZcqCall
  | allocate
  | free (item : ℕ)
  | enqueue (item : ℕ) (timeout : UInt32)
  | dequeue (timeout : UInt32)
  | write (a : ℕ) (y : UInt8)
  | read (a : ℕ)

inductive ZcqReply
  | item (a : ℕ)
  | sent (n : ℕ)
  | byte (y : UInt8)
  deriving DecidableEq

def zeroCopyQueue {ρ : Type*} (api : QueueApi ρ) (z : ZeroCopyQueue ρ) :
    Machine (ZeroCopyQueue ρ) ZcqCall ZcqReply where
  init := z
  next z
    | .allocate => (zcqAllocateItem z).1
    | .free item => zcqFreeItem z item
    | .enqueue item timeout => (zcqEnqueueItem api z item timeout).1
    | .dequeue timeout => (zcqDequeueItem api z timeout).1
    | .write a y => { z with memory := Function.update z.memory a y }
    | .read _ => z
  out z
    | .allocate => [.item (zcqAllocateItem z).2]
    | .enqueue item timeout => [.sent (zcqEnqueueItem api z item timeout).2]
    | .dequeue timeout => [.item (zcqDequeueItem api z timeout).2]
    | .read a => [.byte (z.memory a)]
    | .free _ | .write .. => []

/-- Blocks of memory that go from one side to the other. -/
structure Exchange where
  pools : Pools
  queue : List ℕ

/-- There is always a place in the queue, the items leave it as they came, and what
was written into them stays there. -/
def exchange (P : Pools) (p : ℕ) : Machine Exchange ZcqCall ZcqReply where
  init := ⟨P, []⟩
  next E
    | .allocate => { E with pools := blocks.next E.pools (.allocate p) }
    | .free item => { E with pools := blocks.next E.pools (.free p item) }
    | .enqueue item _ => { E with queue := E.queue ++ [item] }
    | .dequeue _ => { E with queue := E.queue.tail }
    | .write a y => { E with pools := blocks.next E.pools (.write a y) }
    | .read _ => E
  out E
    | .allocate => [.item (E.pools.pop p).2]
    | .enqueue .. => [.sent 1]
    | .dequeue _ => [.item (E.queue.head?.getD 0)]
    | .read a => [.byte ((E.pools.data a).getD 0)]
    | .free _ | .write .. => []

def Exchange.Held (E : Exchange) (p item : ℕ) : Prop :=
  item ∉ E.queue ∧ ∃ q n, E.pools.pool p = some q ∧ E.pools.Out p n ∧ item = n + q.alignment

/-- Who has an item may free it or enqueue it, nobody writes to what the pools
keep, and only what was written is read. -/
def MayZcqCall (p : ℕ) (E : Exchange) : ZcqCall → Prop
  | .free item | .enqueue item _ => E.Held p item
  | .write a _ => ¬ E.pools.Keeps a
  | .read a => (E.pools.data a).isSome
  | .allocate | .dequeue _ => True

/-! ### Every run -/

section

variable {ρ : Type*} {api : QueueApi ρ} {length : ρ → ℕ} {items : ρ → List ℕ}

/-- A queue is the exchange of the items at `places`, each of which is free, in the
queue or with someone. -/
structure Exchanges (length : ρ → ℕ) (items : ρ → List ℕ) (p : ℕ) (s : Shape) (places : List ℕ)
    (z : ZeroCopyQueue ρ) (E : Exchange) : Prop where
  sound : E.pools.Sound
  memory : Represents z.memory E.pools
  pool : z.pool = p
  shape : E.pools.shapeOf p = some s
  among : ∀ {n}, E.pools.item n = some p → n ∈ places
  queue : items z.handle = E.queue
  length : length z.handle = places.length
  nodup : E.queue.Nodup
  out : ∀ {item}, item ∈ E.queue → ∃ n, E.pools.Out p n ∧ item = n + s.alignment

variable {p item : ℕ} {s : Shape} {places : List ℕ} {z : ZeroCopyQueue ρ} {E : Exchange}

theorem Exchanges.exists_pool (h : Exchanges length items p s places z E) :
    ∃ q, E.pools.pool p = some q ∧ q.toShape = s :=
  Option.map_eq_some_iff.mp h.shape

theorem Exchanges.length_lt (h : Exchanges length items p s places z E) (hheld : E.Held p item) :
    E.queue.length < places.length := by
  obtain ⟨hitem, q, n, hp, hn, rfl⟩ := hheld
  obtain ⟨q', hp', rfl⟩ := h.exists_pool
  obtain rfl : q = q' := Option.some_inj.mp (hp.symm.trans hp')
  have hsub : (n + q.alignment) :: E.queue ⊆ places.map (· + q.alignment) := by
    intro b hb
    rcases List.mem_cons.mp hb with rfl | hb
    · exact List.mem_map_of_mem (h.among hn.1)
    · obtain ⟨n', hn', rfl⟩ := h.out hb
      exact List.mem_map_of_mem (h.among hn'.1)
  have hnodup : ((n + q.alignment) :: E.queue).Nodup := List.nodup_cons.mpr ⟨hitem, h.nodup⟩
  have hle := (List.subperm_of_subset hnodup hsub).length_le
  rwa [List.length_map, List.length_cons] at hle

theorem Exchanges.withPools {m : Bytes} {P : Pools}
    (h : Exchanges length items p s places z E) (hP : P.Sound)
    (hm : Represents m P) (hitem : P.item = E.pools.item) (hshape : P.shapeOf = E.pools.shapeOf)
    (hout : ∀ {item}, item ∈ E.queue → ∃ n, P.Out p n ∧ item = n + s.alignment) :
    Exchanges length items p s places { z with memory := m } { E with pools := P } where
  sound := hP
  memory := hm
  pool := h.pool
  shape := hshape ▸ h.shape
  among := fun hn => h.among (hitem ▸ hn)
  queue := h.queue
  length := h.length
  nodup := h.nodup
  out := hout

theorem zcqCall_step (hapi : api.Fifo length items) (z₀ : ZeroCopyQueue ρ) (P : Pools)
    {call : ZcqCall} (h : Exchanges length items p s places z E) (hmay : MayZcqCall p E call) :
    (zeroCopyQueue api z₀).out z call = (exchange P p).out E call ∧
      Exchanges length items p s places ((zeroCopyQueue api z₀).next z call)
        ((exchange P p).next E call) := by
  obtain ⟨q, hp, rfl⟩ := h.exists_pool
  obtain rfl := h.pool
  cases call with
  | allocate =>
      obtain ⟨hP', hm', hreply⟩ := pop_step h.sound h.memory hp
      obtain ⟨hitem, hshape⟩ := E.pools.pop_frame z.pool
      refine ⟨congrArg (fun a => [ZcqReply.item a]) hreply,
        h.withPools hP' hm' hitem hshape fun ha => ?_⟩
      obtain ⟨n, hn, hna⟩ := h.out ha
      exact ⟨n, E.pools.pop_out hn, hna⟩
  | free item =>
      obtain ⟨hfresh, q', n, hp', hn, rfl⟩ := hmay
      obtain rfl : q = q' := Option.some_inj.mp (hp.symm.trans hp')
      have hfree : MayPoolCall E.pools (.free z.pool (n + q.alignment)) := ⟨q, n, hp, hn, rfl⟩
      obtain ⟨-, hP', hm'⟩ := call_step z.memory h.sound h.memory hfree
      have hpush : blocks.next E.pools (.free z.pool (n + q.alignment)) =
          E.pools.push z.pool n := by
        show E.pools.push z.pool _ = _
        rw [hp, Option.elim_some, Nat.add_sub_cancel]
      obtain ⟨hitem, hshape⟩ := E.pools.push_frame z.pool n
      refine ⟨rfl, h.withPools hP' hm' (hpush ▸ hitem) (hpush ▸ hshape) fun ha => ?_⟩
      obtain ⟨n', hn', rfl⟩ := h.out ha
      -- what is freed is not in the queue
      refine ⟨n', hpush ▸ E.pools.push_out hn hn' ?_, rfl⟩
      rintro rfl
      exact hfresh ha
  | enqueue item timeout =>
      -- the item is with its producer, so a place in the queue is free
      have hlt := h.length_lt hmay
      rw [← h.queue, ← h.length] at hlt
      obtain ⟨hsent, hlength, hitems⟩ := hapi.send item timeout hlt
      obtain ⟨hfresh, q', n, hp', hn, rfl⟩ := hmay
      obtain rfl : q = q' := Option.some_inj.mp (hp.symm.trans hp')
      refine ⟨?_, h.sound, h.memory, rfl, h.shape, h.among, ?_, hlength.trans h.length, ?_,
        fun ha => ?_⟩
      · show [ZcqReply.sent (if (api.xQueueSendToBack z.handle _ timeout).2 then 1 else 0)] = _
        rw [hsent]
        rfl
      · exact hitems.trans (congrArg (· ++ _) h.queue)
      · exact List.nodup_append.mpr ⟨h.nodup, List.nodup_singleton _, fun a ha b hb hab =>
          hfresh (List.mem_singleton.mp hb ▸ hab ▸ ha)⟩
      · rcases List.mem_append.mp ha with ha | ha
        · exact h.out ha
        · exact ⟨n, hn, List.mem_singleton.mp ha⟩
  | dequeue timeout =>
      obtain ⟨hreceived, hlength, hitems⟩ := hapi.receive z.handle timeout
      rw [h.queue] at hreceived hitems
      refine ⟨?_, h.sound, h.memory, rfl, h.shape, h.among, hitems, hlength.trans h.length,
        h.nodup.sublist (List.tail_sublist _), fun ha => h.out (List.mem_of_mem_tail ha)⟩
      show [ZcqReply.item ((api.xQueueReceive z.handle timeout).2.getD 0)] = _
      rw [hreceived]
      rfl
  | write a y =>
      obtain ⟨hP', hm'⟩ := write_step h.sound h.memory hmay y
      exact ⟨rfl, h.withPools hP' hm' rfl rfl h.out⟩
  | read a =>
      obtain ⟨y, hy⟩ := Option.isSome_iff_exists.mp hmay
      refine ⟨?_, h⟩
      show [ZcqReply.byte (z.memory a)] = [ZcqReply.byte ((E.pools.data a).getD 0)]
      rw [h.memory.data hy, hy, Option.getD_some]

theorem toNat_ofInt {n : ℤ} (hpos : 0 ≤ n) (hsmall : n < 2 ^ 31) :
    (UInt32.ofInt n).toNat = n.toNat := by
  rw [UInt32.ofInt, UInt32.toNat_ofNat']
  omega

theorem item_count {P : Pools} {block lock : ℕ} {itemSize itemCount alignment : ℤ}
    (hcreate : MayPoolCall P (.create block lock itemSize itemCount alignment)) {s : Shape}
    (hs : shape itemSize alignment = some s) (hblock : block ≠ 0) :
    0 ≤ itemCount ∧ itemCount < 2 ^ 31 := by
  obtain ⟨-, hpos, hsize, -⟩ := hcreate s hs hblock
  rw [memPoolSize] at hsize
  have hone : (1 : ℤ) ≤ s.size := by
    have := s.four_le
    have := s.fits
    omega
  have hle := Int.mul_le_mul_of_nonneg_left hone hpos
  omega

theorem created_exchanges (hapi : api.Fifo length items) {m : Bytes} {P P' : Pools} (hP : P.Sound)
    (hm : Represents m P) {zcq block lock : ℕ} {itemSize itemCount alignment : ℤ}
    (hcreate : MayPoolCall P (.create block lock itemSize itemCount alignment))
    (hz : zcqCreateQueue api m zcq block lock itemSize itemCount alignment = some z)
    (hP' : P' = (P.create block lock itemSize itemCount alignment).1) :
    ∃ s, Exchanges length items block s (Regions.places (block + 20) s.size itemCount.toNat) z
      ⟨P', []⟩ := by
  obtain ⟨hsound, hmemory, hreply⟩ := create_step hP hm hcreate
  rw [zcqCreateQueue] at hz
  split at hz
  · exact absurd hz.symm (Option.some_ne_none z)
  split at hz
  · exact absurd hz.symm (Option.some_ne_none z)
  next handle hhandle =>
    dsimp only at hz
    split at hz
    · exact absurd hz.symm (Option.some_ne_none z)
    next hpool =>
      obtain ⟨hblock, s, hs, hshape, hplaces⟩ := hP.created hcreate (hreply ▸ hpool)
      obtain ⟨hlength, hitems⟩ := hapi.create hhandle
      obtain rfl := Option.some_inj.mp hz
      subst hP'
      refine ⟨s, hsound, hmemory, hreply.trans hblock, hshape, hplaces, hitems, ?_,
        List.nodup_nil, fun ha => absurd ha List.not_mem_nil⟩
      have hcount := item_count hcreate hs (hblock ▸ hreply ▸ hpool)
      rw [Regions.length_places, hlength, toNat_ofInt hcount.1 hcount.2]

/-- The exchange of a new queue goes on. -/
theorem exchanges_after (hapi : api.Fifo length items) {m : Bytes} {P P' : Pools} (hP : P.Sound)
    (hm : Represents m P) {zcq block lock : ℕ} {itemSize itemCount alignment : ℤ}
    (hcreate : MayPoolCall P (.create block lock itemSize itemCount alignment))
    (hz : zcqCreateQueue api m zcq block lock itemSize itemCount alignment = some z)
    (hP' : P' = (P.create block lock itemSize itemCount alignment).1) (calls : List ZcqCall)
    (hcalls : (exchange P' block).Along (MayZcqCall block) calls) :
    (∃ s places, Exchanges length items block s places ((zeroCopyQueue api z).after calls)
        ((exchange P' block).after calls)) ∧
      (zeroCopyQueue api z).traceFrom z calls = (exchange P' block).traceFrom ⟨P', []⟩ calls := by
  obtain ⟨s, hstart⟩ := created_exchanges hapi hP hm hcreate hz hP'
  have hend := Machine.simulation (M := zeroCopyQueue api z) (N := exchange P' block)
    hstart (fun _ _ _ h hmay => zcqCall_step hapi z P' h hmay) calls hcalls
  exact ⟨⟨s, _, hend.1⟩, hend.2⟩

end

/-- Whatever the order in which producers and consumers call: `ZcqEnqueueItem` never
fails, the items leave the queue in the order in which they came, and whoever reads
one finds what was written into it last. In the end as ever, the items in the queue
are different ones, and not free. -/
theorem zeroCopyQueue_exchange {ρ : Type*} {api : QueueApi ρ} {length : ρ → ℕ}
    {items : ρ → List ℕ} (hapi : api.Fifo length items) {m : Bytes} {P : Pools} (hP : P.Sound)
    (hm : Represents m P) {zcq block lock : ℕ} {itemSize itemCount alignment : ℤ}
    (hcreate : MayPoolCall P (.create block lock itemSize itemCount alignment))
    {z : ZeroCopyQueue ρ}
    (hz : zcqCreateQueue api m zcq block lock itemSize itemCount alignment = some z)
    {P' : Pools} (hP' : P' = (P.create block lock itemSize itemCount alignment).1)
    (calls : List ZcqCall) (hcalls : (exchange P' block).Along (MayZcqCall block) calls) :
    (zeroCopyQueue api z).traceFrom z calls = (exchange P' block).traceFrom ⟨P', []⟩ calls ∧
      ((exchange P' block).after calls).queue.Nodup ∧
      ∀ item ∈ ((exchange P' block).after calls).queue, ∃ q n,
        ((exchange P' block).after calls).pools.pool block = some q ∧
        ((exchange P' block).after calls).pools.Out block n ∧ item = n + q.alignment := by
  obtain ⟨⟨s, places, hend⟩, htrace⟩ := exchanges_after hapi hP hm hcreate hz hP' calls hcalls
  refine ⟨htrace, hend.nodup, fun item hitem => ?_⟩
  obtain ⟨q, hp, hq⟩ := hend.exists_pool
  obtain ⟨n, hn, hna⟩ := hend.out hitem
  exact ⟨q, n, hp, hn, hq ▸ hna⟩

/-- A queue that is a list, and how long it may get. -/
structure ListQueue where
  length : ℕ
  items : List ℕ

def listQueues : QueueApi ListQueue where
  xQueueCreate n := if n = 0 then none else some ⟨n.toNat, []⟩
  xQueueSendToBack q item _ :=
    if q.items.length < q.length then ({ q with items := q.items ++ [item] }, true)
    else (q, false)
  xQueueReceive q _ := ({ q with items := q.items.tail }, q.items.head?)

theorem listQueues_fifo : listQueues.Fifo ListQueue.length ListQueue.items where
  create := by
    intro n q hq
    obtain ⟨-, hq⟩ := (Option.ite_none_left_eq_some ..).mp hq
    obtain rfl := Option.some_inj.mp hq
    exact ⟨rfl, rfl⟩
  send := by
    intro q item ticks hplace
    simp [listQueues, hplace]
  receive _ _ := ⟨rfl, rfl, rfl⟩

/-- Two items go through the queue. -/
theorem zeroCopyQueue_exchange_two :
    (zcqCreateQueue listQueues (fun _ => 0) 32 64 1 8 2 4).map (fun z =>
        (zeroCopyQueue listQueues z).traceFrom z
          [.allocate, .allocate, .enqueue 100 5, .write 88 7, .enqueue 88 5, .dequeue 0,
            .dequeue 0, .read 88, .dequeue 0]) =
      some [.item 100, .item 88, .sent 1, .sent 1, .item 100, .item 88, .byte 7, .item 0] := by
  have hcreate : MayPoolCall blocks.init (.create 64 1 8 2 4) := by
    intro s hs _
    obtain rfl := Option.some_inj.mp hs
    exact ⟨by decide, by decide, by decide, init_room (by decide) (by decide)⟩
  have hout : ∀ {P : Pools} {q : Pool} {n : ℕ}, P.item n = some 64 → P.pool 64 = some q →
      n ∉ q.free → P.Out 64 n := fun hitem hp hfree =>
    ⟨hitem, fun q' hp' => Option.some_inj.mp (hp.symm.trans hp') ▸ hfree⟩
  obtain ⟨z, hz⟩ : ∃ z, zcqCreateQueue listQueues (fun _ => 0) 32 64 1 8 2 4 = some z := ⟨_, rfl⟩
  -- the item at 84 is with the caller that writes to it
  have hheld : (exchange (blocks.init.create 64 1 8 2 4).1 64).Along (MayZcqCall 64)
      [.allocate, .allocate, .enqueue 100 5] :=
    ⟨trivial, trivial, ⟨by decide, _, 96, rfl, hout rfl rfl (by decide), rfl⟩, trivial⟩
  obtain ⟨⟨s, places, hbefore⟩, -⟩ := exchanges_after listQueues_fifo init_sound
    (init_represents fun _ => 0) hcreate hz rfl _ hheld
  have hwrite := (hbefore.sound.private (n := 84) (a := 88) (hout rfl rfl (by decide))
    ⟨64, _, rfl, rfl, by decide, by decide⟩).1
  rw [hz]
  exact congrArg some (zeroCopyQueue_exchange listQueues_fifo init_sound
    (init_represents fun _ => 0) hcreate hz rfl
    [.allocate, .allocate, .enqueue 100 5, .write 88 7, .enqueue 88 5, .dequeue 0, .dequeue 0,
      .read 88, .dequeue 0]
    ⟨trivial, trivial, hheld.2.2.1, hwrite,
      ⟨by decide, _, 84, rfl, hout rfl rfl (by decide), rfl⟩, trivial, trivial, rfl, trivial,
      trivial⟩).1

end EspressifApp.MemoryPool
