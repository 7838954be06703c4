import EspressifApp.MemoryPool.Blocks
import Mathlib.Data.Int.ModEq

/-!
Where memory pools do less than they say.

What a pool hands out is aligned as its `Buffer` is, which is 20 bytes behind what
`malloc` gave (`createMemoryPool_aligned_iff`), so from eight bytes on it usually is
not (`createMemoryPool_never_aligned`). And `AddExtraMemoryToPoolStatic`
does not count what it has used of the memory it was given
(`addExtraMemoryToPoolStatic_goes_on`).
-/

namespace EspressifApp.MemoryPool

open Reactive Collections

section

variable {m : Bytes} {P : Pools} {p b n lock base count : ℕ} {q : Pool} {s t : Shape}
  {itemSize itemCount alignment : ℤ}

/-! ### The items of one pool -/

theorem Pools.build_frame (hb : b ≠ p) :
    (P.build b lock t base count).1.shapeOf p = P.shapeOf p ∧
      ∀ {n}, (P.build b lock t base count).1.item n = some p → P.item n = some p := by
  rw [build]
  split
  · exact ⟨rfl, id⟩
  split
  · exact ⟨rfl, id⟩
  obtain ⟨hitem, hshape⟩ := ((P.install b t).grant b base t.size count).pushAll_frame b
    (Regions.places base t.size count)
  constructor
  · show Pools.shapeOf _ p = _
    rw [hshape]
    show (Function.update P.pool b _ p).map _ = _
    rw [Function.update_of_ne hb.symm, shapeOf]
  · intro n hn
    have hn : (if n ∈ Regions.places base t.size count then some b else P.item n) = some p :=
      (congrFun hitem n).symm.trans hn
    split at hn
    · exact absurd (Option.some_inj.mp hn) hb
    · exact hn

theorem next_frame {call : PoolCall} (hp : P.pool p = some q) (hmay : MayPoolCall P call)
    (hextra : ∀ ptr count, call ≠ .extraBlock p ptr count) :
    (blocks.next P call).shapeOf p = P.shapeOf p ∧
      ∀ {n}, (blocks.next P call).item n = some p → P.item n = some p := by
  -- whatever is created is not where the pool is
  have hroom : ∀ {b k}, P.Room b k → 0 < k → b ≠ p := by
    rintro b k hb hk rfl
    rw [hb.pool_eq_none le_rfl (by omega)] at hp
    exact Option.some_ne_none q hp.symm
  cases call with
  | create block lock itemSize itemCount alignment =>
      show (P.create block lock itemSize itemCount alignment).1.shapeOf p = _ ∧
        ∀ {n}, (P.create block lock itemSize itemCount alignment).1.item n = some p → _
      rw [Pools.create]
      cases hs : shape itemSize alignment with
      | none => exact ⟨rfl, id⟩
      | some s =>
          by_cases hblock : block = 0
          · dsimp only
            rw [Pools.build, if_pos hblock]
            exact ⟨rfl, id⟩
          · obtain ⟨-, hcount, -, hb⟩ := hmay s hs hblock
            refine Pools.build_frame (hroom hb ?_)
            have : 0 ≤ itemCount * (s.size : ℤ) := by positivity
            rw [memPoolSize]
            omega
  | createStatic block lock itemSize buffer bufferSize alignment =>
      show (P.createStatic block lock itemSize buffer bufferSize alignment).1.shapeOf p = _ ∧
        ∀ {n}, (P.createStatic block lock itemSize buffer bufferSize alignment).1.item n =
          some p → _
      rw [Pools.createStatic]
      cases hs : shape itemSize alignment with
      | none => exact ⟨rfl, id⟩
      | some s =>
          by_cases hblock : block = 0
          · dsimp only
            rw [Pools.build, if_pos hblock]
            exact ⟨rfl, id⟩
          · refine Pools.build_frame (hroom (hmay s hs hblock).2.2.1 ?_)
            rw [memPoolSize]
            omega
  | extraBlock pool ptr itemCount =>
      have hne : pool ≠ p := fun h => hextra ptr itemCount (by rw [h])
      show (P.extra pool ptr itemCount).shapeOf p = _ ∧
        ∀ {n}, (P.extra pool ptr itemCount).item n = some p → _
      rw [Pools.extra]
      split
      · exact ⟨rfl, id⟩
      · split
        · exact ⟨rfl, id⟩
        · refine ⟨rfl, fun {n} hn => ?_⟩
          rw [Pools.grant] at hn
          dsimp only at hn
          split at hn
          · exact absurd (Option.some_inj.mp hn) hne
          · exact hn
  | extraTurn pool node =>
      obtain ⟨hitem, hshape⟩ := P.push_frame pool node
      exact ⟨congrFun hshape p, fun {n} hn => hitem ▸ hn⟩
  | allocate pool =>
      obtain ⟨hitem, hshape⟩ := P.pop_frame pool
      exact ⟨congrFun hshape p, fun {n} hn => hitem ▸ hn⟩
  | free pool memory =>
      obtain ⟨hitem, hshape⟩ := P.push_frame pool
        (memory - ((P.pool pool).elim 0 fun q => q.alignment))
      exact ⟨congrFun hshape p, fun {n} hn => hitem ▸ hn⟩
  | write a y => exact ⟨rfl, id⟩
  | read a => exact ⟨rfl, id⟩

/-! ### Alignment -/

/-- All items lie as `base` does. -/
structure Pools.LieAs (P : Pools) (p base : ℕ) (s : Shape) : Prop where
  sound : P.Sound
  shape : P.shapeOf p = some s
  items : ∀ {n}, P.item n = some p → (n : ℤ) ≡ base [ZMOD s.alignment]

theorem Pools.LieAs.pop_iff (h : P.LieAs p base s) (hne : (P.pop p).2 ≠ 0) :
    (s.alignment : ℤ) ∣ (P.pop p).2 ↔ (s.alignment : ℤ) ∣ base := by
  obtain ⟨q, hp, rfl⟩ := Option.map_eq_some_iff.mp h.shape
  cases hfree : q.free with
  | nil =>
      rw [P.pop_nil hp hfree] at hne
      exact absurd rfl hne
  | cons n l =>
      have hitem := h.sound.free hp (hfree ▸ List.mem_cons_self)
      have hmod : ((n + q.alignment : ℕ) : ℤ) ≡ base [ZMOD q.alignment] := by
        rw [Nat.cast_add]
        exact (Int.add_modEq_right).trans (h.items hitem)
      rw [P.pop_cons hp hfree]
      exact hmod.dvd_iff

theorem Pools.LieAs.along (m₀ : Bytes) (h : P.LieAs p base s) (hm : Represents m P)
    {calls : List PoolCall} (hcalls : blocks.AlongFrom MayPoolCall P calls)
    (hextra : ∀ ptr count, .extraBlock p ptr count ∉ calls) :
    (memPool m₀).AlongFrom
      (fun m call => call = .allocate p → (memoryPoolAllocate m p).2 ≠ 0 →
        ((s.alignment : ℤ) ∣ (memoryPoolAllocate m p).2 ↔ (s.alignment : ℤ) ∣ base)) m calls := by
  induction calls generalizing m P with
  | nil => trivial
  | cons call calls ih =>
      obtain ⟨hmay, hcalls⟩ := hcalls
      obtain ⟨q, hp, -⟩ := Option.map_eq_some_iff.mp h.shape
      obtain ⟨-, hP', hm'⟩ := call_step m₀ h.sound hm hmay
      obtain ⟨hshape, hitems⟩ := next_frame hp hmay fun ptr count heq =>
        hextra ptr count (heq ▸ List.mem_cons_self)
      refine ⟨fun _ hne => ?_, ih ⟨hP', hshape.trans h.shape, fun hn => h.items (hitems hn)⟩ hm'
        hcalls fun ptr count hmem => hextra ptr count (List.mem_cons_of_mem call hmem)⟩
      rw [(pop_step h.sound hm hp).2.2] at hne ⊢
      exact h.pop_iff hne

theorem created_along (hP : P.Sound) (hm : Represents m P)
    (hcreate : MayPoolCall P (.create b lock itemSize itemCount alignment))
    (hpool : (createMemoryPool m b lock itemSize itemCount alignment).2 ≠ 0)
    {calls : List PoolCall}
    (hcalls : blocks.AlongFrom MayPoolCall
      (P.create b lock itemSize itemCount alignment).1 calls)
    (hextra : ∀ ptr count, .extraBlock b ptr count ∉ calls) :
    calculateAndVerifyAlignment alignment ≠ 0 ∧
      (memPool (createMemoryPool m b lock itemSize itemCount alignment).1).Along
        (fun m call => call = .allocate b → (memoryPoolAllocate m b).2 ≠ 0 →
          (max alignment 4 ∣ ((memoryPoolAllocate m b).2 : ℤ) ↔ max alignment 4 ∣ (b : ℤ) + 20))
        calls := by
  obtain ⟨hsound, hmemory, hreply⟩ := create_step hP hm hcreate
  obtain ⟨-, s, hs, hshape, hitems⟩ := hP.created hcreate (hreply ▸ hpool)
  have hverify : calculateAndVerifyAlignment alignment ≠ 0 := fun h0 =>
    absurd (hs.symm.trans (shape_eq_none h0)) (Option.some_ne_none s)
  have halignment : (s.alignment : ℤ) = max alignment 4 := by
    obtain ⟨s', hs', halignment, -⟩ := exists_shape itemSize hverify
    obtain rfl := Option.some_inj.mp (hs.symm.trans hs')
    rw [halignment, calculateAndVerifyAlignment_eq hverify]
  have hlie : (P.create b lock itemSize itemCount alignment).1.LieAs b (b + 20) s := by
    refine ⟨hsound, hshape, fun {n} hn => ?_⟩
    obtain ⟨i, -, rfl⟩ := Regions.mem_places.mp (hitems hn)
    have hdvd : (s.alignment : ℤ) ∣ ((i * s.size : ℕ) : ℤ) :=
      Int.natCast_dvd_natCast.mpr (s.dvd.mul_left i)
    rw [Nat.cast_add]
    exact (Int.modEq_zero_iff_dvd.mpr hdvd).add_left (b + 20 : ℕ) |>.trans (by rw [add_zero])
  have halong := hlie.along (createMemoryPool m b lock itemSize itemCount alignment).1 hmemory
    hcalls hextra
  rw [halignment, Nat.cast_add] at halong
  exact ⟨hverify, halong⟩

/-- What a pool of `CreateMemoryPool` hands out is aligned if and only if its buffer
is, whatever else happens, if it is given no extra memory. -/
theorem createMemoryPool_aligned_iff (hP : P.Sound) (hm : Represents m P)
    (hcreate : MayPoolCall P (.create b lock itemSize itemCount alignment))
    (hpool : (createMemoryPool m b lock itemSize itemCount alignment).2 ≠ 0)
    (calls : List PoolCall)
    (hcalls : blocks.AlongFrom MayPoolCall
      (P.create b lock itemSize itemCount alignment).1 calls)
    (hextra : ∀ ptr count, .extraBlock b ptr count ∉ calls) :
    (memPool (createMemoryPool m b lock itemSize itemCount alignment).1).Along
      (fun m call => call = .allocate b → (memoryPoolAllocate m b).2 ≠ 0 →
        (max alignment 4 ∣ ((memoryPoolAllocate m b).2 : ℤ) ↔ max alignment 4 ∣ (b : ℤ) + 20))
      calls :=
  (created_along hP hm hcreate hpool hcalls hextra).2

/-- A block whose address is a multiple of eight makes a pool that is not aligned. -/
theorem createMemoryPool_aligned_iff_one :
    ¬ (8 : ℤ) ∣ ((memoryPoolAllocate (createMemoryPool (fun _ => 0) 64 1 8 2 8).1 64).2 : ℤ) := by
  have hcreate : MayPoolCall blocks.init (.create 64 1 8 2 8) := by
    intro s hs _
    obtain rfl := Option.some_inj.mp hs
    exact ⟨by decide, by decide, by decide, init_room (by decide) (by decide)⟩
  have halong := createMemoryPool_aligned_iff init_sound (init_represents fun _ => 0) hcreate
    (by decide +kernel) [.allocate 64] ⟨rfl, trivial⟩ (by simp)
  have hiff := halong.1 rfl (by decide +kernel)
  exact fun haligned => absurd (hiff.mp haligned) (by decide)

/-- An alignment that is accepted is a power of two, so eight divides those from
eight on. -/
theorem eight_dvd (h : calculateAndVerifyAlignment alignment ≠ 0) (hmin : 8 ≤ alignment) :
    8 ∣ alignment := by
  obtain ⟨k, -, hk⟩ := calculateAndVerifyAlignment_ne_zero_iff.mp h
  rw [max_eq_left (by omega)] at hk
  rw [hk, show (8 : ℤ) = 2 ^ 3 from rfl]
  apply pow_dvd_pow
  by_contra hlt
  have hpow : (2 : ℤ) ^ k ≤ 2 ^ 2 := pow_le_pow_right₀ (by decide) (by omega)
  omega

/-- Where `malloc` gives multiples of eight, a pool that is to be aligned to eight
bytes or more hands out nothing that is. -/
theorem createMemoryPool_never_aligned (hP : P.Sound) (hm : Represents m P)
    (hcreate : MayPoolCall P (.create b lock itemSize itemCount alignment))
    (hpool : (createMemoryPool m b lock itemSize itemCount alignment).2 ≠ 0)
    (hblock : 8 ∣ b) (hmin : 8 ≤ alignment) (calls : List PoolCall)
    (hcalls : blocks.AlongFrom MayPoolCall
      (P.create b lock itemSize itemCount alignment).1 calls)
    (hextra : ∀ ptr count, .extraBlock b ptr count ∉ calls) :
    (memPool (createMemoryPool m b lock itemSize itemCount alignment).1).Along
      (fun m call => call = .allocate b → (memoryPoolAllocate m b).2 ≠ 0 →
        ¬ alignment ∣ ((memoryPoolAllocate m b).2 : ℤ)) calls := by
  obtain ⟨hverify, halong⟩ := created_along hP hm hcreate hpool hcalls hextra
  refine halong.of_invariant (I := fun _ => True) trivial (fun _ _ _ _ => trivial) ?_
  intro m call _ hiff hcall hne haligned
  have hbuffer := (hiff hcall hne).mp (by rwa [max_eq_left (by omega)])
  rw [max_eq_left (by omega)] at hbuffer
  have height := (eight_dvd hverify hmin).trans hbuffer
  omega

/-- The second item of a pool that is to be aligned to sixteen bytes. -/
theorem createMemoryPool_never_aligned_two :
    let m := (createMemoryPool (fun _ => 0) 64 1 8 2 16).1
    ¬ (16 : ℤ) ∣ ((memoryPoolAllocate (memoryPoolAllocate m 64).1 64).2 : ℤ) := by
  have hcreate : MayPoolCall blocks.init (.create 64 1 8 2 16) := by
    intro s hs _
    obtain rfl := Option.some_inj.mp hs
    exact ⟨by decide, by decide, by decide, init_room (by decide) (by decide)⟩
  have halong := createMemoryPool_never_aligned init_sound (init_represents fun _ => 0) hcreate
    (by decide +kernel) (by decide) (by decide) [.allocate 64, .allocate 64]
    ⟨rfl, rfl, trivial⟩ (by simp)
  exact halong.2.1 rfl (by decide +kernel)

/-! ### A loop that does not count -/

theorem pushExtraPreallocated_goes_on {ptr turn : ℕ} {size : ℤ} (hP : P.Sound)
    (hm : Represents m P) (hp : P.pool p = some q) (hsize : q.size ≤ size)
    (hout : ∀ a ∈ Regions.places ptr q.size turn, P.Out p a) (fuel : ℕ) :
    pushExtraPreallocated m p size (turn + fuel) ptr =
      pushExtraPreallocated (pushItems m p turn ptr) p size fuel (ptr + turn * q.size) := by
  -- on the turns taken: `size` is the same before each, so none is the last
  induction turn generalizing m P q ptr with
  | zero => rw [Nat.zero_add, Nat.zero_mul, pushItems, Nat.add_zero]
  | succ turn ih =>
      have hptr : P.Out p ptr := hout ptr List.mem_cons_self
      obtain ⟨hP', hm'⟩ := push_step hP hm hptr
      have hpush := P.push_pool hp (n := ptr)
      rw [Nat.succ_add, pushExtraPreallocated, if_pos (by rw [hm.size hp]; exact hsize), pushItems]
      dsimp only
      rw [hm'.size hpush, Nat.succ_mul, Nat.add_comm (turn * q.size), ← Nat.add_assoc]
      refine ih (q := { q with free := ptr :: q.free }) hP' hm' hpush hsize fun a ha => ?_
      refine P.push_out hptr (hout a (List.mem_cons_of_mem ptr ha)) ?_
      have : ptr + q.size ≤ a := (Regions.places_bounds ha).1
      have := q.size_pos
      omega

/-- `AddExtraMemoryToPoolStatic` does nothing when it is given less than an item.
Otherwise it goes on, for as many turns as there is memory that nobody has from
`ptr` on, and makes items of it all, however little of it was given. -/
theorem addExtraMemoryToPoolStatic_goes_on (hP : P.Sound) (hm : Represents m P)
    (hp : P.pool p = some q) {ptr : ℕ} {size : ℤ} :
    (size < q.size → addExtraMemoryToPoolStatic m p ptr size = some m) ∧
      (q.size ≤ size → ∀ turn, P.Room ptr (turn * q.size) →
        Represents (pushItems m p turn ptr)
          ((P.grant p ptr q.size turn).pushAll p (Regions.places ptr q.size turn)) ∧
        ∀ fuel, pushExtraPreallocated m p size (turn + fuel) ptr =
          pushExtraPreallocated (pushItems m p turn ptr) p size fuel (ptr + turn * q.size)) := by
  constructor
  · intro hlt
    have hturns : turns = 2 ^ 32 - 1 + 1 := rfl
    rw [addExtraMemoryToPoolStatic, hturns, pushExtraPreallocated,
      if_neg (by rw [hm.size hp]; omega)]
  · intro hle turn hroom
    obtain ⟨hP', hm', hout⟩ := grant_step hP hm hp hroom
    exact ⟨(pushAll_step hP' hm' hp rfl hout).2,
      pushExtraPreallocated_goes_on hP' hm' hp hle hout⟩

/-- Memory for one item is given, and after three the loop has not ended. -/
theorem addExtraMemoryToPoolStatic_goes_on_three :
    pushExtraPreallocated (createMemoryPool (fun _ => 0) 64 1 8 2 4).1 64 12 3 200 = none := by
  have hcreate : MayPoolCall blocks.init (.create 64 1 8 2 4) := by
    intro s hs _
    obtain rfl := Option.some_inj.mp hs
    exact ⟨by decide, by decide, by decide, init_room (by decide) (by decide)⟩
  obtain ⟨hP, hm, -⟩ := create_step init_sound (init_represents fun _ => 0) hcreate
  have hroom : (blocks.init.create 64 1 8 2 4).1.Room 200 (3 * 12) := by
    refine ⟨by decide, by decide, fun b l hb => ?_⟩
    have hother : ∀ {p'}, p' ≠ 64 → (blocks.init.create 64 1 8 2 4).1.pool p' = none ∧
        ∀ {n}, (blocks.init.create 64 1 8 2 4).1.item n ≠ some p' := fun hne => by
      obtain ⟨s, hs⟩ : ∃ s, shape 8 4 = some s := ⟨_, rfl⟩
      obtain ⟨hshape, hitem⟩ : (blocks.init.build 64 1 s 84 2).1.shapeOf _ = none ∧
          ∀ {n}, (blocks.init.build 64 1 s 84 2).1.item n = some _ → (none : Option ℕ) = some _ :=
        Pools.build_frame hne.symm
      rw [Pools.create, hs]
      exact ⟨Option.map_eq_none_iff.mp hshape, fun hn => Option.some_ne_none _ (hitem hn).symm⟩
    rcases Pools.regions_eq_some hb with ⟨q, hq, rfl⟩ | ⟨p', q, hitem, hq, rfl⟩
    · by_cases hb64 : b = 64
      · omega
      · rw [(hother hb64).1] at hq
        exact absurd hq.symm (Option.some_ne_none q)
    · by_cases hp64 : p' = 64
      · subst hp64
        obtain ⟨-, s, hs, -, hitems⟩ := init_sound.created hcreate (by decide +kernel)
        obtain rfl := Option.some_inj.mp hs
        obtain rfl := Option.some_inj.mp hq
        have hbounds := (Regions.places_bounds (hitems hitem)).2
        exact .inr (hbounds.trans (by decide))
      · exact absurd hitem (hother hp64).2
  exact (addExtraMemoryToPoolStatic_goes_on hP hm (p := 64) rfl).2 (by decide) 3 hroom |>.2 0

end

end EspressifApp.MemoryPool
