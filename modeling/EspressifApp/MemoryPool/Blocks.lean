import EspressifApp.MemoryPool.Pools
import EspressifApp.Reactive.Machine

/-!
Memory pools over every run.

Callers, of whom the mutex of a pool lets one at a time at its stack, see blocks of
memory: what they are given is theirs until they give it back.
-/

namespace EspressifApp.MemoryPool

open Reactive Collections

/-! ### Loops -/

section

variable {m : Bytes} {P : Pools} {p n n' base size count : ℕ} {q : Pool} {s : Shape}

theorem Pools.push_out (hn : P.Out p n) (hn' : P.Out p n') (hne : n' ≠ n) :
    (P.push p n).Out p n' := by
  rw [push]
  cases hp : P.pool p with
  | none => exact hn'
  | some q =>
      refine ⟨hn'.1, fun q' hq' hfree => ?_⟩
      have hq' : Function.update P.pool p (some { q with free := n :: q.free }) p = some q' := hq'
      rw [Function.update_self, Option.some_inj] at hq'
      subst hq'
      rcases List.mem_cons.mp hfree with rfl | hfree
      · exact hne rfl
      · exact hn'.2 q hp hfree

theorem Pools.pop_out (hn : P.Out p n) : (P.pop p).1.Out p n := by
  cases hp : P.pool p with
  | none =>
      rw [pop, hp]
      exact hn
  | some q =>
      cases hfree : q.free with
      | nil =>
          rw [P.pop_nil hp hfree]
          exact hn
      | cons n' l =>
          rw [P.pop_cons hp hfree]
          refine ⟨hn.1, fun q' hq' hmem => ?_⟩
          have hq' : Function.update P.pool p (some { q with free := l }) p = some q' := hq'
          rw [Function.update_self, Option.some_inj] at hq'
          subst hq'
          exact hn.2 q hp (hfree ▸ List.mem_cons_of_mem n' hmem)

theorem Pools.push_pool (hp : P.pool p = some q) :
    (P.push p n).pool p = some { q with free := n :: q.free } := by
  rw [push, hp]
  exact Function.update_self ..

/-- Handing items in and taking them changes neither whose they are nor what they
are like. -/
theorem Pools.push_frame (P : Pools) (p n : ℕ) :
    (P.push p n).item = P.item ∧ (P.push p n).shapeOf = P.shapeOf := by
  rw [push]
  cases hp : P.pool p with
  | none => exact ⟨rfl, rfl⟩
  | some q => exact ⟨rfl, funext fun b => P.setFree_shape hp b⟩

theorem Pools.pop_frame (P : Pools) (p : ℕ) :
    (P.pop p).1.item = P.item ∧ (P.pop p).1.shapeOf = P.shapeOf := by
  rw [pop]
  split
  · exact ⟨rfl, rfl⟩
  · next q hp =>
      split
      · exact ⟨rfl, rfl⟩
      · exact ⟨rfl, funext fun b => P.setFree_shape hp b⟩

theorem Pools.pushAll_frame (P : Pools) (p : ℕ) (ns : List ℕ) :
    (P.pushAll p ns).item = P.item ∧ (P.pushAll p ns).shapeOf = P.shapeOf := by
  induction ns generalizing P with
  | nil => exact ⟨rfl, rfl⟩
  | cons n ns ih =>
      obtain ⟨hitem, hshape⟩ := ih (P.push p n)
      exact ⟨hitem.trans (P.push_frame p n).1, hshape.trans (P.push_frame p n).2⟩

/-- The items of a block are handed in, one after another. -/
theorem pushAll_step (hP : P.Sound) (hm : Represents m P) (hp : P.pool p = some q)
    (hsize : q.size = size) (hout : ∀ a ∈ Regions.places base size count, P.Out p a) :
    (P.pushAll p (Regions.places base size count)).Sound ∧
      Represents (pushItems m p count base) (P.pushAll p (Regions.places base size count)) := by
  induction count generalizing P m base q with
  | zero => exact ⟨hP, hm⟩
  | succ count ih =>
      have hbase : P.Out p base := hout base List.mem_cons_self
      obtain ⟨hP', hm'⟩ := push_step hP hm hbase
      have hpush := P.push_pool hp (n := base)
      subst hsize
      rw [pushItems, hm'.size hpush]
      refine ih hP' hm' hpush rfl fun a ha => ?_
      refine P.push_out hbase (hout a (List.mem_cons_of_mem base ha)) ?_
      have := (Regions.places_bounds ha).1
      have := q.size_pos
      omega

/-- The loop over a given block takes as many turns as there are items in it. -/
theorem pushPreallocated_eq {itemSize bytes : ℤ} {fuel : ℕ} (hP : P.Sound) (hm : Represents m P)
    (hp : P.pool p = some q) (hsize : itemSize = q.size) (hcount : bytes.toNat / q.size = count)
    (hfuel : count < fuel) (hout : ∀ a ∈ Regions.places base q.size count, P.Out p a) :
    pushPreallocated m p itemSize fuel base bytes = some (pushItems m p count base) := by
  -- on the items that still fit; each turn takes the bytes of one off
  induction count generalizing P m base bytes fuel q with
  | zero =>
      cases fuel with
      | zero => contradiction
      | succ fuel =>
          have := (Nat.div_eq_zero_iff_lt q.size_pos).mp hcount
          rw [pushPreallocated, if_neg (by omega)]
          rfl
  | succ count ih =>
      cases fuel with
      | zero => contradiction
      | succ fuel =>
          have hbase : P.Out p base := hout base List.mem_cons_self
          obtain ⟨hP', hm'⟩ := push_step hP hm hbase
          have hpush := P.push_pool hp (n := base)
          have hpos := q.size_pos
          have hle : q.size ≤ bytes.toNat := by
            by_contra hlt
            rw [Nat.div_eq_of_lt (by omega)] at hcount
            omega
          have hrest : (bytes - q.size).toNat / q.size = count := by
            have := Nat.sub_mul_div bytes.toNat q.size 1
            rw [Nat.mul_one] at this
            rw [show (bytes - q.size).toNat = bytes.toNat - q.size by omega, this]
            omega
          rw [pushPreallocated, if_pos (by omega), pushItems]
          dsimp only
          rw [hm'.size hpush]
          refine ih hP' hm' hpush hsize hrest (by omega) fun a ha => ?_
          refine P.push_out hbase (hout a (List.mem_cons_of_mem base ha)) ?_
          have : base + q.size ≤ a := (Regions.places_bounds ha).1
          omega

end

/-! ### New pools -/

/-- A pool that begins at `block`, with the items from `base` on; zero when `malloc`
or the mutex fails. -/
def Pools.build (P : Pools) (block lock : ℕ) (s : Shape) (base count : ℕ) : Pools × ℕ :=
  if block = 0 then (P, 0)
  else if lock = 0 then (P.forget block 4, 0)
  else
    (((P.install block s).grant block base s.size count).pushAll block
      (Regions.places base s.size count), block)

def Pools.create (P : Pools) (block lock : ℕ) (itemSize itemCount alignment : ℤ) : Pools × ℕ :=
  match shape itemSize alignment with
  | none => (P, 0)
  | some s => P.build block lock s (block + 20) itemCount.toNat

def Pools.createStatic (P : Pools) (block lock : ℕ) (itemSize : ℤ) (buffer : ℕ)
    (bufferSize alignment : ℤ) : Pools × ℕ :=
  match shape itemSize alignment with
  | none => (P, 0)
  | some s => P.build block lock s buffer (bufferSize.toNat / s.size)

def Pools.extra (P : Pools) (p ptr : ℕ) (itemCount : ℤ) : Pools :=
  match P.pool p with
  | none => P
  | some q => if ptr = 0 then P else P.grant p ptr q.size itemCount.toNat

section

variable {m : Bytes} {P : Pools} {block lock base count : ℕ} {s : Shape}
  {itemSize alignment : ℤ}

theorem shape_eq_none (h : calculateAndVerifyAlignment alignment = 0) :
    shape itemSize alignment = none :=
  dif_pos h

theorem exists_shape (itemSize : ℤ) (h : calculateAndVerifyAlignment alignment ≠ 0) :
    ∃ s, shape itemSize alignment = some s ∧
      (s.alignment : ℤ) = calculateAndVerifyAlignment alignment ∧
      (s.size : ℤ) = calculateItemSize itemSize (calculateAndVerifyAlignment alignment) := by
  refine ⟨_, dif_neg h, ?_, ?_⟩
  · have := le_max_right alignment 4
    have := calculateAndVerifyAlignment_eq h
    show ((calculateAndVerifyAlignment alignment).toNat : ℤ) = _
    omega
  · have := le_max_right alignment 4
    have := calculateAndVerifyAlignment_eq h
    have := (calculateItemSize_bounds (s := itemSize)
      (a := calculateAndVerifyAlignment alignment) (by omega)).2.1
    show ((calculateItemSize itemSize _).toNat : ℤ) = _
    omega

theorem Pools.Room.install (hP : P.Sound) {a k : ℕ} (hblock : P.Room block 20)
    (hroom : P.Room a k) (hab : a + k ≤ block ∨ block + 20 ≤ a) :
    (P.install block s).Room a k := by
  refine ⟨hroom.1, hroom.2.1, ?_⟩
  rw [hP.install_regions hblock]
  exact hroom.2.2.insert hab

/-- A pool before the loop over its items. -/
theorem build_step (lock : ℕ) (hP : P.Sound) (hm : Represents m P) (hblock : P.Room block 20)
    (hsmall : s.size < 2 ^ 32) (hsize : (s.size : ℤ) = itemSize)
    (halignment : (s.alignment : ℤ) = alignment)
    (hbase : (P.install block s).Room base (count * s.size)) :
    ((P.install block s).grant block base s.size count).Sound ∧
      Represents (initPool m block lock itemSize alignment)
        ((P.install block s).grant block base s.size count) ∧
      ((P.install block s).grant block base s.size count).pool block = some ⟨s, []⟩ ∧
      ∀ a ∈ Regions.places base s.size count,
        ((P.install block s).grant block base s.size count).Out block a := by
  have hpool : (P.install block s).pool block = some ⟨s, []⟩ := Function.update_self ..
  obtain ⟨hP', hm'⟩ : (P.install block s).Sound ∧
      Represents (initPool m block lock itemSize alignment) (P.install block s) :=
    install_step hP hm hblock hsmall (by omega) (by omega)
  obtain ⟨hP'', hm'', hout⟩ := grant_step hP' hm' hpool hbase
  exact ⟨hP'', hm'', hpool, hout⟩

end

/-! ### Every run -/

/-- The calls, the critical sections of `AddExtraMemoryToPool`, and the bytes that
callers write and read. -/
inductive PoolCall
  | create (block lock : ℕ) (itemSize itemCount alignment : ℤ)
  | createStatic (block lock : ℕ) (itemSize : ℤ) (buffer : ℕ) (bufferSize alignment : ℤ)
  | extraBlock (pool ptr : ℕ) (itemCount : ℤ)
  | extraTurn (pool node : ℕ)
  | allocate (pool : ℕ)
  | free (pool memory : ℕ)
  | write (a : ℕ) (y : UInt8)
  | read (a : ℕ)

inductive PoolReply
  | pool (p : ℕ)
  | result (pass : Bool)
  | memory (a : ℕ)
  | byte (y : UInt8)
  | stuck
  deriving DecidableEq

def memPool (m : Bytes) : Machine Bytes PoolCall PoolReply where
  init := m
  next m
    | .create block lock itemSize itemCount alignment =>
        (createMemoryPool m block lock itemSize itemCount alignment).1
    | .createStatic block lock itemSize buffer bufferSize alignment =>
        ((createMemoryPoolStatic m block lock itemSize buffer bufferSize alignment).map
          Prod.fst).getD m
    | .extraTurn pool node => pushOnStack m (pool + 4) node
    | .allocate pool => (memoryPoolAllocate m pool).1
    | .free pool memory => memoryPoolFree m pool memory
    | .write a y => Function.update m a y
    | .extraBlock .. | .read _ => m
  out m
    | .create block lock itemSize itemCount alignment =>
        [.pool (createMemoryPool m block lock itemSize itemCount alignment).2]
    | .createStatic block lock itemSize buffer bufferSize alignment =>
        (createMemoryPoolStatic m block lock itemSize buffer bufferSize alignment).elim [.stuck]
          fun r => [.pool r.2]
    | .extraBlock _ ptr _ => [.result (decide (ptr ≠ 0))]
    | .allocate pool => [.memory (memoryPoolAllocate m pool).2]
    | .read a => [.byte (m a)]
    | .extraTurn .. | .free .. | .write .. => []

/-- What the calls are for: blocks that nobody else has. -/
def blocks : Machine Pools PoolCall PoolReply where
  init := ⟨fun _ => none, fun _ => none, fun _ => none⟩
  next P
    | .create block lock itemSize itemCount alignment =>
        (P.create block lock itemSize itemCount alignment).1
    | .createStatic block lock itemSize buffer bufferSize alignment =>
        (P.createStatic block lock itemSize buffer bufferSize alignment).1
    | .extraBlock pool ptr itemCount => P.extra pool ptr itemCount
    | .extraTurn pool node => P.push pool node
    | .allocate pool => (P.pop pool).1
    | .free pool memory => P.push pool (memory - ((P.pool pool).elim 0 fun q => q.alignment))
    | .write a y => { P with data := Function.update P.data a (some y) }
    | .read _ => P
  out P
    | .create block lock itemSize itemCount alignment =>
        [.pool (P.create block lock itemSize itemCount alignment).2]
    | .createStatic block lock itemSize buffer bufferSize alignment =>
        [.pool (P.createStatic block lock itemSize buffer bufferSize alignment).2]
    | .extraBlock _ ptr _ => [.result (decide (ptr ≠ 0))]
    | .allocate pool => [.memory (P.pop pool).2]
    | .read a => [.byte ((P.data a).getD 0)]
    | .extraTurn .. | .free .. | .write .. => []

/-- What the environment owes. `malloc` gives memory that is in no header and no
item, as much as it was asked for, and so does who preallocates; sizes fit an
`int`. An item is handed in by who has it, nobody writes to what the pools keep,
and only what was written is read. -/
def MayPoolCall (P : Pools) : PoolCall → Prop
  | .create block _ itemSize itemCount alignment =>
      ∀ s, shape itemSize alignment = some s → block ≠ 0 →
        s.size < 2 ^ 31 ∧ 0 ≤ itemCount ∧ memPoolSize s.size itemCount < 2 ^ 31 ∧
          P.Room block (memPoolSize s.size itemCount).toNat
  | .createStatic block _ itemSize buffer bufferSize alignment =>
      ∀ s, shape itemSize alignment = some s → block ≠ 0 →
        s.size < 2 ^ 31 ∧ bufferSize < 2 ^ 31 ∧ P.Room block (memPoolSize s.size 0).toNat ∧
          P.Room buffer bufferSize.toNat ∧
          (buffer + bufferSize.toNat ≤ block ∨ block + (memPoolSize s.size 0).toNat ≤ buffer)
  | .extraBlock pool ptr itemCount =>
      ∃ q, P.pool pool = some q ∧ (ptr ≠ 0 → P.Room ptr (itemCount.toNat * q.size))
  | .extraTurn pool node => P.Out pool node
  | .allocate pool => (P.pool pool).isSome
  | .free pool memory =>
      ∃ q n, P.pool pool = some q ∧ P.Out pool n ∧ memory = n + q.alignment
  | .write a _ => ¬ P.Keeps a
  | .read a => (P.data a).isSome

section

variable {m : Bytes} {P : Pools} {block lock p : ℕ} {itemSize itemCount alignment : ℤ}

theorem Pools.Room.sub {a k b l : ℕ} (hroom : P.Room a k) (hab : a ≤ b) (hlk : b + l ≤ a + k) :
    P.Room b l :=
  ⟨by have := hroom.1; omega, by have := hroom.2.1; omega, hroom.2.2.sub hab hlk⟩

theorem create_step (hP : P.Sound) (hm : Represents m P)
    (hmay : MayPoolCall P (.create block lock itemSize itemCount alignment)) :
    (P.create block lock itemSize itemCount alignment).1.Sound ∧
      Represents (createMemoryPool m block lock itemSize itemCount alignment).1
        (P.create block lock itemSize itemCount alignment).1 ∧
      (createMemoryPool m block lock itemSize itemCount alignment).2 =
        (P.create block lock itemSize itemCount alignment).2 := by
  rw [createMemoryPool, Pools.create]
  by_cases hverify : calculateAndVerifyAlignment alignment = 0
  · rw [shape_eq_none hverify, if_pos hverify]
    exact ⟨hP, hm, rfl⟩
  obtain ⟨s, hs, halignment, hsize⟩ := exists_shape itemSize hverify
  rw [hs, if_neg hverify]
  dsimp only
  rw [Pools.build]
  by_cases hblock : block = 0
  · rw [if_pos hblock, if_pos hblock]
    exact ⟨hP, hm, rfl⟩
  obtain ⟨hsmall, hcount, -, hroom⟩ := hmay s hs hblock
  have hbytes : (memPoolSize s.size itemCount).toNat = 23 + itemCount.toNat * s.size := by
    rw [memPoolSize, Int.toNat_add (by omega) (by positivity), Int.toNat_mul hcount (by omega)]
    rfl
  rw [hbytes] at hroom
  rw [if_neg hblock, if_neg hblock]
  by_cases hlock : lock = 0
  · rw [if_pos hlock, if_pos hlock]
    obtain ⟨hP', hm'⟩ : (P.forget block 4).Sound ∧
        Represents (setWord m block lock) (P.forget block 4) :=
      forget_step hP hm (hroom.sub le_rfl (by omega)) fun hi => setWord_of_outside hi
    exact ⟨hP', hm', rfl⟩
  rw [if_neg hlock, if_neg hlock]
  have hheader : P.Room block 20 := hroom.sub le_rfl (by omega)
  obtain ⟨hP', hm', hpool, hout⟩ := build_step lock hP hm hheader (by omega) hsize
    halignment (Pools.Room.install hP hheader (hroom.sub (b := block + 20)
      (l := itemCount.toNat * s.size) (by omega) (by omega)) (.inr le_rfl))
  obtain ⟨hP'', hm''⟩ := pushAll_step hP' hm' hpool rfl hout
  exact ⟨hP'', hm'', rfl⟩

theorem Pools.create_ne_zero (h : (P.create block lock itemSize itemCount alignment).2 ≠ 0) :
    ∃ s, shape itemSize alignment = some s ∧ block ≠ 0 ∧
      P.create block lock itemSize itemCount alignment =
        (((P.install block s).grant block (block + 20) s.size itemCount.toNat).pushAll block
          (Regions.places (block + 20) s.size itemCount.toNat), block) := by
  rw [create] at h ⊢
  cases hs : shape itemSize alignment with
  | none =>
      rw [hs] at h
      exact absurd rfl h
  | some s =>
      rw [hs] at h
      dsimp only at h ⊢
      rw [build] at h ⊢
      split at h
      · exact absurd rfl h
      · next hblock =>
          split at h
          · exact absurd rfl h
          · next hlock => exact ⟨s, rfl, hblock, by rw [if_neg hblock, if_neg hlock]⟩

theorem Pools.Sound.created (hP : P.Sound)
    (hmay : MayPoolCall P (.create block lock itemSize itemCount alignment))
    (h : (P.create block lock itemSize itemCount alignment).2 ≠ 0) :
    (P.create block lock itemSize itemCount alignment).2 = block ∧
      ∃ s, shape itemSize alignment = some s ∧
        (P.create block lock itemSize itemCount alignment).1.shapeOf block = some s ∧
        ∀ {n}, (P.create block lock itemSize itemCount alignment).1.item n = some block →
          n ∈ Regions.places (block + 20) s.size itemCount.toNat := by
  obtain ⟨s, hs, hblock, heq⟩ := P.create_ne_zero h
  obtain ⟨hitem, hshape⟩ := ((P.install block s).grant block (block + 20) s.size
    itemCount.toNat).pushAll_frame block (Regions.places (block + 20) s.size itemCount.toNat)
  obtain ⟨-, hcount, -, hroom⟩ := hmay s hs hblock
  rw [heq]
  refine ⟨rfl, s, hs, ?_, fun {n} hn => ?_⟩
  · rw [hshape]
    exact Pools.shapeOf_pool (P := P.install block s) (q := ⟨s, []⟩) (Function.update_self ..)
  · by_contra hplace
    have hsome := hP.granted ((if_neg hplace).symm.trans ((congrFun hitem n).symm.trans hn))
    have hpos : 0 < (memPoolSize s.size itemCount).toNat := by
      have : 0 ≤ itemCount * (s.size : ℤ) := by positivity
      rw [memPoolSize]
      omega
    rw [hroom.pool_eq_none le_rfl (by omega)] at hsome
    exact Bool.false_ne_true hsome

theorem createStatic_step {buffer : ℕ} {bufferSize : ℤ} (hP : P.Sound) (hm : Represents m P)
    (hmay : MayPoolCall P (.createStatic block lock itemSize buffer bufferSize alignment)) :
    ∃ m', createMemoryPoolStatic m block lock itemSize buffer bufferSize alignment =
        some (m', (P.createStatic block lock itemSize buffer bufferSize alignment).2) ∧
      (P.createStatic block lock itemSize buffer bufferSize alignment).1.Sound ∧
      Represents m' (P.createStatic block lock itemSize buffer bufferSize alignment).1 := by
  rw [createMemoryPoolStatic, Pools.createStatic]
  by_cases hverify : calculateAndVerifyAlignment alignment = 0
  · rw [shape_eq_none hverify, if_pos hverify]
    exact ⟨m, rfl, hP, hm⟩
  obtain ⟨s, hs, halignment, hsize⟩ := exists_shape itemSize hverify
  rw [hs, if_neg hverify]
  dsimp only
  rw [Pools.build]
  by_cases hblock : block = 0
  · rw [if_pos hblock, if_pos hblock]
    exact ⟨m, rfl, hP, hm⟩
  obtain ⟨hsmall, hint, hroom, hbuffer, happart⟩ := hmay s hs hblock
  have hbytes : (memPoolSize s.size 0).toNat = 23 := by
    rw [memPoolSize, zero_mul]
    rfl
  rw [hbytes] at hroom happart
  rw [if_neg hblock, if_neg hblock]
  by_cases hlock : lock = 0
  · rw [if_pos hlock, if_pos hlock]
    obtain ⟨hP', hm'⟩ : (P.forget block 4).Sound ∧
        Represents (setWord m block lock) (P.forget block 4) :=
      forget_step hP hm (hroom.sub le_rfl (by omega)) fun hi => setWord_of_outside hi
    exact ⟨_, rfl, hP', hm'⟩
  rw [if_neg hlock, if_neg hlock]
  have hheader : P.Room block 20 := hroom.sub le_rfl (by omega)
  have hitems : bufferSize.toNat / s.size * s.size ≤ bufferSize.toNat := Nat.div_mul_le_self ..
  obtain ⟨hP', hm', hpool, hout⟩ := build_step lock hP hm hheader (by omega) hsize
    halignment (Pools.Room.install hP hheader
      (hbuffer.sub (l := bufferSize.toNat / s.size * s.size) le_rfl (by omega)) (by omega))
  have hturns : bufferSize.toNat / s.size < turns := by
    have := Nat.div_le_self bufferSize.toNat s.size
    rw [turns]
    omega
  obtain ⟨hP'', hm''⟩ := pushAll_step hP' hm' hpool rfl hout
  refine ⟨_, ?_, hP'', hm''⟩
  rw [pushPreallocated_eq hP' hm' hpool hsize.symm rfl hturns hout, Option.map_some]

theorem init_sound : blocks.init.Sound := by
  have hregions : ∀ {a}, blocks.init.regions a = none := rfl
  exact {
    tidy := ⟨fun h => by rw [hregions] at h; exact absurd h.symm (Option.some_ne_none _),
      fun h => by rw [hregions] at h; exact absurd h.symm (Option.some_ne_none _),
      fun h => by rw [hregions] at h; exact absurd h.symm (Option.some_ne_none _)⟩
    small := fun h => absurd h.symm (Option.some_ne_none _)
    free := fun h => absurd h.symm (Option.some_ne_none _)
    granted := fun h => absurd h.symm (Option.some_ne_none _)
    plain := fun _ => rfl
    known := fun h => absurd h.symm (Option.some_ne_none _) }

theorem init_represents (m : Bytes) : Represents m blocks.init := by
  have hlists : ∀ {h}, blocks.init.lists h = none := fun {h} => by
    simp [Pools.lists, blocks]
  have hnone : ∀ {a}, ¬ blocks.init.lists.Member a := by
    rintro a ⟨h, l, hl, -⟩
    rw [hlists] at hl
    exact Option.some_ne_none l hl.symm
  exact {
    lists := ⟨⟨fun hl => by rw [hlists] at hl; exact absurd hl.symm (Option.some_ne_none _),
        fun hl => by rw [hlists] at hl; exact absurd hl.symm (Option.some_ne_none _)⟩,
      fun ha => absurd ha hnone, fun ha => absurd ha hnone, fun ha => absurd ha hnone⟩
    count := fun h => absurd h.symm (Option.some_ne_none _)
    size := fun h => absurd h.symm (Option.some_ne_none _)
    alignment := fun h => absurd h.symm (Option.some_ne_none _)
    data := fun h => absurd h.symm (Option.some_ne_none _) }

theorem init_room {a k : ℕ} (ha : 0 < a) (hk : a + k ≤ 2 ^ 32) : blocks.init.Room a k :=
  ⟨ha, hk, fun _ _ hb => absurd hb.symm (Option.some_ne_none _)⟩

/-- One call, in any memory that has the pools. -/
theorem call_step (m₀ : Bytes) {call : PoolCall} (hP : P.Sound) (hm : Represents m P)
    (hmay : MayPoolCall P call) :
    (memPool m₀).out m call = blocks.out P call ∧ (blocks.next P call).Sound ∧
      Represents ((memPool m₀).next m call) (blocks.next P call) := by
  cases call with
  | create block lock itemSize itemCount alignment =>
      obtain ⟨hP', hm', hreply⟩ := create_step hP hm hmay
      exact ⟨congrArg (fun p => [PoolReply.pool p]) hreply, hP', hm'⟩
  | createStatic block lock itemSize buffer bufferSize alignment =>
      obtain ⟨m', hstep, hP', hm'⟩ := createStatic_step hP hm hmay
      refine ⟨?_, ?_, ?_⟩ <;> simp only [memPool, blocks, hstep]
      · rfl
      · exact hP'
      · exact hm'
  | extraBlock pool ptr itemCount =>
      obtain ⟨q, hp, hroom⟩ := hmay
      refine ⟨rfl, ?_⟩
      show (P.extra pool ptr itemCount).Sound ∧ Represents m (P.extra pool ptr itemCount)
      rw [Pools.extra, hp]
      dsimp only
      split
      · exact ⟨hP, hm⟩
      · next hptr =>
          obtain ⟨hP', hm', -⟩ := grant_step hP hm hp (hroom hptr)
          exact ⟨hP', hm'⟩
  | extraTurn pool node => exact ⟨rfl, push_step hP hm hmay⟩
  | allocate pool =>
      obtain ⟨q, hp⟩ := Option.isSome_iff_exists.mp hmay
      obtain ⟨hP', hm', hreply⟩ := pop_step hP hm hp
      exact ⟨congrArg (fun a => [PoolReply.memory a]) hreply, hP', hm'⟩
  | free pool memory =>
      obtain ⟨q, n, hp, hn, rfl⟩ := hmay
      refine ⟨rfl, ?_⟩
      show (P.push pool _).Sound ∧ Represents (memoryPoolFree m pool _) (P.push pool _)
      rw [memoryPoolFree, hm.alignment hp, hp, Option.elim_some, Nat.add_sub_cancel]
      exact push_step hP hm hn
  | write a y => exact ⟨rfl, write_step hP hm hmay y⟩
  | read a =>
      obtain ⟨y, hy⟩ := Option.isSome_iff_exists.mp hmay
      refine ⟨?_, hP, hm⟩
      show [PoolReply.byte (m a)] = [PoolReply.byte ((P.data a).getD 0)]
      rw [hm.data hy, hy, Option.getD_some]

theorem extraTurns (m₀ : Bytes) {q : Pool} {base count : ℕ} (hP : P.Sound) (hm : Represents m P)
    (hp : P.pool p = some q) (hout : ∀ a ∈ Regions.places base q.size count, P.Out p a) :
    blocks.AlongFrom MayPoolCall P ((Regions.places base q.size count).map (.extraTurn p)) ∧
      ((Regions.places base q.size count).map (.extraTurn p)).foldl (memPool m₀).next m =
        pushItems m p count base := by
  induction count generalizing m P base q with
  | zero => exact ⟨trivial, rfl⟩
  | succ count ih =>
      have hbase : P.Out p base := hout base List.mem_cons_self
      obtain ⟨hP', hm'⟩ := push_step hP hm hbase
      have hpush := P.push_pool hp (n := base)
      obtain ⟨halong, hfold⟩ := ih (q := { q with free := base :: q.free }) hP' hm' hpush
        fun a (ha : a ∈ Regions.places (base + q.size) q.size count) => by
          refine P.push_out hbase (hout a (List.mem_cons_of_mem base ha)) ?_
          have : base + q.size ≤ a := (Regions.places_bounds ha).1
          have := q.size_pos
          omega
      refine ⟨⟨hbase, halong⟩, ?_⟩
      rw [pushItems, hm'.size hpush]
      exact hfold

/-- `AddExtraMemoryToPool` is its critical sections, between which others may come. -/
theorem addExtraMemoryToPool_calls (m₀ : Bytes) {q : Pool} {ptr : ℕ} (hP : P.Sound)
    (hm : Represents m P) (hp : P.pool p = some q) (hptr : ptr ≠ 0)
    (hroom : P.Room ptr (itemCount.toNat * q.size)) :
    blocks.AlongFrom MayPoolCall P (.extraBlock p ptr itemCount ::
        (Regions.places ptr q.size itemCount.toNat).map (.extraTurn p)) ∧
      (.extraBlock p ptr itemCount ::
        (Regions.places ptr q.size itemCount.toNat).map (.extraTurn p)).foldl (memPool m₀).next m =
        (addExtraMemoryToPool m p ptr itemCount).1 := by
  obtain ⟨hP', hm', hout⟩ := grant_step hP hm hp hroom
  have hextra : blocks.next P (.extraBlock p ptr itemCount) =
      P.grant p ptr q.size itemCount.toNat := by
    show P.extra p ptr itemCount = _
    rw [Pools.extra, hp]
    exact if_neg hptr
  obtain ⟨halong, hfold⟩ := extraTurns m₀ hP' hm' hp hout
  refine ⟨⟨⟨q, hp, fun _ => hroom⟩, hextra ▸ halong⟩, ?_⟩
  rw [addExtraMemoryToPool, if_neg hptr]
  exact hfold

/-- What is for a caller of the item at `n`. -/
def Pools.Payload (P : Pools) (n a : ℕ) : Prop :=
  ∃ p q, P.item n = some p ∧ P.pool p = some q ∧
    n + q.alignment ≤ a ∧ a < n + q.alignment + q.itemSize

/-- What is for a caller is kept by no pool and is for no one else. -/
def Pools.Private (P : Pools) : Prop :=
  ∀ ⦃p n a⦄, P.Out p n → P.Payload n a → ¬ P.Keeps a ∧ ∀ n', n' ≠ n → ¬ P.Payload n' a

theorem Pools.Sound.private (hP : P.Sound) : P.Private := by
  rintro p n a hn ⟨p', q, hp', hq, ha, ha'⟩
  obtain rfl : p = p' := Option.some_inj.mp (hn.1.symm.trans hp')
  have hfits := q.fits
  constructor
  · rintro ⟨p', q', hq', hkeep | ⟨n', hn', hkeep⟩⟩
    · have := hP.item_header hn.1 hq hq'
      omega
    · have hitem := hP.free hq' hn'
      have := hP.item_item hn.1 hq hitem hq' ?_
      · omega
      · rintro rfl
        obtain rfl : p = p' := Option.some_inj.mp (hn.1.symm.trans hitem)
        exact hn.2 q' hq' hn'
  · rintro n' hne ⟨p', q', hp', hq', hb, hb'⟩
    have := hP.item_item hn.1 hq hp' hq' hne.symm
    have := q'.fits
    omega

/-- Whatever the order in which callers come to the stacks of however many pools:
each call returns what the blocks have, what a caller is given is its own, and
what is read there was written there last. -/
theorem memoryPool_blocks (m : Bytes) (calls : List PoolCall)
    (hmay : blocks.Along MayPoolCall calls) :
    (memPool m).traceFrom m calls = blocks.traceFrom blocks.init calls ∧
      Represents ((memPool m).after calls) (blocks.after calls) ∧
      (blocks.after calls).Sound ∧ (blocks.after calls).Private := by
  have hrun := Machine.simulation (M := memPool m) (R := fun m P => P.Sound ∧ Represents m P)
    ⟨init_sound, init_represents m⟩
    (fun _ _ _ hR hmay => call_step m hR.1 hR.2 hmay) calls hmay
  exact ⟨hrun.2, hrun.1.2, hrun.1.1, hrun.1.1.private⟩

/-- The item that was handed in last comes first. -/
theorem memoryPool_blocks_two :
    (memPool fun _ => 0).traceFrom (fun _ => 0)
        [.create 64 1 8 2 4, .allocate 64, .write 100 7, .read 100, .free 64 100, .allocate 64,
          .allocate 64, .allocate 64] =
      [.pool 64, .memory 100, .byte 7, .memory 100, .memory 88, .memory 0] := by
  have hcreate : MayPoolCall blocks.init (.create 64 1 8 2 4) := by
    intro s hs _
    obtain rfl := Option.some_inj.mp hs
    exact ⟨by decide, by decide, by decide, init_room (by decide) (by decide)⟩
  have hown := (memoryPool_blocks (fun _ => 0) [.create 64 1 8 2 4, .allocate 64]
    ⟨hcreate, rfl, trivial⟩).2.2.2
  have hout : (blocks.after [.create 64 1 8 2 4, .allocate 64]).Out 64 96 := by
    refine ⟨rfl, fun q hq => ?_⟩
    obtain rfl := Option.some_inj.mp hq
    decide
  have hpayload : (blocks.after [.create 64 1 8 2 4, .allocate 64]).Payload 96 100 :=
    ⟨64, _, rfl, rfl, by decide, by decide⟩
  exact (memoryPool_blocks (fun _ => 0)
    [.create 64 1 8 2 4, .allocate 64, .write 100 7, .read 100, .free 64 100, .allocate 64,
      .allocate 64, .allocate 64]
    ⟨hcreate, rfl, (hown hout hpayload).1, rfl, ⟨_, 96, rfl, hout, rfl⟩, rfl, rfl, rfl, trivial⟩).1

end

end EspressifApp.MemoryPool
