import EspressifApp.MemoryPool.Model

/-!
Pools of items, and how they lie in memory.

A pool has a shape, which says what its items are like, and those of its items
that are free, the next one to be taken in front. `Pools` are the pools there are,
with the owner of every item and with the bytes that callers wrote and may still
read. They are `Sound` when headers and items are tidy regions and nobody may read
what the pools keep for themselves; `Represents` says how a memory has them. Each
operation keeps both.
-/

namespace EspressifApp.MemoryPool

open Reactive Collections

/-- What the items of a pool are like: `size` bytes, of which `itemSize` behind the
first `alignment` are for a caller. -/
structure Shape where
  itemSize : ℕ
  alignment : ℕ
  size : ℕ
  four_le : 4 ≤ alignment
  fits : alignment + itemSize ≤ size
  dvd : alignment ∣ size

def shape (itemSize alignment : ℤ) : Option Shape :=
  if h : calculateAndVerifyAlignment alignment = 0 then none
  else
    let a := calculateAndVerifyAlignment alignment
    have ha : 4 ≤ a := by
      have := le_max_right alignment 4
      have := calculateAndVerifyAlignment_eq h
      omega
    have hsize := calculateItemSize_bounds (s := itemSize) (a := a) (by omega)
    some {
      itemSize := itemSize.toNat
      alignment := a.toNat
      size := (calculateItemSize itemSize a).toNat
      four_le := by omega
      fits := by omega
      dvd := by
        obtain ⟨k, hk⟩ := hsize.2.2
        have hk0 : 0 ≤ k := by
          by_contra hneg
          have := Int.mul_le_mul_of_nonneg_left (show k ≤ 0 by omega) (show 0 ≤ a by omega)
          omega
        exact ⟨k.toNat, by rw [hk, Int.toNat_mul (by omega) hk0]⟩ }

structure Pool extends Shape where
  free : List ℕ

structure Pools where
  /-- The pools, by their handles. -/
  pool : ℕ → Option Pool
  /-- The pool that an item belongs to, by where the item begins. -/
  item : ℕ → Option ℕ
  /-- What was written and may be read. -/
  data : ℕ → Option UInt8

namespace Pools

variable (P : Pools)

def regions : Regions := fun a =>
  if (P.pool a).isSome then some 20 else ((P.item a).bind P.pool).map fun q => q.size

def lists : HeadedLists ℕ := fun h => if 8 ≤ h then (P.pool (h - 8)).map fun q => q.free else none

/-- A byte that the pools have for themselves: of a header or a free item. -/
def Keeps (a : ℕ) : Prop :=
  ∃ p q, P.pool p = some q ∧
    (p ≤ a ∧ a < p + 20 ∨ ∃ n ∈ q.free, n ≤ a ∧ a < n + q.size)

/-- An item that is not free: someone has it. -/
def Out (p n : ℕ) : Prop := P.item n = some p ∧ ∀ q, P.pool p = some q → n ∉ q.free

def Room (a k : ℕ) : Prop := 0 < a ∧ a + k ≤ 2 ^ 32 ∧ P.regions.Clear a k

/-! ### Operations -/

def forget (a k : ℕ) : Pools :=
  { P with data := fun b => if a ≤ b ∧ b < a + k then none else P.data b }

def setFree (p : ℕ) (q : Pool) (l : List ℕ) : Pools :=
  { P with pool := Function.update P.pool p (some { q with free := l }) }

def install (p : ℕ) (s : Shape) : Pools :=
  { P with pool := Function.update P.pool p (some ⟨s, []⟩) }.forget p 20

/-- A block is cut up into items, which nobody has handed in yet. -/
def grant (p base size count : ℕ) : Pools :=
  { P with item := fun n => if n ∈ Regions.places base size count then some p else P.item n }

def push (p n : ℕ) : Pools :=
  match P.pool p with
  | none => P
  | some q => (P.setFree p q (n :: q.free)).forget n q.size

def pushAll (p : ℕ) (ns : List ℕ) : Pools := ns.foldl (fun P n => P.push p n) P

/-- The next item, and where its memory for the caller is; zero if there is none. -/
def pop (p : ℕ) : Pools × ℕ :=
  match P.pool p with
  | none => (P, 0)
  | some q =>
      match q.free with
      | [] => (P, 0)
      | n :: l => (P.setFree p q l, n + q.alignment)

end Pools

/-- The pools are in order. -/
structure Pools.Sound (P : Pools) : Prop where
  tidy : P.regions.Tidy (2 ^ 32)
  small : ∀ {p q}, P.pool p = some q → q.size < 2 ^ 32
  free : ∀ {p q n}, P.pool p = some q → n ∈ q.free → P.item n = some p
  granted : ∀ {n p}, P.item n = some p → (P.pool p).isSome
  plain : ∀ {n p}, P.item n = some p → P.pool n = none
  known : ∀ {a y}, P.data a = some y → ¬ P.Keeps a

/-- A memory has the pools. -/
structure Represents (m : Bytes) (P : Pools) : Prop where
  lists : Slists m P.lists
  count : ∀ {p q}, P.pool p = some q → word m (p + 4) = q.free.length
  size : ∀ {p q}, P.pool p = some q → word m (p + 12) = q.size
  alignment : ∀ {p q}, P.pool p = some q → word m (p + 16) = q.alignment
  data : ∀ {a y}, P.data a = some y → m a = y

section

variable {m m' : Bytes} {P : Pools} {p p' n n' a k : ℕ} {q q' : Pool} {l : List ℕ} {s : Shape}

/-! ### Where things lie -/

theorem Pool.size_pos (q : Pool) : 0 < q.size := by
  have := q.four_le
  have := q.fits
  omega

theorem Pool.four_le_size (q : Pool) : 4 ≤ q.size := by
  have := q.four_le
  have := q.fits
  omega

theorem Pools.regions_pool (hp : P.pool p = some q) : P.regions p = some 20 := by
  rw [regions, hp]
  rfl

theorem Pools.Sound.regions_item (hP : P.Sound) (hn : P.item n = some p)
    (hp : P.pool p = some q) : P.regions n = some q.size := by
  rw [regions, hP.plain hn, hn, Option.bind_some, hp]
  rfl

theorem Pools.regions_eq_some (hk : P.regions a = some k) :
    (∃ q, P.pool a = some q ∧ k = 20) ∨
      ∃ p q, P.item a = some p ∧ P.pool p = some q ∧ k = q.size := by
  rw [regions] at hk
  split at hk
  · next hp =>
      obtain ⟨q, hq⟩ := Option.isSome_iff_exists.mp hp
      exact .inl ⟨q, hq, (Option.some_inj.mp hk).symm⟩
  · obtain ⟨q, hq, rfl⟩ := Option.map_eq_some_iff.mp hk
    obtain ⟨p, hp, hq⟩ := Option.bind_eq_some_iff.mp hq
    exact .inr ⟨p, q, hp, hq, rfl⟩

theorem Pools.regions_pos (hk : P.regions a = some k) : 0 < k := by
  rcases regions_eq_some hk with ⟨-, -, rfl⟩ | ⟨-, q, -, -, rfl⟩
  · omega
  · exact q.size_pos

theorem Pools.lists_eq_some {h : ℕ} (hl : P.lists h = some l) :
    ∃ p q, P.pool p = some q ∧ h = p + 8 ∧ l = q.free := by
  rw [lists] at hl
  split at hl
  · next hh =>
      obtain ⟨q, hq, rfl⟩ := Option.map_eq_some_iff.mp hl
      exact ⟨h - 8, q, hq, by omega, rfl⟩
  · exact absurd hl.symm (Option.some_ne_none l)

theorem Pools.lists_pool (hp : P.pool p = some q) : P.lists (p + 8) = some q.free := by
  rw [lists, if_pos (by omega), Nat.add_sub_cancel, hp]
  rfl

theorem Pools.lists_update (P P' : Pools) (hp : P'.pool = Function.update P.pool p (some q)) :
    P'.lists = Function.update P.lists (p + 8) (some q.free) := by
  ext1 h
  by_cases hh : h = p + 8
  · subst hh
    rw [Function.update_self]
    exact lists_pool (by rw [hp, Function.update_self])
  · rw [Function.update_of_ne hh, lists, lists]
    split
    · rw [hp, Function.update_of_ne (by omega)]
    · rfl

theorem Pools.member_cases (ha : P.lists.Member a) :
    ∃ p q, P.pool p = some q ∧ (a = p + 8 ∨ a ∈ q.free) := by
  obtain ⟨h, l, hl, ha⟩ := ha
  obtain ⟨p, q, hp, rfl, rfl⟩ := lists_eq_some hl
  exact ⟨p, q, hp, List.mem_cons.mp ha⟩

theorem Pools.keeps_header (hp : P.pool p = some q) (hpa : p ≤ a) (hap : a < p + 20) : P.Keeps a :=
  ⟨p, q, hp, .inl ⟨hpa, hap⟩⟩

theorem Pools.keeps_member (ha : P.lists.Member a) {i : ℕ} (hi : i < 4) : P.Keeps (a + i) := by
  obtain ⟨p, q, hp, rfl | ha⟩ := member_cases ha
  · exact keeps_header hp (by omega) (by omega)
  · have := q.four_le_size
    exact ⟨p, q, hp, .inr ⟨a, ha, by omega, by omega⟩⟩

theorem Pools.Sound.keeps_region (hP : P.Sound) (ha : P.Keeps a) :
    ∃ b k, P.regions b = some k ∧ b ≤ a ∧ a < b + k := by
  obtain ⟨p, q, hp, ha | ⟨n, hn, ha⟩⟩ := ha
  · exact ⟨p, 20, regions_pool hp, ha⟩
  · exact ⟨n, q.size, hP.regions_item (hP.free hp hn) hp, ha⟩

theorem Pools.Sound.member_region (hP : P.Sound) (ha : P.lists.Member a) :
    ∃ b k, P.regions b = some k ∧ b ≤ a ∧ a + 4 ≤ b + k := by
  obtain ⟨p, q, hp, rfl | ha⟩ := member_cases ha
  · exact ⟨p, 20, regions_pool hp, by omega, by omega⟩
  · exact ⟨a, q.size, hP.regions_item (hP.free hp ha) hp, le_rfl,
      Nat.add_le_add_left q.four_le_size a⟩

theorem Pools.Sound.header_apart (hP : P.Sound) (hp : P.pool p = some q) (hp' : P.pool p' = some q')
    (hne : p ≠ p') : p + 20 ≤ p' ∨ p' + 20 ≤ p :=
  hP.tidy.apart (regions_pool hp) (regions_pool hp') hne

theorem Pools.Sound.item_header (hP : P.Sound) (hn : P.item n = some p) (hp : P.pool p = some q)
    (hp' : P.pool p' = some q') : n + q.size ≤ p' ∨ p' + 20 ≤ n := by
  refine hP.tidy.apart (hP.regions_item hn hp) (regions_pool hp') ?_
  rintro rfl
  rw [hP.plain hn] at hp'
  exact Option.some_ne_none q' hp'.symm

theorem Pools.Sound.item_item (hP : P.Sound) (hn : P.item n = some p) (hp : P.pool p = some q)
    (hn' : P.item n' = some p') (hp' : P.pool p' = some q') (hne : n ≠ n') :
    n + q.size ≤ n' ∨ n' + q'.size ≤ n :=
  hP.tidy.apart (hP.regions_item hn hp) (hP.regions_item hn' hp') hne

theorem Pools.Sound.member_header (hP : P.Sound) (ha : P.lists.Member a) (hp : P.pool p = some q)
    {i : ℕ} (hi : i ≤ 4 ∨ 12 ≤ i ∧ i ≤ 16) : Apart a (p + i) := by
  rw [Apart]
  obtain ⟨p', q', hp', rfl | ha⟩ := member_cases ha
  · by_cases hpp : p' = p
    · omega
    · have := hP.header_apart hp' hp hpp
      omega
  · have := hP.item_header (hP.free hp' ha) hp' hp
    have := q'.four_le_size
    omega

theorem Pools.Sound.freshNode (hP : P.Sound) (hn : P.Out p n) (hp : P.pool p = some q) :
    FreshNode P.lists n := by
  have hregion := hP.regions_item hn.1 hp
  have hsize := q.four_le_size
  refine ⟨hP.tidy.pos hregion, ?_, fun {a} ha => ?_⟩
  · have := hP.tidy.bound hregion
    omega
  · rw [Apart]
    obtain ⟨p', q', hp', rfl | ha⟩ := member_cases ha
    · have := hP.item_header hn.1 hp hp'
      omega
    · have hitem := hP.free hp' ha
      have := hP.item_item hn.1 hp hitem hp' ?_
      · have := q'.four_le_size
        omega
      · rintro rfl
        obtain rfl : p = p' := Option.some_inj.mp (hn.1.symm.trans hitem)
        exact hn.2 q' hp' ha

theorem Pools.Sound.outside (hP : P.Sound) (hroom : P.Room n k) (ha : P.Keeps a) :
    a < n ∨ n + k ≤ a := by
  obtain ⟨b, i, hb, hba, hab⟩ := hP.keeps_region ha
  have := hroom.2.2 hb
  omega

/-! ### Changes of a memory -/

/-- What the pools do not keep may change, and what may be read of it. -/
theorem Represents.frame (hm : Represents m P) (hkeep : ∀ {i}, P.Keeps i → m' i = m i)
    {d : ℕ → Option UInt8} (hdata : ∀ {a y}, d a = some y → m' a = y) :
    Represents m' { P with data := d } := by
  have hword : ∀ {p q i}, P.pool p = some q → i ≤ 16 → word m' (p + i) = word m (p + i) :=
    fun hp hi => word_congr fun j hj => hkeep (P.keeps_header hp (by omega) (by omega))
  exact {
    lists := hm.lists.congr fun ha => word_congr fun i hi => hkeep (P.keeps_member ha hi)
    count := fun hp => (hword hp (by omega)).trans (hm.count hp)
    size := fun hp => (hword hp (by omega)).trans (hm.size hp)
    alignment := fun hp => (hword hp (by omega)).trans (hm.alignment hp)
    data := hdata }

theorem Pools.Sound.withData (hP : P.Sound) {d : ℕ → Option UInt8}
    (hknown : ∀ {a y}, d a = some y → ¬ P.Keeps a) : Sound { P with data := d } :=
  ⟨hP.tidy, hP.small, hP.free, hP.granted, hP.plain, hknown⟩

theorem Pools.forget_eq_some {b : ℕ} {y : UInt8} (hy : (P.forget a k).data b = some y) :
    (b < a ∨ a + k ≤ b) ∧ P.data b = some y := by
  rw [forget] at hy
  dsimp only at hy
  split at hy
  · exact absurd hy.symm (Option.some_ne_none y)
  · next hb => exact ⟨by omega, hy⟩

theorem forget_step (hP : P.Sound) (hm : Represents m P) (hroom : P.Room a k)
    (hsame : ∀ {i}, i < a ∨ a + k ≤ i → m' i = m i) :
    (P.forget a k).Sound ∧ Represents m' (P.forget a k) := by
  refine ⟨hP.withData fun hy => hP.known (P.forget_eq_some hy).2,
    hm.frame (fun hi => hsame (hP.outside hroom hi)) fun hy => ?_⟩
  obtain ⟨hb, hy⟩ := P.forget_eq_some hy
  exact (hsame hb).trans (hm.data hy)

theorem write_step (hP : P.Sound) (hm : Represents m P) (ha : ¬ P.Keeps a) (y : UInt8) :
    Pools.Sound { P with data := Function.update P.data a (some y) } ∧
      Represents (Function.update m a y) { P with data := Function.update P.data a (some y) } := by
  refine ⟨hP.withData fun {b z} hb => ?_, hm.frame (fun {i} hi => ?_) fun {b z} hb => ?_⟩
  · by_cases hba : b = a
    · exact hba ▸ ha
    · rw [Function.update_of_ne hba] at hb
      exact hP.known hb
  · refine Function.update_of_ne ?_ ..
    rintro rfl
    exact ha hi
  · by_cases hba : b = a
    · subst hba
      rw [Function.update_self, Option.some_inj] at hb
      rw [Function.update_self, hb]
    · rw [Function.update_of_ne hba] at hb ⊢
      exact hm.data hb

/-! ### Changes of a stack -/

theorem Pools.setFree_pool (hp : P.pool p = some q) (hq : (P.setFree p q l).pool p' = some q') :
    ∃ r, P.pool p' = some r ∧ q'.toShape = r.toShape ∧
      (p' = p ∧ q'.free = l ∨ p' ≠ p ∧ q'.free = r.free) := by
  rw [setFree] at hq
  dsimp only at hq
  by_cases hpp : p' = p
  · subst hpp
    rw [Function.update_self, Option.some_inj] at hq
    subst hq
    exact ⟨q, hp, rfl, .inl ⟨rfl, rfl⟩⟩
  · rw [Function.update_of_ne hpp] at hq
    exact ⟨q', hq, rfl, .inr ⟨hpp, rfl⟩⟩

def Pools.shapeOf (P : Pools) (p : ℕ) : Option Shape := (P.pool p).map Pool.toShape

theorem Pools.shapeOf_pool (hp : P.pool p = some q) : P.shapeOf p = some q.toShape := by
  rw [shapeOf, hp, Option.map_some]

theorem Pools.setFree_shape (hp : P.pool p = some q) (b : ℕ) :
    (P.setFree p q l).shapeOf b = P.shapeOf b := by
  show (Function.update P.pool p _ b).map _ = _
  by_cases hb : b = p
  · subst hb
    rw [Function.update_self, shapeOf, hp]
    rfl
  · rw [Function.update_of_ne hb, shapeOf]

theorem Pools.setFree_regions (hp : P.pool p = some q) : (P.setFree p q l).regions = P.regions := by
  have hsize : ∀ b, ((P.setFree p q l).pool b).map (fun q => q.size) =
      (P.pool b).map fun q => q.size := fun b => by
    have hshape := congrArg (Option.map Shape.size) (setFree_shape hp b (l := l))
    simpa only [shapeOf, Option.map_map, Function.comp_def] using hshape
  have hsome : ∀ b, ((P.setFree p q l).pool b).isSome = (P.pool b).isSome := fun b => by
    rw [← Option.isSome_map (f := fun q : Pool => q.size), hsize, Option.isSome_map]
  ext1 a
  rw [regions, regions, hsome]
  congr 1
  show ((P.item a).bind _).map _ = _
  cases P.item a with
  | none => rfl
  | some b => exact hsize b

theorem Pools.setFree_keeps (hp : P.pool p = some q) (ha : (P.setFree p q l).Keeps a) :
    P.Keeps a ∨ ∃ n ∈ l, n ∉ q.free ∧ n ≤ a ∧ a < n + q.size := by
  obtain ⟨p', q', hq, ha⟩ := ha
  obtain ⟨r, hr, hshape, hfree⟩ := setFree_pool hp hq
  rcases ha with ha | ⟨n, hn, ha⟩
  · exact .inl ⟨p', r, hr, .inl ha⟩
  · rw [hshape] at ha
    rcases hfree with ⟨rfl, hl⟩ | ⟨-, hl⟩
    · obtain rfl : q = r := Option.some_inj.mp (hp.symm.trans hr)
      by_cases hnq : n ∈ q.free
      · exact .inl ⟨p', q, hp, .inr ⟨n, hnq, ha⟩⟩
      · exact .inr ⟨n, hl ▸ hn, hnq, ha⟩
    · exact .inl ⟨p', r, hr, .inr ⟨n, hl ▸ hn, ha⟩⟩

theorem Pools.Sound.setFree (hP : P.Sound) (hp : P.pool p = some q)
    (hl : ∀ n ∈ l, P.item n = some p) {d : ℕ → Option UInt8}
    (hknown : ∀ {a y}, d a = some y → ¬ (P.setFree p q l).Keeps a) :
    Sound { P.setFree p q l with data := d } := by
  constructor
  · exact (setFree_regions hp (l := l)).symm ▸ hP.tidy
  · intro p' q' hq
    obtain ⟨r, hr, hshape, -⟩ := setFree_pool hp hq
    exact hshape ▸ hP.small hr
  · intro p' q' n hq hn
    obtain ⟨r, hr, -, ⟨rfl, hfree⟩ | ⟨-, hfree⟩⟩ := setFree_pool hp hq
    · exact hl n (hfree ▸ hn)
    · exact hP.free hr (hfree ▸ hn)
  · intro n p' hn
    show (Function.update P.pool p _ p').isSome
    by_cases hpp : p' = p
    · rw [hpp, Function.update_self]
      rfl
    · rw [Function.update_of_ne hpp]
      exact hP.granted hn
  · intro n p' hn
    have hnp : n ≠ p := by
      rintro rfl
      rw [hP.plain hn] at hp
      exact Option.some_ne_none q hp.symm
    exact (Function.update_of_ne hnp ..).trans (hP.plain hn)
  · exact hknown

theorem Represents.setFree (hm : Represents m P) (hp : P.pool p = some q)
    (hlists : Slists m' (Function.update P.lists (p + 8) (some l)))
    (hcount : word m' (p + 4) = l.length)
    (hsame : ∀ {p' q' i}, P.pool p' = some q' → i ≤ 16 → p' ≠ p ∨ 12 ≤ i →
      word m' (p' + i) = word m (p' + i))
    {d : ℕ → Option UInt8} (hdata : ∀ {a y}, d a = some y → m' a = y) :
    Represents m' { P.setFree p q l with data := d } := by
  constructor
  · have hupdate := P.lists_update { P.setFree p q l with data := d } rfl
    exact hupdate ▸ hlists
  · intro p' q' hq
    obtain ⟨r, hr, -, ⟨rfl, hfree⟩ | ⟨hne, hfree⟩⟩ := Pools.setFree_pool hp hq
    · rw [hcount, hfree]
    · rw [hsame hr (by omega) (.inl hne), hm.count hr, hfree]
  · intro p' q' hq
    obtain ⟨r, hr, hshape, -⟩ := Pools.setFree_pool hp hq
    rw [hsame hr (by omega) (.inr le_rfl), hm.size hr, hshape]
  · intro p' q' hq
    obtain ⟨r, hr, hshape, -⟩ := Pools.setFree_pool hp hq
    rw [hsame hr le_rfl (.inr (by omega)), hm.alignment hr, hshape]
  · exact hdata

theorem push_step (hP : P.Sound) (hm : Represents m P) (hn : P.Out p n) :
    (P.push p n).Sound ∧ Represents (pushOnStack m (p + 4) n) (P.push p n) := by
  obtain ⟨q, hp⟩ := Option.isSome_iff_exists.mp (hP.granted hn.1)
  have hfresh := hP.freshNode hn hp
  have hheader : ∀ {p' q'}, P.pool p' = some q' → n + q.size ≤ p' ∨ p' + 20 ≤ n :=
    fun hp' => hP.item_header hn.1 hp hp'
  have hsize := q.four_le_size
  have hpush : P.push p n = (P.setFree p q (n :: q.free)).forget n q.size := by
    rw [Pools.push, hp]
  have hlists := pushOnStack_slists hm.lists (by omega) (P.lists_pool hp) hfresh
    (fun ha => hP.member_header ha hp (.inl le_rfl)) (by have := hheader hp; unfold Apart; omega)
  -- nodes have addresses of their own, so the count does not wrap
  have hlength : (n :: q.free).length < 2 ^ 32 :=
    hlists.length_lt (Function.update_self ..)
  have hout : ∀ {i}, (i < p + 4 ∨ p + 12 ≤ i) → (i < n ∨ n + q.size ≤ i) →
      pushOnStack m (p + 4) n i = m i := fun hip hin =>
    pushOnStack_of_outside (by omega) (by omega)
  rw [hpush]
  constructor
  · refine hP.setFree hp (fun n' hn' => ?_) fun {a y} hy ha => ?_
    · rcases List.mem_cons.mp hn' with rfl | hn'
      · exact hn.1
      · exact hP.free hp hn'
    · obtain ⟨hout, hy⟩ := Pools.forget_eq_some hy
      rcases Pools.setFree_keeps hp ha with ha | ⟨n', hn', hfree, ha⟩
      · exact hP.known hy ha
      · rcases List.mem_cons.mp hn' with rfl | hn'
        · omega
        · exact hfree hn'
  · refine hm.setFree hp hlists ?_ (fun {p' q' i} hp' hi hne => word_congr fun j hj => ?_)
      fun {a y} hy => ?_
    · rw [pushOnStack_count (by omega) hfresh.pos (by have := hheader hp; unfold Apart; omega)
        (by rw [hm.count hp]; exact hlength), hm.count hp, List.length_cons]
    · refine hout ?_ (by have := hheader hp'; omega)
      rcases hne with hne | hi
      · have := hP.header_apart hp' hp hne
        omega
      · by_cases hpp : p' = p
        · omega
        · have := hP.header_apart hp' hp hpp
          omega
    · obtain ⟨ha, hy⟩ := Pools.forget_eq_some hy
      have hkeep := hP.known hy
      rw [hout ?_ ha]
      · exact hm.data hy
      · by_contra hpa
        exact hkeep (P.keeps_header hp (by omega) (by omega))

theorem Pools.pop_nil (hp : P.pool p = some q) (hfree : q.free = []) : P.pop p = (P, 0) := by
  simp only [pop, hp, hfree]

theorem Pools.pop_cons (hp : P.pool p = some q) (hfree : q.free = n :: l) :
    P.pop p = (P.setFree p q l, n + q.alignment) := by
  simp only [pop, hp, hfree]

theorem pop_step (hP : P.Sound) (hm : Represents m P) (hp : P.pool p = some q) :
    (P.pop p).1.Sound ∧ Represents (memoryPoolAllocate m p).1 (P.pop p).1 ∧
      (memoryPoolAllocate m p).2 = (P.pop p).2 := by
  have hcount := hm.count hp
  rw [memoryPoolAllocate]
  cases hfree : q.free with
  | nil =>
      rw [hcount, hfree, List.length_nil, if_pos rfl, P.pop_nil hp hfree]
      exact ⟨hP, hm, rfl⟩
  | cons n l =>
      have hsome : word m (p + 4) ≠ 0 := by
        rw [hcount, hfree]
        exact Nat.succ_ne_zero _
      have hl : P.lists (p + 4 + 4) = some (n :: l) := hfree ▸ P.lists_pool hp
      obtain ⟨hlists, hnode, hpop⟩ := popOffStack_slists hm.lists (by omega) hl
        (fun ha => hP.member_header ha hp (.inl le_rfl)) hsome
      have hout : ∀ {i}, (i < p + 4 ∨ p + 12 ≤ i) → (popOffStack m (p + 4)).1 i = m i :=
        fun hi => popOffStack_of_outside (by omega)
      rw [if_neg hsome, P.pop_cons hp hfree]
      refine ⟨?_, ?_, ?_⟩
      · refine hP.setFree hp (fun n' hn' => ?_) fun hy ha => ?_
        · exact hP.free hp (hfree ▸ List.mem_cons_of_mem n hn')
        · rcases Pools.setFree_keeps hp ha with ha | ⟨n', hn', hnot, -⟩
          · exact hP.known hy ha
          · exact hnot (hfree ▸ List.mem_cons_of_mem n hn')
      · refine hm.setFree hp hlists ?_ (fun {p' q' i} hp' hi hne => word_congr fun j hj => ?_)
          fun {a y} hy => ?_
        · rw [hpop, hcount, hfree, List.length_cons, Nat.add_sub_cancel]
        · refine hout ?_
          rcases hne with hne | hi
          · have := hP.header_apart hp' hp hne
            omega
          · by_cases hpp : p' = p
            · omega
            · have := hP.header_apart hp' hp hpp
              omega
        · refine (hout ?_).trans (hm.data hy)
          by_contra hpa
          exact hP.known hy (P.keeps_header hp (by omega) (by omega))
      · show (popOffStack m (p + 4)).2 + word (popOffStack m (p + 4)).1 (p + 16) = n + q.alignment
        rw [hnode, ← hm.alignment hp]
        congr 1
        exact word_congr fun j hj => hout (by omega)

/-! ### New pools and items -/

theorem Pools.Room.eq_none (hroom : P.Room n k) (ha : n ≤ a) (hak : a < n + k) :
    P.regions a = none :=
  (hroom.2.2.sub ha (l := 1) (by omega)).eq_none Nat.one_pos P.regions_pos

theorem Pools.Room.pool_eq_none (hroom : P.Room n k) (ha : n ≤ a) (hak : a < n + k) :
    P.pool a = none := by
  cases hp : P.pool a with
  | none => rfl
  | some q =>
      have hregion := P.regions_pool hp
      rw [hroom.eq_none ha hak] at hregion
      exact absurd hregion.symm (Option.some_ne_none 20)

theorem Pools.Sound.room_item (hP : P.Sound) (hroom : P.Room n k) (ha : n ≤ a) (hak : a < n + k) :
    P.item a = none := by
  cases hi : P.item a with
  | none => rfl
  | some p =>
      obtain ⟨q, hp⟩ := Option.isSome_iff_exists.mp (hP.granted hi)
      have hregion := hP.regions_item hi hp
      rw [hroom.eq_none ha hak] at hregion
      exact absurd hregion.symm (Option.some_ne_none _)

theorem initPool_of_outside {lock : ℕ} {itemSize alignment : ℤ} (ha : a < p ∨ p + 20 ≤ a) :
    initPool m p lock itemSize alignment a = m a := by
  rw [initPool, setWord_of_outside (by omega), setWord_of_outside (by omega),
    initStack_of_outside (by omega), setWord_of_outside (by omega)]

theorem initPool_slists {lock : ℕ} {itemSize alignment : ℤ} {L : HeadedLists ℕ} (hS : Slists m L)
    (hbound : p + 20 ≤ 2 ^ 32) (hclear : ∀ {a}, L.Member a → a + 4 ≤ p ∨ p + 20 ≤ a) :
    Slists (initPool m p lock itemSize alignment) (Function.update L (p + 8) (some [])) := by
  have hapart : ∀ {a i}, L.Member a → i ≤ 16 → Apart a (p + i) := by
    intro a i ha hi
    have := hclear ha
    unfold Apart
    omega
  have hS : Slists (setWord m p lock) L :=
    hS.congr fun ha => word_setWord_of_apart (hapart ha (Nat.zero_le 16))
  have hS : Slists (initStack (setWord m p lock) (p + 4))
      (Function.update L (p + 4 + 4) (some [])) := initStack_slists hS
    ⟨by omega, by omega, fun ha => hapart (i := 8) ha (by omega)⟩ fun ha => hapart ha (by omega)
  refine hS.congr fun {a} ha => ?_
  have hfields : Apart a (p + 12) ∧ Apart a (p + 16) := by
    obtain ⟨h, l, hl, ha⟩ := ha
    by_cases hh : h = p + 4 + 4
    · subst hh
      rw [Function.update_self, Option.some_inj] at hl
      subst hl
      obtain rfl := List.mem_singleton.mp ha
      unfold Apart
      omega
    · rw [Function.update_of_ne hh] at hl
      exact ⟨hapart ⟨h, l, hl, ha⟩ (by omega), hapart ⟨h, l, hl, ha⟩ le_rfl⟩
  rw [initPool, word_setWord_of_apart hfields.2, word_setWord_of_apart hfields.1]

theorem Pools.Sound.install_regions (hP : P.Sound) (hroom : P.Room p 20) :
    (P.install p s).regions = Function.update P.regions p (some 20) := by
  ext1 a
  by_cases ha : a = p
  · subst ha
    rw [Function.update_self]
    exact regions_pool (Function.update_self ..)
  · rw [Function.update_of_ne ha, regions, regions]
    have hpool : ∀ {b}, b ≠ p → (P.install p s).pool b = P.pool b :=
      fun hb => Function.update_of_ne hb ..
    rw [hpool ha]
    congr 1
    show ((P.item a).bind _).map _ = _
    cases hi : P.item a with
    | none => rfl
    | some b =>
        have hb : b ≠ p := by
          rintro rfl
          have := hP.granted hi
          rw [hroom.pool_eq_none le_rfl (by omega)] at this
          exact absurd this Bool.false_ne_true
        rw [Option.bind_some, Option.bind_some, hpool hb]

theorem install_step {lock : ℕ} {itemSize alignment : ℤ} (hP : P.Sound) (hm : Represents m P)
    (hroom : P.Room p 20) (hsmall : s.size < 2 ^ 32) (hsize : itemSize.toNat = s.size)
    (halignment : alignment.toNat = s.alignment) :
    (P.install p s).Sound ∧
      Represents (initPool m p lock itemSize alignment) (P.install p s) := by
  have hcases : ∀ {p' q'}, (P.install p s).pool p' = some q' →
      p' = p ∧ q' = ⟨s, []⟩ ∨ p' ≠ p ∧ P.pool p' = some q' := by
    intro p' q' (hp' : Function.update P.pool p (some ⟨s, []⟩) p' = some q')
    by_cases hpp : p' = p
    · subst hpp
      rw [Function.update_self, Option.some_inj] at hp'
      exact .inl ⟨rfl, hp'.symm⟩
    · rw [Function.update_of_ne hpp] at hp'
      exact .inr ⟨hpp, hp'⟩
  -- no node is where the header comes
  have hclear : ∀ {a}, P.lists.Member a → a + 4 ≤ p ∨ p + 20 ≤ a := by
    intro a ha
    obtain ⟨b, k, hb, hba, hab⟩ := hP.member_region ha
    have := hroom.2.2 hb
    omega
  constructor
  · constructor
    · exact hP.install_regions hroom ▸ hP.tidy.insert hroom.2.2 hroom.1 hroom.2.1
    · intro p' q' hp'
      rcases hcases hp' with ⟨-, rfl⟩ | ⟨-, hp'⟩
      · exact hsmall
      · exact hP.small hp'
    · intro p' q' n hp' hn
      rcases hcases hp' with ⟨-, rfl⟩ | ⟨-, hp'⟩
      · exact absurd hn List.not_mem_nil
      · exact hP.free hp' hn
    · intro n p' hn
      show (Function.update P.pool p _ p').isSome
      by_cases hpp : p' = p
      · rw [hpp, Function.update_self]
        rfl
      · rw [Function.update_of_ne hpp]
        exact hP.granted hn
    · intro n p' hn
      have hnp : n ≠ p := by
        rintro rfl
        exact Option.some_ne_none p' (hn.symm.trans (hP.room_item hroom le_rfl (by omega)))
      exact (Function.update_of_ne hnp ..).trans (hP.plain hn)
    · rintro a y hy ⟨p', q', hp', ha⟩
      obtain ⟨hap, hy⟩ := Pools.forget_eq_some hy
      rcases hcases hp' with ⟨rfl, rfl⟩ | ⟨-, hp'⟩
      · rcases ha with ha | ⟨n, hn, -⟩
        · omega
        · exact absurd hn List.not_mem_nil
      · exact hP.known hy ⟨p', q', hp', ha⟩
  · have hnew : word (initPool m p lock itemSize alignment) (p + 12) = s.size := by
      rw [initPool, word_setWord_of_apart (by unfold Apart; omega), hsize,
        word_setWord_self hsmall]
    -- nor is another header
    have hsame : ∀ {p' q' i}, p' ≠ p → P.pool p' = some q' → i ≤ 16 →
        word (initPool m p lock itemSize alignment) (p' + i) = word m (p' + i) := by
      intro p' q' i hpp hp' hi
      have := hroom.2.2 (P.regions_pool hp')
      exact word_congr fun j hj => initPool_of_outside (by omega)
    constructor
    · have hupdate := P.lists_update (P.install p s) rfl
      exact hupdate ▸ initPool_slists hm.lists (by have := hroom.2.1; omega) hclear
    · intro p' q' hp'
      rcases hcases hp' with ⟨rfl, rfl⟩ | ⟨hpp, hp'⟩
      · rw [initPool, word_setWord_of_apart (by unfold Apart; omega),
          word_setWord_of_apart (by unfold Apart; omega), initStack_count]
        rfl
      · exact (hsame hpp hp' (by omega)).trans (hm.count hp')
    · intro p' q' hp'
      rcases hcases hp' with ⟨rfl, rfl⟩ | ⟨hpp, hp'⟩
      · exact hnew
      · exact (hsame hpp hp' (by omega)).trans (hm.size hp')
    · intro p' q' hp'
      rcases hcases hp' with ⟨rfl, rfl⟩ | ⟨hpp, hp'⟩
      · have := s.fits
        rw [initPool, halignment, word_setWord_self (by omega)]
      · exact (hsame hpp hp' le_rfl).trans (hm.alignment hp')
    · intro a y hy
      obtain ⟨ha, hy⟩ := Pools.forget_eq_some hy
      exact (initPool_of_outside ha).trans (hm.data hy)

theorem Pools.grant_regions {count : ℕ} (hp : P.pool p = some q)
    (hroom : P.Room n (count * q.size)) :
    (P.grant p n q.size count).regions = P.regions.cut n q.size count := by
  have hsize := q.size_pos
  ext1 a
  rw [Regions.cut_apply, regions]
  show (if (P.pool a).isSome then _ else ((if _ then _ else P.item a).bind P.pool).map _) = _
  split
  · next hsome =>
      rw [if_neg, regions, if_pos hsome]
      intro ha
      have := Regions.places_bounds ha
      rw [hroom.pool_eq_none this.1 (by omega)] at hsome
      exact absurd hsome Bool.false_ne_true
  · next hnone =>
      split
      · rw [Option.bind_some, hp]
        rfl
      · rw [regions, if_neg hnone]

/-- A pool is given a block for its items; whoever gives it has them for now. -/
theorem grant_step {count : ℕ} (hP : P.Sound) (hm : Represents m P) (hp : P.pool p = some q)
    (hroom : P.Room n (count * q.size)) :
    (P.grant p n q.size count).Sound ∧ Represents m (P.grant p n q.size count) ∧
      ∀ a ∈ Regions.places n q.size count, (P.grant p n q.size count).Out p a := by
  have hsize := q.size_pos
  have hnew : ∀ {a}, a ∈ Regions.places n q.size count → P.pool a = none ∧ P.item a = none := by
    intro a ha
    have := Regions.places_bounds ha
    exact ⟨hroom.pool_eq_none this.1 (by omega), hP.room_item hroom this.1 (by omega)⟩
  have hold : ∀ {a p'}, P.item a = some p' → (P.grant p n q.size count).item a = some p' := by
    intro a p' ha
    refine (if_neg fun hplace => ?_).trans ha
    exact Option.some_ne_none p' (ha.symm.trans (hnew hplace).2)
  have hcases : ∀ {a p'}, (P.grant p n q.size count).item a = some p' →
      a ∈ Regions.places n q.size count ∧ p = p' ∨ P.item a = some p' := by
    intro a p' ha
    rw [Pools.grant] at ha
    dsimp only at ha
    split at ha
    · next hplace => exact .inl ⟨hplace, Option.some_inj.mp ha⟩
    · exact .inr ha
  refine ⟨⟨?_, hP.small, fun hp' hn => hold (hP.free hp' hn), fun ha => ?_, fun ha => ?_,
    hP.known⟩, ⟨hm.lists, hm.count, hm.size, hm.alignment, hm.data⟩, fun a ha =>
      ⟨if_pos ha, fun q' hq' hfree => ?_⟩⟩
  · exact Pools.grant_regions hp hroom ▸ hP.tidy.cut hroom.2.2 hroom.1 hroom.2.1
  · rcases hcases ha with ⟨-, rfl⟩ | ha
    · exact Option.isSome_iff_exists.mpr ⟨q, hp⟩
    · exact hP.granted ha
  · rcases hcases ha with ⟨ha, -⟩ | ha
    · exact (hnew ha).1
    · exact hP.plain ha
  · exact Option.some_ne_none p ((hP.free hq' hfree).symm.trans (hnew ha).2)

end

end EspressifApp.MemoryPool
