import EspressifApp.Collections.Stack
import EspressifApp.Reactive.Regions
import Mathlib.Tactic.Linarith

/-!
`mem_pool.c`: items of one size, kept on a stack while nobody has them.

A `MemPool_t` has its `Lock` in front, then the `Stack` at 4, `ItemSize` at 12,
`Alignment` at 16 and the `Buffer` at 20; `sizeof` says 24. An item begins with
the node that the stack links, and what callers get lies `Alignment` bytes
further. What `malloc` and `xSemaphoreCreateMutex` answer is an argument, zero for
`NULL`. An `int` is an integer here: where its arithmetic would overflow, C has no
answer.
-/

namespace EspressifApp.MemoryPool

open Reactive Collections

/-- The loop of `CalculateAndVerifyAlignment`: it stops early at `alignment`. -/
def findAlignmentBit (alignment : ℤ) : ℕ → ℤ → Bool
  | 0, _ => false
  | i + 1, alignmentBit =>
      if alignment = alignmentBit then true else findAlignmentBit alignment i (alignmentBit * 2)

def calculateAndVerifyAlignment (alignment : ℤ) : ℤ :=
  let alignment := if alignment < 4 then 4 else alignment
  if findAlignmentBit alignment 31 1 then alignment else 0

def calculateItemSize (itemSize alignment : ℤ) : ℤ :=
  if itemSize ≤ alignment then 2 * alignment
  else
    let alignmentCount := itemSize.tdiv alignment
    let alignmentCount := if itemSize.tmod alignment ≠ 0 then alignmentCount + 1 else alignmentCount
    (alignmentCount + 1) * alignment

/-- What `CreateMemoryPool` asks `malloc` for. -/
def memPoolSize (itemSize itemCount : ℤ) : ℤ := 24 - 1 + itemCount * itemSize

def initPool (m : Bytes) (pool lock : ℕ) (itemSize alignment : ℤ) : Bytes :=
  let m := initStack (setWord m pool lock) (pool + 4)
  setWord (setWord m (pool + 12) itemSize.toNat) (pool + 16) alignment.toNat

/-- The loop over `ItemCount` items, of which the next is at `ptr`. -/
def pushItems (m : Bytes) (pool : ℕ) : ℕ → ℕ → Bytes
  | 0, _ => m
  | i + 1, ptr =>
      let m := pushOnStack m (pool + 4) ptr
      pushItems m pool i (ptr + word m (pool + 12))

def createMemoryPool (m : Bytes) (block lock : ℕ) (itemSize itemCount alignment : ℤ) :
    Bytes × ℕ :=
  let alignment := calculateAndVerifyAlignment alignment
  if alignment = 0 then (m, 0)
  else
    let itemSize := calculateItemSize itemSize alignment
    if block = 0 then (m, 0)
    else if lock = 0 then (setWord m block lock, 0)
    else
      (pushItems (initPool m block lock itemSize alignment) block itemCount.toNat (block + 20),
        block)

/-- `AddExtraMemoryToPool`, with `pdPASS` or `pdFAIL`. -/
def addExtraMemoryToPool (m : Bytes) (pool ptr : ℕ) (itemCount : ℤ) : Bytes × Bool :=
  if ptr = 0 then (m, false) else (pushItems m pool itemCount.toNat ptr, true)

/-- The loop of `CreateMemoryPoolStatic`; `none` when the turns are used up. -/
def pushPreallocated (m : Bytes) (pool : ℕ) (itemSize : ℤ) : ℕ → ℕ → ℤ → Option Bytes
  | 0, _, _ => none
  | turn + 1, ptr, size =>
      if itemSize ≤ size then
        let m := pushOnStack m (pool + 4) ptr
        pushPreallocated m pool itemSize turn (ptr + word m (pool + 12))
          (size - word m (pool + 12))
      else some m

def createMemoryPoolStatic (m : Bytes) (block lock : ℕ) (itemSize : ℤ) (preallocatedMemory : ℕ)
    (preallocatedMemorySize alignment : ℤ) : Option (Bytes × ℕ) :=
  let alignment := calculateAndVerifyAlignment alignment
  if alignment = 0 then some (m, 0)
  else
    let itemSize := calculateItemSize itemSize alignment
    if block = 0 then some (m, 0)
    else if lock = 0 then some (setWord m block lock, 0)
    else
      (pushPreallocated (initPool m block lock itemSize alignment) block itemSize turns
        preallocatedMemory preallocatedMemorySize).map fun m => (m, block)

/-- The loop of `AddExtraMemoryToPoolStatic`, in which nothing becomes of the
size. -/
def pushExtraPreallocated (m : Bytes) (pool : ℕ) (size : ℤ) : ℕ → ℕ → Option Bytes
  | 0, _ => none
  | turn + 1, ptr =>
      if (word m (pool + 12) : ℤ) ≤ size then
        let m := pushOnStack m (pool + 4) ptr
        pushExtraPreallocated m pool size turn (ptr + word m (pool + 12))
      else some m

def addExtraMemoryToPoolStatic (m : Bytes) (pool preallocatedMemory : ℕ)
    (preallocatedMemorySize : ℤ) : Option Bytes :=
  pushExtraPreallocated m pool preallocatedMemorySize turns preallocatedMemory

def memoryPoolAllocate (m : Bytes) (pool : ℕ) : Bytes × ℕ :=
  if word m (pool + 4) = 0 then (m, 0)
  else
    let (m, node) := popOffStack m (pool + 4)
    (m, node + word m (pool + 16))

def memoryPoolFree (m : Bytes) (pool memory : ℕ) : Bytes :=
  pushOnStack m (pool + 4) (memory - word m (pool + 16))

/-! ### Alignments and sizes -/

theorem findAlignmentBit_iff {a b : ℤ} {n : ℕ} :
    findAlignmentBit a n b = true ↔ ∃ k < n, a = b * 2 ^ k := by
  induction n generalizing b with
  | zero => simp [findAlignmentBit]
  | succ n ih =>
      rw [findAlignmentBit]
      split
      · next hab => exact ⟨fun _ => ⟨0, n.succ_pos, by rw [pow_zero, mul_one, hab]⟩, fun _ => rfl⟩
      · next hab =>
          rw [ih]
          constructor
          · rintro ⟨k, hk, rfl⟩
            exact ⟨k + 1, by omega, by rw [pow_succ']; ring⟩
          · rintro ⟨k, hk, rfl⟩
            cases k with
            | zero => exact absurd (by rw [pow_zero, mul_one]) hab
            | succ k => exact ⟨k, by omega, by rw [pow_succ']; ring⟩

theorem calculateAndVerifyAlignment_max (a : ℤ) :
    calculateAndVerifyAlignment a = if findAlignmentBit (max a 4) 31 1 then max a 4 else 0 := by
  have hmax : (if a < 4 then 4 else a) = max a 4 := by
    rw [max_comm, max_def]
    split <;> split <;> omega
  rw [calculateAndVerifyAlignment, hmax]

/-- Accepted are the powers of two that an `int` has, and what is below four. -/
theorem calculateAndVerifyAlignment_ne_zero_iff {a : ℤ} :
    calculateAndVerifyAlignment a ≠ 0 ↔ ∃ k < 31, max a 4 = 2 ^ k := by
  have hfind := findAlignmentBit_iff (a := max a 4) (b := 1) (n := 31)
  simp only [one_mul] at hfind
  rw [calculateAndVerifyAlignment_max, ← hfind]
  split
  · next hbit => exact ⟨fun _ => hbit, fun _ => by have := le_max_right a 4; omega⟩
  · next hbit => exact ⟨fun h => absurd rfl h, fun h => absurd h hbit⟩

theorem calculateAndVerifyAlignment_eq {a : ℤ} (h : calculateAndVerifyAlignment a ≠ 0) :
    calculateAndVerifyAlignment a = max a 4 := by
  rw [calculateAndVerifyAlignment_max] at h ⊢
  split at h
  · next hbit => exact if_pos hbit
  · exact absurd rfl h

theorem calculateItemSize_bounds {s a : ℤ} (ha : 0 < a) :
    a + s ≤ calculateItemSize s a ∧ 2 * a ≤ calculateItemSize s a ∧
      a ∣ calculateItemSize s a := by
  rw [calculateItemSize]
  split
  · exact ⟨by omega, le_rfl, Dvd.intro_left 2 rfl⟩
  · next hs =>
      dsimp only
      rw [Int.tdiv_eq_ediv_of_nonneg (by omega), Int.tmod_eq_emod_of_nonneg (by omega)]
      have hdiv := Int.mul_ediv_add_emod s a
      have hlt := Int.emod_lt_of_pos s ha
      have hpos : 1 ≤ s / a := (Int.le_ediv_iff_mul_le ha).mpr (by omega)
      have hmul : a * 1 ≤ a * (s / a) := Int.mul_le_mul_of_nonneg_left hpos ha.le
      rw [mul_one] at hmul
      have hone : (s / a + 1) * a = a * (s / a) + a := by ring
      have htwo : (s / a + 1 + 1) * a = a * (s / a) + 2 * a := by ring
      refine ⟨?_, ?_, Dvd.intro_left _ rfl⟩ <;> split
      · linarith
      · next hmod => linarith [not_not.mp hmod]
      · linarith
      · linarith

end EspressifApp.MemoryPool
