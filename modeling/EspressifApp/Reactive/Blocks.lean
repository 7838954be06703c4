import Mathlib.Data.List.Count
import Mathlib.Logic.Function.Basic

/-!
Blocks of memory.

Two accounts of a program that allocates blocks and passes them on by pointer.

*Who holds what.* A holder is anything that can keep a pointer: a local
variable, a slot of a queue. `Held` says that the blocks held are live and held
once, `Covered` that every live block is held. A program moves pointers between
holders, allocates a block into a holder and frees one out of a holder; each
keeps both, and a holder that lets go of a block without freeing it loses it
(`not_covered_of_dropped`).

*What is done to a block.* A block is allocated, accessed, settled when its
contents have served, and freed. `replay` runs a trace of such operations and
fails at the first one that does not fit; a trace is `Legal` if it runs through.
In a legal trace every block is freed as often as it was allocated, less one if
it is still live (`count_alloc`).
-/

namespace EspressifApp.Reactive

variable {ι α : Type*}

/-! ### Holders -/

/-- Blocks held are live, and each has one holder. -/
structure Held (own : ι → Option α) (live : α → Prop) : Prop where
  live : ∀ i p, own i = some p → live p
  unique : ∀ i j p, own i = some p → own j = some p → i = j

/-- Live blocks are held. -/
def Covered (own : ι → Option α) (live : α → Prop) : Prop := ∀ p, live p → ∃ i, own i = some p

variable {own : ι → Option α} {live : α → Prop}

theorem Held.ne_of_ne (h : Held own live) {i j : ι} {p : α} (hown : own i = some p) (hj : j ≠ i) :
    own j ≠ some p :=
  fun hown' => hj (h.unique j i p hown' hown)

theorem live_iff_existsUnique (h : Held own live) (hcov : Covered own live) (p : α) :
    live p ↔ ∃! i, own i = some p := by
  constructor
  · intro hp
    obtain ⟨i, hi⟩ := hcov p hp
    exact ⟨i, hi, fun j hj => h.unique j i p hj hi⟩
  · rintro ⟨i, hi, -⟩
    exact h.live i p hi

theorem Held.congr (h : Held own live) {own' : ι → Option α} {live' : α → Prop}
    (hown : ∀ i, own' i = own i) (hlive : ∀ p, live' p ↔ live p) : Held own' live' :=
  ⟨fun i p hi => (hlive p).mpr (h.live i p ((hown i).symm.trans hi)),
    fun i j p hi hj => h.unique i j p ((hown i).symm.trans hi) ((hown j).symm.trans hj)⟩

theorem Covered.congr (h : Covered own live) {own' : ι → Option α} {live' : α → Prop}
    (hown : ∀ i, own' i = own i) (hlive : ∀ p, live' p ↔ live p) : Covered own' live' := by
  intro p hp
  obtain ⟨i, hi⟩ := h p ((hlive p).mp hp)
  exact ⟨i, (hown i).trans hi⟩

/-- Pointers are moved: the new holders take over from old ones, no two of them
from the same one. -/
theorem Held.move (h : Held own live) {own' : ι → Option α} (e : ι → ι)
    (he : Function.Injective e) (hown : ∀ i, own' i = own (e i)) : Held own' live :=
  ⟨fun i p hi => h.live (e i) p ((hown i).symm.trans hi),
    fun i j p hi hj =>
      he (h.unique (e i) (e j) p ((hown i).symm.trans hi) ((hown j).symm.trans hj))⟩

/-- No block is lost if the holders taken over from include all that hold
one. -/
theorem Covered.move (h : Covered own live) {own' : ι → Option α} (e : ι → ι)
    (hown : ∀ i, own' i = own (e i)) (hrest : ∀ j, own j ≠ none → ∃ i, e i = j) :
    Covered own' live := by
  intro p hp
  obtain ⟨j, hj⟩ := h p hp
  obtain ⟨i, rfl⟩ := hrest j (by rw [hj]; nofun)
  exact ⟨i, (hown i).trans hj⟩

variable [DecidableEq ι]

theorem Held.alloc (h : Held own live) {i : ι} {p : α} (hp : ¬ live p) :
    Held (Function.update own i (some p)) fun q => q = p ∨ live q := by
  constructor
  · intro j q hj
    by_cases hji : j = i
    · subst hji
      rw [Function.update_self] at hj
      exact .inl (Option.some.inj hj).symm
    · rw [Function.update_of_ne hji] at hj
      exact .inr (h.live j q hj)
  · intro j k q hj hk
    -- the new block has no other holder
    have hnew : ∀ l, l ≠ i → own l ≠ some p := fun l _ hl => hp (h.live l p hl)
    by_cases hji : j = i <;> by_cases hki : k = i
    · rw [hji, hki]
    · subst hji
      rw [Function.update_self] at hj
      rw [Function.update_of_ne hki, ← hj] at hk
      exact absurd hk (hnew k hki)
    · subst hki
      rw [Function.update_self] at hk
      rw [Function.update_of_ne hji, ← hk] at hj
      exact absurd hj (hnew j hji)
    · rw [Function.update_of_ne hji] at hj
      rw [Function.update_of_ne hki] at hk
      exact h.unique j k q hj hk

theorem Covered.alloc (h : Covered own live) {i : ι} {p : α} (hi : own i = none) :
    Covered (Function.update own i (some p)) fun q => q = p ∨ live q := by
  rintro q (rfl | hq)
  · exact ⟨i, Function.update_self ..⟩
  · obtain ⟨j, hj⟩ := h q hq
    refine ⟨j, ?_⟩
    rw [Function.update_of_ne, hj]
    rintro rfl
    rw [hi] at hj
    cases hj

theorem update_none_eq_some {i j : ι} {q : α} :
    Function.update own i none j = some q ↔ j ≠ i ∧ own j = some q := by
  by_cases hji : j = i
  · subst hji
    simp
  · simp [hji]

theorem Held.drop (h : Held own live) (i : ι) : Held (Function.update own i none) live := by
  constructor
  · intro j q hj
    exact h.live j q (update_none_eq_some.mp hj).2
  · intro j k q hj hk
    exact h.unique j k q (update_none_eq_some.mp hj).2 (update_none_eq_some.mp hk).2

theorem not_covered_of_dropped (h : Held own live) {i : ι} {p : α} (hi : own i = some p) :
    ¬ Covered (Function.update own i none) live := by
  intro hcov
  obtain ⟨j, hj⟩ := hcov p (h.live i p hi)
  obtain ⟨hji, hj⟩ := update_none_eq_some.mp hj
  exact hji (h.unique j i p hj hi)

theorem Held.free (h : Held own live) {i : ι} {p : α} (hi : own i = some p) :
    Held (Function.update own i none) fun q => q ≠ p ∧ live q := by
  refine ⟨fun j q hj => ⟨?_, (h.drop i).live j q hj⟩, (h.drop i).unique⟩
  obtain ⟨hji, hj⟩ := update_none_eq_some.mp hj
  rintro rfl
  exact hji (h.unique j i q hj hi)

theorem Covered.free (h : Covered own live) {i : ι} {p : α} (hi : own i = some p) :
    Covered (Function.update own i none) fun q => q ≠ p ∧ live q := by
  rintro q ⟨hqp, hq⟩
  obtain ⟨j, hj⟩ := h q hq
  refine ⟨j, update_none_eq_some.mpr ⟨?_, hj⟩⟩
  rintro rfl
  exact hqp (Option.some.inj (hj.symm.trans hi))

/-- What a program may do with its pointers: move them between holders, allocate
a block into a holder that has none, or free one out of its holder. -/
inductive Transfer (own : ι → Option α) (live : α → Prop) (own' : ι → Option α)
    (live' : α → Prop) : Prop
  | move (e : ι → ι) (he : Function.Injective e) (hown : ∀ i, own' i = own (e i))
      (hrest : ∀ j, own j ≠ none → ∃ i, e i = j) (hlive : ∀ p, live' p ↔ live p)
  | alloc (i : ι) (p : α) (hi : own i = none) (hp : ¬ live p)
      (hown : ∀ j, own' j = Function.update own i (some p) j)
      (hlive : ∀ q, live' q ↔ q = p ∨ live q)
  | free (i : ι) (p : α) (hi : own i = some p)
      (hown : ∀ j, own' j = Function.update own i none j) (hlive : ∀ q, live' q ↔ q ≠ p ∧ live q)

variable {own' : ι → Option α} {live' : α → Prop}

theorem Transfer.keep (hown : ∀ i, own' i = own i) (hlive : ∀ p, live' p ↔ live p) :
    Transfer own live own' live' :=
  .move id Function.injective_id hown (fun j _ => ⟨j, rfl⟩) hlive

theorem Transfer.held (t : Transfer own live own' live') (h : Held own live) :
    Held own' live' := by
  cases t with
  | move e he hown _ hlive => exact (h.move e he hown).congr (fun _ => rfl) hlive
  | alloc i p _ hp hown hlive => exact (h.alloc hp).congr hown hlive
  | free i p hi hown hlive => exact (h.free hi).congr hown hlive

theorem Transfer.covered (t : Transfer own live own' live') (h : Covered own live) :
    Covered own' live' := by
  cases t with
  | move e _ hown hrest hlive => exact (h.move e hown hrest).congr (fun _ => rfl) hlive
  | alloc i p hi _ hown hlive => exact (h.alloc hi).congr hown hlive
  | free i p hi hown hlive => exact (h.free hi).congr hown hlive

/-! ### Traces -/

/-- An operation on a block. A block is settled when its contents have served:
they are printed, or given up. -/
inductive MemOp (α : Type*)
  | alloc (p : α)
  | access (p : α)
  | settle (p : α)
  | free (p : α)
  deriving DecidableEq, Repr

/-- A live block, before and after it is settled. -/
inductive Phase
  | inUse
  | settled
  deriving DecidableEq, Repr

variable [DecidableEq α]

/-- One operation: a block is allocated when it is not live, accessed and
settled when it is in use, and freed when it is settled. -/
def MemOp.run (m : α → Option Phase) : MemOp α → Option (α → Option Phase)
  | .alloc p => if m p = none then some (Function.update m p (some .inUse)) else none
  | .access p => if m p = some .inUse then some m else none
  | .settle p =>
      if m p = some .inUse then some (Function.update m p (some .settled)) else none
  | .free p => if m p = some .settled then some (Function.update m p none) else none

/-- A trace of operations, from a state of the blocks. -/
def replay : (α → Option Phase) → List (MemOp α) → Option (α → Option Phase)
  | m, [] => some m
  | m, op :: ops => (op.run m).bind fun m' => replay m' ops

/-- Every operation of the trace fits, from no block at all. -/
def Legal (ops : List (MemOp α)) : Prop := replay (fun _ => none) ops ≠ none

theorem replay_append (m : α → Option Phase) (ops ops' : List (MemOp α)) :
    replay m (ops ++ ops') = (replay m ops).bind fun m' => replay m' ops' := by
  induction ops generalizing m with
  | nil => rfl
  | cons op ops ih =>
      cases hop : op.run m with
      | none => simp [replay, hop]
      | some m' => simp [replay, hop, ih]

theorem count_alloc {m m' : α → Option Phase} {ops : List (MemOp α)}
    (h : replay m ops = some m') (p : α) :
    ops.count (.alloc p) + (if m p = none then 0 else 1) =
      ops.count (.free p) + (if m' p = none then 0 else 1) := by
  induction ops generalizing m with
  | nil =>
      cases h
      simp
  | cons op ops ih =>
      obtain ⟨m₁, hop, hrest⟩ := Option.bind_eq_some_iff.mp h
      have hih := ih hrest
      clear ih hrest h
      cases op with
      | alloc q | access q | settle q | free q =>
          simp only [MemOp.run] at hop
          split_ifs at hop with hq
          cases hop
          by_cases hqp : q = p
          · subst hqp
            simp [hq] at hih ⊢
            omega
          · simpa [List.count_cons, hqp, Ne.symm hqp] using hih

end EspressifApp.Reactive
