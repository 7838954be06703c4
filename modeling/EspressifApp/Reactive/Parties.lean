import Mathlib.Algebra.BigOperators.Group.Finset.Basic
import Mathlib.Algebra.Order.BigOperators.Group.Finset
import Mathlib.Data.Fintype.BigOperators

/-!
Parties and their places.

Several parties run their own code over a common store. Where each of them is in
its code is a function from parties to places, and a step moves one party. What
an invariant says of such a system is mostly how many parties are at places of a
kind: `headcount` is that number, and `headcount_move` how one move changes it.
Where a mutex keeps them apart there is one or none, and `Locked` says that its
holder is whoever is at such a place. What a semaphore is, here and in the models,
is said at `Semaphore`.
-/

namespace EspressifApp.Reactive

variable {τ π : Type*} [Fintype τ]

def total (f : π → ℕ) (place : τ → π) : ℕ := ∑ t, f (place t)

theorem total_move [DecidableEq τ] (f : π → ℕ) (place : τ → π) (t : τ) (q : π) :
    total f (Function.update place t q) + f (place t) = total f place + f q := by
  have hrest : ∑ u ∈ Finset.univ.erase t, f (Function.update place t q u) =
      ∑ u ∈ Finset.univ.erase t, f (place u) := by
    apply Finset.sum_congr rfl
    intro u hu
    rw [Function.update_of_ne (Finset.ne_of_mem_erase hu)]
  have hafter := Finset.add_sum_erase Finset.univ
    (fun u => f (Function.update place t q u)) (Finset.mem_univ t)
  have hbefore := Finset.add_sum_erase Finset.univ (fun u => f (place u)) (Finset.mem_univ t)
  simp only [Function.update_self] at hafter
  unfold total
  omega

/-- How many parties are at a place of a kind. -/
def headcount (P : π → Prop) [DecidablePred P] (place : τ → π) : ℕ :=
  total (fun p => if P p then 1 else 0) place

section

variable (P : π → Prop) [DecidablePred P] {place : τ → π}

theorem headcount_move [DecidableEq τ] (place : τ → π) (t : τ) (q : π) :
    headcount P (Function.update place t q) + (if P (place t) then 1 else 0) =
      headcount P place + if P q then 1 else 0 :=
  total_move _ place t q

variable {P}

theorem headcount_congr {ρ : Type*} {R : ρ → Prop} [DecidablePred R] {place' : τ → ρ}
    (h : ∀ t, P (place t) ↔ R (place' t)) : headcount P place = headcount R place' :=
  Finset.sum_congr rfl fun t _ => by simp only [h t]

theorem headcount_eq_zero : headcount P place = 0 ↔ ∀ t, ¬ P (place t) := by
  simp [headcount, total]

theorem headcount_pos : 0 < headcount P place ↔ ∃ t, P (place t) := by
  rw [Nat.pos_iff_ne_zero, ne_eq, headcount_eq_zero]
  push Not
  exact Iff.rfl

theorem two_le_headcount [DecidableEq τ] {t u : τ} (hne : t ≠ u) (ht : P (place t))
    (hu : P (place u)) : 2 ≤ headcount P place := by
  have hsub : ({t, u} : Finset τ) ⊆ Finset.univ := Finset.subset_univ _
  calc 2 = ∑ v ∈ ({t, u} : Finset τ), if P (place v) then 1 else 0 := by
        rw [Finset.sum_pair hne, if_pos ht, if_pos hu]
    _ ≤ headcount P place := Finset.sum_le_sum_of_subset hsub

/-- Where at most one party can be, all those there are the same one. -/
theorem eq_of_headcount_le_one [DecidableEq τ] (hone : headcount P place ≤ 1) {t u : τ}
    (ht : P (place t)) (hu : P (place u)) : t = u := by
  by_contra hne
  have := two_le_headcount hne ht hu
  omega

end

/-! ### Semaphores -/

/-- A binary semaphore or a mutex, as whether it can be taken. Of the kernel this
much is assumed: to take it without a time limit is one step, which waits until it
can be taken and leaves it taken; to give it is one step, which never waits and
leaves it such that it can be taken, whether or not it could before. -/
abbrev Semaphore := Bool

/-- A mutex, free or taken or deleted, and the parties at the places that hold
it: one while it is taken, else none. -/
structure Locked {τ π : Type*} (lock : Option Semaphore) (hold : π → Bool) (place : τ → π) :
    Prop where
  one : ∀ {t u}, hold (place t) = true → hold (place u) = true → t = u
  taken : (∃ t, hold (place t) = true) ↔ lock = some false

namespace Locked

variable {τ π : Type*} [DecidableEq τ] {lock : Option Semaphore} {hold : π → Bool} {place : τ → π}
  {t : τ} {q : π}

omit [DecidableEq τ] in
theorem free (hl : Locked lock hold place) (hlock : lock ≠ some false) (t : τ) :
    hold (place t) = false :=
  Bool.eq_false_iff.mpr fun ht => hlock (hl.taken.mp ⟨t, ht⟩)

theorem take (hl : Locked lock hold place) (hlock : lock = some true) (hq : hold q = true) :
    Locked (some false) hold (Function.update place t q) := by
  have hother : ∀ u, hold (Function.update place t q u) = true → u = t := by
    intro u hu
    by_contra hne
    rw [Function.update_of_ne hne, hl.free (by simp [hlock])] at hu
    exact Bool.false_ne_true hu
  refine ⟨fun ht hu => (hother _ ht).trans (hother _ hu).symm, iff_of_true ⟨t, ?_⟩ rfl⟩
  rwa [Function.update_self]

theorem give (hl : Locked lock hold place) (ht : hold (place t) = true) (hq : hold q = false) :
    Locked (some true) hold (Function.update place t q) := by
  have hnone : ∀ u, ¬ hold (Function.update place t q u) = true := by
    intro u hu
    by_cases hut : u = t
    · rw [hut, Function.update_self, hq] at hu
      exact Bool.false_ne_true hu
    · rw [Function.update_of_ne hut] at hu
      exact hut (hl.one hu ht)
  exact ⟨fun ht => absurd ht (hnone _), iff_of_false (fun ⟨u, hu⟩ => hnone u hu) (by simp)⟩

theorem stay (hl : Locked lock hold place) (hq : hold q = hold (place t)) :
    Locked lock hold (Function.update place t q) := by
  have hsame : ∀ u, hold (Function.update place t q u) = hold (place u) := by
    intro u
    by_cases hut : u = t
    · rw [hut, Function.update_self, hq]
    · rw [Function.update_of_ne hut]
  refine ⟨fun {u w} hu hw => hl.one (hsame u ▸ hu) (hsame w ▸ hw), ?_⟩
  simp only [hsame]
  exact hl.taken

omit [DecidableEq τ] in
theorem delete (hl : Locked lock hold place) (hlock : lock ≠ some false) :
    Locked none hold place :=
  ⟨fun ht => absurd ht (by simp [hl.free hlock]), iff_of_false (by simp [hl.free hlock]) (by simp)⟩

end Locked

end EspressifApp.Reactive
