import Mathlib.Data.List.Basic
import Mathlib.Logic.Function.Basic

/-!
Regions of memory.

Who shares out memory keeps it in regions: `R a = some k` says that one of `k`
bytes begins at `a`. They are tidy when none overlaps with another. A region that
is clear of the others may be added (`Tidy.insert`), and a clear block may be cut
up into regions of one size (`Tidy.cut`).
-/

namespace EspressifApp.Reactive

/-- How long the region is that begins at an address. -/
abbrev Regions := ℕ → Option ℕ

namespace Regions

def Clear (R : Regions) (a k : ℕ) : Prop := ∀ ⦃b l⦄, R b = some l → a + k ≤ b ∨ b + l ≤ a

structure Tidy (top : ℕ) (R : Regions) : Prop where
  pos : ∀ {a k}, R a = some k → 0 < a
  bound : ∀ {a k}, R a = some k → a + k ≤ top
  apart : ∀ {a b k l}, R a = some k → R b = some l → a ≠ b → a + k ≤ b ∨ b + l ≤ a

variable {R : Regions} {top a b k l base size : ℕ}

theorem Clear.sub (hR : R.Clear a k) (hb : a ≤ b) (hl : b + l ≤ a + k) : R.Clear b l := by
  intro c i hc
  have := hR hc
  omega

theorem Clear.insert (hR : R.Clear b l) (hab : b + l ≤ a ∨ a + k ≤ b) :
    Clear (Function.update R a (some k)) b l := by
  intro c i hc
  by_cases hca : c = a
  · subst hca
    rw [Function.update_self, Option.some_inj] at hc
    exact hc ▸ hab
  · rw [Function.update_of_ne hca] at hc
    exact hR hc

theorem Clear.eq_none (hR : R.Clear a k) (hk : 0 < k) (hpos : ∀ {l}, R a = some l → 0 < l) :
    R a = none := by
  cases ha : R a with
  | none => rfl
  | some l =>
      have := hR ha
      have := hpos ha
      omega

theorem Tidy.insert (hR : R.Tidy top) (hclear : R.Clear a k) (ha : 0 < a) (hk : a + k ≤ top) :
    Tidy top (Function.update R a (some k)) := by
  have hcases : ∀ {b l}, Function.update R a (some k) b = some l →
      b = a ∧ k = l ∨ b ≠ a ∧ R b = some l := by
    intro b l hb
    by_cases hba : b = a
    · subst hba
      rw [Function.update_self, Option.some_inj] at hb
      exact .inl ⟨rfl, hb⟩
    · rw [Function.update_of_ne hba] at hb
      exact .inr ⟨hba, hb⟩
  constructor
  · intro b l hb
    rcases hcases hb with ⟨rfl, -⟩ | ⟨-, hb⟩
    · exact ha
    · exact hR.pos hb
  · intro b l hb
    rcases hcases hb with ⟨rfl, rfl⟩ | ⟨-, hb⟩
    · exact hk
    · exact hR.bound hb
  · intro b c l i hb hc hne
    rcases hcases hb with ⟨rfl, rfl⟩ | ⟨-, hb⟩ <;> rcases hcases hc with ⟨hcb, hik⟩ | ⟨-, hc⟩
    · exact absurd hcb.symm hne
    · exact hclear hc
    · exact hcb ▸ hik ▸ (hclear hb).symm
    · exact hR.apart hb hc hne

/-! ### Blocks -/

/-- Where the regions of a block begin that is cut up into `count`. -/
def places (base size : ℕ) : ℕ → List ℕ
  | 0 => []
  | count + 1 => base :: places (base + size) size count

theorem mem_places {count : ℕ} :
    a ∈ places base size count ↔ ∃ i < count, a = base + i * size := by
  induction count generalizing base with
  | zero => simp [places]
  | succ count ih =>
      rw [places, List.mem_cons, ih]
      constructor
      · rintro (rfl | ⟨i, hi, rfl⟩)
        · exact ⟨0, count.succ_pos, by omega⟩
        · exact ⟨i + 1, by omega, by rw [Nat.succ_mul]; omega⟩
      · rintro ⟨i, hi, rfl⟩
        cases i with
        | zero => exact .inl (by omega)
        | succ i => exact .inr ⟨i, by omega, by rw [Nat.succ_mul]; omega⟩

theorem length_places {count : ℕ} : (places base size count).length = count := by
  induction count generalizing base with
  | zero => rfl
  | succ count ih => rw [places, List.length_cons, ih]

theorem places_bounds {count : ℕ} (ha : a ∈ places base size count) :
    base ≤ a ∧ a + size ≤ base + count * size := by
  obtain ⟨i, hi, rfl⟩ := mem_places.mp ha
  have := Nat.mul_le_mul_right size hi
  rw [Nat.succ_mul] at this
  omega

/-- A block is cut up. -/
def cut (R : Regions) (base size count : ℕ) : Regions :=
  (places base size count).foldl (fun R a => Function.update R a (some size)) R

theorem cut_succ {count : ℕ} :
    R.cut base size (count + 1) =
      Regions.cut (Function.update R base (some size)) (base + size) size count :=
  rfl

theorem cut_apply {count : ℕ} :
    R.cut base size count a = if a ∈ places base size count then some size else R a := by
  induction count generalizing R base with
  | zero => rfl
  | succ count ih =>
      rw [cut_succ, ih, places]
      by_cases ha : a ∈ places (base + size) size count
      · rw [if_pos ha, if_pos (List.mem_cons_of_mem base ha)]
      · rw [if_neg ha]
        by_cases hab : a = base
        · subst hab
          rw [Function.update_self, if_pos List.mem_cons_self]
        · rw [Function.update_of_ne hab, if_neg (by simp [hab, ha])]

theorem Tidy.cut {count : ℕ} (hR : R.Tidy top) (hclear : R.Clear base (count * size))
    (hbase : 0 < base) (hbound : base + count * size ≤ top) :
    Tidy top (R.cut base size count) := by
  induction count generalizing R base with
  | zero => exact hR
  | succ count ih =>
      rw [Nat.succ_mul] at hclear hbound
      refine ih (hR.insert (hclear.sub (Nat.le_refl _) (by omega)) hbase (by omega)) ?_
        (by omega) (by omega)
      exact (hclear.sub (by omega) (by omega)).insert (.inr (Nat.le_refl _))

end Regions

end EspressifApp.Reactive
