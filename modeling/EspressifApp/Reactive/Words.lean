import Mathlib.Data.Nat.Notation
import Mathlib.Tactic.Ring

/-!
Memory of bytes, and words in it.

A word of 32 bits is four bytes, the lowest first. Words that do not overlap do
not disturb each other (`word_setWord_of_apart`), and what is written is what is
read (`word_setWord_self`).
-/

namespace EspressifApp.Reactive

abbrev Bytes := ℕ → UInt8

def word (m : Bytes) (a : ℕ) : ℕ :=
  (m a).toNat + 2 ^ 8 * (m (a + 1)).toNat + 2 ^ 16 * (m (a + 2)).toNat +
    2 ^ 24 * (m (a + 3)).toNat

def setWord (m : Bytes) (a x : ℕ) : Bytes := fun b =>
  if a ≤ b ∧ b < a + 4 then UInt8.ofNat (x / 2 ^ (8 * (b - a))) else m b

def Apart (a b : ℕ) : Prop := a + 4 ≤ b ∨ b + 4 ≤ a

instance (a b : ℕ) : Decidable (Apart a b) := inferInstanceAs (Decidable (_ ∨ _))

section

variable {m m' : Bytes} {a b x : ℕ}

theorem Apart.symm (h : Apart a b) : Apart b a := Or.symm h

theorem Apart.ne (h : Apart a b) : a ≠ b := by
  rintro rfl
  rcases h with h | h <;> omega

theorem word_congr (h : ∀ i < 4, m' (a + i) = m (a + i)) : word m' a = word m a := by
  have h₀ := h 0 (by omega)
  rw [Nat.add_zero] at h₀
  simp only [word, h₀, h 1 (by omega), h 2 (by omega), h 3 (by omega)]

theorem setWord_of_outside (h : b < a ∨ a + 4 ≤ b) : setWord m a x b = m b :=
  if_neg (by omega)

theorem word_setWord_of_apart (h : Apart b a) : word (setWord m a x) b = word m b :=
  word_congr fun i hi => setWord_of_outside (by rcases h with h | h <;> omega)

theorem word_setWord_self (hx : x < 2 ^ 32) : word (setWord m a x) a = x := by
  have hbyte : ∀ i < 4, (setWord m a x (a + i)).toNat = x / 2 ^ (8 * i) % 256 := by
    intro i hi
    rw [setWord, if_pos (by omega), Nat.add_sub_cancel_left, UInt8.toNat_ofNat']
  have h₀ := hbyte 0 (by omega)
  rw [Nat.add_zero, Nat.mul_zero, pow_zero, Nat.div_one] at h₀
  rw [word, h₀, hbyte 1 (by omega), hbyte 2 (by omega), hbyte 3 (by omega)]
  omega

theorem word_lt (m : Bytes) (a : ℕ) : word m a < 2 ^ 32 := by
  have h₀ := (m a).toNat_lt
  have h₁ := (m (a + 1)).toNat_lt
  have h₂ := (m (a + 2)).toNat_lt
  have h₃ := (m (a + 3)).toNat_lt
  rw [word]
  omega

end

end EspressifApp.Reactive
