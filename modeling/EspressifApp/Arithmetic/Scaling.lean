import Mathlib.Algebra.Order.Field.Rat
import Mathlib.Algebra.Order.AbsoluteValue.Basic
import Mathlib.Tactic.FieldSimp
import Mathlib.Tactic.Linarith
import Mathlib.Tactic.Positivity
import Mathlib.Tactic.Ring

/-!
Changes of scale in integer arithmetic. Three computations round down on the
way, and the lemmas say what the rounding costs: a count converted to another
unit and back, a count divided by a period that was itself rounded, and a share
in a total that was divided first.
-/

namespace EspressifApp.Arithmetic

variable {a b n : ℕ}

/-! ### Conversion -/

/-- A count of `b`-ths as a count of `a`-ths, rounded down. -/
def rescale (a b n : ℕ) : ℕ := n * a / b

theorem rescale_eq_iff (hb : 0 < b) {q : ℕ} :
    rescale a b n = q ↔ b * q ≤ n * a ∧ n * a < b * (q + 1) := by
  rw [rescale, Nat.div_eq_iff hb, mul_comm b q, mul_comm b (q + 1), Nat.add_mul]
  omega

theorem rescale_pos_iff (hb : 0 < b) : 0 < rescale a b n ↔ b ≤ n * a := by
  rw [rescale, Nat.div_pos_iff]
  exact and_iff_right hb

/-- What a count loses when it is converted and converted back: the remainder of
the first conversion, in its own unit and rounded up. -/
def lost (a b n : ℕ) : ℕ := (n * a % b + a - 1) / a

theorem rescale_add_lost (ha : 0 < a) : rescale b a (rescale a b n) + lost a b n = n := by
  unfold rescale lost
  have hdiv := Nat.div_add_mod' (n * a) b
  set q := n * a / b
  set r := n * a % b
  have hup := Nat.div_add_mod (r + a - 1) a
  have hupmod := Nat.mod_lt (r + a - 1) ha
  set c := (r + a - 1) / a
  have hle : c ≤ n := by
    apply Nat.le_of_lt_succ
    apply Nat.lt_of_mul_lt_mul_left (a := a)
    rw [Nat.mul_succ, mul_comm a n]
    omega
  have hval : q * b / a = n - c := by
    apply (rescale_eq_iff ha).mpr
    rw [Nat.mul_add, Nat.mul_sub, mul_comm a n]
    constructor <;> omega
  omega

/-- A conversion to a unit that divides into the first loses less than one. -/
theorem lost_mul_lt_of_dvd (hb : 0 < b) (hab : a ∣ b) : lost a b n * a < b := by
  unfold lost
  obtain ⟨m, rfl⟩ := hab
  have ha : 0 < a := Nat.pos_of_mul_pos_right hb
  rw [mul_comm n a, Nat.mul_mod_mul_left]
  have hmod : n % m < m := Nat.mod_lt n (Nat.pos_of_mul_pos_left hb)
  have hup : (a * (n % m) + a - 1) / a = n % m := by
    rw [Nat.div_eq_iff ha, mul_comm]
    omega
  rw [hup, mul_comm]
  exact Nat.mul_lt_mul_of_pos_left hmod ha

/-! ### A rounded period -/

/-- Dividing by the period `b / a` is the conversion as long as the counts it
has skipped, `b % a` in every `b`, fit into what its own remainder leaves. -/
theorem div_period_eq_rescale_iff (ha : 0 < a) (hab : a ≤ b) :
    n / (b / a) = rescale a b n ↔ b % a * n ≤ b * (n % (b / a)) := by
  have hperiod : 0 < b / a := Nat.div_pos hab ha
  have hb := Nat.div_add_mod b a
  have hn := Nat.div_add_mod n (b / a)
  have hrem : n % (b / a) < b / a := Nat.mod_lt n hperiod
  generalize b / a = P at *
  generalize b % a = ρ at *
  generalize n / P = k at *
  generalize n % P = m at *
  subst hn hb
  rw [eq_comm, rescale_eq_iff (by positivity)]
  have hm : a * (m + 1) ≤ a * P := Nat.mul_le_mul_left a hrem
  constructor
  · rintro ⟨hlow, -⟩
    have hskip : ρ * k ≤ a * m := by linarith
    calc ρ * (P * k + m) = P * (ρ * k) + ρ * m := by ring
      _ ≤ P * (a * m) + ρ * m := by gcongr
      _ = (a * P + ρ) * m := by ring
  · intro h
    have hskip : ρ * k ≤ a * m := by
      refine Nat.le_of_mul_le_mul_left (c := P) ?_ hperiod
      linarith
    refine ⟨by linarith, ?_⟩
    have hnn : 0 ≤ ρ * k := Nat.zero_le _
    linarith

theorem rescale_le_div_period (ha : 0 < a) (hab : a ≤ b) : rescale a b n ≤ n / (b / a) := by
  have hperiod : 0 < b / a := Nat.div_pos hab ha
  calc n * a / b ≤ n * a / (b / a * a) :=
        Nat.div_le_div_left (Nat.div_mul_le_self b a) (Nat.mul_pos hperiod ha)
    _ = n / (b / a) := Nat.mul_div_mul_right n (b / a) ha

/-! ### A rounded total -/

/-- The share of `n` in a total, in `k`-ths, when the total is divided first. -/
def share (k total n : ℕ) : ℕ := n / (total / k)

variable {k total : ℕ}

theorem abs_sub_div_le_one_iff {p c : ℤ} (htotal : 0 < total) :
    |(p : ℚ) - c / total| ≤ 1 ↔ (p - 1) * total ≤ c ∧ c ≤ (p + 1) * total := by
  have hpos : (0 : ℚ) < total := Nat.cast_pos.mpr htotal
  rw [abs_le, and_comm]
  apply and_congr
  · rw [sub_le_comm, le_div_iff₀ hpos]
    exact_mod_cast Iff.rfl
  · rw [le_sub_iff_add_le, ← le_sub_iff_add_le', div_le_iff₀ hpos, sub_neg_eq_add]
    exact_mod_cast Iff.rfl

/-- When less of the total is lost to rounding than one `k`-th of it holds, the
share of a part is at most the whole, and right to within one. -/
theorem share_right {n : ℕ} (hlost : total % k < total / k) (hn : n ≤ total) :
    share k total n ≤ k ∧ ((share k total n : ℤ) - 1) * total ≤ k * n ∧
      (k * n : ℤ) ≤ ((share k total n : ℤ) + 1) * total := by
  have hsplit := Nat.div_add_mod total k
  unfold share
  generalize total / k = s at *
  generalize total % k = r at *
  subst hsplit
  have hs : 0 < s := by omega
  have hsplit := Nat.div_add_mod n s
  have hq : n % s < s := Nat.mod_lt n hs
  generalize n / s = p at *
  generalize n % s = q at *
  subst hsplit
  have hp : p ≤ k := by
    apply Nat.le_of_lt_succ
    apply Nat.lt_of_mul_lt_mul_left (a := s)
    rw [Nat.mul_succ, mul_comm s k]
    omega
  refine ⟨hp, ?_, ?_⟩
  · -- what is lost `p` times is no more than the divided total holds
    have hpr : p * r ≤ k * s := Nat.mul_le_mul hp hlost.le
    push_cast
    nlinarith
  · have hkq : k * q ≤ k * s := Nat.mul_le_mul_left k hq.le
    push_cast
    nlinarith

/-- When a `k`-th of the total holds no more than is lost to rounding, the share
of all of it is wrong. -/
theorem share_total_wrong (hk : 1 < k) (htotal : 0 < total) (hlost : total / k ≤ total % k)
    (hup : (k * total : ℤ) ≤ ((share k total total : ℤ) + 1) * total) :
    k < share k total total := by
  have hsplit := Nat.div_add_mod total k
  unfold share at hup ⊢
  rcases Nat.eq_zero_or_pos (total / k) with hzero | hs
  · -- the divisor is zero, and so is the share
    rw [hzero, Nat.div_zero, Nat.cast_zero, zero_add] at hup
    have hone : k * total ≤ 1 * total := by exact_mod_cast hup
    exact absurd (Nat.le_of_mul_le_mul_right hone htotal) (by omega)
  · apply Nat.lt_of_succ_le
    rw [Nat.le_div_iff_mul_le hs, Nat.succ_mul]
    omega

/-- The share is right to within one, and no more than the whole, for every part
of the total exactly when less of the total is lost to rounding than one `k`-th
of it holds. -/
theorem share_right_iff (hk : 1 < k) (htotal : 0 < total) :
    (∀ n ≤ total, share k total n ≤ k ∧
      |((share k total n : ℤ) : ℚ) - (k * n : ℤ) / total| ≤ 1) ↔ total % k < total / k := by
  simp only [abs_sub_div_le_one_iff htotal]
  constructor
  · intro h
    obtain ⟨hwhole, -, hup⟩ := h total le_rfl
    by_contra hlost
    exact absurd hwhole (Nat.not_le.mpr (share_total_wrong hk htotal (by omega) hup))
  · exact fun hlost n hn => share_right hlost hn

end EspressifApp.Arithmetic
