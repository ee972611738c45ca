import Mathlib.Algebra.Order.Field.Basic
import Mathlib.Algebra.Order.Ring.Abs
import Mathlib.Algebra.Order.Ring.Rat
import Mathlib.Tactic.Linarith
import Mathlib.Tactic.Positivity

/-!
# Doubles at the small end of their range

`rint` rounds to an integer, ties to even, and `pow` is a power in doubles.
The arithmetic is exact but for one thing: a power that is too small for a
double is zero.  What the significand of a double rounds off is not modelled.

Range arguments use that both are monotone: `rint_mono`, `pow_mono` for a base
of at least 1 and `pow_anti` for one below.
-/

namespace Float8

/-- The nearest integer, of two the even one. -/
def rint (q : ℚ) : Int :=
  if q - q.floor < 1 / 2 ∨ q - q.floor = 1 / 2 ∧ q.floor % 2 = 0 then q.floor else q.floor + 1

theorem lt_floor_add_one (q : ℚ) : q < q.floor + 1 := by
  have h := Rat.lt_floor_add_one q
  push_cast at h
  exact h

theorem rint_cases (q : ℚ) :
    rint q = q.floor ∧ q - q.floor ≤ 1 / 2 ∨ rint q = q.floor + 1 ∧ 1 / 2 ≤ q - q.floor := by
  unfold rint
  split_ifs with h
  · rcases h with h | h
    · exact Or.inl ⟨rfl, h.le⟩
    · exact Or.inl ⟨rfl, h.1.le⟩
  · push Not at h
    exact Or.inr ⟨rfl, h.1⟩

theorem rint_mono {p q : ℚ} (h : p ≤ q) : rint p ≤ rint q := by
  have hfloor : p.floor ≤ q.floor := Rat.floor_monotone h
  rcases hfloor.lt_or_eq with hlt | heq
  · -- The integers are apart, and each number goes up by 1 at most.
    have hp' : rint p ≤ p.floor + 1 := by
      rcases rint_cases p with ⟨hrint, _⟩ | ⟨hrint, _⟩ <;> omega
    have hq' : q.floor ≤ rint q := by
      rcases rint_cases q with ⟨hrint, _⟩ | ⟨hrint, _⟩ <;> omega
    omega
  · unfold rint
    rw [heq]
    split_ifs with hup hdown hdown
    · exact le_refl _
    · exact Int.le_add_one (le_refl _)
    · refine absurd ?_ hup
      rcases hdown with hdown | ⟨hdown, heven⟩
      · exact Or.inl (by linarith)
      · rcases (show p - q.floor ≤ 1 / 2 by linarith).lt_or_eq with hless | hsame
        · exact Or.inl hless
        · exact Or.inr ⟨hsame, heven⟩
    · exact le_refl _

/-! ## Powers -/

/-- Half of the least positive double.  What is not larger is rounded to zero. -/
def tiny : ℚ := 1 / 2 ^ 1075

theorem tiny_lt_one : tiny < 1 := by
  unfold tiny
  exact div_lt_self one_pos (one_lt_pow₀ one_lt_two (by decide))

/-- `pow(x, n)` -/
def pow (x : ℚ) (n : ℕ) : ℚ := if |x ^ n| ≤ tiny then 0 else x ^ n

theorem pow_of_tiny_lt {x : ℚ} {n : ℕ} (h : tiny < |x ^ n|) : pow x n = x ^ n :=
  if_neg (not_le.mpr h)

theorem pow_of_one_le {x : ℚ} (h : 1 ≤ x) (n : ℕ) : pow x n = x ^ n := by
  have hone : 1 ≤ x ^ n := one_le_pow₀ h
  exact pow_of_tiny_lt (tiny_lt_one.trans_le (hone.trans (le_abs_self _)))

@[simp] theorem pow_zero (x : ℚ) : pow x 0 = 1 := by
  rw [pow_of_tiny_lt] <;> simp [tiny_lt_one]

/-- A power is exact unless it is zero for a base that is not. -/
theorem pow_eq {x : ℚ} {n : ℕ} (h : pow x n = 0 → x = 0) : pow x n = x ^ n := by
  by_cases hsmall : |x ^ n| ≤ tiny
  · have hzero : pow x n = 0 := if_pos hsmall
    obtain rfl := h hzero
    rcases Nat.eq_zero_or_pos n with rfl | hn
    · simp
    · rw [hzero, zero_pow hn.ne']
  · exact if_neg hsmall

theorem pow_eq_zero_iff {x : ℚ} (hx : 0 < x) {n : ℕ} : pow x n = 0 ↔ x ^ n ≤ tiny := by
  have hpos : 0 < x ^ n := by positivity
  unfold pow
  rw [abs_of_pos hpos]
  split_ifs with h
  · exact iff_of_true rfl h
  · exact iff_of_false hpos.ne' h

theorem pow_mono {x : ℚ} (hx : 1 ≤ x) {n m : ℕ} (h : n ≤ m) : pow x n ≤ pow x m := by
  rw [pow_of_one_le hx, pow_of_one_le hx]
  exact pow_le_pow_right₀ hx h

theorem pow_nonneg {x : ℚ} (hx : 0 ≤ x) (n : ℕ) : 0 ≤ pow x n := by
  unfold pow
  split_ifs
  · exact le_refl 0
  · positivity

theorem pow_anti {x : ℚ} (hx : 0 ≤ x) (hx1 : x ≤ 1) {n m : ℕ} (h : n ≤ m) :
    pow x m ≤ pow x n := by
  have hle : x ^ m ≤ x ^ n := pow_le_pow_of_le_one hx hx1 h
  have hm : 0 ≤ x ^ m := by positivity
  have hn : 0 ≤ x ^ n := by positivity
  by_cases hsmall : x ^ m ≤ tiny
  · rw [pow, if_pos (by rwa [abs_of_nonneg hm])]
    exact pow_nonneg hx n
  · rw [pow_of_tiny_lt (by rw [abs_of_nonneg hm]; exact not_le.mp hsmall), pow_of_tiny_lt]
    · exact hle
    · rw [abs_of_nonneg hn]
      exact (not_le.mp hsmall).trans_le hle

end Float8
