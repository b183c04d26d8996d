import Mathlib.Tactic.Ring

/-!
# Rounded quotients

A quotient of two numbers to the nearest one with `k` bits after the binary point, ties to
even, and then truncated. Its value is the floor of the exact quotient, or one more where
less than half of a last bit is missing to the next integer.
-/

namespace Rounding

set_option autoImplicit false

/-- `a / b` to the nearest integer, and to the even one of two. -/
def halfEven (a b : Nat) : Nat :=
  if 2 * (a % b) < b then a / b
  else if b < 2 * (a % b) then a / b + 1
  else a / b + a / b % 2

/-- The integer part of `a / b` rounded to `k` bits after the point. -/
def truncated (k a b : Nat) : Nat := halfEven (a * 2 ^ k) b / 2 ^ k

theorem halfEven_bounds (a b : Nat) : a / b ≤ halfEven a b ∧ halfEven a b ≤ a / b + 1 := by
  unfold halfEven
  split
  · omega
  · split <;> omega

theorem halfEven_odd {a b : Nat} (hodd : a / b % 2 = 1) :
    halfEven a b = if 2 * (a % b) < b then a / b else a / b + 1 := by
  unfold halfEven
  split
  · rfl
  · split <;> omega

theorem truncated_eq {k a b : Nat} (hk : 0 < k) (hb : 0 < b) :
    truncated k a b = a / b + if 2 ^ (k + 1) * (b - a % b) ≤ b then 1 else 0 := by
  have hpos : 0 < 2 ^ k := Nat.two_pow_pos k
  have heven : 2 ^ k % 2 = 0 := Nat.mod_eq_zero_of_dvd (dvd_pow_self 2 (Nat.ne_of_gt hk))
  have hsum : a * 2 ^ k = a % b * 2 ^ k + b * (2 ^ k * (a / b)) := by
    calc a * 2 ^ k = (a % b + b * (a / b)) * 2 ^ k := by rw [Nat.mod_add_div]
      _ = a % b * 2 ^ k + b * (2 ^ k * (a / b)) := by ring
  have hquot : a * 2 ^ k / b = a % b * 2 ^ k / b + 2 ^ k * (a / b) := by
    rw [hsum, Nat.add_mul_div_left _ _ hb]
  have hmod : a * 2 ^ k % b = a % b * 2 ^ k % b := by rw [hsum, Nat.add_mul_mod_self_left]
  have hgap : 2 ^ (k + 1) * (b - a % b) = 2 * (b * 2 ^ k - a % b * 2 ^ k) := by
    rw [Nat.pow_succ, Nat.mul_sub, Nat.mul_sub]
    congr 1 <;> ring
  -- `q` and `r` are the bits after the point and what is left of them.
  obtain ⟨q, hq⟩ : ∃ q, q = a % b * 2 ^ k / b := ⟨_, rfl⟩
  obtain ⟨r, hr⟩ : ∃ r, r = a % b * 2 ^ k % b := ⟨_, rfl⟩
  have hdiv : r + b * q = a % b * 2 ^ k := hr ▸ hq ▸ Nat.mod_add_div _ b
  have hrest : r < b := hr ▸ Nat.mod_lt _ hb
  have hfrac : q < 2 ^ k := by
    rw [hq, Nat.div_lt_iff_lt_mul hb, Nat.mul_comm (2 ^ k)]
    exact Nat.mul_lt_mul_of_pos_right (Nat.mod_lt a hb) hpos
  rw [← hq] at hquot
  rw [← hr] at hmod
  rw [hgap, ← hdiv]
  by_cases hlast : q + 1 = 2 ^ k
  · have hodd : a * 2 ^ k / b % 2 = 1 := by
      have hzero : 2 ^ k * (a / b) % 2 = 0 := by rw [Nat.mul_mod, heven, Nat.zero_mul]
      omega
    have hfull : b * 2 ^ k = b * q + b := by rw [← hlast, Nat.mul_succ]
    rw [truncated, halfEven_odd hodd, hquot, hmod]
    by_cases hhalf : 2 * r < b
    · rw [if_pos hhalf, if_neg (by omega), Nat.add_mul_div_left _ _ hpos, Nat.div_eq_of_lt hfrac]
      omega
    · have hnext : q + 2 ^ k * (a / b) + 1 = 2 ^ k * (a / b + 1) := by
        rw [Nat.mul_succ]
        omega
      rw [if_neg hhalf, if_pos (by omega), hnext, Nat.mul_div_cancel_left _ hpos]
  · have hfar : b * (q + 2) ≤ b * 2 ^ k := Nat.mul_le_mul_left b (by omega)
    have hmore : b * (q + 2) = b * q + 2 * b := by ring
    obtain ⟨hlow, hhigh⟩ := halfEven_bounds (a * 2 ^ k) b
    rw [hquot] at hlow hhigh
    rw [if_neg (by omega), Nat.add_zero]
    apply Nat.div_eq_of_lt_le
    · rw [Nat.mul_comm (a / b)]
      omega
    · rw [Nat.succ_mul, Nat.mul_comm (a / b)]
      omega

end Rounding
