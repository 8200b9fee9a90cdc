/-
  ROUNDING of natural numbers as binary floating point rounds: to the nearest value, a tie to the even one.

  1. `divEven` — a quotient, rounded to a whole number.  It is within one half (`divEven_near`), so it
     does not pass a whole number that bounds the exact quotient (`divEven_le`).

  2. `significant` — a number, rounded to its first `p` binary digits.  The error is at most one part in
     `2 ^ p` (`significant_near`), and so in any `2 ^ q` with a smaller `q`.  A product of two
     floating-point numbers is their exact product, rounded once in this way.
-/
import Mathlib.Algebra.Group.Nat.Defs

namespace PulsarClient.Rounding

/-! ## To a whole number -/

/-- `n / d` -/
def divEven (n d : Nat) : Nat :=
  if 2 * (n % d) < d ∨ 2 * (n % d) = d ∧ n / d % 2 = 0 then n / d else n / d + 1

/-- The error is at most one half. -/
theorem divEven_near (n d : Nat) (hd : 0 < d) :
    2 * (divEven n d * d) ≤ 2 * n + d ∧ 2 * n ≤ 2 * (divEven n d * d) + d := by
  have hdiv : n / d * d + n % d = n := by
    rw [Nat.mul_comm]
    exact Nat.div_add_mod n d
  have hrem : n % d < d := Nat.mod_lt n hd
  unfold divEven
  split
  · next hdown => omega
  · next hup =>
    rw [Nat.add_mul, Nat.one_mul]
    omega

/-- Rounding does not pass a whole number. -/
theorem divEven_le {n d k : Nat} (hd : 0 < d) (h : n ≤ k * d) : divEven n d ≤ k := by
  have hdiv : n / d ≤ k := Nat.div_le_of_le_mul (Nat.mul_comm k d ▸ h)
  unfold divEven
  split
  · exact hdiv
  · next hup =>
    -- what is rounded up has a remainder, so the exact quotient is below `k`
    have hsum : d * (n / d) + n % d = n := Nat.div_add_mod n d
    have hne : n / d ≠ k := by
      intro heq
      rw [heq, Nat.mul_comm d k] at hsum
      omega
    omega

/-! ## To a number of binary digits -/

/-- How many binary digits are dropped to keep `p`. -/
def dropped (p n : Nat) : Nat := n.log2 + 1 - p

def significant (p n : Nat) : Nat := divEven n (2 ^ dropped p n) * 2 ^ dropped p n

/-- The last digit kept is worth at most two parts in `2 ^ p`. -/
theorem two_pow_dropped_le {p n : Nat} (hn : n ≠ 0) (h : 0 < dropped p n) :
    2 ^ p * 2 ^ dropped p n ≤ 2 * n := by
  have hsum : p + dropped p n = n.log2 + 1 := by
    unfold dropped at *
    omega
  rw [← Nat.pow_add, hsum, Nat.pow_succ, Nat.mul_comm]
  exact Nat.mul_le_mul_left 2 (Nat.log2_self_le hn)

/-- The error is at most one part in `2 ^ p`. -/
theorem significant_near (p n : Nat) :
    2 ^ p * significant p n ≤ 2 ^ p * n + n ∧ 2 ^ p * n ≤ 2 ^ p * significant p n + n := by
  obtain ⟨hover, hunder⟩ := divEven_near n (2 ^ dropped p n) (Nat.two_pow_pos _)
  have hover' := Nat.mul_le_mul_left (2 ^ p) hover
  have hunder' := Nat.mul_le_mul_left (2 ^ p) hunder
  rw [Nat.mul_add, Nat.mul_left_comm, Nat.mul_left_comm _ 2 n] at hover'
  rw [Nat.mul_add, Nat.mul_left_comm, Nat.mul_left_comm _ 2 (_ * _)] at hunder'
  unfold significant
  rcases Nat.eq_zero_or_pos n with rfl | hpos
  · have hzero : divEven 0 (2 ^ dropped p 0) ≤ 0 := divEven_le (Nat.two_pow_pos _) (by omega)
    rw [Nat.le_zero.mp hzero, Nat.zero_mul]
    omega
  rcases Nat.eq_zero_or_pos (dropped p n) with hnone | hsome
  · -- nothing is dropped
    rw [hnone, Nat.pow_zero, Nat.mul_one] at *
    have heq : divEven n 1 = n := by
      unfold divEven
      rw [if_pos (Or.inl (by omega)), Nat.div_one]
    rw [heq]
    omega
  · have hlast := two_pow_dropped_le (Nat.ne_of_gt hpos) hsome
    omega

/-- … and so at most one part in a smaller power of two. -/
theorem significant_near_of_le {p q : Nat} (h : q ≤ p) (n : Nat) :
    2 ^ q * significant p n ≤ 2 ^ q * n + n ∧ 2 ^ q * n ≤ 2 ^ q * significant p n + n := by
  obtain ⟨hover, hunder⟩ := significant_near p n
  have hpow : 2 ^ p = 2 ^ (p - q) * 2 ^ q := by rw [← Nat.pow_add, Nat.sub_add_cancel h]
  have hmore : n ≤ 2 ^ (p - q) * n := Nat.le_mul_of_pos_left n (Nat.two_pow_pos _)
  rw [hpow, Nat.mul_assoc, Nat.mul_assoc] at hover hunder
  have hpos : 0 < 2 ^ (p - q) := Nat.two_pow_pos _
  constructor
  · refine Nat.le_of_mul_le_mul_left ?_ hpos
    rw [Nat.mul_add]
    exact Nat.le_trans hover (Nat.add_le_add_left hmore _)
  · refine Nat.le_of_mul_le_mul_left ?_ hpos
    rw [Nat.mul_add]
    exact Nat.le_trans hunder (Nat.add_le_add_left hmore _)

end PulsarClient.Rounding
