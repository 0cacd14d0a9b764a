import Mathlib.Algebra.BigOperators.Group.List.Basic
import Mathlib.Tactic.Ring

/-!
# Buffers that double

A buffer whose size doubles as long as it stays within a limit. `doublings` are the sizes it can
have, and `lastDoubling` is the last of them. Together they are less than twice the last one
(`sum_doublings`), and the last one is more than half of the limit (`lt_two_mul_lastDoubling`); it
is the limit itself when the limit is the start doubled some number of times.

Nothing here names a particular program.
-/

set_option autoImplicit false
set_option relaxedAutoImplicit false

namespace Hire.Library

variable {limit size : ℕ}

/-- The sizes of a buffer that doubles within a limit. -/
def doublings (limit size : ℕ) (hsize : 0 < size) : List ℕ :=
  if _h : 2 * size ≤ limit then size :: doublings limit (2 * size) (by omega) else [size]
termination_by limit - size

/-- The last size of a buffer that doubles within a limit. -/
def lastDoubling (limit size : ℕ) (hsize : 0 < size) : ℕ :=
  if _h : 2 * size ≤ limit then lastDoubling limit (2 * size) (by omega) else size
termination_by limit - size

/-- The sizes add up to less than twice the last one. -/
theorem sum_doublings (hsize : 0 < size) :
    (doublings limit size hsize).sum + size = 2 * lastDoubling limit size hsize := by
  induction size, hsize using doublings.induct limit with
  | case1 size hsize h ih =>
    rw [doublings, lastDoubling, dif_pos h, dif_pos h, List.sum_cons]
    omega
  | case2 size hsize h =>
    rw [doublings, lastDoubling, dif_neg h, dif_neg h, List.sum_singleton]
    omega

theorem mul_two_pow_length_doublings (hsize : 0 < size) :
    size * 2 ^ (doublings limit size hsize).length = 2 * lastDoubling limit size hsize := by
  induction size, hsize using doublings.induct limit with
  | case1 size hsize h ih =>
    rw [doublings, lastDoubling, dif_pos h, dif_pos h, List.length_cons, ← ih]
    ring
  | case2 size hsize h =>
    rw [doublings, lastDoubling, dif_neg h, dif_neg h, List.length_singleton]
    ring

/-- The last size is more than half of the limit. -/
theorem lt_two_mul_lastDoubling (hsize : 0 < size) : limit < 2 * lastDoubling limit size hsize := by
  induction size, hsize using doublings.induct limit with
  | case1 size hsize h ih =>
    rw [lastDoubling, dif_pos h]
    exact ih
  | case2 size hsize h =>
    rw [lastDoubling, dif_neg h]
    omega

theorem le_lastDoubling (hsize : 0 < size) : size ≤ lastDoubling limit size hsize := by
  induction size, hsize using doublings.induct limit with
  | case1 size hsize h ih =>
    rw [lastDoubling, dif_pos h]
    omega
  | case2 size hsize h => rw [lastDoubling, dif_neg h]

/-- The last size is within the limit, unless the first one was not. -/
theorem lastDoubling_le_max (hsize : 0 < size) :
    lastDoubling limit size hsize ≤ max size limit := by
  induction size, hsize using doublings.induct limit with
  | case1 size hsize h ih =>
    rw [lastDoubling, dif_pos h]
    omega
  | case2 size hsize h =>
    rw [lastDoubling, dif_neg h]
    omega

/-- A limit that is reached by doubling is the last size. -/
theorem lastDoubling_of_two_pow (hsize : 0 < size) {k : ℕ} (hlimit : limit = size * 2 ^ k) :
    lastDoubling limit size hsize = limit := by
  induction k generalizing size with
  | zero =>
    rw [lastDoubling, dif_neg (by omega), hlimit]
    omega
  | succ k ih =>
    have hdouble : 2 * size ≤ limit := by
      rw [hlimit, pow_succ, ← mul_assoc, mul_comm]
      exact Nat.mul_le_mul_right 2 (Nat.le_mul_of_pos_right size (Nat.two_pow_pos k))
    rw [lastDoubling, dif_pos hdouble]
    exact ih (by omega) (by rw [hlimit]; ring)

/-- No buffer doubles more than as often as the limit allows. -/
theorem length_doublings_le (hsize : 0 < size) {k : ℕ} (hlimit : limit ≤ 2 ^ k) :
    (doublings limit size hsize).length ≤ k + 1 := by
  by_cases hstart : size ≤ limit
  · have hpow := @mul_two_pow_length_doublings limit size hsize
    have hlast : lastDoubling limit size hsize ≤ limit := by
      simpa [hstart] using @lastDoubling_le_max limit size hsize
    have hbound : 2 ^ (doublings limit size hsize).length ≤ 2 ^ (k + 1) := by
      calc 2 ^ (doublings limit size hsize).length
          ≤ size * 2 ^ (doublings limit size hsize).length := Nat.le_mul_of_pos_left _ hsize
        _ = 2 * lastDoubling limit size hsize := hpow
        _ ≤ 2 ^ (k + 1) := by
            rw [pow_succ]
            omega
    exact (Nat.pow_le_pow_iff_right (by decide)).mp hbound
  · rw [doublings, dif_neg (by omega), List.length_singleton]
    omega

end Hire.Library
