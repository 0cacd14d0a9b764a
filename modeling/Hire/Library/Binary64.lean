import Mathlib.Algebra.Order.Field.Basic
import Mathlib.Data.Nat.Log
import Mathlib.Data.Rat.Cast.Order
import Mathlib.Tactic.FieldSimp
import Mathlib.Tactic.Ring

/-!
# Integers as doubles

The double an integer is converted to, in the binary64 format: a sign bit, eleven bits of exponent
and fifty-two bits of fraction. `ofInt` rounds to the nearest double, ties to the even significand,
and to an infinity past the largest one. `toRat` is the number a finite double stands for.

`toRat_ofInt_eq_some_iff` says which integers survive the conversion: those with at most fifty-three
significant bits, up to the largest exponent (`IsExact`).

Nothing here names a particular program.
-/

set_option autoImplicit false
set_option relaxedAutoImplicit false

namespace Hire.Library.Binary64

/-! ### The number of a double -/

/-- The number that the bits below the sign stand for, if they are finite. -/
def unsignedToRat (bits : ℕ) : Option ℚ :=
  if bits / 2 ^ 52 = 2047 then none
  else if bits / 2 ^ 52 = 0 then some ((bits % 2 ^ 52 : ℕ) * 2 ^ (-1074 : ℤ))
  else some ((2 ^ 52 + bits % 2 ^ 52 : ℕ) * 2 ^ (((bits / 2 ^ 52 : ℕ) : ℤ) - 1075))

/-- The number a double stands for, if it is finite. -/
def toRat (bits : UInt64) : Option ℚ :=
  (unsignedToRat (bits.toNat % 2 ^ 63)).map fun value ↦
    if bits.toNat < 2 ^ 63 then value else -value

/-! ### The double of an integer -/

/-- `n / 2 ^ s`, rounded to the nearest integer and from halfway to the even one. -/
def roundHalfEven (n s : ℕ) : ℕ :=
  if 2 * (n % 2 ^ s) < 2 ^ s ∨ 2 * (n % 2 ^ s) = 2 ^ s ∧ n / 2 ^ s % 2 = 0 then n / 2 ^ s
  else n / 2 ^ s + 1

/-- The significand of a positive integer in units of `2 ^ (n.log2 - 52)`, its leading bit
included. It is `2 ^ 53` when the rounding carries into the exponent. -/
def significand (n : ℕ) : ℕ :=
  if n.log2 ≤ 52 then n * 2 ^ (52 - n.log2) else roundHalfEven n (n.log2 - 52)

/-- The bits of the double of a natural number. The leading bit of the significand adds one to the
exponent field, and what would not fit below the all-ones exponent is infinite. -/
def ofNat (n : ℕ) : ℕ :=
  if n = 0 then 0 else min ((n.log2 + 1022) * 2 ^ 52 + significand n) (2047 * 2 ^ 52)

/-- The double of an integer. -/
def ofInt (z : ℤ) : UInt64 := UInt64.ofNat (ofNat z.natAbs + if z < 0 then 2 ^ 63 else 0)

-- Halfway cases round to the even significand, down and up.
example : ofInt (2 ^ 53 + 1) = ofInt (2 ^ 53) ∧ ofInt (2 ^ 53 + 3) = ofInt (2 ^ 53 + 4) := by decide

/-- An integer with at most fifty-three significant bits, within the range of the doubles. -/
def IsExact (z : ℤ) : Prop := ∃ m e : ℕ, m < 2 ^ 53 ∧ e ≤ 971 ∧ z.natAbs = m * 2 ^ e

/-- Every integer up to `2 ^ 53` is a double. -/
theorem isExact_of_natAbs_le {z : ℤ} (h : z.natAbs ≤ 2 ^ 53) : IsExact z := by
  rcases h.lt_or_eq with hlt | heq
  · exact ⟨z.natAbs, 0, hlt, by omega, by rw [pow_zero, mul_one]⟩
  · exact ⟨1, 53, by norm_num, by omega, by rw [heq, one_mul]⟩

/-! ### Rounding -/

/-- The rounded quotient is the multiple itself exactly when there is nothing to round. -/
theorem roundHalfEven_mul_eq_iff (n s : ℕ) : roundHalfEven n s * 2 ^ s = n ↔ 2 ^ s ∣ n := by
  have hpos : 0 < 2 ^ s := Nat.two_pow_pos s
  have hdiv : n / 2 ^ s * 2 ^ s + n % 2 ^ s = n := Nat.div_add_mod' n (2 ^ s)
  have hlt : n % 2 ^ s < 2 ^ s := Nat.mod_lt n hpos
  rw [Nat.dvd_iff_mod_eq_zero]
  unfold roundHalfEven
  split_ifs with hdown
  · omega
  · rw [Nat.succ_mul]
    omega

section Significand

variable {n : ℕ}

/-- The significand has its leading bit at the fifty-third place, or has just carried. -/
theorem significand_mem (hn : n ≠ 0) : 2 ^ 52 ≤ significand n ∧ significand n ≤ 2 ^ 53 := by
  have hlow : 2 ^ n.log2 ≤ n := Nat.log2_self_le hn
  have hhigh : n < 2 ^ (n.log2 + 1) := Nat.lt_log2_self
  unfold significand
  split_ifs with hsmall
  · have hunit : 2 ^ n.log2 * 2 ^ (52 - n.log2) = 2 ^ 52 := by
      rw [← pow_add, Nat.add_sub_cancel' hsmall]
    have hscaled := Nat.mul_le_mul_right (2 ^ (52 - n.log2)) hlow
    have hscaled' := Nat.mul_le_mul_right (2 ^ (52 - n.log2)) hhigh.le
    rw [pow_succ, mul_right_comm, hunit] at hscaled'
    omega
  · obtain ⟨s, hs⟩ : ∃ s, n.log2 = 52 + s := ⟨n.log2 - 52, by omega⟩
    rw [hs, Nat.add_sub_cancel_left]
    rw [hs, pow_add] at hlow
    rw [hs, add_right_comm, pow_add] at hhigh
    have hquot : 2 ^ 52 ≤ n / 2 ^ s := (Nat.le_div_iff_mul_le (Nat.two_pow_pos s)).mpr hlow
    have hquot' : n / 2 ^ s < 2 ^ 53 := (Nat.div_lt_iff_lt_mul (Nat.two_pow_pos s)).mpr hhigh
    unfold roundHalfEven
    split_ifs <;> omega

/-- The significand in its unit is the integer exactly when the bits it has no room for are zero. -/
theorem significand_mul_eq_iff (n : ℕ) :
    (significand n : ℚ) * 2 ^ ((n.log2 : ℤ) - 52) = n ↔ 2 ^ (n.log2 - 52) ∣ n := by
  have htwo : (2 : ℚ) ≠ 0 := two_ne_zero
  unfold significand
  split_ifs with hsmall
  · have hunit : ((2 : ℚ) ^ (52 - n.log2)) * 2 ^ ((n.log2 : ℤ) - 52) = 1 := by
      rw [← zpow_natCast, ← zpow_add₀ htwo, Nat.cast_sub hsmall]
      simp
    have hvalue : ((n * 2 ^ (52 - n.log2) : ℕ) : ℚ) * 2 ^ ((n.log2 : ℤ) - 52) = n := by
      push_cast
      rw [mul_assoc, hunit, mul_one]
    rw [Nat.sub_eq_zero_of_le hsmall, pow_zero]
    exact iff_of_true hvalue (one_dvd n)
  · have hunit : (2 : ℚ) ^ ((n.log2 : ℤ) - 52) = (2 ^ (n.log2 - 52) : ℕ) := by
      have hexponent : (n.log2 : ℤ) - 52 = ((n.log2 - 52 : ℕ) : ℤ) := by omega
      rw [hexponent, zpow_natCast]
      push_cast
      rfl
    rw [hunit, ← roundHalfEven_mul_eq_iff]
    norm_cast

/-- The bits a positive integer has no room for are zero exactly when it is a double, as long as its
leading bit is within the range. -/
theorem isExact_natCast_iff (hn : n ≠ 0) :
    IsExact n ↔ n.log2 ≤ 1023 ∧ 2 ^ (n.log2 - 52) ∣ n := by
  have hlow : 2 ^ n.log2 ≤ n := Nat.log2_self_le hn
  have hhigh : n < 2 ^ (n.log2 + 1) := Nat.lt_log2_self
  constructor
  · rintro ⟨m, e, hm, he, hvalue⟩
    rw [Int.natAbs_natCast] at hvalue
    have hbelow : n < 2 ^ (53 + e) := by
      rw [hvalue, pow_add]
      exact Nat.mul_lt_mul_of_pos_right hm (Nat.two_pow_pos e)
    have hlog : n.log2 < 53 + e := (Nat.pow_lt_pow_iff_right one_lt_two).mp (hlow.trans_lt hbelow)
    refine ⟨by omega, ?_⟩
    rw [hvalue]
    rw [hvalue] at hlog
    exact (pow_dvd_pow 2 (by omega)).mul_left m
  · rintro ⟨hrange, m, hvalue⟩
    refine ⟨m, n.log2 - 52, ?_, by omega, ?_⟩
    · have hbelow : 2 ^ (n.log2 - 52) * m < 2 ^ (n.log2 - 52) * 2 ^ 53 := by
        rw [← hvalue, ← pow_add]
        exact hhigh.trans_le (Nat.pow_le_pow_right two_pos (by omega))
      exact Nat.lt_of_mul_lt_mul_left hbelow
    · rw [Int.natAbs_natCast, mul_comm]
      exact hvalue

/-! ### Which integers survive -/

/-- What a significand under an exponent below the all-ones one stands for, whether or not it has
carried. -/
theorem unsignedToRat_add {k q : ℕ} (hq : 2 ^ 52 ≤ q) (hq' : q ≤ 2 ^ 53)
    (hfinite : (k + 1022) * 2 ^ 52 + q < 2047 * 2 ^ 52) :
    unsignedToRat ((k + 1022) * 2 ^ 52 + q) = some ((q : ℚ) * 2 ^ ((k : ℤ) - 52)) := by
  unfold unsignedToRat
  rcases hq'.lt_or_eq with hlt | rfl
  · have hexponent : ((k + 1022) * 2 ^ 52 + q) / 2 ^ 52 = k + 1023 := by omega
    have hfraction : 2 ^ 52 + ((k + 1022) * 2 ^ 52 + q) % 2 ^ 52 = q := by omega
    have hunit : ((k + 1023 : ℕ) : ℤ) - 1075 = (k : ℤ) - 52 := by omega
    rw [hexponent, hfraction, hunit, if_neg (by omega), if_neg (by omega)]
  · have hexponent : ((k + 1022) * 2 ^ 52 + 2 ^ 53) / 2 ^ 52 = k + 1024 := by omega
    have hfraction : 2 ^ 52 + ((k + 1022) * 2 ^ 52 + 2 ^ 53) % 2 ^ 52 = 2 ^ 52 := by omega
    have hunit : ((k + 1024 : ℕ) : ℤ) - 1075 = 1 + ((k : ℤ) - 52) := by omega
    rw [hexponent, hfraction, hunit, if_neg (by omega), if_neg (by omega),
      zpow_add₀ two_ne_zero, ← mul_assoc]
    norm_num

theorem ofNat_lt (n : ℕ) : ofNat n < 2 ^ 63 := by
  unfold ofNat
  split_ifs <;> omega

/-- A natural number survives the conversion exactly when it is a double. -/
theorem unsignedToRat_ofNat_eq_some_iff (n : ℕ) :
    unsignedToRat (ofNat n) = some (n : ℚ) ↔ IsExact n := by
  by_cases hn : n = 0
  · subst hn
    exact iff_of_true (by simp [ofNat, unsignedToRat]) ⟨0, 0, by simp⟩
  obtain ⟨hq, hq'⟩ := significand_mem hn
  have hbits : ofNat n = min ((n.log2 + 1022) * 2 ^ 52 + significand n) (2047 * 2 ^ 52) := by
    rw [ofNat, if_neg hn]
  rw [isExact_natCast_iff hn, hbits, ← significand_mul_eq_iff]
  by_cases hfinite : (n.log2 + 1022) * 2 ^ 52 + significand n < 2047 * 2 ^ 52
  · have hrange : n.log2 ≤ 1023 := by omega
    rw [min_eq_left hfinite.le, unsignedToRat_add hq hq' hfinite, Option.some_inj]
    exact (and_iff_right hrange).symm
  · -- Past the largest double: an exact integer in the range has not carried.
    have hinfinite : unsignedToRat (2047 * 2 ^ 52) = none := by simp [unsignedToRat]
    rw [min_eq_right (not_lt.mp hfinite), hinfinite]
    refine iff_of_false (by simp) ?_
    rintro ⟨hrange, hvalue⟩
    have hcarried : significand n = 2 ^ 53 := by omega
    have hlarge : (n : ℚ) = (2 ^ (n.log2 + 1) : ℕ) := by
      rw [← hvalue, hcarried, Nat.cast_pow, Nat.cast_pow, Nat.cast_ofNat, ← zpow_natCast,
        ← zpow_natCast, ← zpow_add₀ two_ne_zero]
      congr 1
      push_cast
      ring
    exact absurd (Nat.cast_injective hlarge) Nat.lt_log2_self.ne

end Significand

theorem toNat_ofInt (z : ℤ) :
    (ofInt z).toNat = ofNat z.natAbs + if z < 0 then 2 ^ 63 else 0 := by
  have hlt := ofNat_lt z.natAbs
  unfold ofInt
  rw [UInt64.toNat_ofNat']
  apply Nat.mod_eq_of_lt
  split_ifs <;> omega

/-- An integer survives the conversion exactly when it is a double. -/
theorem toRat_ofInt_eq_some_iff (z : ℤ) : toRat (ofInt z) = some (z : ℚ) ↔ IsExact z := by
  have hlt := ofNat_lt z.natAbs
  have habs : IsExact z ↔ IsExact (z.natAbs : ℤ) := by simp only [IsExact, Int.natAbs_natCast]
  rw [habs, ← unsignedToRat_ofNat_eq_some_iff]
  unfold toRat
  rw [toNat_ofInt]
  by_cases hneg : z < 0
  · have hcast : (z : ℚ) = -(z.natAbs : ℚ) := by
      have := Int.ofNat_natAbs_of_nonpos hneg.le
      rw [← Int.cast_natCast, this]
      simp
    have hbits : (ofNat z.natAbs + 2 ^ 63) % 2 ^ 63 = ofNat z.natAbs := by omega
    have hsign : ¬ ofNat z.natAbs + 2 ^ 63 < 2 ^ 63 := by omega
    simp only [if_pos hneg, hbits, if_neg hsign, hcast, Option.map_eq_some_iff, neg_inj,
      exists_eq_right]
  · have hcast : (z : ℚ) = (z.natAbs : ℚ) := by
      rw [← Int.cast_natCast, Int.natAbs_of_nonneg (not_lt.mp hneg)]
    have hbits : ofNat z.natAbs % 2 ^ 63 = ofNat z.natAbs := Nat.mod_eq_of_lt hlt
    simp only [if_neg hneg, add_zero, hbits, if_pos hlt, hcast, Option.map_eq_some_iff,
      exists_eq_right]

end Hire.Library.Binary64
