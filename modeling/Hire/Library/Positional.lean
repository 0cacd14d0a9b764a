import Hire.Library.Text
import Mathlib.Data.Nat.Digits.Lemmas
import Mathlib.Tactic.Ring

/-!
# Numbers written in a base

`bigEndian b digits` is the number that digits write in base `b`, the most significant digit first:
`Nat.ofDigits` read from the other end. Reading a block after another shifts the first by the length
of the second (`bigEndian_append`). Digits below the base write a number below the power of the base
(`bigEndian_lt`), and two blocks of one length that write the same number are equal
(`bigEndian_inj`). `beValue` is the number of a byte string.

`toBase` writes a number in a base with the most significant digit first, and `bigEndian_toBase` is
the round trip. Read the other way, digits below the base are those of their number behind some
zeros (`exists_eq_replicate_zero_append_toBase`).

`leBytes` and `leValue` are the bytes of a number and the number of bytes with the least significant
one first; `leValue_leBytes` and `leBytes_leValue` are their round trips.

Nothing here names a particular program.
-/

set_option autoImplicit false
set_option relaxedAutoImplicit false

namespace Hire.Library

/-- The number that digits write in a base, the most significant digit first. -/
def bigEndian (b : ℕ) (digits : List ℕ) : ℕ := Nat.ofDigits b digits.reverse

section BigEndian

variable {b : ℕ}

@[simp] theorem bigEndian_nil : bigEndian b [] = 0 := rfl

/-- A block of digits before another is shifted by the length of the other. -/
theorem bigEndian_append (front back : List ℕ) :
    bigEndian b (front ++ back) = bigEndian b front * b ^ back.length + bigEndian b back := by
  unfold bigEndian
  rw [List.reverse_append, Nat.ofDigits_append, List.length_reverse]
  ring

theorem bigEndian_cons (d : ℕ) (digits : List ℕ) :
    bigEndian b (d :: digits) = d * b ^ digits.length + bigEndian b digits := by
  have hfront : bigEndian b [d] = d := Nat.ofDigits_singleton
  rw [← List.singleton_append, bigEndian_append, hfront]

/-- Reading digits one by one onto a number shifts the number by their length. -/
theorem foldl_mul_add_eq_bigEndian (n : ℕ) (digits : List ℕ) :
    digits.foldl (fun value d ↦ value * b + d) n = n * b ^ digits.length + bigEndian b digits := by
  induction digits generalizing n with
  | nil => simp
  | cons d rest ih =>
    rw [List.foldl_cons, ih, bigEndian_cons, List.length_cons]
    ring

/-- Digits below the base write a number below the power of the base. -/
theorem bigEndian_lt (hb : 1 < b) {digits : List ℕ} (hdigits : ∀ d ∈ digits, d < b) :
    bigEndian b digits < b ^ digits.length := by
  have hlt := Nat.ofDigits_lt_base_pow_length hb
    (fun d hd ↦ hdigits d (List.mem_reverse.mp hd) : ∀ d ∈ digits.reverse, d < b)
  rwa [List.length_reverse] at hlt

/-- Two blocks of one length that write the same number are equal. -/
theorem bigEndian_inj (hb : 1 < b) {digits digits' : List ℕ}
    (hlength : digits.length = digits'.length) (hdigits : ∀ d ∈ digits, d < b)
    (hdigits' : ∀ d ∈ digits', d < b) (h : bigEndian b digits = bigEndian b digits') :
    digits = digits' := by
  have hreverse : digits.reverse = digits'.reverse :=
    Nat.ofDigits_inj_of_len_eq hb (by simpa using hlength)
      (fun d hd ↦ hdigits d (List.mem_reverse.mp hd))
      (fun d hd ↦ hdigits' d (List.mem_reverse.mp hd)) h
  exact List.reverse_injective hreverse

/-- Zeros in front do not count. -/
theorem bigEndian_replicate_zero_append (k : ℕ) (digits : List ℕ) :
    bigEndian b (List.replicate k 0 ++ digits) = bigEndian b digits := by
  unfold bigEndian
  rw [List.reverse_append, List.reverse_replicate, Nat.ofDigits_append_replicate_zero]

end BigEndian

/-- The digits of a number in a base, the most significant first. -/
def toBase (b n : ℕ) : List ℕ := (Nat.digits b n).reverse

theorem bigEndian_toBase (b n : ℕ) : bigEndian b (toBase b n) = n := by
  unfold bigEndian toBase
  rw [List.reverse_reverse, Nat.ofDigits_digits]

/-- Digits below the base are the digits of their number behind some zeros. -/
theorem exists_eq_replicate_zero_append_toBase {b : ℕ} (hb : 1 < b) {digits : List ℕ}
    (hdigits : ∀ d ∈ digits, d < b) :
    ∃ k, digits = List.replicate k 0 ++ toBase b (bigEndian b digits) := by
  induction digits with
  | nil => exact ⟨0, by simp [toBase]⟩
  | cons d rest ih =>
    by_cases hd : d = 0
    · subst hd
      obtain ⟨k, hrest⟩ := ih fun d hd ↦ hdigits d (List.mem_cons_of_mem _ hd)
      have hvalue : bigEndian b (0 :: rest) = bigEndian b rest :=
        bigEndian_replicate_zero_append 1 rest
      refine ⟨k + 1, ?_⟩
      rw [hvalue, List.replicate_succ, List.cons_append, ← hrest]
    · -- With a digit other than zero in front, the digits of the number are the digits themselves.
      have hlast : ∀ h : (d :: rest).reverse ≠ [], (d :: rest).reverse.getLast h ≠ 0 := by
        intro h
        rw [List.getLast_reverse]
        exact hd
      have hexact : Nat.digits b (bigEndian b (d :: rest)) = (d :: rest).reverse :=
        Nat.digits_ofDigits b hb _ (fun l hl ↦ hdigits l (List.mem_reverse.mp hl)) hlast
      refine ⟨0, ?_⟩
      rw [toBase, hexact, List.reverse_reverse, List.replicate_zero, List.nil_append]

theorem lt_of_mem_toBase {b n d : ℕ} (hb : 1 < b) (hd : d ∈ toBase b n) : d < b :=
  Nat.digits_lt_base hb (List.mem_reverse.mp hd)

/-! ### Byte strings as numbers -/

/-- The number of a byte string, the most significant byte first. -/
def beValue (bytes : Bytes) : ℕ := bigEndian 256 (bytes.map UInt8.toNat)

theorem beValue_cons (byte : UInt8) (bytes : Bytes) :
    beValue (byte :: bytes) = byte.toNat * 256 ^ bytes.length + beValue bytes := by
  unfold beValue
  rw [List.map_cons, bigEndian_cons, List.length_map]

theorem lt_of_mem_map_toNat (bytes : Bytes) : ∀ d ∈ bytes.map UInt8.toNat, d < 256 := by
  intro d hd
  obtain ⟨byte, -, rfl⟩ := List.mem_map.mp hd
  exact byte.toNat_lt

theorem beValue_lt (bytes : Bytes) : beValue bytes < 256 ^ bytes.length := by
  have hlt := bigEndian_lt (by decide : 1 < 256) (lt_of_mem_map_toNat bytes)
  rwa [List.length_map] at hlt

/-- Byte strings of one length are told apart by their numbers. -/
theorem beValue_inj {bytes bytes' : Bytes} (hlength : bytes.length = bytes'.length)
    (h : beValue bytes = beValue bytes') : bytes = bytes' := by
  have hmap := bigEndian_inj (by decide : 1 < 256) (by simpa using hlength)
    (lt_of_mem_map_toNat _) (lt_of_mem_map_toNat _) h
  exact List.map_injective_iff.mpr (fun _ _ ↦ UInt8.toNat_inj.mp) hmap

theorem beValue_replicate_zero (n : ℕ) : beValue (List.replicate n 0) = 0 := by
  have hzeros := bigEndian_replicate_zero_append (b := 256) n []
  rw [List.append_nil] at hzeros
  unfold beValue
  rw [List.map_replicate]
  exact hzeros

/-! ### Little-endian bytes -/

/-- The low bytes of a number, as many as are asked for, the least significant first. -/
def leBytes : ℕ → ℕ → Bytes
  | 0, _ => []
  | width + 1, n => UInt8.ofNat n :: leBytes width (n / 256)

/-- The number of a byte string, the least significant byte first. -/
def leValue (bytes : Bytes) : ℕ := Nat.ofDigits 256 (bytes.map UInt8.toNat)

theorem leValue_cons (byte : UInt8) (bytes : Bytes) :
    leValue (byte :: bytes) = byte.toNat + 256 * leValue bytes := by
  unfold leValue
  rw [List.map_cons, Nat.ofDigits_cons]

theorem length_leBytes (width n : ℕ) : (leBytes width n).length = width := by
  induction width generalizing n with
  | zero => rfl
  | succ width ih => rw [leBytes, List.length_cons, ih]

/-- A number that fits is the number of its bytes. -/
theorem leValue_leBytes {width n : ℕ} (hn : n < 256 ^ width) : leValue (leBytes width n) = n := by
  induction width generalizing n with
  | zero =>
    obtain rfl : n = 0 := by simpa using hn
    rfl
  | succ width ih =>
    have hquotient : n / 256 < 256 ^ width := Nat.div_lt_of_lt_mul (by rwa [pow_succ'] at hn)
    rw [leBytes, leValue_cons, ih hquotient, UInt8.toNat_ofNat']
    exact Nat.mod_add_div n 256

/-- A byte string is the bytes of its number. -/
theorem leBytes_leValue (bytes : Bytes) : leBytes bytes.length (leValue bytes) = bytes := by
  induction bytes with
  | nil => rfl
  | cons byte bytes ih =>
    have hbyte := byte.toNat_lt
    have hlow : UInt8.ofNat (leValue (byte :: bytes)) = byte := by
      apply UInt8.toNat_inj.mp
      rw [UInt8.toNat_ofNat', leValue_cons]
      omega
    have hhigh : leValue (byte :: bytes) / 256 = leValue bytes := by
      rw [leValue_cons]
      omega
    rw [List.length_cons, leBytes, hlow, hhigh, ih]

end Hire.Library
