import Hire.Library.Text
import Mathlib.Order.Lattice
import Mathlib.Order.Basic

/-!
# Assurance, presence and time

`hire-core/src/assurance.rs`, and the clock arithmetic the daemon shares. Both level types are
ordered by declaration, and the order is what the presence gate, the claim fold and the reply
order compare by.

An instant is a whole number of nanoseconds from the Unix epoch, negative before it, and a
duration is a number of nanoseconds. `durationSince` is the checked difference of two instants:
it has no value when the second is later than the first. The clock type of the daemon's platforms
keeps its seconds in a signed 64-bit integer, which is `SystemTime.Representable`; ages between such
instants fit an unsigned one (`asSecs_le_u64Max`).
-/

set_option autoImplicit false
set_option relaxedAutoImplicit false

namespace Hire.Core

open Hire.Library

/-- The level of assurance of an identity. -/
inductive IdentityAssurance
  | iaa1
  | iaa2
  | iaa3
  deriving DecidableEq, Repr

namespace IdentityAssurance

/-- The position of a level in the declaration order. -/
def rank : IdentityAssurance → ℕ
  | iaa1 => 0
  | iaa2 => 1
  | iaa3 => 2

theorem rank_injective : Function.Injective rank := by
  intro first second h
  cases first <;> cases second <;> simp_all [rank]

instance : LinearOrder IdentityAssurance := LinearOrder.lift' rank rank_injective

theorem le_iff_rank {first second : IdentityAssurance} :
    first ≤ second ↔ first.rank ≤ second.rank := Iff.rfl

/-- The string form of a level. -/
def display : IdentityAssurance → Str
  | iaa1 => str "iaa1"
  | iaa2 => str "iaa2"
  | iaa3 => str "iaa3"

/-- Read a level back from its string form. -/
def fromStr (s : Str) : Option IdentityAssurance :=
  if s = str "iaa1" then some iaa1
  else if s = str "iaa2" then some iaa2
  else if s = str "iaa3" then some iaa3
  else none

/-- The string form of a level reads back as that level. -/
theorem fromStr_display (level : IdentityAssurance) : fromStr level.display = some level := by
  cases level <;> simp [fromStr, display]

end IdentityAssurance

/-- The level of presence of a human. -/
inductive PresenceLevel
  | none
  | session
  | software
  | hardware
  deriving DecidableEq, Repr

namespace PresenceLevel

/-- The position of a level in the declaration order. -/
def rank : PresenceLevel → ℕ
  | none => 0
  | session => 1
  | software => 2
  | hardware => 3

theorem rank_injective : Function.Injective rank := by
  intro first second h
  cases first <;> cases second <;> simp_all [rank]

instance : LinearOrder PresenceLevel := LinearOrder.lift' rank rank_injective

theorem le_iff_rank {first second : PresenceLevel} :
    first ≤ second ↔ first.rank ≤ second.rank := Iff.rfl

/-- No presence is the least level. -/
theorem none_le (level : PresenceLevel) : none ≤ level := Nat.zero_le level.rank

/-- The string form of a level. -/
def display : PresenceLevel → Str
  | none => str "none"
  | session => str "session"
  | software => str "software"
  | hardware => str "hardware"

/-- The debug form of a level, as it appears in a refusal. -/
def debug : PresenceLevel → Str
  | none => str "None"
  | session => str "Session"
  | software => str "Software"
  | hardware => str "Hardware"

/-- Read a level back from its string form. -/
def fromStr (s : Str) : Option PresenceLevel :=
  if s = str "none" then some none
  else if s = str "session" then some session
  else if s = str "software" then some software
  else if s = str "hardware" then some hardware
  else Option.none

/-- A string is read as a level exactly when it is the string form of that level. -/
theorem fromStr_eq_some_iff {s : Str} {level : PresenceLevel} :
    fromStr s = some level ↔ s = level.display := by
  constructor
  · intro h
    unfold fromStr at h
    split_ifs at h with hnone hsession hsoftware hhardware <;> cases h
    · exact hnone
    · exact hsession
    · exact hsoftware
    · exact hhardware
  · rintro rfl
    cases level <;> simp [fromStr, display]

end PresenceLevel

/-! ### Time -/

/-- An instant, in nanoseconds from the Unix epoch. -/
abbrev SystemTime := ℤ

/-- A duration, in nanoseconds. -/
abbrev Duration := ℕ

/-- The Unix epoch. -/
def unixEpoch : SystemTime := 0

/-- The time from an earlier instant to a later one; none when the order is the other way. -/
def durationSince (later earlier : SystemTime) : Option Duration :=
  if earlier ≤ later then some (later - earlier).toNat else none

/-- An instant the clock type can hold: a signed 64-bit number of seconds, and the nanoseconds of
one more. -/
def SystemTime.Representable (t : SystemTime) : Prop :=
  -9223372036854775808000000000 ≤ t ∧ t < 9223372036854775808000000000

/-- The whole second of an instant, counted from the Unix epoch. -/
def SystemTime.wholeSecond (t : SystemTime) : ℤ := t / 1000000000

/-- A duration of whole seconds. -/
def Duration.fromSecs (secs : ℕ) : Duration := secs * 1000000000

/-- The whole seconds of a duration. -/
def Duration.asSecs (duration : Duration) : ℕ := duration / 1000000000

/-- The largest value of an unsigned 64-bit integer. -/
def u64Max : ℕ := 18446744073709551615

/-- The time between two instants the clock type can hold is a 64-bit number of seconds. -/
theorem asSecs_le_u64Max {later earlier : SystemTime} {age : Duration}
    (hlater : later.Representable) (hearlier : earlier.Representable)
    (hage : durationSince later earlier = some age) :
    Duration.asSecs age ≤ u64Max := by
  unfold durationSince at hage
  split_ifs at hage with hle
  cases hage
  have hrange : ∀ l e : ℤ, l < 9223372036854775808000000000 → -9223372036854775808000000000 ≤ e →
      (l - e).toNat / 1000000000 ≤ 18446744073709551615 := by omega
  exact hrange later earlier hlater.2 hearlier.1

/-- Addition of unsigned 64-bit integers that stops at the largest value. -/
def saturatingAdd (a b : ℕ) : ℕ := min (a + b) u64Max

/-- The unsigned 64-bit integer a decimal text denotes: an optional plus sign and at least one
digit, with a value that fits. -/
def u64FromStr (s : Str) : Option ℕ :=
  let digits := match s with
    | '+' :: rest => rest
    | _ => s
  if digits = [] then none
  else if digits.all Char.isDigit then
    let value := digits.foldl (fun acc c ↦ acc * 10 + (c.toNat - 48)) 0
    if value ≤ u64Max then some value else none
  else none

/-- The decimal digits of a number are read back as that number when it fits, and not otherwise. -/
theorem u64FromStr_toDigits_eq_ite (n : ℕ) :
    u64FromStr (Nat.toDigits 10 n) = if n ≤ u64Max then some n else none := by
  have hdigit : ∀ c ∈ Nat.toDigits 10 n, c.isDigit = true :=
    fun c hc ↦ Nat.isDigit_of_mem_toDigits (by decide) (by decide) hc
  have hvalue : (Nat.toDigits 10 n).foldl (fun acc c ↦ acc * 10 + (c.toNat - 48)) 0 = n := by
    have hread := Nat.ofDigitChars_ten_toDigits (n := n)
    rw [Nat.ofDigitChars_eq_foldl] at hread
    simp only [Nat.mul_comm 10] at hread
    exact hread
  unfold u64FromStr
  dsimp only
  split
  · rename_i rest heq
    have hfirst := hdigit '+' (by rw [heq]; exact List.mem_cons_self)
    exact absurd hfirst (by decide)
  · rw [if_neg Nat.toDigits_ne_nil, if_pos (List.all_eq_true.mpr hdigit), hvalue]

/-- The decimal digits of a 64-bit integer are read back as that integer. -/
theorem u64FromStr_toDigits {n : ℕ} (hn : n ≤ u64Max) :
    u64FromStr (Nat.toDigits 10 n) = some n := by
  rw [u64FromStr_toDigits_eq_ite, if_pos hn]

/-- A number that is read is written in digits, behind at most a plus sign. -/
theorem mem_of_u64FromStr {s : Str} {n : ℕ} (h : u64FromStr s = some n) {c : Char} (hc : c ∈ s) :
    c = '+' ∨ c.isDigit = true := by
  unfold u64FromStr at h
  dsimp only at h
  split_ifs at h with hempty hdigits hfits
  have hall := List.all_eq_true.mp hdigits
  split at hall
  · rcases List.mem_cons.mp hc with rfl | hc
    · exact .inl rfl
    · exact .inr (hall c hc)
  · exact .inr (hall c hc)

/-- A number that is read fits sixty-four bits. -/
theorem le_u64Max_of_u64FromStr {s : Str} {n : ℕ} (h : u64FromStr s = some n) : n ≤ u64Max := by
  unfold u64FromStr at h
  dsimp only at h
  split_ifs at h with hempty hdigits hfits
  exact Option.some.inj h ▸ hfits

end Hire.Core
