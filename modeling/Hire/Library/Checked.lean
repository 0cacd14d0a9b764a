import Mathlib.Data.List.Basic

/-!
# Checked computations

A computation that may be refused, as `Except` has it. `bind_eq_ok_iff` takes a successful sequence
apart, and `foldlM_cons_eq_ok_iff` does the same for the first element of a fold that may stop at
every element.

Nothing here names a particular program.
-/

set_option autoImplicit false
set_option relaxedAutoImplicit false

namespace Hire.Library

variable {ε α β σ : Type}

/-- A sequence succeeds exactly when its first part does and the second part does on its value. -/
theorem bind_eq_ok_iff {m : Except ε α} {f : α → Except ε β} {b : β} :
    (m >>= f) = .ok b ↔ ∃ a, m = .ok a ∧ f a = .ok b := by
  cases m with
  | error e => simp [bind, Except.bind]
  | ok a => simp [bind, Except.bind]

/-- A checked fold over an element and a rest succeeds exactly when the element is accepted and the
rest is from there. -/
theorem foldlM_cons_eq_ok_iff {step : σ → α → Except ε σ} {s s' : σ} {a : α} {rest : List α} :
    (a :: rest).foldlM step s = .ok s' ↔
      ∃ t, step s a = .ok t ∧ rest.foldlM step t = .ok s' := by
  rw [List.foldlM_cons, bind_eq_ok_iff]

end Hire.Library
