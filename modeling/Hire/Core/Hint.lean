import Hire.Core.Hvid

/-!
# Reading a hint

The reading half of `hire-core/src/hint.rs`. A hint is a list of `key=value` parameters in any
order; an unknown key, a key that appears twice, a value outside its vocabulary and a missing key
are each refused. `SvidHint.fromStr_display` is the round trip: a hint that was rendered is read
back, as long as its source does not contain the separator.
-/

set_option autoImplicit false
set_option relaxedAutoImplicit false

namespace Hire.Core

open Hire.Library

/-- Why a hint does not parse. -/
inductive HintParseError
  | unknownKey (key : Str)
  | repeatedKey (key : Str)
  | missing (key : Str)
  | badValue (key value : Str)
  deriving DecidableEq, Repr

/-- The fields that were read so far. -/
structure HintAcc where
  source : Option Str
  identityAssurance : Option IdentityAssurance
  presence : Option PresenceLevel
  age : Option ℕ
  deriving DecidableEq, Repr

/-- Fill a field that was empty. -/
def setOnce {α : Type} (key : Str) (field : Option α) (value : α) :
    Except HintParseError (Option α) :=
  if field.isSome then .error (.repeatedKey key) else .ok (some value)

/-- The value of a key, if it is in its vocabulary. -/
def hintValue {α : Type} (key value : Str) : Option α → Except HintParseError α
  | some parsed => .ok parsed
  | none => .error (.badValue key value)

namespace SvidHint

/-- Read one parameter of a hint. -/
def readParam (acc : HintAcc) (param : Str) : Except HintParseError HintAcc :=
  match splitOnce '=' param with
  | none => .error (.unknownKey param)
  | some (key, value) =>
    if key = str "source" then do
      let source ← setOnce key acc.source value
      pure { acc with source }
    else if key = str "identity_assurance" then do
      let parsed ← hintValue key value (IdentityAssurance.fromStr value)
      let identityAssurance ← setOnce key acc.identityAssurance parsed
      pure { acc with identityAssurance }
    else if key = str "presence" then do
      let parsed ← hintValue key value (PresenceLevel.fromStr value)
      let presence ← setOnce key acc.presence parsed
      pure { acc with presence }
    else if key = str "age" then do
      let parsed ← hintValue key value (u64FromStr value)
      let age ← setOnce key acc.age parsed
      pure { acc with age }
    else .error (.unknownKey key)

/-- A field that has to be there. -/
def required {α : Type} (key : Str) : Option α → Except HintParseError α
  | some value => .ok value
  | none => .error (.missing key)

/-- Read a hint back from its text. -/
def fromStr (raw : Str) : Except HintParseError SvidHint := do
  let acc ← ((raw.splitOn '&').filter (· ≠ [])).foldlM readParam ⟨none, none, none, none⟩
  let source ← required (str "source") acc.source
  let identityAssurance ← required (str "identity_assurance") acc.identityAssurance
  let presence ← required (str "presence") acc.presence
  let age ← required (str "age") acc.age
  pure ⟨source, identityAssurance, presence, age⟩

/-! ### The round trip -/

/-- The parameters of a hint, in the documented order. -/
def params (hint : SvidHint) : List Str :=
  [str "source=" ++ hint.source, str "identity_assurance=" ++ hint.identityAssurance.display,
    str "presence=" ++ hint.presence.display, str "age=" ++ Nat.toDigits 10 hint.age]

/-- A hint is rendered as its parameters between separators. -/
theorem display_eq_intercalate (hint : SvidHint) :
    hint.display = List.intercalate ['&'] hint.params := by
  simp [display, params, List.intercalate, List.intersperse]

/-- The parameters behind the source are free of the separator. -/
theorem notMem_params_tail (hint : SvidHint) : ∀ param ∈ hint.params.tail, '&' ∉ param := by
  have hassurance : '&' ∉ hint.identityAssurance.display := by
    cases hint.identityAssurance <;> simp [IdentityAssurance.display]
  have hpresence : '&' ∉ hint.presence.display := by
    cases hint.presence <;> simp [PresenceLevel.display]
  have hage : '&' ∉ Nat.toDigits 10 hint.age := by
    intro hmem
    exact absurd (Nat.isDigit_of_mem_toDigits (by decide) (by decide) hmem) (by decide)
  simp [params, hassurance, hpresence, hage]

/-- The text of a hint is cut into its parameters. Assumes: the source contains no separator. -/
theorem splitOn_display {hint : SvidHint} (hsource : '&' ∉ hint.source) :
    (hint.display.splitOn '&').filter (· ≠ []) = hint.params := by
  have hfree : ∀ param ∈ hint.params, '&' ∉ param := by
    intro param hparam
    rcases List.mem_cons.mp hparam with rfl | hparam
    · simp [hsource]
    · exact notMem_params_tail hint param hparam
  rw [display_eq_intercalate, List.splitOn_intercalate '&' hfree (by simp [params])]
  simp [params]

/-- The four parameters of a hint fill the four fields. Assumes: the age is a 64-bit integer. -/
theorem foldlM_params {hint : SvidHint} (hage : hint.age ≤ u64Max) :
    hint.params.foldlM readParam ⟨none, none, none, none⟩ =
      .ok ⟨some hint.source, some hint.identityAssurance, some hint.presence, some hint.age⟩ := by
  have hsourceCut : splitOnce '=' (str "source=" ++ hint.source) =
      some (str "source", hint.source) := splitOnce_eq_some_iff.mpr (by simp)
  have hassuranceCut : splitOnce '=' (str "identity_assurance=" ++ hint.identityAssurance.display) =
      some (str "identity_assurance", hint.identityAssurance.display) :=
    splitOnce_eq_some_iff.mpr (by simp)
  have hpresenceCut : splitOnce '=' (str "presence=" ++ hint.presence.display) =
      some (str "presence", hint.presence.display) := splitOnce_eq_some_iff.mpr (by simp)
  have hageCut : splitOnce '=' (str "age=" ++ Nat.toDigits 10 hint.age) =
      some (str "age", Nat.toDigits 10 hint.age) := splitOnce_eq_some_iff.mpr (by simp)
  have hlevel : PresenceLevel.fromStr hint.presence.display = some hint.presence :=
    PresenceLevel.fromStr_eq_some_iff.mpr rfl
  simp only [params, List.foldlM_cons, List.foldlM_nil, readParam, hsourceCut, hassuranceCut,
    hpresenceCut, hageCut]
  simp [setOnce, hintValue, IdentityAssurance.fromStr_display, hlevel, u64FromStr_toDigits hage,
    bind, Except.bind, pure, Except.pure]

/-- A hint that was rendered is read back. Assumes: the source contains no separator, and the age is
a 64-bit integer. -/
theorem fromStr_display {hint : SvidHint} (hsource : '&' ∉ hint.source)
    (hage : hint.age ≤ u64Max) : fromStr hint.display = .ok hint := by
  unfold fromStr
  rw [splitOn_display hsource, foldlM_params hage]
  rfl

end SvidHint

end Hire.Core
