import Hire.Attestors.Claim

/-!
# Attestors and the machine they run on

The attestor trait of `hire-attestors/src/lib.rs`, and what its implementations ask of the machine:
environment variables, files, sockets, processes, the clock and the account. Every question may
change the world, and nothing is assumed about the answers, so what is proved of a source holds
whatever it meets.

A source is confined to a trust domain (`Attestor.Confined`) when it shows candidates of that
domain only and proves nothing that re-anchors a claim elsewhere. The trust domain of whatever such
a source proves is then known before it runs.
-/

set_option autoImplicit false
set_option relaxedAutoImplicit false

namespace Hire.Attestors

open Hire.Library Hire.Core

/-! ### The trait -/

/-- An identity source: what it sees, and what it can prove of a candidate. -/
structure Attestor (W : Type) where
  name : Str
  enumerate : Action AttestorError W (List Candidate)
  prove : Candidate → Bytes → Action AttestorError W (List Evidence)

/-- The default proof, which declines. -/
def Attestor.decline {W : Type} (name : Str) (_candidate : Candidate) (_challenge : Bytes) :
    Action AttestorError W (List Evidence) :=
  Action.fail (.challengeFailed (name ++ str " cannot produce evidence"))

/-- An attestor that gives the same answers whenever it is asked. -/
def Attestor.constant (name : Str) (candidates : List Candidate) (evidence : List Evidence) :
    Attestor Unit where
  name := name
  enumerate := pure candidates
  prove _ _ := pure evidence

/-! ### The machine -/

/-- What the standard library knows of Unicode: the case mappings and the debug form of a text. -/
structure Unicode where
  toLowercase : Str → Str
  toUppercase : Str → Str
  debug : Str → Str

/-- How a HID device is addressed. -/
inductive HidParam
  | path (path : Str)
  | vidPid (vid pid : UInt16)
  deriving DecidableEq, Repr

/-- A FIDO2 device that answered the enumeration. -/
structure HidInfo where
  productString : Str
  param : HidParam
  deriving DecidableEq, Repr

/-- The machine: the gpg installation and everything else the sources ask for. A connection is
named by a number, `readExact` returns as many bytes as it was asked for or fails, and the error of
an operating system call is its text. `join` is the end of a task on a blocking thread. -/
structure Machine (W : Type) extends Gpg W where
  unicode : Unicode
  env : Str → W → Option Str × W
  pathExists : Str → W → Bool × W
  readToString : Str → W → Option Str × W
  parseJson : Bytes → Except Str Json
  connect : Str → Action Str W ℕ
  writeAll : ℕ → Bytes → Action Str W Unit
  readExact : ℕ → (n : ℕ) → Action Str W (ByteArr n)
  readToEnd : ℕ → Action Str W Bytes
  output : Str → List Str → Action Str W ProcessOutput
  getuid : W → ℕ × W
  usernameFor : ℕ → W → Except AttestorError (Option Str) × W
  fidokeyDevices : W → List HidInfo × W
  join : Action Str W Unit

/-! ### Confinement -/

/-- A source is confined to a trust domain: every candidate it shows is of that domain, and no
evidence it produces re-anchors a claim. -/
structure Attestor.Confined {W : Type} (trustDomain : TrustDomain) (attestor : Attestor W) :
    Prop where
  enumerate : attestor.enumerate.Yields
    fun candidates ↦ ∀ candidate ∈ candidates, candidate.domain.toTrustDomain = trustDomain
  prove : ∀ candidate challenge, (attestor.prove candidate challenge).Yields
    fun evidence ↦ ∀ e ∈ evidence, e.issuerAnchor = none

/-- A claim keeps the domain of its candidate when no evidence re-anchors it. -/
theorem Claim.trustDomain_of_derive {candidate : Candidate} {challenge : Bytes}
    {evidence : List Evidence} {claim : Claim}
    (hderive : Claim.derive candidate challenge evidence = some claim)
    (hanchor : ∀ e ∈ evidence, e.issuerAnchor = none) :
    claim.spiffeId.trustDomain = candidate.domain.toTrustDomain := by
  have hnone : (evidence.filter (·.bindsTo candidate challenge)).findSome?
      Evidence.issuerAnchor = none :=
    List.findSome?_eq_none_iff.mpr fun e he ↦ hanchor e (List.mem_filter.mp he).1
  rw [(Claim.derive_eq_some hderive).2.2, hnone, Option.getD_none]

/-- A source that declines every proof is confined to the domain of its candidates. -/
theorem Attestor.confined_of_decline {W : Type} {trustDomain : TrustDomain} {name : Str}
    {enumerate : Action AttestorError W (List Candidate)}
    (henumerate : enumerate.Yields
      fun candidates ↦ ∀ candidate ∈ candidates, candidate.domain.toTrustDomain = trustDomain) :
    Attestor.Confined trustDomain ⟨name, enumerate, Attestor.decline name⟩ where
  enumerate := henumerate
  prove _ _ := .fail

/-- The evidence of one signature re-anchors nothing. -/
theorem Evidence.issuerAnchor_possession (s : ChallengeSignature) :
    ∀ e ∈ [Evidence.possession s], e.issuerAnchor = none := by
  intro e he
  rw [List.mem_singleton.mp he]
  rfl

end Hire.Attestors
