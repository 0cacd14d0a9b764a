import Hire.Core.Foreign

/-!
# What a token and its hint publish

`hire-core/src/hvid.rs` and the rendering half of `hire-core/src/hint.rs`. The `hire` block of a
JWT-SVID and the hint beside it say the same things by the same names: where the identity came
from, how well it was established, and when the presence behind it was observed. Neither has a
place for a root identity.
-/

set_option autoImplicit false
set_option relaxedAutoImplicit false

namespace Hire.Core

open Hire.Library

/-- Presence attestation info embedded in a JWT-SVID; the instants are Unix seconds. -/
structure PresenceInfo where
  present : Bool
  attestedBy : Str
  attestedAt : ℕ
  presentUntil : ℕ
  deriving DecidableEq, Repr

/-- The `hire` extension object of a JWT-SVID. -/
structure HireClaims where
  rootTrustDomain : Str
  sources : List Str
  identityAssurance : IdentityAssurance
  presence : PresenceInfo
  authMethods : List Str
  deriving DecidableEq, Repr

/-- The presence info as JSON. -/
def PresenceInfo.toValue (info : PresenceInfo) : Json :=
  .object [(str "present", .bool info.present), (str "attested_by", .string info.attestedBy),
    (str "attested_at", .number (.posInt info.attestedAt)),
    (str "present_until", .number (.posInt info.presentUntil))]

/-- The extension object as JSON. -/
def HireClaims.toValue (claims : HireClaims) : Json :=
  .object [(str "root_trust_domain", .string claims.rootTrustDomain),
    (str "sources", .array (claims.sources.map .string)),
    (str "identity_assurance", .string claims.identityAssurance.display),
    (str "presence", claims.presence.toValue),
    (str "auth_methods", .array (claims.authMethods.map .string))]

/-- The machine-readable hint of an issued JWT-SVID; the age is in whole seconds. -/
structure SvidHint where
  source : Str
  identityAssurance : IdentityAssurance
  presence : PresenceLevel
  age : ℕ
  deriving DecidableEq, Repr

/-- The hint as text, in the documented field order. -/
def SvidHint.display (hint : SvidHint) : Str :=
  str "source=" ++ hint.source ++ str "&identity_assurance=" ++ hint.identityAssurance.display ++
    str "&presence=" ++ hint.presence.display ++ str "&age=" ++ Nat.toDigits 10 hint.age

end Hire.Core
