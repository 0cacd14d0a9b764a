import Hire.Core.Foreign
import Hire.Core.SpiffeId
import Mathlib.Data.Set.Function

/-!
# Consumers and their pseudonyms

`hire-core/src/consumer.rs` and `hire-core/src/pseudonym.rs`. A consumer is named by what its
platform can attest, and `ConsumerIdentity.selectorKey` flattens the name into one string. The
SPIFFE ID a consumer sees for a root identity keeps the root's trust domain and replaces its path
by the hexadecimal form of an HKDF output (`derivePseudonymousId`). The three HKDF inputs are
assembled separately (`pseudonymInput`): the trust domain is the salt, the daemon key followed by
the root URI is the key material, and the labelled selector key is the info.

`pseudonymInput_injective` is the unambiguity of that assembly for the consumers the daemon
attests: equal inputs come from equal roots and equal consumers. `derivePseudonymousId_inj` adds
the HKDF output, where the only assumption is that HKDF has no collision on the two inputs, and
`derivePseudonymousId_uri_inj` adds the rendering, which stays unambiguous because a pseudonymous
path has a fixed length.
-/

set_option autoImplicit false
set_option relaxedAutoImplicit false

namespace Hire.Core

open Hire.Library

/-- The attested identity of a process that calls the socket. -/
inductive ConsumerIdentity
  | binarySha256 (hash : ByteArr 32)
  | macosBundleId (bundleId teamId : Str)
  | flatpakApp (id : Str)
  | snapName (name : Str)
  | chromeExtension (id : Str)
  deriving DecidableEq

/-- The stable string key of a consumer. -/
def ConsumerIdentity.selectorKey : ConsumerIdentity → Str
  | .binarySha256 hash => str "binary_sha256:" ++ hex hash.1
  | .macosBundleId bundleId teamId =>
    str "macos:bundle_id:" ++ bundleId ++ str ":team_id:" ++ teamId
  | .flatpakApp id => str "flatpak:app:" ++ id
  | .snapName name => str "snap:name:" ++ name
  | .chromeExtension id => str "chrome_extension:id:" ++ id

/-- The scheme label and version that starts the HKDF info. -/
def scheme : Str := str "hire-pseudonym-v1:"

/-- The HKDF output for key material, a trust domain and a consumer. -/
def derivePseudonym (C : Crypto) (ikm : Bytes) (trustDomain : TrustDomain)
    (consumer : ConsumerIdentity) : ByteArr 32 :=
  C.hkdfSha256 ⟨utf8 trustDomain.display, ikm, utf8 (scheme ++ consumer.selectorKey)⟩

/-- The SPIFFE ID a consumer sees for a root identity under a daemon key. -/
def derivePseudonymousId (C : Crypto) (ikm : ByteArr 32) (root : SpiffeId)
    (consumer : ConsumerIdentity) : SpiffeId :=
  SpiffeId.pseudonymous root.trustDomain
    (hex (derivePseudonym C (ikm.1 ++ utf8 root.uri) root.trustDomain consumer).1)

/-- The HKDF inputs of a root identity and a consumer under a daemon key. -/
def pseudonymInput (ikm : ByteArr 32) (root : SpiffeId) (consumer : ConsumerIdentity) : HkdfInput :=
  ⟨utf8 root.trustDomain.display, ikm.1 ++ utf8 root.uri, utf8 (scheme ++ consumer.selectorKey)⟩

/-- The selector key of a hashed binary determines the hash. -/
theorem selectorKey_binarySha256_inj {hash hash' : ByteArr 32}
    (h : (ConsumerIdentity.binarySha256 hash).selectorKey =
      (ConsumerIdentity.binarySha256 hash').selectorKey) : hash = hash' :=
  Subtype.ext (hex_injective (List.append_cancel_left h))

/-- Equal HKDF inputs under one daemon key come from one root and one hashed binary. -/
theorem pseudonymInput_injective (ikm : ByteArr 32) {root root' : SpiffeId}
    {hash hash' : ByteArr 32}
    (h : pseudonymInput ikm root (.binarySha256 hash) =
      pseudonymInput ikm root' (.binarySha256 hash')) : root = root' ∧ hash = hash' := by
  obtain ⟨hsalt, hikm, hinfo⟩ := HkdfInput.mk.inj h
  have htd := TrustDomain.display_injective (utf8_injective hsalt)
  have huri := utf8_injective (List.append_cancel_left hikm)
  have hselector := List.append_cancel_left (utf8_injective hinfo)
  exact ⟨SpiffeId.uri_inj_of_trustDomain_eq htd huri, selectorKey_binarySha256_inj hselector⟩

/-- The pseudonymous ID keeps the root's trust domain, and its path is `pseudonym/` followed by
sixty-four lowercase hexadecimal digits. -/
theorem derivePseudonymousId_shape (C : Crypto) (ikm : ByteArr 32) (root : SpiffeId)
    (consumer : ConsumerIdentity) :
    (derivePseudonymousId C ikm root consumer).trustDomain = root.trustDomain ∧
      ∃ digits : Str, (derivePseudonymousId C ikm root consumer).path = str "pseudonym/" ++ digits ∧
        digits.length = 64 ∧ ∀ c ∈ digits, c ∈ hexDigits := by
  refine ⟨rfl, _, rfl, ?_, fun c hc ↦ mem_hexDigits_of_mem_hex hc⟩
  rw [hex_length, (derivePseudonym C (ikm.1 ++ utf8 root.uri) root.trustDomain consumer).2]

/-- Two pseudonymous IDs of hashed binaries are equal exactly when root and binary are. Assumes:
HKDF has no collision on the two inputs. -/
theorem derivePseudonymousId_inj (C : Crypto) (ikm : ByteArr 32) {inputs : Set HkdfInput}
    (hcollision : Set.InjOn C.hkdfSha256 inputs) {root root' : SpiffeId} {hash hash' : ByteArr 32}
    (hinput : pseudonymInput ikm root (.binarySha256 hash) ∈ inputs)
    (hinput' : pseudonymInput ikm root' (.binarySha256 hash') ∈ inputs) :
    derivePseudonymousId C ikm root (.binarySha256 hash) =
        derivePseudonymousId C ikm root' (.binarySha256 hash') ↔ root = root' ∧ hash = hash' := by
  constructor
  · intro h
    have hpath := List.append_cancel_left (SpiffeId.mk.inj h).2
    have houtput := Subtype.ext (hex_injective hpath)
    exact pseudonymInput_injective ikm (hcollision hinput hinput' houtput)
  · rintro ⟨rfl, rfl⟩
    rfl

/-- Two pseudonymous IDs with the same URI are equal: the path has a fixed length, so the URI
determines the trust domain even when its payload contains a slash. -/
theorem derivePseudonymousId_uri_inj (C : Crypto) (ikm : ByteArr 32) {root root' : SpiffeId}
    {consumer consumer' : ConsumerIdentity}
    (h : (derivePseudonymousId C ikm root consumer).uri =
      (derivePseudonymousId C ikm root' consumer').uri) :
    derivePseudonymousId C ikm root consumer = derivePseudonymousId C ikm root' consumer' := by
  have hlength : ∀ (r : SpiffeId) (c : ConsumerIdentity),
      (str "/" ++ (derivePseudonymousId C ikm r c).path).length = 75 := by
    intro r c
    obtain ⟨-, digits, hpath, hdigits, -⟩ := derivePseudonymousId_shape C ikm r c
    rw [hpath]
    simp [hdigits]
  refine SpiffeId.uri_inj_of_trustDomain_eq ?_ h
  simp only [SpiffeId.uri, List.append_assoc] at h
  have htail := List.append_cancel_left h
  have hdisplay := (List.append_inj' htail (by rw [hlength, hlength])).1
  exact TrustDomain.display_injective hdisplay

end Hire.Core
