import Hire.Grpc.Consent
import Hire.Grpc.Entitlement

/-!
# One pseudonym for each root and consumer

A pseudonym names one root identity to one consumer. That the derivation is unambiguous is a fact
about `hire-core/src/pseudonym.rs`; here it meets the reply of a run. The claims of a run have
pairwise distinct URIs, whether they were ranked or named (`nodup_uri_gather`), so the claims behind
the SVIDs have pairwise distinct roots, and with them the SPIFFE IDs that are returned are pairwise
distinct (`nodup_spiffeId_reply`).

The one assumption on HKDF is that it has no collision among the inputs that occur. It is stated of
a set of inputs, since no function into thirty-two bytes is injective on all of them.
-/

set_option autoImplicit false
set_option relaxedAutoImplicit false

namespace Hire.Grpc

open Hire.Library Hire.Core Hire.Attestors

variable {L : TokenLib} {W : Type}

/-- The claims a request gathers have pairwise distinct URIs. -/
theorem nodup_uri_gather {challenge : Bytes} {requested : Option SpiffeId}
    {attestors : List (Attestor W)} {w : W} {claims : List Claim}
    (hclaims : (gather challenge requested attestors w).value = .ok claims) :
    (claims.map fun claim ↦ claim.spiffeId.uri).Nodup := by
  cases requested with
  | none =>
    obtain rfl := Except.ok.inj ((gather_unnamed challenge attestors w).symm.trans hclaims)
    exact nodup_map_bestPerKey _ _ _
  | some want =>
    change (proveNamed challenge want _ _).value = .ok claims at hclaims
    rcases proveNamed_cases challenge want (enumerateAll attestors w).value
      (enumerateAll attestors w).world with ⟨-, hproof⟩ | ⟨_, candidate, answer, _, -, -, -, hproof⟩
    · rw [hproof] at hclaims
      cases hclaims
    · rw [hproof] at hclaims
      obtain ⟨_, claim, -, -, -, rfl⟩ := namedClaim_eq_ok_iff.mp hclaims
      exact List.nodup_singleton _

namespace WorkloadApiService

/-- The SPIFFE IDs of a reply to a hashed binary are pairwise distinct. Assumes: HKDF has no
collision on a set that holds the inputs of the claims that were served. -/
theorem nodup_spiffeId_reply {C : Crypto} {inputs : Set HkdfInput}
    (hcollision : Set.InjOn C.hkdfSha256 inputs) {service : WorkloadApiService L W}
    {hash : ByteArr 32} {req : JwtsvidRequest} {readings : Readings} {w : W}
    (hinputs : ∀ root ∈
      (service.fetchJwtsvid C (some (.binarySha256 hash)) req readings w).roots,
      pseudonymInput service.signer.pseudonymIkm root (.binarySha256 hash) ∈ inputs)
    {svids : List (Jwtsvid L)}
    (hreply : (service.fetchJwtsvid C (some (.binarySha256 hash)) req readings w).reply =
      .ok svids) :
    (svids.map (·.spiffeId)).Nodup := by
  obtain ⟨rfl, hserved⟩ := served_of_reply hreply
  obtain ⟨admitted, challenge, claims, out, hadmitted, -, hclaims, hout, heq⟩ :=
    served_ne_nil hserved
  have hconsumer : admitted.consumer = .binarySha256 hash :=
    (Option.some.inj (acceptRequest_eq_ok_iff.mp hadmitted).1).symm
  rw [heq]
  have hids : out.served.map (fun pair ↦ pair.2.spiffeId) =
      (out.served.map Prod.fst).map fun claim ↦
        (service.signer.pseudonymousId C claim.spiffeId (.binarySha256 hash)).uri := by
    rw [List.map_map]
    refine List.map_congr_left fun pair hpair ↦ ?_
    obtain ⟨j, -, hissue⟩ := (mem_served_iff hout).mp (show (pair.1, pair.2) ∈ _ from hpair)
    rw [(issue_eq_ok_iff.mp hissue).2.2.1, hconsumer]
    rfl
  have hdistinct := (nodup_uri_gather hclaims).sublist ((map_fst_served_sublist hout).map _)
  rw [List.map_map]
  change (out.served.map fun pair ↦ pair.2.spiffeId).Nodup
  rw [hids]
  refine (List.nodup_map_iff_inj_on ?_).mpr ?_
  · exact List.Nodup.of_map _ hdistinct
  · intro claim hclaim claim' hclaim' huri
    have hmem : ∀ c ∈ out.served.map Prod.fst,
        pseudonymInput service.signer.pseudonymIkm c.spiffeId (.binarySha256 hash) ∈ inputs := by
      intro c hc
      obtain ⟨pair, hpair, rfl⟩ := List.mem_map.mp hc
      refine hinputs _ ?_
      rw [Outcome.roots, heq]
      exact List.mem_map.mpr ⟨pair, hpair, rfl⟩
    have hpseudonym := derivePseudonymousId_uri_inj C service.signer.pseudonymIkm huri
    have hroot := ((derivePseudonymousId_inj C service.signer.pseudonymIkm hcollision
      (hmem claim hclaim) (hmem claim' hclaim')).mp hpseudonym).1
    exact List.inj_on_of_nodup_map hdistinct hclaim hclaim' (by rw [hroot])

/-- Pseudonyms are exactly per root and consumer. Under one daemon key two pseudonymous IDs of
hashed binaries are equal exactly when the roots and the consumers are; a pseudonymous ID keeps the
root's trust domain, and its path is `pseudonym/` followed by sixty-four lowercase hexadecimal
digits; and the SPIFFE IDs of any one reply are pairwise distinct. Assumes: HKDF has no collision
among the inputs that occur. -/
theorem pseudonyms_per_root_and_consumer (C : Crypto) (service : WorkloadApiService L W)
    (inputs : Set HkdfInput) (hcollision : Set.InjOn C.hkdfSha256 inputs) :
    (∀ (root root' : SpiffeId) (hash hash' : ByteArr 32),
      pseudonymInput service.signer.pseudonymIkm root (.binarySha256 hash) ∈ inputs →
      pseudonymInput service.signer.pseudonymIkm root' (.binarySha256 hash') ∈ inputs →
      (service.signer.pseudonymousId C root (.binarySha256 hash) =
          service.signer.pseudonymousId C root' (.binarySha256 hash') ↔
        root = root' ∧
          ConsumerIdentity.binarySha256 hash = ConsumerIdentity.binarySha256 hash')) ∧
    (∀ (root : SpiffeId) (consumer : ConsumerIdentity),
      (service.signer.pseudonymousId C root consumer).trustDomain = root.trustDomain ∧
        ∃ digits : Str,
          (service.signer.pseudonymousId C root consumer).path = str "pseudonym/" ++ digits ∧
          digits.length = 64 ∧ ∀ c ∈ digits, c ∈ str "0123456789abcdef") ∧
    (∀ (hash : ByteArr 32) (req : JwtsvidRequest) (readings : Readings) (w : W)
      (svids : List (Jwtsvid L)),
      (∀ root ∈ (service.fetchJwtsvid C (some (.binarySha256 hash)) req readings w).roots,
        pseudonymInput service.signer.pseudonymIkm root (.binarySha256 hash) ∈ inputs) →
      (service.fetchJwtsvid C (some (.binarySha256 hash)) req readings w).reply = .ok svids →
      (svids.map (·.spiffeId)).Nodup) := by
  refine ⟨fun root root' hash hash' hinput hinput' ↦ ?_,
    fun root consumer ↦ derivePseudonymousId_shape C service.signer.pseudonymIkm root consumer,
    fun hash req readings w svids hinputs hreply ↦ nodup_spiffeId_reply hcollision hinputs hreply⟩
  rw [ConsumerIdentity.binarySha256.injEq]
  exact derivePseudonymousId_inj C service.signer.pseudonymIkm hcollision hinput hinput'

/-- Two roots that one consumer sees under two pseudonyms. -/
theorem pseudonyms_per_root_and_consumer_two_roots :
    let signer := (transparent []).signer
    let hash : ByteArr 32 := fill 32 1
    let alice : SpiffeId := ⟨.sshLocal, str "user/alice"⟩
    let bob : SpiffeId := ⟨.sshLocal, str "user/bob"⟩
    Set.InjOn Crypto.transparent.hkdfSha256
        {pseudonymInput signer.pseudonymIkm alice (.binarySha256 hash),
          pseudonymInput signer.pseudonymIkm bob (.binarySha256 hash)} ∧
      signer.pseudonymousId .transparent alice (.binarySha256 hash) ≠
        signer.pseudonymousId .transparent bob (.binarySha256 hash) := by
  intro signer hash alice bob
  have hcollision : Set.InjOn Crypto.transparent.hkdfSha256
      {pseudonymInput signer.pseudonymIkm alice (.binarySha256 hash),
        pseudonymInput signer.pseudonymIkm bob (.binarySha256 hash)} := by
    rintro input (rfl | rfl) input' (rfl | rfl) h
    · rfl
    · exact absurd h (by with_unfolding_all decide)
    · exact absurd h (by with_unfolding_all decide)
    · rfl
  refine ⟨hcollision, fun hsame ↦ ?_⟩
  have hroots := ((pseudonyms_per_root_and_consumer .transparent (transparent []) _ hcollision).1
    alice bob hash hash (Or.inl rfl) (Or.inr rfl)).mp hsame
  exact absurd hroots.1 (by with_unfolding_all decide)

end WorkloadApiService

end Hire.Grpc
