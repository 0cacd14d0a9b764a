import Hire.Core.Thumbprint
import Hire.Grpc.Connections
import Hire.Hired.Provenance

/-!
# What a restart forgets

`SvidSigner` of `hire-core/src/signer.rs` draws a signing key and the key material of the pseudonyms
when the daemon starts, and keeps neither. So two daemons that were started with different draws
have nothing in common, on one machine or on two: `restart_forgets` says that the one honours no
token of the other, at no time and for no audience, and gives no consumer a SPIFFE ID that the other
has given to any.
-/

set_option autoImplicit false
set_option relaxedAutoImplicit false

namespace Hire.Hired

open Hire.Library Hire.Core Hire.Attestors Hire.Grpc

variable {W : Type} {L : TokenLib}

/-- Different key material gives different HKDF inputs, whatever the roots and the consumers are. -/
theorem pseudonymIkm_eq_of_input {ikm ikm' : ByteArr 32} {root root' : SpiffeId}
    {consumer consumer' : ConsumerIdentity}
    (h : pseudonymInput ikm root consumer = pseudonymInput ikm' root' consumer') : ikm = ikm' := by
  obtain ⟨-, hikm, -⟩ := HkdfInput.mk.inj h
  exact Subtype.ext (List.append_inj_left hikm (ikm.2.trans ikm'.2.symm))

/-- A daemon honours no token that was signed under another key ID. Assumes: the documented
behaviour of the token library, and that the SPIFFE ID reads back. -/
theorem not_honoured {C : Crypto} (hL : L.Documented) {signer signer' : SvidSigner L}
    (hkey : signer'.kid C ≠ signer.kid C) {id : SpiffeId} (hid : SpiffeId.fromStr id.uri = .ok id)
    {audiences : List Str} {hireExt : Json} {signedAt : SystemTime} {token : L.Token}
    (htoken : signer.signJwtSvid C signedAt id.uri audiences hireExt = .ok token)
    (attestors : List (Attestor W)) (audience : Str) (now : ℕ) :
    ∃ status, (wire C signer' attestors).validateJwtsvid ⟨token, audience⟩ now = .error status := by
  by_cases haudience : audience = []
  · unfold WorkloadApiService.validateJwtsvid
    by_cases hempty : L.isEmpty token
    · exact ⟨_, if_pos hempty⟩
    · exact ⟨⟨.invalidArgument, str "audience must not be empty"⟩,
        by rw [if_neg hempty, if_pos haudience]⟩
  · obtain ⟨published, hget, hpublished⟩ : ∃ published : Option (SvidSigner L),
        (wire C signer' attestors).bundles.get id.trustDomain =
          published.map (TrustBundle.local C id.trustDomain) ∧
        ∀ s ∈ published, s = signer' := by
      by_cases hlocal : id.trustDomain = .sshLocal
      · refine ⟨some signer', ?_, fun s hs ↦ (Option.mem_some.mp hs).symm⟩
        rw [hlocal]
        exact get_wire C signer' attestors
      · refine ⟨none, ?_, fun s hs ↦ by cases hs⟩
        exact AList.lookup_insert_ne fun h ↦ hlocal (TrustDomain.display_injective h)
    refine ⟨reject, ?_⟩
    rw [WorkloadApiService.validateJwtsvid_signed hL (wire C signer' attestors) hid htoken now
      haudience hget fun s hs hsame ↦ absurd (hpublished s hs ▸ hsame) hkey, if_neg]
    rintro ⟨hsame, -⟩
    obtain ⟨s, hs, hkid⟩ := Option.map_eq_some_iff.mp hsame
    exact hkey (hpublished s hs ▸ hkid)

/-- What a started daemon serves, it serves under a SPIFFE ID that reads back, signed with its own
key. -/
theorem signed_of_mem_served {C : Crypto} {M : Machine W} {features : Features}
    {signer : SvidSigner L} {w₀ : W} {service : WorkloadApiService L W}
    (hstart : (start C M features signer w₀).1 = .ok service) {consumer : ConsumerIdentity}
    {req : JwtsvidRequest} {readings : Readings} {w : W} {served : Claim × Jwtsvid L}
    (hserved : served ∈ (service.fetchJwtsvid C (some consumer) req readings w).served) :
    let id := signer.pseudonymousId C served.1.spiffeId consumer
    served.2.spiffeId = id.uri ∧ SpiffeId.fromStr id.uri = .ok id ∧
      ∃ signedAt audiences hireExt,
        signer.signJwtSvid C signedAt id.uri audiences hireExt = .ok served.2.svid := by
  intro id
  obtain ⟨attestors, hprobe, rfl⟩ := start_eq_ok hstart
  obtain ⟨probes, rfl⟩ := probeSources_yields_registryOf C M features w₀ attestors hprobe
  obtain ⟨claim, svid⟩ := served
  obtain ⟨admitted, challenge, claims, j, hadmitted, -, hclaims, hclaim, hissue⟩ :=
    WorkloadApiService.issued_of_mem_served hserved
  obtain ⟨hconsumer, -⟩ := acceptRequest_eq_ok_iff.mp hadmitted
  obtain ⟨-, hsigned, huri, -⟩ := issue_eq_ok_iff.mp hissue
  rw [← Option.some.inj hconsumer] at hsigned huri
  obtain ⟨-, hdomain⟩ := proven_of_backed (backed_of_mem_gather hclaims hclaim)
  have hknown : claim.spiffeId.trustDomain = .sshLocal ∨
      claim.spiffeId.trustDomain = .tailscale := by
    rw [hdomain, domainOf]
    split_ifs
    · exact .inr rfl
    · exact .inl rfl
  exact ⟨huri, pseudonymousId_readsBack C signer consumer hknown, _, _, _, hsigned⟩

/-- A daemon honours nothing that another one has issued, and gives nobody a SPIFFE ID that the
other has given to anybody. Assumes: the documented behaviour of the token library, two daemons that
were started on some machines with different key IDs and different key material, and for the SPIFFE
IDs that HKDF has no collision on a set that holds the two inputs. -/
theorem restart_forgets (C : Crypto) (hL : L.Documented) (M M' : Machine W)
    (features features' : Features) (signer signer' : SvidSigner L) (w₀ w₀' : W)
    (service service' : WorkloadApiService L W)
    (hstart : (start C M features signer w₀).1 = .ok service)
    (hstart' : (start C M' features' signer' w₀').1 = .ok service')
    (hkey : signer'.kid C ≠ signer.kid C) (hikm : signer.pseudonymIkm ≠ signer'.pseudonymIkm)
    (consumer : ConsumerIdentity) (req : JwtsvidRequest) (readings : Readings) (w : W) :
    ∀ served ∈ (service.fetchJwtsvid C (some consumer) req readings w).served,
      (∀ audience now, ∃ status,
        service'.validateJwtsvid ⟨served.2.svid, audience⟩ now = .error status) ∧
      ∀ consumer' req' readings' w',
        ∀ served' ∈ (service'.fetchJwtsvid C (some consumer') req' readings' w').served,
          ∀ inputs : Set HkdfInput, Set.InjOn C.hkdfSha256 inputs →
            pseudonymInput signer.pseudonymIkm served.1.spiffeId consumer ∈ inputs →
            pseudonymInput signer'.pseudonymIkm served'.1.spiffeId consumer' ∈ inputs →
            served.2.spiffeId ≠ served'.2.spiffeId := by
  intro served hserved
  obtain ⟨huri, hback, signedAt, audiences, hireExt, hsigned⟩ := signed_of_mem_served hstart hserved
  constructor
  · intro audience now
    obtain ⟨attestors, -, rfl⟩ := start_eq_ok hstart'
    exact not_honoured hL hkey hback hsigned attestors audience now
  · intro consumer' req' readings' w' served' hserved' inputs hcollision hinput hinput' hsame
    obtain ⟨huri', hback', -⟩ := signed_of_mem_served hstart' hserved'
    rw [huri, huri'] at hsame
    rw [hsame] at hback
    have hid := Except.ok.inj (hback.symm.trans hback')
    have hpath := List.append_cancel_left (SpiffeId.mk.inj hid).2
    have houtput := Subtype.ext (hex_injective hpath)
    exact hikm (pseudonymIkm_eq_of_input (hcollision hinput hinput' houtput))

/-! ### Two starts on one machine -/

/-- Primitives whose hashes tell keys and key material apart by their first bytes. -/
def drawnCrypto : Crypto where
  __ := SvidSigner.tellingApart
  hkdfSha256 input := pad32 input.ikm

/-- A signer whose draws are one byte over and over. -/
def drawn (byte : UInt8) : SvidSigner TokenLib.transparent :=
  .fromSigningKey (fill 65 byte) (fill 32 byte)

/-- The daemon of an account that has drawn a byte. -/
def drawnService (byte : UInt8) : WorkloadApiService TokenLib.transparent Unit :=
  wire drawnCrypto (drawn byte) [Oidc.attestor (aliceMachine false),
    Unix.attestor (aliceMachine false) 1000 (str "alice")]

/-- What that daemon serves to a request for every identity. -/
def drawnServed (byte : UInt8) : List (Claim × Jwtsvid TokenLib.transparent) :=
  ((drawnService byte).fetchJwtsvid drawnCrypto (some WorkloadApiService.someBinary) everyIdentity
    (WorkloadApiService.readingsAt (WorkloadApiService.second 101)) ()).served

theorem drawnServed_four_isEmpty : (drawnServed 4).isEmpty = false := by
  with_unfolding_all decide

theorem drawnServed_five_isEmpty : (drawnServed 5).isEmpty = false := by
  with_unfolding_all decide

/-- After a restart the account has another SPIFFE ID, and its former token is refused. -/
theorem restart_forgets_drawn : ∃ served ∈ drawnServed 4, ∃ served' ∈ drawnServed 5,
    (∀ audience now, ∃ status,
      (drawnService 5).validateJwtsvid ⟨served.2.svid, audience⟩ now = .error status) ∧
    served.2.spiffeId ≠ served'.2.spiffeId := by
  obtain ⟨served, hserved⟩ := List.exists_mem_of_ne_nil _
    (List.isEmpty_eq_false_iff.mp drawnServed_four_isEmpty)
  obtain ⟨served', hserved'⟩ := List.exists_mem_of_ne_nil _
    (List.isEmpty_eq_false_iff.mp drawnServed_five_isEmpty)
  obtain ⟨hrefused, hfresh⟩ := restart_forgets drawnCrypto TokenLib.transparent_documented
    (aliceMachine false) (aliceMachine false) ⟨false, false⟩ ⟨false, false⟩ (drawn 4) (drawn 5)
    () () (drawnService 4) (drawnService 5) rfl rfl (by with_unfolding_all decide)
    (by with_unfolding_all decide) WorkloadApiService.someBinary everyIdentity
    (WorkloadApiService.readingsAt (WorkloadApiService.second 101)) () served hserved
  refine ⟨served, hserved, served', hserved', hrefused, ?_⟩
  refine hfresh _ _ _ _ served' hserved' {_, _} ?_ (.inl rfl) (.inr rfl)
  have hfirst : ∀ byte byte' : UInt8, ∀ root root' : SpiffeId,
      drawnCrypto.hkdfSha256 (pseudonymInput (drawn byte).pseudonymIkm root
          WorkloadApiService.someBinary) =
        drawnCrypto.hkdfSha256 (pseudonymInput (drawn byte').pseudonymIkm root'
          WorkloadApiService.someBinary) → some byte = some byte' :=
    fun _ _ _ _ h ↦ congrArg (fun out : ByteArr 32 ↦ out.1.head?) h
  rintro input (rfl | rfl) input' (rfl | rfl) h
  · rfl
  · exact absurd (hfirst _ _ _ _ h) (by decide)
  · exact absurd (hfirst _ _ _ _ h) (by decide)
  · rfl

end Hire.Hired
