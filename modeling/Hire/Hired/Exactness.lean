import Hire.Hired.Wiring

/-!
# What a relying party reads

An SVID that the daemon served is handed to the daemon again by whom it was meant for, and comes
back as a SPIFFE ID and a protobuf struct. `served_reads_exactly` follows one from the request it
was served in to that struct: within its five minutes, and for an audience it names, validation
returns the ID it was issued under, and the struct carries the whole payload exactly when four
instants survive the doubles of protobuf. Those are the instants that the clocks put into the
payload, and up to `2 ^ 53` seconds all of them do.
-/

set_option autoImplicit false
set_option relaxedAutoImplicit false

namespace Hire.Hired

open Hire.Library Hire.Library.Binary64 Hire.Core Hire.Attestors Hire.Grpc

variable {L : TokenLib} {W : Type}

/-- The instants in a payload: when it expires and was signed, and when the presence behind it was
observed and ends. -/
def instants (claim : Claim) (iat : ℕ) : List ℕ :=
  [iat + 300, iat, publishedAt claim, saturatingAdd (publishedAt claim) presenceTtl.asSecs]

/-- Up to `2 ^ 53` seconds, every instant survives. -/
theorem isExact_instants {claim : Claim} {iat : ℕ} (hsigned : iat + 300 ≤ 2 ^ 53)
    (hobserved : publishedAt claim + 300 ≤ 2 ^ 53) : ∀ t ∈ instants claim iat, IsExact t := by
  have hend : saturatingAdd (publishedAt claim) presenceTtl.asSecs ≤ publishedAt claim + 300 :=
    min_le_left _ _
  intro t ht
  refine isExact_of_natAbs_le ?_
  simp only [instants, List.mem_cons, List.not_mem_nil, or_false] at ht
  rw [Int.natAbs_natCast]
  omega

section Payload

variable (formatFinite : UInt64 → Str)

theorem carries_string (s : Str) :
    Carries (.string s) (jsonToProtobuf formatFinite (.string s)) := by
  rw [jsonToProtobuf]
  exact .string s

theorem carries_strings (texts : List Str) :
    Carries (.array (texts.map .string))
      (jsonToProtobuf formatFinite (.array (texts.map .string))) := by
  rw [carries_array_iff]
  intro item hitem
  obtain ⟨s, -, rfl⟩ := List.mem_map.mp hitem
  exact carries_string formatFinite s

theorem carries_instant_iff (t : ℕ) :
    Carries (.number (.posInt t)) (jsonToProtobuf formatFinite (.number (.posInt t))) ↔
      IsExact t := by
  rw [carries_number_iff]
  simp [JsonNumber.toInt]

/-- The presence block carries its two instants, and the rest of it always. -/
theorem carries_presence_iff (info : PresenceInfo) :
    Carries info.toValue (jsonToProtobuf formatFinite info.toValue) ↔
      IsExact info.attestedAt ∧ IsExact info.presentUntil := by
  have hbool : Carries (.bool info.present) (jsonToProtobuf formatFinite (.bool info.present)) := by
    rw [jsonToProtobuf]
    exact .bool info.present
  rw [PresenceInfo.toValue, carries_object_iff]
  simp only [List.forall_mem_cons, List.not_mem_nil, false_implies, implies_true, and_true, hbool,
    carries_string, carries_instant_iff, true_and]

/-- A payload is carried exactly when its instants are. -/
theorem carries_payload_iff (claim : Claim) (now : SystemTime) (iat : ℕ) (spiffeId : Str)
    (audiences : List Str) :
    Carries (SvidSigner.svidClaims iat spiffeId audiences (hireExt claim now).toValue).toValue
        (jsonToProtobuf formatFinite
          (SvidSigner.svidClaims iat spiffeId audiences (hireExt claim now).toValue).toValue) ↔
      ∀ t ∈ instants claim iat, IsExact t := by
  have hhire : Carries (hireExt claim now).toValue
      (jsonToProtobuf formatFinite (hireExt claim now).toValue) ↔
      IsExact (publishedAt claim) ∧
        IsExact (saturatingAdd (publishedAt claim) presenceTtl.asSecs : ℕ) := by
    rw [HireClaims.toValue, carries_object_iff]
    simp only [List.forall_mem_cons, List.not_mem_nil, false_implies, implies_true, and_true,
      carries_string, carries_strings, carries_presence_iff, true_and]
    rfl
  rw [JwtClaims.toValue, carries_object_iff]
  simp only [List.forall_mem_cons, List.not_mem_nil, false_implies, implies_true, and_true,
    carries_string, carries_strings, carries_instant_iff, hhire, true_and, instants,
    SvidSigner.svidClaims]

end Payload

/-- What a started daemon served for a claim of `ssh.local` is read back from it: within its five
minutes and for each audience of its own, validation returns the SPIFFE ID of the SVID, and the
claims carry the payload exactly when each of its four instants is a double, which they are up to
`2 ^ 53` seconds. Assumes: the documented behaviour of the token library, and that the SVID was
served for such a claim. -/
theorem served_reads_exactly (C : Crypto) (hL : L.Documented) (M : Machine W) (features : Features)
    (signer : SvidSigner L) (w₀ : W) (service : WorkloadApiService L W)
    (hstart : (start C M features signer w₀).1 = .ok service) (peer : Option ConsumerIdentity)
    (req : JwtsvidRequest) (readings : Readings) (w : W) {claim : Claim} {svid : Jwtsvid L}
    (hserved : (claim, svid) ∈ (service.fetchJwtsvid C peer req readings w).served)
    (hlocal : claim.spiffeId.trustDomain = .sshLocal) :
    ∃ iat header payload, L.insecureDecode svid.svid = some (header, payload) ∧
      (payload.get (str "exp")).bind Json.asU64 = some (iat + 300) ∧
      ∀ audience ∈ payloadAudiences payload, audience ≠ [] → ∀ now ≤ iat + 300, ∃ fields,
        service.validateJwtsvid ⟨svid.svid, audience⟩ now = .ok ⟨svid.spiffeId, some fields⟩ ∧
        (Carries payload (.structValue fields) ↔ ∀ t ∈ instants claim iat, IsExact t) ∧
        (iat + 300 ≤ 2 ^ 53 → publishedAt claim + 300 ≤ 2 ^ 53 →
          Carries payload (.structValue fields)) := by
  obtain ⟨attestors, -, rfl⟩ := start_eq_ok hstart
  obtain ⟨admitted, challenge, claims, j, -, -, -, -, hissue⟩ :=
    WorkloadApiService.issued_of_mem_served hserved
  obtain ⟨-, hsign, huri, -⟩ := issue_eq_ok_iff.mp hissue
  have hback := pseudonymousId_readsBack C signer admitted.consumer (.inl hlocal)
  obtain ⟨sinceEpoch, hclock, hencode⟩ := (SvidSigner.signJwtSvid_eq_ok_iff C).mp hsign
  have hget : (wire C signer attestors).bundles.get
      (signer.pseudonymousId C claim.spiffeId admitted.consumer).trustDomain =
      (some signer).map (TrustBundle.local C
        (signer.pseudonymousId C claim.spiffeId admitted.consumer).trustDomain) := by
    rw [show (signer.pseudonymousId C claim.spiffeId admitted.consumer).trustDomain = .sshLocal
      from hlocal]
    exact get_wire C signer attestors
  refine ⟨sinceEpoch.asSecs, _, _, hL.insecureDecode_encode _ _ _ _ hencode,
    by rw [JwtClaims.get_exp]; rfl, fun audience haudience hnonempty now hnow ↦ ?_⟩
  rw [JwtClaims.payloadAudiences_toValue] at haudience
  have hvalidate := WorkloadApiService.validateJwtsvid_signed hL (wire C signer attestors) hback
    hsign now hnonempty hget fun s' hs' _ ↦ (Option.some.inj hs').symm
  rw [hclock, if_pos ⟨rfl, haudience, hnow⟩] at hvalidate
  have hcarries := carries_payload_iff L.formatFinite claim readings.now sinceEpoch.asSecs
    (signer.pseudonymousId C claim.spiffeId admitted.consumer).uri (admitted.exts.map (·.audience))
  rw [huri]
  exact ⟨_, hvalidate, hcarries,
    fun hsigned hobserved ↦ hcarries.mpr (isExact_instants hsigned hobserved)⟩

/-- The SVID of an account is read back from the daemon that served it. -/
theorem served_reads_exactly_account :
    let service := aliceService false
    ∃ claim svid iat header payload,
      (claim, svid) ∈ (service.fetchJwtsvid .transparent (some WorkloadApiService.someBinary)
        everyIdentity (WorkloadApiService.readingsAt (WorkloadApiService.second 101)) ()).served ∧
      TokenLib.transparent.insecureDecode svid.svid = some (header, payload) ∧
      (payload.get (str "exp")).bind Json.asU64 = some (iat + 300) ∧
      ∀ audience ∈ payloadAudiences payload, audience ≠ [] → ∀ now ≤ iat + 300, ∃ fields,
        service.validateJwtsvid ⟨svid.svid, audience⟩ now = .ok ⟨svid.spiffeId, some fields⟩ ∧
        (Carries payload (.structValue fields) ↔ ∀ t ∈ instants claim iat, IsExact t) ∧
        (iat + 300 ≤ 2 ^ 53 → publishedAt claim + 300 ≤ 2 ^ 53 →
          Carries payload (.structValue fields)) := by
  intro service
  have hany : ((service.fetchJwtsvid .transparent (some WorkloadApiService.someBinary) everyIdentity
      (WorkloadApiService.readingsAt (WorkloadApiService.second 101)) ()).served.any
      fun served ↦ decide (served.1.spiffeId.trustDomain = .sshLocal)) = true := by
    with_unfolding_all decide
  obtain ⟨⟨claim, svid⟩, hserved, hlocal⟩ := List.any_eq_true.mp hany
  obtain ⟨iat, header, payload, hread⟩ := served_reads_exactly .transparent
    TokenLib.transparent_documented (aliceMachine false) ⟨false, false⟩ aliceSigner () service
    (start_alice false) (some WorkloadApiService.someBinary) everyIdentity
    (WorkloadApiService.readingsAt (WorkloadApiService.second 101)) () hserved
    (of_decide_eq_true hlocal)
  exact ⟨claim, svid, iat, header, payload, hserved, hread⟩

end Hire.Hired
