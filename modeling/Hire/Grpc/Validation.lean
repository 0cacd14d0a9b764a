import Hire.Grpc.Protobuf
import Hire.Grpc.Service

/-!
# Validation against the published bundles

`validate_jwtsvid`, `fetch_jwt_bundles` and `bundle_key` of `hire-grpc/src/service.rs`. A token is
read once without verification, to choose the published key it has to satisfy, and then verified
under that key; the trust domain of the verified payload has to be the one the key was chosen for.

`validateJwtsvid_signed` follows a token some signer signed through these steps: what decides is
the bundle last published for its trust domain. If that bundle was made with the same signer the
token is checked for its expiry and its audience, and otherwise its key ID names no published key.
`validation_follows_bundle` states the result over any history of upserts.
-/

set_option autoImplicit false
set_option relaxedAutoImplicit false

namespace Hire.Grpc

open Hire.Library Hire.Core Hire.Attestors

variable {L : TokenLib} {W : Type}

/-- A request to validate a token for an audience. -/
structure ValidateJwtsvidRequest (L : TokenLib) where
  svid : L.Token
  audience : Str

/-- A validated token: its SPIFFE ID and its payload as a struct. -/
structure ValidateJwtsvidResponse where
  spiffeId : Str
  claims : Option (List (Str × ProtoValue))

/-- The SPIFFE ID a payload names. -/
def spiffeIdOf (payload : Json) : Option SpiffeId :=
  match (payload.get (str "spiffe_id")).bind Json.asStr with
  | none => none
  | some raw =>
    match SpiffeId.fromStr raw with
    | .error _ => none
    | .ok spiffeId => some spiffeId

/-- The one rejection of a token. -/
def reject : Status := ⟨.invalidArgument, str "JWT validation failed"⟩

/-- The bundle map key of a trust domain. -/
def bundleKey (trustDomain : TrustDomain) : Str := str "spiffe://" ++ trustDomain.display

namespace WorkloadApiService

/-- Validate a token at a second of the Unix clock. -/
def validateJwtsvid (service : WorkloadApiService L W) (req : ValidateJwtsvidRequest L) (now : ℕ) :
    Except Status ValidateJwtsvidResponse :=
  if L.isEmpty req.svid then .error ⟨.invalidArgument, str "svid must not be empty"⟩
  else if req.audience = [] then .error ⟨.invalidArgument, str "audience must not be empty"⟩
  else
    match L.insecureDecode req.svid with
    | none => .error reject
    | some (header, unverified) =>
      match header.kid with
      | none => .error reject
      | some kid =>
        match spiffeIdOf unverified with
        | none => .error reject
        | some claimed =>
          match service.bundles.get claimed.trustDomain with
          | none => .error reject
          | some bundle =>
            match bundle.jwtDecodingKey L kid with
            | none => .error reject
            | some key =>
              match L.decode req.svid key ⟨.es256, [req.audience], 0⟩ now with
              | none => .error reject
              | some payload =>
                match spiffeIdOf payload with
                | none => .error reject
                | some spiffeId =>
                  if spiffeId.trustDomain ≠ claimed.trustDomain then .error reject
                  else .ok ⟨spiffeId.uri, claimsStruct L.formatFinite payload⟩

/-- The published bundles, keyed by the SPIFFE ID of their trust domain. Later entries replace
earlier ones of the same key. The branch for a JWK set that cannot be serialised is left out: every
JSON value can be. -/
def fetchJwtBundles (service : WorkloadApiService L W) : AList fun _ : Str ↦ Json :=
  service.bundles.snapshot.foldl
    (fun bundles bundle ↦ bundles.insert (bundleKey bundle.trustDomain) bundle.jwtAuthorities) ∅

end WorkloadApiService

/-- The payload a token was signed with names the SPIFFE ID it was signed for. -/
theorem spiffeIdOf_toValue {claims : JwtClaims} {id : SpiffeId} (huri : claims.spiffeId = id.uri)
    (hid : SpiffeId.fromStr id.uri = .ok id) : spiffeIdOf claims.toValue = some id := by
  unfold spiffeIdOf
  rw [claims.get_spiffeId]
  simp [Json.asStr, huri, hid]

namespace WorkloadApiService

/-- The last upsert of a history of local bundles for a trust domain, as the store returns it. -/
theorem get_of_history (C : Crypto) (history : List (TrustDomain × SvidSigner L))
    (trustDomain : TrustDomain) :
    (TrustBundleStore.new.upsertAll
        (history.map fun entry ↦ TrustBundle.local C entry.1 entry.2)).get trustDomain =
      (history.reverse.find? fun entry ↦ decide (entry.1 = trustDomain)).map
        fun entry ↦ TrustBundle.local C entry.1 entry.2 := by
  rw [TrustBundleStore.get_upsertAll, ← List.map_reverse, List.find?_map]
  rfl

/-- A signed token is validated by the bundle of its trust domain: it is accepted exactly when the
bundle is there, was made with a signer of the same key ID, and the token is neither expired nor
meant for another audience. Assumes: the documented behaviour of the token library, that bundles of
the same key ID were made with the signer, that the SPIFFE ID reads back, and that the audience is
not empty. -/
theorem validateJwtsvid_signed {C : Crypto} (hL : L.Documented) (service : WorkloadApiService L W)
    {s : SvidSigner L} {id : SpiffeId} (hid : SpiffeId.fromStr id.uri = .ok id)
    {audiences : List Str} {hireExt : Json} {signedAt : SystemTime} {token : L.Token}
    (htoken : s.signJwtSvid C signedAt id.uri audiences hireExt = .ok token) (now : ℕ)
    {audience : Str} (haudience : audience ≠ []) {published : Option (SvidSigner L)}
    (hget : service.bundles.get id.trustDomain =
      published.map (TrustBundle.local C id.trustDomain))
    (hkid : ∀ s', published = some s' → s'.kid C = s.kid C → s' = s) :
    service.validateJwtsvid ⟨token, audience⟩ now =
      if published.map (SvidSigner.kid C) = some (s.kid C) ∧ audience ∈ audiences ∧
          now ≤ ((durationSince signedAt unixEpoch).getD 0).asSecs + 300 then
        .ok ⟨id.uri, claimsStruct L.formatFinite (SvidSigner.svidClaims
          ((durationSince signedAt unixEpoch).getD 0).asSecs id.uri audiences hireExt).toValue⟩
      else .error reject := by
  obtain ⟨sinceEpoch, hclock, hencode⟩ := (SvidSigner.signJwtSvid_eq_ok_iff C).mp htoken
  rw [hclock, Option.getD_some]
  have hunverified := hL.insecureDecode_encode _ _ _ _ hencode
  have hclaimed : spiffeIdOf
      (SvidSigner.svidClaims sinceEpoch.asSecs id.uri audiences hireExt).toValue = some id :=
    spiffeIdOf_toValue rfl hid
  unfold validateJwtsvid
  simp only [hL.isEmpty_encode _ _ _ _ hencode, Bool.false_eq_true, if_false, if_neg haudience,
    hunverified, SvidSigner.svidHeader, hclaimed, hget]
  cases published with
  | none => simp
  | some s' =>
    simp only [Option.map_some, Option.some.injEq]
    rw [TrustBundle.jwtDecodingKey_local C hL]
    by_cases hsame : s'.kid C = s.kid C
    · obtain rfl := hkid s' rfl hsame
      obtain ⟨key, hkey⟩ := hL.fromJwk_pointJwk (s'.kid C) s'.signingKey
      rw [if_pos rfl, s'.publicKeySec1_eq, hkey]
      rw [s'.encodingKey_eq] at hencode
      have hdecode := hL.decode_encode _ _ _ _ _ _ ⟨.es256, [audience], 0⟩ now hkey hencode rfl
      have haccepts := (SvidSigner.svidClaims sinceEpoch.asSecs id.uri audiences
        hireExt).accepts_iff audience now
      by_cases haccept : Validation.accepts ⟨.es256, [audience], 0⟩ now
          (SvidSigner.svidClaims sinceEpoch.asSecs id.uri audiences hireExt).toValue = true
      · obtain ⟨hexp, haud⟩ := haccepts.mp haccept
        rw [if_pos haccept] at hdecode
        simp only [hdecode, hclaimed]
        rw [if_neg (fun h ↦ h rfl), if_pos ⟨trivial, haud, hexp⟩]
      · rw [if_neg haccept] at hdecode
        simp only [hdecode]
        rw [if_neg]
        rintro ⟨-, haud, hexp⟩
        exact haccept (haccepts.mpr ⟨hexp, haud⟩)
    · have hne : ¬ s.kid C = s'.kid C := fun h ↦ hsame h.symm
      simp [hsame, hne]

/-- Validation follows the published bundle and nothing else. After any history of upserts of local
bundles, a token some signer signed is accepted for an audience exactly when the audience is among
the token's, the token is not expired, and the last upsert of the token's trust domain was made
with that signer; the reply then names the token's SPIFFE ID. The signer of the validating service
does not matter. Assumes: the documented behaviour of the token library, that no other signer of
the history shares the key ID of the token's signer, that the SPIFFE ID reads back from its URI,
that signing succeeded, and that the audience is not empty. -/
theorem validation_follows_bundle (C : Crypto) (hL : L.Documented)
    (history : List (TrustDomain × SvidSigner L)) (signer : SvidSigner L)
    (attestors : List (Attestor W)) (s : SvidSigner L)
    (hkid : ∀ entry ∈ history, entry.2.kid C = s.kid C → entry.2 = s) (id : SpiffeId)
    (hid : SpiffeId.fromStr id.uri = .ok id) (audiences : List Str) (hireExt : Json)
    (signedAt : SystemTime) (token : L.Token)
    (htoken : s.signJwtSvid C signedAt id.uri audiences hireExt = .ok token) (now : ℕ)
    (audience : Str) (haudience : audience ≠ []) :
    let service : WorkloadApiService L W := ⟨signer, TrustBundleStore.new.upsertAll
      (history.map fun entry ↦ TrustBundle.local C entry.1 entry.2), attestors⟩
    ((∃ response, service.validateJwtsvid ⟨token, audience⟩ now = .ok response) ↔
      audience ∈ audiences ∧ now ≤ ((durationSince signedAt unixEpoch).getD 0).asSecs + 300 ∧
        (history.reverse.find? fun entry ↦ decide (entry.1 = id.trustDomain)).map Prod.snd =
          some s) ∧
    (∀ response, service.validateJwtsvid ⟨token, audience⟩ now = .ok response →
      response.spiffeId = id.uri) ∧
    ∀ signer', ({ service with signer := signer' }).validateJwtsvid ⟨token, audience⟩ now =
      service.validateJwtsvid ⟨token, audience⟩ now := by
  intro service
  have hget : service.bundles.get id.trustDomain = ((history.reverse.find? fun entry ↦
      decide (entry.1 = id.trustDomain)).map Prod.snd).map
        (TrustBundle.local C id.trustDomain) := by
    rw [show service.bundles.get id.trustDomain = _ from get_of_history C history id.trustDomain,
      Option.map_map]
    refine Option.map_congr fun entry hentry ↦ ?_
    have hdomain : entry.1 = id.trustDomain := by simpa using List.find?_some hentry
    rw [Function.comp_apply, hdomain]
  have hlast : ∀ s', (history.reverse.find? fun entry ↦
      decide (entry.1 = id.trustDomain)).map Prod.snd = some s' → s'.kid C = s.kid C → s' = s := by
    intro s' hs' hsame
    obtain ⟨entry, hentry, rfl⟩ := Option.map_eq_some_iff.mp hs'
    exact hkid entry (List.mem_reverse.mp (List.mem_of_find?_eq_some hentry)) hsame
  have hvalidate := validateJwtsvid_signed hL service hid htoken now haudience hget hlast
  refine ⟨?_, ?_, fun _ ↦ rfl⟩
  · rw [hvalidate]
    constructor
    · rintro ⟨response, hresponse⟩
      split_ifs at hresponse with hcheck
      obtain ⟨hpublished, haud, hexpiry⟩ := hcheck
      obtain ⟨s', hs', hsame⟩ := Option.map_eq_some_iff.mp hpublished
      exact ⟨haud, hexpiry, (hlast s' hs' hsame) ▸ hs'⟩
    · rintro ⟨haud, hexpiry, hs⟩
      rw [if_pos ⟨by rw [hs]; rfl, haud, hexpiry⟩]
      exact ⟨_, rfl⟩
  · intro response hresponse
    rw [hvalidate] at hresponse
    split_ifs at hresponse
    exact (Except.ok.inj hresponse) ▸ rfl

/-- A key that was published and then replaced: the second signer's token is accepted by a service
that holds the first. -/
theorem validation_follows_bundle_rotation :
    let first : SvidSigner TokenLib.transparent :=
      .fromSigningKey (fill 65 200) (fill 32 0)
    let second : SvidSigner TokenLib.transparent :=
      .fromSigningKey (fill 65 4) (fill 32 1)
    let id : SpiffeId := ⟨.sshLocal, str "key/a"⟩
    let service : WorkloadApiService TokenLib.transparent Unit :=
      ⟨first, TrustBundleStore.new.upsertAll
        ([(.sshLocal, first), (.sshLocal, second)].map fun entry ↦
          TrustBundle.local .transparent entry.1 entry.2), []⟩
    ∃ token response,
      second.signJwtSvid .transparent 0 id.uri [str "rp"] .null = .ok token ∧
      service.validateJwtsvid ⟨token, str "rp"⟩ 300 = .ok response ∧
      response.spiffeId = id.uri := by
  intro first second id service
  obtain ⟨token, htoken⟩ : ∃ token,
      second.signJwtSvid .transparent 0 id.uri [str "rp"] .null = .ok token :=
    ⟨_, (SvidSigner.signJwtSvid_eq_ok_iff _).mpr ⟨_, rfl, rfl⟩⟩
  have hkid : ∀ entry ∈ [(TrustDomain.sshLocal, first), (TrustDomain.sshLocal, second)],
      entry.2.kid .transparent = second.kid .transparent → entry.2 = second := by
    intro entry hentry hsame
    simp only [List.mem_cons, List.not_mem_nil, or_false] at hentry
    rcases hentry with rfl | rfl
    · exact absurd hsame (by with_unfolding_all decide)
    · rfl
  have hresult := validation_follows_bundle .transparent TokenLib.transparent_documented
    [(.sshLocal, first), (.sshLocal, second)] first ([] : List (Attestor Unit)) second hkid id
    (by with_unfolding_all decide) [str "rp"] .null 0 token htoken 300 (str "rp")
    (by with_unfolding_all decide)
  obtain ⟨response, hresponse⟩ :=
    hresult.1.mpr ⟨List.mem_cons_self, by decide, rfl⟩
  exact ⟨token, response, htoken, hresponse, hresult.2.1 response hresponse⟩

end WorkloadApiService

end Hire.Grpc
