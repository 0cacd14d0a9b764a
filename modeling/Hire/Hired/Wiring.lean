import Hire.Attestors.Registry
import Hire.Grpc.Consent
import Hire.Grpc.Entitlement
import Hire.Grpc.Validation

/-!
# What the daemon issues, and what it can verify

`hired/src/main.rs` seeds one trust bundle, for `ssh.local`, registers the sources it finds, and
serves. The trust domain of an SVID is decided by the source that proved its claim, so an SVID
verifies under the published bundles exactly when its claim is of `ssh.local` (`verifies_iff`).

Every source but one is confined to that domain. `mem_gather` follows the claims of a request back
to the sources: each is of `ssh.local`, or is the claim tailscaled vouched for
(`tailscaleClaim`). `issued_verifies_iff` is the result over whole requests: everything a request is
served verifies exactly when no claim of tailscaled is due an SVID in it, and
`issued_not_verified` is a request where one is.
-/

set_option autoImplicit false
set_option relaxedAutoImplicit false

namespace Hire.Hired

open Hire.Library Hire.Core Hire.Attestors Hire.Grpc

variable {L : TokenLib} {W : Type}

/-! ### The wiring -/

/-- The service of a signer and its sources, with the one bundle the daemon seeds. -/
def wire (C : Crypto) (signer : SvidSigner L) (attestors : List (Attestor W)) :
    WorkloadApiService L W where
  signer := signer
  bundles := TrustBundleStore.new.upsert (TrustBundle.local C .sshLocal signer)
  attestors := attestors

/-- Start the daemon: probe the sources and wire the service. -/
def start (C : Crypto) (M : Machine W) (features : Features) (signer : SvidSigner L) :
    Action AttestorError W (WorkloadApiService L W) := do
  let attestors ← probeSources C M features
  pure (wire C signer attestors)

/-- What was started is wired with sources that were probed. -/
theorem start_eq_ok {C : Crypto} {M : Machine W} {features : Features} {signer : SvidSigner L}
    {w : W} {service : WorkloadApiService L W}
    (h : (start C M features signer w).1 = .ok service) :
    ∃ attestors, (probeSources C M features w).1 = .ok attestors ∧
      service = wire C signer attestors := by
  obtain ⟨attestors, w', hprobe, hwire⟩ := Action.bind_eq_ok h
  exact ⟨attestors, by rw [hprobe], (Except.ok.inj hwire).symm⟩

/-- The daemon publishes a bundle for `ssh.local` and for no other trust domain. -/
theorem isSome_fetchJwtBundles (C : Crypto) (signer : SvidSigner L) (attestors : List (Attestor W))
    (trustDomain : TrustDomain) :
    ((wire C signer attestors).fetchJwtBundles.lookup (bundleKey trustDomain)).isSome = true ↔
      trustDomain = .sshLocal := by
  have hbundles : (wire C signer attestors).fetchJwtBundles =
      (∅ : AList fun _ : Str ↦ Json).insert (bundleKey .sshLocal) (signer.jwks C) := rfl
  rw [hbundles]
  by_cases hkey : trustDomain = .sshLocal
  · subst hkey
    rw [AList.lookup_insert]
    simp
  · have hne : bundleKey trustDomain ≠ bundleKey .sshLocal := fun h ↦
      hkey (TrustDomain.display_injective (List.append_cancel_left h))
    rw [AList.lookup_insert_ne hne]
    simp [hkey]

/-- The bundle the daemon holds for a trust domain. -/
theorem get_wire (C : Crypto) (signer : SvidSigner L) (attestors : List (Attestor W)) :
    (wire C signer attestors).bundles.get .sshLocal =
      some (TrustBundle.local C .sshLocal signer) :=
  AList.lookup_insert _

/-! ### SVIDs that verify -/

/-- An SVID verifies under the bundles of a service: there is a bundle for the trust domain of its
SPIFFE ID, and for every audience it names that is not empty, validation before its expiry accepts
it and returns the same SPIFFE ID. -/
def Verifies (service : WorkloadApiService L W) (svid : Jwtsvid L) : Prop :=
  ∃ id header payload expiry, SpiffeId.fromStr svid.spiffeId = .ok id ∧
    L.insecureDecode svid.svid = some (header, payload) ∧
    (payload.get (str "exp")).bind Json.asU64 = some expiry ∧
    (service.fetchJwtBundles.lookup (bundleKey id.trustDomain)).isSome = true ∧
    ∀ audience ∈ payloadAudiences payload, audience ≠ [] → ∀ now < expiry,
      ∃ response, service.validateJwtsvid ⟨svid.svid, audience⟩ now = .ok response ∧
        response.spiffeId = svid.spiffeId

/-- The pseudonymous ID of a root of `ssh.local` or `tailscale` is read back from its URI. -/
theorem pseudonymousId_readsBack (C : Crypto) (signer : SvidSigner L) {root : SpiffeId}
    (consumer : ConsumerIdentity)
    (hdomain : root.trustDomain = .sshLocal ∨ root.trustDomain = .tailscale) :
    SpiffeId.fromStr (signer.pseudonymousId C root consumer).uri =
      .ok (signer.pseudonymousId C root consumer) := by
  obtain ⟨htd, digits, hpath, -, -⟩ :=
    derivePseudonymousId_shape C signer.pseudonymIkm root consumer
  refine SpiffeId.fromStr_eq_ok_iff.mpr ⟨rfl, ?_, ?_⟩
  · rw [SvidSigner.pseudonymousId, htd]
    rcases hdomain with hdomain | hdomain
    · rw [hdomain]
      with_unfolding_all decide
    · rw [hdomain]
      with_unfolding_all decide
  · rw [SvidSigner.pseudonymousId, hpath]
    simp

/-- An SVID the daemon issued for a claim of one of its sources verifies exactly when the claim is
of `ssh.local`. Assumes: the documented behaviour of the token library, that the SVID was issued,
and that the claim is of `ssh.local` or `tailscale`. -/
theorem verifies_iff {C : Crypto} (hL : L.Documented) {signer : SvidSigner L}
    {attestors : List (Attestor W)} {admitted : Admitted} {readings : Readings} {i : ℕ}
    {claim : Claim} {svid : Jwtsvid L}
    (hissue : (wire C signer attestors).tryIssue C admitted readings i claim = .ok svid)
    (hdomain : claim.spiffeId.trustDomain = .sshLocal ∨ claim.spiffeId.trustDomain = .tailscale) :
    Verifies (wire C signer attestors) svid ↔ claim.spiffeId.trustDomain = .sshLocal := by
  obtain ⟨-, hsign, huri, -⟩ := issue_eq_ok_iff.mp hissue
  have hback := pseudonymousId_readsBack C signer admitted.consumer hdomain
  constructor
  · rintro ⟨id, -, -, -, hid, -, -, hbundle, -⟩
    rw [huri] at hid
    obtain rfl := Except.ok.inj (hback.symm.trans hid)
    exact (isSome_fetchJwtBundles C signer attestors _).mp hbundle
  · intro hlocal
    obtain ⟨sinceEpoch, hclock, hencode⟩ := (SvidSigner.signJwtSvid_eq_ok_iff C).mp hsign
    have hget : (wire C signer attestors).bundles.get
        (signer.pseudonymousId C claim.spiffeId admitted.consumer).trustDomain =
        (some signer).map (TrustBundle.local C
          (signer.pseudonymousId C claim.spiffeId admitted.consumer).trustDomain) := by
      rw [show (signer.pseudonymousId C claim.spiffeId admitted.consumer).trustDomain = .sshLocal
        from hlocal]
      exact get_wire C signer attestors
    refine ⟨_, _, _, _, huri ▸ hback, hL.insecureDecode_encode _ _ _ _ hencode,
      by rw [JwtClaims.get_exp]; rfl, ?_, ?_⟩
    · exact (isSome_fetchJwtBundles C signer attestors _).mpr hlocal
    · intro audience haudience hnonempty now hnow
      rw [JwtClaims.payloadAudiences_toValue] at haudience
      have hvalidate := WorkloadApiService.validateJwtsvid_signed hL (wire C signer attestors) hback
        hsign now hnonempty hget fun s' hs' _ ↦ (Option.some.inj hs').symm
      rw [hclock, if_pos ⟨rfl, haudience, Nat.le_of_lt hnow⟩] at hvalidate
      exact ⟨_, hvalidate, huri.symm⟩

/-! ### Where the claims of a request come from -/

/-- A proof is worth a claim when evidence came back and a claim was derived from it. -/
theorem silentClaim_eq_some_iff {candidate : Candidate} {challenge : Bytes}
    {answer : Except AttestorError (List Evidence)} {claim : Claim} :
    silentClaim candidate challenge answer = some claim ↔
      ∃ evidence, answer = .ok evidence ∧
        Claim.derive candidate challenge evidence = some claim := by
  cases answer <;> simp [silentClaim]

/-- A confined source proves claims of its own trust domain. -/
theorem trustDomain_of_silentClaim {trustDomain : TrustDomain} {attestor : Attestor W}
    (hconfined : attestor.Confined trustDomain) {candidate : Candidate}
    (hcandidate : candidate.domain.toTrustDomain = trustDomain) {challenge : Bytes} {w : W}
    {claim : Claim}
    (hclaim : silentClaim candidate challenge (attestor.prove candidate challenge w).1 =
      some claim) : claim.spiffeId.trustDomain = trustDomain := by
  obtain ⟨evidence, hanswer, hderive⟩ := silentClaim_eq_some_iff.mp hclaim
  rw [← hcandidate]
  exact Claim.trustDomain_of_derive hderive (hconfined.prove candidate challenge w evidence hanswer)

/-- Sources that are confined to a trust domain show candidates of that domain only. -/
theorem confined_enumerateAll {trustDomain : TrustDomain} {attestors : List (Attestor W)}
    (hconfined : ∀ attestor ∈ attestors, attestor.Confined trustDomain) (w : W) :
    ∀ pair ∈ (enumerateAll attestors w).value,
      pair.1.Confined trustDomain ∧ pair.2.domain.toTrustDomain = trustDomain := by
  induction attestors generalizing w with
  | nil =>
    intro pair hpair
    cases hpair
  | cons attestor rest ih =>
    intro pair hpair
    have hattestor := hconfined attestor List.mem_cons_self
    rcases List.mem_append.mp hpair with hfirst | hrest
    · cases hanswer : (attestor.enumerate w).1 with
      | error e =>
        rw [hanswer] at hfirst
        cases hfirst
      | ok candidates =>
        rw [hanswer] at hfirst
        obtain ⟨candidate, hcandidate, rfl⟩ := List.mem_map.mp hfirst
        exact ⟨hattestor, hattestor.enumerate w candidates hanswer candidate hcandidate⟩
    · exact ih (fun other hother ↦ hconfined other (List.mem_cons_of_mem attestor hother)) _ pair
        hrest

/-- Proving the silent candidates of confined sources yields claims of their trust domain. -/
theorem trustDomain_of_proveSilent {trustDomain : TrustDomain} {challenge : Bytes}
    {found : List (Attestor W × Candidate)}
    (hfound : ∀ pair ∈ found,
      pair.1.Confined trustDomain ∧ pair.2.domain.toTrustDomain = trustDomain) (w : W) :
    ∀ claim ∈ (proveSilent challenge found w).value,
      claim.spiffeId.trustDomain = trustDomain := by
  induction found generalizing w with
  | nil =>
    intro claim hclaim
    cases hclaim
  | cons pair rest ih =>
    obtain ⟨attestor, candidate⟩ := pair
    obtain ⟨hattestor, hcandidate⟩ := hfound (attestor, candidate) List.mem_cons_self
    have hrest := ih fun other hother ↦ hfound other (List.mem_cons_of_mem _ hother)
    intro claim hclaim
    unfold proveSilent at hclaim
    split_ifs at hclaim with hcost
    · exact hrest w claim hclaim
    · rcases List.mem_append.mp hclaim with hfirst | hlater
      · exact trustDomain_of_silentClaim hattestor hcandidate (Option.mem_toList.mp hfirst)
      · exact hrest _ claim hlater

/-- The claim tailscaled vouches for in a request: if the source was registered, it is asked once in
the world of the enumeration and once in the world where the proofs begin. -/
def tailscaleClaim (M : Machine W) (registered : Bool) (challenge : Bytes) (w w' : W) :
    Option Claim :=
  match registered, ((Tailscale.attestor M).enumerate w).1 with
  | true, .ok [candidate] =>
    silentClaim candidate challenge ((Tailscale.attestor M).prove candidate challenge w').1
  | _, _ => none

/-- What tailscaled vouches for is of the trust domain `tailscale`. -/
theorem trustDomain_of_tailscaleClaim {M : Machine W} {registered : Bool} {challenge : Bytes}
    {w w' : W} {claim : Claim} (h : tailscaleClaim M registered challenge w w' = some claim) :
    claim.spiffeId.trustDomain = .tailscale := by
  unfold tailscaleClaim at h
  split at h
  · rename_i candidate hanswer
    have hconfined := Tailscale.attestor_confined M
    exact trustDomain_of_silentClaim hconfined
      (hconfined.enumerate w _ hanswer candidate List.mem_cons_self) h
  · cases h

/-- A registry: the Tailscale source, if it was registered, and the other sources. -/
abbrev registry (M : Machine W) (registered : Bool) (others : List (Attestor W)) :
    List (Attestor W) :=
  probed registered (Tailscale.attestor M) ++ others

/-- The candidates of a registry: the one of tailscaled, which comes first and is silent, and
candidates of sources confined to `ssh.local`. -/
theorem enumerateAll_registry (M : Machine W) (registered : Bool) {others : List (Attestor W)}
    (hothers : ∀ attestor ∈ others, attestor.Confined .sshLocal) (w : W) :
    ∃ rest, (∀ pair ∈ rest, pair.1.Confined .sshLocal ∧
        pair.2.domain.toTrustDomain = .sshLocal) ∧
      (((enumerateAll (registry M registered others) w).value = rest ∧
          ∀ challenge w', tailscaleClaim M registered challenge w w' = none) ∨
        ∃ identity, (enumerateAll (registry M registered others) w).value =
            (Tailscale.attestor M, Tailscale.candidateOf identity) :: rest ∧
          ∀ challenge w', tailscaleClaim M registered challenge w w' =
            silentClaim (Tailscale.candidateOf identity) challenge
              ((Tailscale.attestor M).prove (Tailscale.candidateOf identity) challenge w').1) := by
  cases registered with
  | false =>
    exact ⟨_, confined_enumerateAll hothers w, Or.inl ⟨rfl, fun _ _ ↦ rfl⟩⟩
  | true =>
    refine ⟨_, confined_enumerateAll hothers ((Tailscale.attestor M).enumerate w).2, ?_⟩
    have hfirst : (enumerateAll (registry M true others) w).value =
        candidatesOf (Tailscale.attestor M) ((Tailscale.attestor M).enumerate w).1 ++
          (enumerateAll others ((Tailscale.attestor M).enumerate w).2).value := rfl
    rw [hfirst]
    cases hanswer : ((Tailscale.attestor M).enumerate w).1 with
    | error e =>
      exact Or.inl ⟨rfl, fun challenge w' ↦ by simp [tailscaleClaim, hanswer]⟩
    | ok candidates =>
      rcases Tailscale.attestor_enumerate M w candidates hanswer with rfl | ⟨identity, rfl⟩
      · exact Or.inl ⟨rfl, fun challenge w' ↦ by simp [tailscaleClaim, hanswer]⟩
      · exact Or.inr ⟨identity, rfl, fun challenge w' ↦ by simp [tailscaleClaim, hanswer]⟩

/-- The loop over the silent candidates starts with the candidate of tailscaled. -/
theorem proveSilent_tailscale (M : Machine W) (identity : Str × Str) (challenge : Bytes)
    (rest : List (Attestor W × Candidate)) (w : W) :
    (proveSilent challenge ((Tailscale.attestor M, Tailscale.candidateOf identity) :: rest)
        w).value =
      (silentClaim (Tailscale.candidateOf identity) challenge
          ((Tailscale.attestor M).prove (Tailscale.candidateOf identity) challenge w).1).toList ++
        (proveSilent challenge rest
          ((Tailscale.attestor M).prove (Tailscale.candidateOf identity) challenge w).2).value := by
  rw [proveSilent, if_neg (fun hcost ↦ hcost rfl)]

/-- A named claim is the claim of its proof, and is for the identity that was named. -/
theorem silentClaim_of_namedClaim {want : SpiffeId} {candidate : Candidate} {challenge : Bytes}
    {answer : Except AttestorError (List Evidence)} {claims : List Claim} {claim : Claim}
    (h : namedClaim want candidate challenge answer = .ok claims) (hclaim : claim ∈ claims) :
    silentClaim candidate challenge answer = some claim ∧ claim.spiffeId = want := by
  obtain ⟨evidence, proven, rfl, hderive, hid, rfl⟩ := namedClaim_eq_ok_iff.mp h
  obtain rfl := List.mem_singleton.mp hclaim
  exact ⟨hderive, hid⟩

/-- Every claim of a request is the one tailscaled vouched for, under the name that was asked for
if there is one, or is of `ssh.local`. -/
theorem mem_gather {M : Machine W} {registered : Bool} {others : List (Attestor W)}
    (hothers : ∀ attestor ∈ others, attestor.Confined .sshLocal) {challenge : Bytes}
    {requested : Option SpiffeId} {w : W} {claims : List Claim}
    (hclaims : (gather challenge requested (registry M registered others) w).value = .ok claims)
    {claim : Claim} (hclaim : claim ∈ claims) :
    tailscaleClaim M registered challenge w (enumerateAll (registry M registered others) w).world =
        some claim ∧ (∀ want, requested = some want → claim.spiffeId = want) ∨
      claim.spiffeId.trustDomain = .sshLocal := by
  obtain ⟨rest, hrest, hfound⟩ := enumerateAll_registry M registered hothers w
  cases requested with
  | none =>
    obtain rfl := Except.ok.inj hclaims
    have hproven := mem_of_mem_bestPerKey hclaim
    rcases hfound with ⟨hfound, -⟩ | ⟨identity, hfound, hvouched⟩
    · rw [hfound] at hproven
      exact Or.inr (trustDomain_of_proveSilent hrest _ claim hproven)
    · rw [hfound, proveSilent_tailscale] at hproven
      rcases List.mem_append.mp hproven with hfirst | hlater
      · refine Or.inl ⟨?_, fun want hwant ↦ by cases hwant⟩
        rw [hvouched]
        exact Option.mem_toList.mp hfirst
      · exact Or.inr (trustDomain_of_proveSilent hrest _ claim hlater)
  | some want =>
    change (proveNamed challenge want _ _).value = .ok claims at hclaims
    rcases proveNamed_cases challenge want (enumerateAll (registry M registered others) w).value
        (enumerateAll (registry M registered others) w).world with
      ⟨-, hproof⟩ | ⟨attestor, candidate, answer, w', hpair, -, hanswer, hproof⟩
    · rw [hproof] at hclaims
      cases hclaims
    · rw [hproof] at hclaims
      obtain ⟨hsilent, hid⟩ := silentClaim_of_namedClaim hclaims hclaim
      have hproved : silentClaim candidate challenge (attestor.prove candidate challenge
          (enumerateAll (registry M registered others) w).world).1 =
          some claim := by rw [hanswer]; exact hsilent
      have hlocal : (attestor, candidate) ∈ rest → claim.spiffeId.trustDomain = .sshLocal :=
        fun hmem ↦ trustDomain_of_silentClaim (hrest _ hmem).1 (hrest _ hmem).2 hproved
      rcases hfound with ⟨hfound, -⟩ | ⟨identity, hfound, hvouched⟩
      · rw [hfound] at hpair
        exact Or.inr (hlocal hpair)
      · rw [hfound] at hpair
        rcases List.mem_cons.mp hpair with hfirst | hlater
        · obtain ⟨rfl, rfl⟩ := Prod.mk.inj hfirst
          refine Or.inl ⟨by rw [hvouched]; exact hproved, fun want' hwant ↦ ?_⟩
          exact hid.trans (Option.some.inj hwant)
        · exact Or.inr (hlocal hlater)

/-- What tailscaled vouches for is among the claims of a request that names it or names nothing. -/
theorem tailscaleClaim_mem_gather {M : Machine W} {registered : Bool} {others : List (Attestor W)}
    (hothers : ∀ attestor ∈ others, attestor.Confined .sshLocal) {challenge : Bytes}
    {requested : Option SpiffeId} {w : W} {claim : Claim}
    (hvouch : tailscaleClaim M registered challenge w
      (enumerateAll (registry M registered others) w).world = some claim)
    (hname : ∀ want, requested = some want → claim.spiffeId = want) :
    ∃ claims, (gather challenge requested (registry M registered others) w).value = .ok claims ∧
      claim ∈ claims := by
  have htailscale := trustDomain_of_tailscaleClaim hvouch
  obtain ⟨rest, hrest, hfound⟩ := enumerateAll_registry M registered hothers w
  rcases hfound with ⟨-, hnone⟩ | ⟨identity, hfound, hvouched⟩
  · rw [hnone] at hvouch
    cases hvouch
  · rw [hvouched] at hvouch
    cases requested with
    | none =>
      refine ⟨_, rfl, (mem_bestPerKey_iff _ _).mpr ?_⟩
      rw [hfound, proveSilent_tailscale, hvouch, Option.toList_some, List.singleton_append,
        List.filter_cons_of_pos (by simp), List.filter_eq_nil_iff.mpr ?_, List.argmax_singleton]
      intro other hother huri
      have hlocal := trustDomain_of_proveSilent hrest _ other hother
      have hsame := SpiffeId.uri_inj_of_slash_free (by rw [hlocal]; with_unfolding_all decide)
        (by rw [htailscale]; with_unfolding_all decide) (of_decide_eq_true huri)
      rw [hsame, htailscale] at hlocal
      cases hlocal
    | some want =>
      obtain rfl := hname want rfl
      obtain ⟨evidence, hprove, hderive⟩ := silentClaim_eq_some_iff.mp hvouch
      have hpath := (Claim.derive_eq_some hderive).2.1
      refine ⟨[claim], ?_, List.mem_singleton_self claim⟩
      change (proveNamed challenge claim.spiffeId _ _).value = .ok [claim]
      unfold proveNamed
      rw [hfound, List.find?_cons_of_pos (by simp [hpath])]
      exact namedClaim_eq_ok_iff.mpr ⟨evidence, claim, hprove, hderive, rfl, rfl⟩

/-! ### Whole requests -/

/-- A claim of tailscaled is due an SVID in a request: the request is admitted, the source was
registered, tailscaled names an identity when it is asked and the same one when it is asked again,
the request names no other identity, and the claim passes its gates. -/
def TailscaleDue (M : Machine W) (registered : Bool) (service : WorkloadApiService L W)
    (peer : Option ConsumerIdentity) (req : JwtsvidRequest) (readings : Readings) (w : W) : Prop :=
  ∃ admitted challenge claim, acceptRequest peer req = .ok admitted ∧
    readings.challenge = some challenge ∧
    tailscaleClaim M registered challenge.1 w (enumerateAll service.attestors w).world =
      some claim ∧
    (∀ want, admitted.requested = some want → claim.spiffeId = want) ∧
    WorkloadApiService.gates admitted readings claim = true

/-- Everything in the reply to a request verifies under the published bundles. -/
def ReplyVerifies (C : Crypto) (service : WorkloadApiService L W) (peer : Option ConsumerIdentity)
    (req : JwtsvidRequest) (readings : Readings) (w : W) : Prop :=
  ∀ svids, (service.fetchJwtsvid C peer req readings w).reply = .ok svids →
    ∀ svid ∈ svids, Verifies service svid

/-- Where no claim of tailscaled is due an SVID, everything that is served verifies. -/
theorem replyVerifies_of_not_due {C : Crypto} (hL : L.Documented) {M : Machine W}
    {registered : Bool} {signer : SvidSigner L} {others : List (Attestor W)}
    (hothers : ∀ attestor ∈ others, attestor.Confined .sshLocal)
    {peer : Option ConsumerIdentity} {req : JwtsvidRequest} {readings : Readings} {w : W}
    (hdue : ¬ TailscaleDue M registered (wire C signer (registry M registered others)) peer req
      readings w) :
    ReplyVerifies C (wire C signer (registry M registered others)) peer req readings w := by
  intro svids hreply svid hsvid
  obtain ⟨rfl, -⟩ := WorkloadApiService.served_of_reply hreply
  obtain ⟨⟨claim, svid⟩, hpair, rfl⟩ := List.mem_map.mp hsvid
  obtain ⟨admitted, challenge, claims, j, hadmitted, hchallenge, hclaims, hmem, hissue⟩ :=
    WorkloadApiService.issued_of_mem_served hpair
  rcases mem_gather hothers hclaims hmem with ⟨hvouch, hname⟩ | hlocal
  · exact absurd ⟨admitted, challenge, claim, hadmitted, hchallenge, hvouch, hname,
      (issue_eq_ok_iff.mp hissue).1⟩ hdue
  · exact (verifies_iff hL hissue (Or.inl hlocal)).mpr hlocal

/-- Where a claim of tailscaled is due an SVID and signing succeeds, something that is served does
not verify. -/
theorem not_replyVerifies_of_due {C : Crypto} (hL : L.Documented) {M : Machine W}
    {registered : Bool} {signer : SvidSigner L} {others : List (Attestor W)}
    (hothers : ∀ attestor ∈ others, attestor.Confined .sshLocal)
    {peer : Option ConsumerIdentity} {req : JwtsvidRequest} {readings : Readings} {w : W}
    (hsign : (wire C signer (registry M registered others)).SigningSucceeds C readings)
    (hdue : TailscaleDue M registered (wire C signer (registry M registered others)) peer req
      readings w) :
    ¬ ReplyVerifies C (wire C signer (registry M registered others)) peer req readings w := by
  obtain ⟨admitted, challenge, claim, hadmitted, hchallenge, hvouch, hname, hgates⟩ := hdue
  intro hverifies
  obtain ⟨claims, hclaims, hmem⟩ := tailscaleClaim_mem_gather hothers hvouch hname
  obtain ⟨out, hout, hfilter⟩ := WorkloadApiService.serve_eq_filter hsign admitted claims
  have hserved : claim ∈ out.served.map Prod.fst := by
    rw [hfilter]
    exact List.mem_filter.mpr ⟨hmem, hgates⟩
  obtain ⟨⟨_, svid⟩, hpair, rfl⟩ := List.mem_map.mp hserved
  have hreply : (WorkloadApiService.fetchJwtsvid C (wire C signer (registry M registered others))
      peer req readings w).reply = .ok (out.served.map Prod.snd) := by
    rw [(WorkloadApiService.served_of_gather hadmitted hchallenge hclaims hout).2, Issued.reply,
      if_neg]
    intro hempty
    rw [List.isEmpty_iff.mp hempty] at hpair
    cases hpair
  obtain ⟨j, -, hissue⟩ := (mem_served_iff hout).mp hpair
  have htailscale := trustDomain_of_tailscaleClaim hvouch
  have hlocal := (verifies_iff hL hissue (Or.inr htailscale)).mp
    (hverifies _ hreply svid (List.mem_map_of_mem hpair))
  rw [htailscale] at hlocal
  cases hlocal

/-- What the daemon issues verifies under the bundles it publishes exactly when no claim of
tailscaled is due an SVID in the request. Assumes: the documented behaviour of the token library,
and that the daemon was started on some machine; that signing succeeds is used in one direction
only. -/
theorem issued_verifies_iff (C : Crypto) (hL : L.Documented) (M : Machine W) (features : Features)
    (signer : SvidSigner L) (w₀ : W) (service : WorkloadApiService L W)
    (hstart : (start C M features signer w₀).1 = .ok service) (peer : Option ConsumerIdentity)
    (req : JwtsvidRequest) (readings : Readings) (w : W) :
    (service.SigningSucceeds C readings → (ReplyVerifies C service peer req readings w ↔
      ¬ TailscaleDue M (M.pathExists Tailscale.socketPath w₀).1 service peer req readings w)) ∧
    (¬ TailscaleDue M (M.pathExists Tailscale.socketPath w₀).1 service peer req readings w →
      ReplyVerifies C service peer req readings w) := by
  obtain ⟨attestors, hprobe, rfl⟩ := start_eq_ok hstart
  obtain ⟨others, rfl, hothers⟩ := probeSources_eq_ok hprobe
  refine ⟨fun hsign ↦ ⟨fun hverifies hdue ↦ ?_, replyVerifies_of_not_due hL hothers⟩,
    replyVerifies_of_not_due hL hothers⟩
  exact not_replyVerifies_of_due hL hothers hsign hdue hverifies

/-! ### A machine with a tailscaled -/

/-- A status as tailscaled reports it. -/
def aliceStatus : Json :=
  .object [(str "Self", .object [(str "DNSName", .string (str "laptop.example.ts.net.")),
      (str "UserID", .number (.posInt 7))]),
    (str "User", .object [(str "7", .object [(str "DisplayName", .string (str "Alice")),
      (str "LoginName", .string (str "alice@example.com"))])])]

/-- The text of that status. -/
def aliceStatusText : Str :=
  str "\x7b\"Self\":\x7b\"DNSName\":\"laptop.example.ts.net.\",\"UserID\":7\x7d," ++
    str "\"User\":\x7b\"7\":\x7b\"DisplayName\":\"Alice\"," ++
    str "\"LoginName\":\"alice@example.com\"\x7d\x7d\x7d"

/-- A machine on which an account runs the daemon and nothing else is installed, apart from a
tailscaled if there is one. -/
def aliceMachine (tailscaled : Bool) : Machine Unit where
  whichGpg w := (none, w)
  run _ _ _ := Action.fail (.unavailable (str "gpg exec failed"))
  now w := (WorkloadApiService.second 100, w)
  unicode := ⟨List.map Char.toLower, List.map Char.toUpper, id⟩
  env _ w := (none, w)
  pathExists path w := (tailscaled && decide (path = Tailscale.socketPath), w)
  readToString _ w := (none, w)
  parseJson bytes := if bytes = utf8 aliceStatusText then .ok aliceStatus
    else .error (str "expected value at line 1 column 1")
  connect _ := if tailscaled then pure 3 else Action.fail (str "No such file or directory")
  writeAll _ _ := pure ()
  readExact _ _ := Action.fail (str "early eof")
  readToEnd _ := pure (utf8 (str "HTTP/1.1 200 OK\r\n\r\n" ++ aliceStatusText))
  output _ _ := Action.fail (str "No such file or directory")
  getuid w := (1000, w)
  usernameFor _ w := (.ok (some (str "alice")), w)
  fidokeyDevices w := ([], w)
  join := pure ()

/-- The signer of the daemon on that machine. -/
def aliceSigner : SvidSigner TokenLib.transparent :=
  .fromSigningKey (fill 65 4) (fill 32 7)

/-- The daemon on that machine. -/
def aliceService (tailscaled : Bool) : WorkloadApiService TokenLib.transparent Unit :=
  wire .transparent aliceSigner
    (probed tailscaled (Tailscale.attestor (aliceMachine tailscaled)) ++
      [Oidc.attestor (aliceMachine tailscaled),
        Unix.attestor (aliceMachine tailscaled) 1000 (str "alice")])

theorem start_alice (tailscaled : Bool) :
    (start .transparent (aliceMachine tailscaled) ⟨false, false⟩ aliceSigner ()).1 =
      .ok (aliceService tailscaled) := by
  cases tailscaled
  · rfl
  · with_unfolding_all rfl

/-- A request for every identity. -/
def everyIdentity : JwtsvidRequest := ⟨[str "https://rp.example"], []⟩

/-- Without a tailscaled the account is served an SVID, and it verifies. -/
theorem issued_verifies_iff_account :
    TokenLib.transparent.Documented ∧
      (start .transparent (aliceMachine false) ⟨false, false⟩ aliceSigner ()).1 =
        .ok (aliceService false) ∧
      ((aliceService false).fetchJwtsvid .transparent (some WorkloadApiService.someBinary)
        everyIdentity (WorkloadApiService.readingsAt (WorkloadApiService.second 101))
        ()).served.length = 1 ∧
      ReplyVerifies .transparent (aliceService false) (some WorkloadApiService.someBinary)
        everyIdentity (WorkloadApiService.readingsAt (WorkloadApiService.second 101)) () := by
  refine ⟨TokenLib.transparent_documented, start_alice false, by with_unfolding_all decide, ?_⟩
  refine (issued_verifies_iff .transparent TokenLib.transparent_documented (aliceMachine false)
    ⟨false, false⟩ aliceSigner () (aliceService false) (start_alice false) _ _ _ _).2 ?_
  rintro ⟨admitted, challenge, claim, -, -, hvouch, -, -⟩
  cases hvouch

/-- A claim of tailscaled is due an SVID on the machine that runs one. -/
theorem tailscaleDue_alice :
    TailscaleDue (aliceMachine true) true (aliceService true) (some WorkloadApiService.someBinary)
      everyIdentity (WorkloadApiService.readingsAt (WorkloadApiService.second 101)) () := by
  refine ⟨⟨WorkloadApiService.someBinary, [⟨str "https://rp.example", .none, none⟩], none⟩, _,
    ⟨str "tailscale", .iaa2, .none,
      ⟨.tailscale, str "user/alice@example.com/node/laptop.example.ts.net"⟩, str "Alice",
      WorkloadApiService.second 100⟩, acceptRequest_eq_ok_iff.mpr ?_, rfl, ?_,
    fun want hwant ↦ (by cases hwant), by decide⟩
  · exact ⟨rfl, by decide, .cons (by with_unfolding_all decide) .nil, Or.inl ⟨rfl, rfl⟩⟩
  · with_unfolding_all decide

/-- The daemon issues what it cannot verify: tailscaled answers, its identity is served an SVID, and
no bundle is published for the trust domain of the SVID. -/
theorem issued_not_verified :
    ¬ ∀ (L : TokenLib) (W : Type) (C : Crypto) (M : Machine W) (features : Features)
      (signer : SvidSigner L) (w₀ : W) (service : WorkloadApiService L W)
      (peer : Option ConsumerIdentity) (req : JwtsvidRequest) (readings : Readings) (w : W),
      L.Documented → (start C M features signer w₀).1 = .ok service →
      ReplyVerifies C service peer req readings w := by
  intro h
  have hothers : ∀ attestor ∈ [Oidc.attestor (aliceMachine true),
      Unix.attestor (aliceMachine true) 1000 (str "alice")], attestor.Confined .sshLocal := by
    intro attestor hattestor
    simp only [List.mem_cons, List.not_mem_nil, or_false] at hattestor
    rcases hattestor with rfl | rfl
    · exact Oidc.attestor_confined _
    · exact Unix.attestor_confined _ _ _
  have hsign := WorkloadApiService.transparent_signingSucceeds .transparent (aliceService true)
    (show 0 ≤ WorkloadApiService.second 101 by decide)
  exact not_replyVerifies_of_due TokenLib.transparent_documented hothers hsign tailscaleDue_alice
    (h TokenLib.transparent Unit .transparent (aliceMachine true) ⟨false, false⟩ aliceSigner ()
      (aliceService true) _ _ _ () TokenLib.transparent_documented (start_alice true))

end Hire.Hired
