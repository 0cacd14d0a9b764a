import Hire.Grpc.Consent
import Hire.Hired.Provenance

/-!
# Every source keeps to its own paths

A named request proves the first candidate that has the path it names. With arbitrary sources an
identity can be shadowed by another one of the same path. The sources that `probe_sources` registers
cannot do that to each other: the first segment of a path says which source showed it (`segmentOf`),
apart from `user/`, which tailscaled and the cached tokens share, and these tokens prove nothing.

A proof reads no more of its candidate than the path (`Spaced.prove`), so it makes no difference
which of several candidates of one source is proved. `named_decided_by_its_source` puts the two
together: a request that names an identity that a source shows is decided by the proof of that
source and by the gates, whatever the other sources show.
-/

set_option autoImplicit false
set_option relaxedAutoImplicit false

namespace Hire.Hired

open Hire.Library Hire.Core Hire.Attestors Hire.Grpc

variable {W : Type}

/-! ### Segments -/

/-- A path up to its first slash. -/
def firstSegment (path : Str) : Str := path.takeWhile (· ≠ '/')

/-- The first segment of the paths that a source shows. -/
def segmentOf (source : Str) : Str :=
  if source = str "tailscale" ∨ source = str "oidc-cached" then str "user"
  else if source = str "ssh-agent" then str "key"
  else if source = str "did:key" then str "did"
  else source

/-- The names of the sources, in the order they are registered. -/
def sourceNames : List Str :=
  [str "tailscale", str "ssh-agent", str "oidc-cached", str "did:key", str "gpg", str "fido2",
    str "gnome-online-accounts", str "piv", str "unix"]

/-- Only tailscaled and the cached tokens share a segment. -/
theorem segment_shared : sourceNames.Pairwise fun earlier later ↦
    segmentOf earlier = segmentOf later →
      earlier = str "tailscale" ∧ later = str "oidc-cached" := by
  with_unfolding_all decide

/-- The sources of a registry are some of the sources, in their order. -/
theorem names_registryOf (C : Crypto) (M : Machine W) (features : Features) (probes : Probes) :
    ((registryOf C M features probes).map (·.name)).Sublist sourceNames := by
  have hprobed : ∀ (available : Bool) (attestor : Attestor W),
      ((probed available attestor).map (·.name)).Sublist [attestor.name] := by
    intro available attestor
    cases available with
    | true => exact List.Sublist.refl _
    | false => exact List.nil_sublist _
  have hothers := ((((((hprobed probes.ssh (Ssh.attestor C M)).append
    (.refl [(Oidc.attestor M).name])).append (hprobed probes.didKey (DidKey.attestor C M))).append
    (hprobed probes.gpg (GpgKeyring.attestor M))).append
    (hprobed probes.fido2 (Fido2.attestor C M features.fido2))).append
    (hprobed probes.goa Goa.attestor)).append (hprobed probes.piv Piv.attestor)
  have hall := (hprobed probes.tailscale (Tailscale.attestor M)).append
    (hothers.append (.refl [(Unix.attestor M probes.uid probes.displayName).name]))
  unfold registryOf
  simp only [List.map_append]
  exact hall

/-! ### Spaced sources -/

/-- A source is spaced when the paths it shows have its own first segment, and its proof of a
candidate depends on nothing but the path. -/
structure Spaced (attestor : Attestor W) : Prop where
  enumerate : attestor.enumerate.Yields fun candidates ↦ ∀ candidate ∈ candidates,
    firstSegment candidate.path = segmentOf attestor.name
  prove : ∀ {candidate candidate' : Candidate} (challenge : Bytes),
    candidate.path = candidate'.path →
      attestor.prove candidate challenge = attestor.prove candidate' challenge

section Sources

variable {C : Crypto} {M : Machine W}

/-- A source that declines every proof is spaced when its paths are. -/
theorem spaced_of_decline {name : Str} {enumerate : Action AttestorError W (List Candidate)}
    (h : enumerate.Yields fun candidates ↦ ∀ candidate ∈ candidates,
      firstSegment candidate.path = segmentOf name) :
    Spaced ⟨name, enumerate, Attestor.decline name⟩ where
  enumerate := h
  prove _ _ := rfl

theorem spaced_ssh : Spaced (Ssh.attestor C M) where
  enumerate := by
    refine .seq fun stream ↦ .seq fun keys ↦ .pure fun candidate hcandidate ↦ ?_
    obtain ⟨key, -, rfl⟩ := List.mem_map.mp hcandidate
    with_unfolding_all rfl
  prove challenge hpath := by
    change Ssh.prove C M _ challenge = Ssh.prove C M _ challenge
    unfold Ssh.prove ChallengeSignature.verifySshEd25519
    rw [hpath]

theorem spaced_didKey : Spaced (DidKey.attestor C M) where
  enumerate := by
    refine .seq fun dids ↦ .pure fun candidate hcandidate ↦ ?_
    obtain ⟨did, -, rfl⟩ := List.mem_map.mp hcandidate
    with_unfolding_all rfl
  prove challenge hpath := by
    change DidKey.prove C M _ challenge = DidKey.prove C M _ challenge
    unfold DidKey.prove ChallengeSignature.verifyDidKeyEd25519
    rw [hpath]

theorem spaced_gpg : Spaced (GpgKeyring.attestor M) where
  enumerate := by
    refine .seq fun found ↦ .seq fun gpg ↦ .seq fun output ↦ ?_
    split
    · exact .pure fun candidate hnone ↦ by cases hnone
    · refine .pure fun candidate hcandidate ↦ ?_
      obtain ⟨fingerprint, uid, rfl⟩ := GpgKeyring.isGpgCandidate_parseGpgColons hcandidate
      with_unfolding_all rfl
  prove challenge hpath := by
    change GpgKeyring.prove M _ challenge = GpgKeyring.prove M _ challenge
    unfold GpgKeyring.prove ChallengeSignature.verifyOpenpgp
    rw [hpath]

theorem spaced_tailscale : Spaced (Tailscale.attestor M) where
  enumerate := by
    refine .seq fun available ↦ ?_
    split
    · exact .pure fun candidate hnone ↦ by cases hnone
    · refine .seq fun status ↦ .bind .ofExcept fun identity hidentity ↦
        .pure fun candidate hcandidate ↦ ?_
      rw [List.mem_singleton.mp hcandidate]
      unfold Tailscale.identityOf at hidentity
      dsimp only at hidentity
      split at hidentity
      · cases hidentity
      · split at hidentity
        · cases hidentity
        · obtain rfl := Except.ok.inj hidentity
          with_unfolding_all rfl
  prove challenge hpath := by
    change Tailscale.prove M _ challenge = Tailscale.prove M _ challenge
    unfold Tailscale.prove
    rw [hpath]

theorem spaced_oidc : Spaced (Oidc.attestor M) := by
  refine spaced_of_decline (.bind (P := fun candidates ↦ ∀ candidate ∈ candidates,
    firstSegment candidate.path = segmentOf (str "oidc-cached")) ?_ fun candidates hcandidates ↦
      .seq fun _ ↦ .pure hcandidates)
  refine .seq fun home ↦ ?_
  split
  · exact .pure fun candidate hnone ↦ by cases hnone
  · refine .seq fun adc ↦ .seq fun msal ↦ .seq fun access ↦ .pure fun candidate hcandidate ↦ ?_
    obtain ⟨token, -, htoken⟩ := List.mem_filterMap.mp hcandidate
    unfold Oidc.candidateFromJwt at htoken
    split at htoken
    · cases htoken
    · split at htoken
      · cases htoken
      · cases htoken
        with_unfolding_all rfl

theorem spaced_fido2 (feature : Bool) : Spaced (Fido2.attestor C M feature) := by
  refine spaced_of_decline ?_
  cases feature with
  | true =>
    refine .seq fun devices ↦ .seq fun _ ↦ .pure fun candidate hcandidate ↦ ?_
    obtain ⟨dev, -, rfl⟩ := List.mem_map.mp hcandidate
    with_unfolding_all rfl
  | false => exact .pure fun candidate hnone ↦ by cases hnone

theorem spaced_empty (name : Str) : Spaced (Attestor.empty name : Attestor W) :=
  spaced_of_decline (.pure fun candidate hnone ↦ by cases hnone)

theorem spaced_unix (uid : ℕ) (displayName : Str) : Spaced (Unix.attestor M uid displayName) where
  enumerate := .pure fun candidate hcandidate ↦ by
    rw [List.mem_singleton.mp hcandidate]
    with_unfolding_all rfl
  prove challenge hpath := by
    change Unix.prove M _ challenge = Unix.prove M _ challenge
    unfold Unix.prove
    rw [hpath]

/-- Every source of a registry is spaced. -/
theorem spaced_registryOf (C : Crypto) (M : Machine W) (features : Features) (probes : Probes) :
    ∀ attestor ∈ registryOf C M features probes, Spaced attestor :=
  forall_mem_registryOf spaced_tailscale spaced_ssh spaced_oidc spaced_didKey spaced_gpg
    (spaced_fido2 _) (spaced_empty _) (spaced_empty _) spaced_unix probes

end Sources

/-! ### The first candidate with a path -/

/-- The candidates come in the order of their sources. -/
theorem pairwise_enumerateAll {R : Attestor W → Attestor W → Prop} {attestors : List (Attestor W)}
    (h : attestors.Pairwise R) (w : W) :
    (enumerateAll attestors w).value.Pairwise fun p q ↦ p.1 = q.1 ∨ R p.1 q.1 := by
  induction attestors generalizing w with
  | nil => exact .nil
  | cons attestor rest ih =>
    obtain ⟨hfirst, hrest⟩ := List.pairwise_cons.mp h
    have hown : ∀ pair ∈ candidatesOf attestor (attestor.enumerate w).1, pair.1 = attestor := by
      intro pair hpair
      cases hanswer : (attestor.enumerate w).1 with
      | error e =>
        rw [hanswer] at hpair
        cases hpair
      | ok candidates =>
        rw [hanswer] at hpair
        obtain ⟨candidate, -, rfl⟩ := List.mem_map.mp hpair
        rfl
    refine List.pairwise_append.mpr ⟨?_, ih hrest _, fun p hp q hq ↦ .inr ?_⟩
    · exact List.pairwise_of_forall_mem_list fun p hp q hq ↦
        .inl ((hown p hp).trans (hown q hq).symm)
    · rw [hown p hp]
      exact hfirst q.1 (shown_of_mem_enumerateAll hq).1

/-- Nothing is proven by the cached tokens. -/
theorem Proven.source_ne {C : Crypto} {M : Machine W} {challenge : Bytes} {w : W}
    {source path : Str} (h : Proven C M challenge w source path) : source ≠ str "oidc-cached" := by
  cases h <;> with_unfolding_all decide

/-- A claim is for the identity of its candidate when no evidence re-anchors it. -/
theorem spiffeId_of_derive {candidate : Candidate} {challenge : Bytes} {evidence : List Evidence}
    {claim : Claim} (hderive : Claim.derive candidate challenge evidence = some claim)
    (hanchor : ∀ e ∈ evidence, e.issuerAnchor = none) : claim.spiffeId = candidate.spiffeId := by
  have hdomain := Claim.trustDomain_of_derive hderive hanchor
  obtain ⟨-, hpath, -⟩ := Claim.derive_eq_some hderive
  calc claim.spiffeId = ⟨claim.spiffeId.trustDomain, claim.spiffeId.path⟩ := rfl
    _ = candidate.spiffeId := by rw [hdomain, hpath]; rfl

/-- Candidates with one path and one trust domain derive the same claims, up to what they say of
themselves. -/
theorem derive_of_same {candidate first : Candidate} (hpath : first.path = candidate.path)
    (hdomain : first.domain.toTrustDomain = candidate.domain.toTrustDomain) (challenge : Bytes)
    (evidence : List Evidence) :
    Claim.derive first challenge evidence = (Claim.derive candidate challenge evidence).map
      fun claim ↦ { claim with source := first.source, displayName := first.displayName } := by
  have hbinds : Evidence.bindsTo first challenge = Evidence.bindsTo candidate challenge := by
    funext e
    cases e <;> simp only [Evidence.bindsTo, hpath]
  unfold Claim.derive
  rw [hbinds, hpath, hdomain]
  split
  · rfl
  · rfl

/-- What a named request gathers is the named claim of the first candidate with its path. -/
theorem gather_of_first {C : Crypto} {M : Machine W} {features : Features} {probes : Probes}
    {w : W} {candidate : Candidate} {source : Attestor W} {first : Candidate} (challenge : Bytes)
    (hfirst : (enumerateAll (registryOf C M features probes) w).value.find?
      (·.2.path = candidate.path) = some (source, first)) :
    (gather challenge (some candidate.spiffeId) (registryOf C M features probes) w).value =
      namedClaim candidate.spiffeId first challenge (source.prove first challenge
        (enumerateAll (registryOf C M features probes) w).world).1 := by
  change (proveNamed challenge candidate.spiffeId _ _).value = _
  unfold proveNamed
  rw [show (enumerateAll (registryOf C M features probes) w).value.find?
    (·.2.path = candidate.spiffeId.path) = some (source, first) from hfirst]

section Found

variable {C : Crypto} {M : Machine W} {features : Features} {probes : Probes} {w : W}
  {attestor : Attestor W} {candidate : Candidate}
  (hfound : (attestor, candidate) ∈ (enumerateAll (registryOf C M features probes) w).value)
include hfound

/-- What is proven of a candidate is the identity it shows, and not by the cached tokens. -/
theorem claim_of_found {challenge : Bytes} {w' : W} {claim : Claim}
    (h : silentClaim candidate challenge (attestor.prove candidate challenge w').1 = some claim) :
    claim.spiffeId = candidate.spiffeId ∧ attestor.name ≠ str "oidc-cached" := by
  obtain ⟨hattestor, -⟩ := shown_of_mem_enumerateAll hfound
  have hhonest := honest_registryOf C M features probes attestor hattestor
  obtain ⟨evidence, hproof, hderive⟩ := silentClaim_eq_some_iff.mp h
  exact ⟨spiffeId_of_derive hderive
    (hhonest.confined.prove candidate challenge w' evidence hproof),
    (hhonest.prove candidate challenge w' evidence hproof).source_ne⟩

/-- A candidate is of the trust domain of its source. -/
theorem domain_of_found : candidate.domain.toTrustDomain = domainOf attestor.name := by
  obtain ⟨hattestor, seenIn, candidates, hseen, hcandidate⟩ := shown_of_mem_enumerateAll hfound
  exact (honest_registryOf C M features probes attestor hattestor).confined.enumerate seenIn
    candidates hseen candidate hcandidate

/-- The first candidate with the path of another one is of the same source, except that tailscaled
may come before a cached token. -/
theorem first_of_found : ∃ source first,
    (enumerateAll (registryOf C M features probes) w).value.find?
        (·.2.path = candidate.path) = some (source, first) ∧
      first.path = candidate.path ∧
      (source, first) ∈ (enumerateAll (registryOf C M features probes) w).value ∧
      (source = attestor ∨
        source.name = str "tailscale" ∧ attestor.name = str "oidc-cached") := by
  have hsome : ((enumerateAll (registryOf C M features probes) w).value.find?
      (·.2.path = candidate.path)).isSome = true :=
    List.find?_isSome.mpr ⟨_, hfound, decide_eq_true rfl⟩
  obtain ⟨⟨source, first⟩, hfirst⟩ := Option.isSome_iff_exists.mp hsome
  have hmatches := List.find?_some hfirst
  have hpath : first.path = candidate.path := of_decide_eq_true hmatches
  have hmem := List.mem_of_find?_eq_some hfirst
  refine ⟨source, first, hfirst, hpath, hmem, ?_⟩
  have hnames := segment_shared.sublist (names_registryOf C M features probes)
  rcases find?_of_pairwise (pairwise_enumerateAll (List.pairwise_map.mp hnames) w) hfound
      (decide_eq_true rfl) hfirst with heq | heq | hshared
  · exact .inl (congrArg Prod.fst heq)
  · exact .inl heq
  · have hsegment : ∀ {pair : Attestor W × Candidate},
        pair ∈ (enumerateAll (registryOf C M features probes) w).value →
          firstSegment pair.2.path = segmentOf pair.1.name := by
      intro pair hpair
      obtain ⟨hattestor, seenIn, candidates, hseen, hcandidate⟩ := shown_of_mem_enumerateAll hpair
      exact (spaced_registryOf C M features probes pair.1 hattestor).enumerate seenIn candidates
        hseen pair.2 hcandidate
    refine .inr (hshared ?_)
    rw [← hsegment hmem, ← hsegment hfound, hpath]

/-- Naming what a source shows gathers what that source proves of it. The first candidate of the
source with the path is proved, and it may give itself another name. -/
theorem gather_of_claim {challenge : Bytes} {claim : Claim}
    (hclaim : silentClaim candidate challenge (attestor.prove candidate challenge
      (enumerateAll (registryOf C M features probes) w).world).1 = some claim) :
    ∃ source displayName,
      (gather challenge (some candidate.spiffeId) (registryOf C M features probes) w).value =
        .ok [{ claim with source := source, displayName := displayName }] := by
  obtain ⟨hid, hproves⟩ := claim_of_found hfound hclaim
  obtain ⟨source, first, hfirst, hpath, hmem, rfl | ⟨-, hoidc⟩⟩ := first_of_found hfound
  · obtain ⟨hattestor, -⟩ := shown_of_mem_enumerateAll hfound
    have hsame : source.prove first challenge = source.prove candidate challenge :=
      (spaced_registryOf C M features probes source hattestor).prove challenge hpath
    have hdomain := (domain_of_found hmem).trans (domain_of_found hfound).symm
    obtain ⟨evidence, hproof, hderive⟩ := silentClaim_eq_some_iff.mp hclaim
    have hshown := derive_of_same hpath hdomain challenge evidence
    rw [hderive] at hshown
    refine ⟨first.source, first.displayName, ?_⟩
    rw [gather_of_first challenge hfirst, hsame]
    exact namedClaim_eq_ok_iff.mpr ⟨evidence, _, hproof, hshown, hid, rfl⟩
  · exact absurd hoidc hproves

/-- Naming what a source shows and does not prove gathers nothing. -/
theorem gather_of_no_claim {challenge : Bytes}
    (hclaim : silentClaim candidate challenge (attestor.prove candidate challenge
      (enumerateAll (registryOf C M features probes) w).world).1 = none) :
    (gather challenge (some candidate.spiffeId) (registryOf C M features probes) w).value =
      .error deny := by
  obtain ⟨source, first, hfirst, hpath, hmem, hsource⟩ := first_of_found hfound
  rw [gather_of_first challenge hfirst]
  cases hnamed : namedClaim candidate.spiffeId first challenge (source.prove first challenge
      (enumerateAll (registryOf C M features probes) w).world).1 with
  | error status => rw [namedClaim_eq_error hnamed]
  | ok claims =>
    obtain ⟨evidence, shown, hproof, hderive, hid, -⟩ := namedClaim_eq_ok_iff.mp hnamed
    obtain ⟨hshown, -⟩ := claim_of_found hmem
      (silentClaim_eq_some_iff.mpr ⟨evidence, hproof, hderive⟩)
    have hdomain : first.domain.toTrustDomain = candidate.domain.toTrustDomain :=
      congrArg SpiffeId.trustDomain (hshown.symm.trans hid)
    rcases hsource with rfl | ⟨htailscale, hoidc⟩
    · obtain ⟨hattestor, -⟩ := shown_of_mem_enumerateAll hfound
      rw [(spaced_registryOf C M features probes source hattestor).prove challenge hpath] at hproof
      rw [derive_of_same hpath hdomain] at hderive
      obtain ⟨claim, hsome, -⟩ := Option.map_eq_some_iff.mp hderive
      cases hclaim.symm.trans (silentClaim_eq_some_iff.mpr ⟨evidence, hproof, hsome⟩)
    · -- tailscaled shows the path of a cached token, and what it proves is of another trust domain.
      rw [domain_of_found hmem, domain_of_found hfound, htailscale, hoidc] at hdomain
      exact absurd hdomain (by with_unfolding_all decide)

end Found

/-! ### Naming what a source shows -/

section Serve

variable {L : TokenLib}

/-- A run whose request has one claim serves it, or refuses with a status. Assumes: signing
succeeds. -/
theorem reply_of_single {C : Crypto} {service : WorkloadApiService L W} {readings : Readings}
    (hsign : service.SigningSucceeds C readings) {peer : Option ConsumerIdentity}
    {req : JwtsvidRequest} {w : W} {admitted : Admitted} {challenge : ByteArr 32} {claim : Claim}
    (hadmitted : acceptRequest peer req = .ok admitted)
    (hchallenge : readings.challenge = some challenge)
    (hclaims : (gather challenge.1 admitted.requested service.attestors w).value = .ok [claim]) :
    WorkloadApiService.gates admitted readings claim = true ∧
        (∃ svid, (service.fetchJwtsvid C peer req readings w).reply = .ok [svid] ∧
          svid.spiffeId =
            (service.signer.pseudonymousId C claim.spiffeId admitted.consumer).uri) ∨
      WorkloadApiService.gates admitted readings claim = false ∧
        ∃ status, (service.fetchJwtsvid C peer req readings w).reply = .error (.error status) := by
  obtain ⟨out, hout, hfilter⟩ := WorkloadApiService.serve_eq_filter hsign admitted [claim]
  obtain ⟨-, hreply⟩ := WorkloadApiService.served_of_gather hadmitted hchallenge hclaims hout
  rw [hreply]
  cases hgates : WorkloadApiService.gates admitted readings claim with
  | true =>
    rw [List.filter_cons_of_pos hgates] at hfilter
    obtain ⟨⟨served, svid⟩, hsingle, hfst⟩ := List.map_eq_singleton_iff.mp hfilter
    obtain rfl : served = claim := hfst
    obtain ⟨j, -, hissue⟩ := (mem_served_iff hout).mp (hsingle ▸ List.mem_singleton_self _)
    refine .inl ⟨rfl, svid, ?_, (issue_eq_ok_iff.mp hissue).2.2.1⟩
    rw [Issued.reply, hsingle]
    rfl
  | false =>
    rw [List.filter_cons_of_neg (by simp [hgates])] at hfilter
    refine .inr ⟨rfl, out.refusal.getD ⟨.unauthenticated, str "no identity claims available"⟩, ?_⟩
    rw [Issued.reply, List.map_eq_nil_iff.mp hfilter]
    rfl

/-- A request that names an identity that a source shows is decided by the proof of that source and
by the gates, whatever else is shown, and by whom: if the proof yields a claim that passes them, the
reply is one SVID, for that identity, and otherwise it is a refusal. Assumes: a daemon that was
started on some machine, an attested peer, audiences that parse, a challenge that was drawn, and
that signing succeeds. -/
theorem named_decided_by_its_source (C : Crypto) (M : Machine W) (features : Features)
    (signer : SvidSigner L) (w₀ : W) (service : WorkloadApiService L W)
    (hstart : (start C M features signer w₀).1 = .ok service) (consumer : ConsumerIdentity)
    (req : JwtsvidRequest) (exts : List AudienceExtensions) (haudience : req.audience ≠ [])
    (hexts : List.Forall₂ (fun raw ext ↦ AudienceExtensions.parse raw = .ok ext) req.audience exts)
    (readings : Readings) (challenge : ByteArr 32)
    (hchallenge : readings.challenge = some challenge)
    (hsign : service.SigningSucceeds C readings) (w : W) (attestor : Attestor W)
    (candidate : Candidate)
    (hfound : (attestor, candidate) ∈ (enumerateAll service.attestors w).value)
    (hname : SpiffeId.fromStr req.spiffeId = .ok candidate.spiffeId) :
    let run := service.fetchJwtsvid C (some consumer) req readings w
    let proof := attestor.prove candidate challenge.1 (enumerateAll service.attestors w).world
    let passes := passesGates (requirePresence exts) (maxAge exts) readings.now
    (∃ claim svid, silentClaim candidate challenge.1 proof.1 = some claim ∧ passes claim = true ∧
        run.reply = .ok [svid] ∧
        svid.spiffeId = (service.signer.pseudonymousId C candidate.spiffeId consumer).uri) ∨
      (∀ claim, silentClaim candidate challenge.1 proof.1 = some claim → passes claim = false) ∧
        ∃ status, run.reply = .error (.error status) := by
  intro run proof passes
  obtain ⟨attestors, hprobe, rfl⟩ := start_eq_ok hstart
  obtain ⟨probes, rfl⟩ := probeSources_yields_registryOf C M features w₀ attestors hprobe
  have hadmitted : acceptRequest (some consumer) req =
      .ok ⟨consumer, exts, some candidate.spiffeId⟩ :=
    acceptRequest_eq_ok_iff.mpr ⟨rfl, haudience, hexts,
      Or.inr ⟨SpiffeId.ne_nil_of_fromStr hname, _, hname, rfl⟩⟩
  cases hclaim : silentClaim candidate challenge.1 proof.1 with
  | none =>
    have hdenied := gather_of_no_claim hfound hclaim
    exact .inr ⟨fun claim hsome ↦ (by cases hsome), _,
      WorkloadApiService.reply_of_gather_error hadmitted hchallenge hdenied⟩
  | some claim =>
    obtain ⟨hid, -⟩ := claim_of_found hfound hclaim
    obtain ⟨source, displayName, hclaims⟩ := gather_of_claim hfound hclaim
    rcases reply_of_single hsign hadmitted hchallenge hclaims with
      ⟨hpasses, svid, hreply, huri⟩ | ⟨hfails, hreply⟩
    · exact .inl ⟨claim, svid, rfl, hpasses, hreply, hid ▸ huri⟩
    · refine .inr ⟨fun other hother ↦ ?_, hreply⟩
      obtain rfl := Option.some.inj hother
      exact hfails

/-- A request that names the account of a machine. -/
def namesAccount : JwtsvidRequest :=
  ⟨[str "https://rp.example"], str "spiffe://ssh.local/unix/1000"⟩

/-- The account of a machine, as its source shows it. -/
def shownAccount : Candidate :=
  ((Candidate.new (str "unix") .sshLocal (Unix.spiffePath 1000)
    (str "alice")).withAttainable .iaa1).withProofCost .silent

/-- The account of a machine is served to a request that names it. -/
theorem named_decided_by_its_source_account :
    ∃ svid, ((aliceService false).fetchJwtsvid .transparent (some WorkloadApiService.someBinary)
      namesAccount (WorkloadApiService.readingsAt (WorkloadApiService.second 101)) ()).reply =
        .ok [svid] := by
  have hproven : ((silentClaim shownAccount (fill 32 0) (Unix.prove (aliceMachine false)
      shownAccount (fill 32 0) ()).1).any (passesGates .none none
        (WorkloadApiService.second 101))) = true := by
    with_unfolding_all decide
  obtain ⟨claim, hclaim, hpasses⟩ := (Option.any_eq_true _ _).mp hproven
  rcases named_decided_by_its_source .transparent (aliceMachine false) ⟨false, false⟩ aliceSigner ()
      (aliceService false) (start_alice false) WorkloadApiService.someBinary namesAccount
      [⟨str "https://rp.example", .none, none⟩] (by decide)
      (.cons (by with_unfolding_all decide) .nil) (WorkloadApiService.readingsAt
        (WorkloadApiService.second 101)) (fill 32 0) rfl
      (WorkloadApiService.transparent_signingSucceeds .transparent _
        (show 0 ≤ WorkloadApiService.second 101 by decide)) ()
      (Unix.attestor (aliceMachine false) 1000 (str "alice")) shownAccount
      (by with_unfolding_all exact List.mem_singleton_self _) (by with_unfolding_all decide) with
    ⟨-, svid, -, -, hreply, -⟩ | ⟨hfails, -⟩
  · exact ⟨svid, hreply⟩
  · cases hpasses.symm.trans (hfails claim hclaim)

end Serve

end Hire.Hired
