import Hire.Attestors.Lattice
import Hire.Grpc.Policy
import Hire.Hired.Wiring

/-!
# The levels the sources of today reach

`Claim::derive` of `hire-attestors/src/claim.rs` can reach four presence levels and three tiers.
What the sources that `probe_sources` registers can reach is less: no source verifies a token and
none drives an authenticator, so no claim carries presence, and only tailscaled vouches for more
than possession (`Graded`, `graded_registryOf`).

`proofs` are the proofs a request runs, each with the world it starts in: its calls are the
enumerations and then these (`calls_gather`). `Backed` says where a claim of a request comes from:
what one of them answered. With it, `started_levels` gives the level of every
SVID that a daemon serves, however it was started, and `presence_never_served` what becomes of a
request whose audience asks for presence: it is refused, whatever the machine holds.
-/

set_option autoImplicit false
set_option relaxedAutoImplicit false

namespace Hire.Hired

open Hire.Library Hire.Core Hire.Attestors Hire.Grpc

/-! ### Where a claim comes from -/

section Backed

variable {W : Type}

/-- A proof that a request runs: the attestor that is asked, the candidate, and the world in which
the proof starts. -/
structure ProofRun (W : Type) where
  attestor : Attestor W
  candidate : Candidate
  world : W

/-- What the attestor answers in the run. -/
def ProofRun.answer (challenge : Bytes) (proof : ProofRun W) :
    Except AttestorError (List Evidence) :=
  (proof.attestor.prove proof.candidate challenge proof.world).1

/-- The proofs of the silent candidates, in order. -/
def silentProofs (challenge : Bytes) : List (Attestor W × Candidate) → W → List (ProofRun W)
  | [], _ => []
  | (attestor, candidate) :: rest, w =>
    if candidate.proofCost ≠ .silent then silentProofs challenge rest w
    else ⟨attestor, candidate, w⟩ ::
      silentProofs challenge rest (attestor.prove candidate challenge w).2

/-- The proofs of a request: of the first candidate with the path it names, or of every silent
candidate. -/
def proofs (challenge : Bytes) (requested : Option SpiffeId) (attestors : List (Attestor W))
    (w : W) : List (ProofRun W) :=
  let found := enumerateAll attestors w
  match requested with
  | some want =>
    ((found.value.find? (·.2.path = want.path)).map fun pair ↦
      ⟨pair.1, pair.2, found.world⟩).toList
  | none => silentProofs challenge found.value found.world

/-- The call of a proof, with its answer. -/
def ProofRun.call (challenge : Bytes) (proof : ProofRun W) : Call W :=
  .prove proof.attestor proof.candidate challenge (proof.answer challenge)

theorem calls_proveSilent (challenge : Bytes) (found : List (Attestor W × Candidate)) (w : W) :
    (proveSilent challenge found w).calls =
      (silentProofs challenge found w).map (ProofRun.call challenge) := by
  induction found generalizing w with
  | nil => rfl
  | cons pair rest ih =>
    obtain ⟨attestor, candidate⟩ := pair
    unfold proveSilent silentProofs
    split_ifs with hcost
    · exact ih w
    · rw [List.map_cons, ← ih]
      rfl

/-- The attestor calls of a request are its enumerations and then its proofs. -/
theorem calls_gather (challenge : Bytes) (requested : Option SpiffeId)
    (attestors : List (Attestor W)) (w : W) :
    (gather challenge requested attestors w).calls = (enumerateAll attestors w).calls ++
      (proofs challenge requested attestors w).map (ProofRun.call challenge) := by
  cases requested with
  | none =>
    rw [show proofs challenge none attestors w = silentProofs challenge
      (enumerateAll attestors w).value (enumerateAll attestors w).world from rfl,
      ← calls_proveSilent]
    rfl
  | some want =>
    change (enumerateAll attestors w).calls ++ (proveNamed challenge want _ _).calls = _
    unfold proveNamed proofs
    dsimp only
    cases (enumerateAll attestors w).value.find? (·.2.path = want.path) <;> rfl

/-- A claim is backed when it was derived from what a proof of the request answered. -/
def Backed (challenge : Bytes) (requested : Option SpiffeId) (attestors : List (Attestor W)) (w : W)
    (claim : Claim) : Prop :=
  ∃ proof ∈ proofs challenge requested attestors w, ∃ evidence,
    proof.answer challenge = .ok evidence ∧
    Claim.derive proof.candidate challenge evidence = some claim

/-- Every candidate that is found was shown by an attestor. -/
theorem shown_of_mem_enumerateAll {attestors : List (Attestor W)} {w : W}
    {pair : Attestor W × Candidate} (hpair : pair ∈ (enumerateAll attestors w).value) :
    pair.1 ∈ attestors ∧ ∃ seenIn candidates, (pair.1.enumerate seenIn).1 = .ok candidates ∧
      pair.2 ∈ candidates := by
  induction attestors generalizing w with
  | nil => cases hpair
  | cons attestor rest ih =>
    rcases List.mem_append.mp hpair with hfirst | hlater
    · cases hanswer : (attestor.enumerate w).1 with
      | error e =>
        rw [hanswer] at hfirst
        cases hfirst
      | ok candidates =>
        rw [hanswer] at hfirst
        obtain ⟨candidate, hcandidate, rfl⟩ := List.mem_map.mp hfirst
        exact ⟨List.mem_cons_self, w, candidates, hanswer, hcandidate⟩
    · obtain ⟨hattestor, hshown⟩ := ih hlater
      exact ⟨List.mem_cons_of_mem attestor hattestor, hshown⟩

theorem found_of_mem_silentProofs {challenge : Bytes} {found : List (Attestor W × Candidate)}
    {w : W} {proof : ProofRun W} (hproof : proof ∈ silentProofs challenge found w) :
    (proof.attestor, proof.candidate) ∈ found := by
  induction found generalizing w with
  | nil => cases hproof
  | cons pair rest ih =>
    unfold silentProofs at hproof
    split_ifs at hproof with hcost
    · exact List.mem_cons_of_mem pair (ih hproof)
    · rcases List.mem_cons.mp hproof with rfl | hlater
      · exact List.mem_cons_self
      · exact List.mem_cons_of_mem pair (ih hlater)

/-- Every candidate that is proved was shown by the attestor that proves it. -/
theorem shown_of_mem_proofs {challenge : Bytes} {requested : Option SpiffeId}
    {attestors : List (Attestor W)} {w : W} {proof : ProofRun W}
    (hproof : proof ∈ proofs challenge requested attestors w) :
    proof.attestor ∈ attestors ∧ ∃ seenIn candidates,
      (proof.attestor.enumerate seenIn).1 = .ok candidates ∧ proof.candidate ∈ candidates := by
  cases requested with
  | none => exact shown_of_mem_enumerateAll (found_of_mem_silentProofs hproof)
  | some want =>
    obtain ⟨pair, hfind, rfl⟩ := Option.map_eq_some_iff.mp (Option.mem_toList.mp hproof)
    exact shown_of_mem_enumerateAll (List.mem_of_find?_eq_some hfind)

/-- Every claim of the loop was derived from what one of its proofs answered. -/
theorem proven_of_mem_proveSilent {challenge : Bytes} {found : List (Attestor W × Candidate)}
    {w : W} {claim : Claim} (hclaim : claim ∈ (proveSilent challenge found w).value) :
    ∃ proof ∈ silentProofs challenge found w, ∃ evidence, proof.answer challenge = .ok evidence ∧
      Claim.derive proof.candidate challenge evidence = some claim := by
  induction found generalizing w with
  | nil => cases hclaim
  | cons pair rest ih =>
    obtain ⟨attestor, candidate⟩ := pair
    unfold proveSilent at hclaim
    unfold silentProofs
    split_ifs at hclaim ⊢ with hcost
    · exact ih hclaim
    · rcases List.mem_append.mp hclaim with hfirst | hrest
      · cases hanswer : (attestor.prove candidate challenge w).1 with
        | error e =>
          rw [hanswer] at hfirst
          cases Option.mem_toList.mp hfirst
        | ok evidence =>
          rw [hanswer] at hfirst
          exact ⟨_, List.mem_cons_self, evidence, hanswer, Option.mem_toList.mp hfirst⟩
      · obtain ⟨proof, hproof, hproven⟩ := ih hrest
        exact ⟨proof, List.mem_cons_of_mem _ hproof, hproven⟩

/-- Every claim a request gathers is backed. -/
theorem backed_of_mem_gather {challenge : Bytes} {requested : Option SpiffeId}
    {attestors : List (Attestor W)} {w : W} {claims : List Claim} {claim : Claim}
    (hclaims : (gather challenge requested attestors w).value = .ok claims)
    (hclaim : claim ∈ claims) : Backed challenge requested attestors w claim := by
  cases requested with
  | none =>
    obtain rfl := Except.ok.inj hclaims
    exact proven_of_mem_proveSilent (mem_of_mem_bestPerKey hclaim)
  | some want =>
    change (proveNamed challenge want _ _).value = .ok claims at hclaims
    unfold proveNamed at hclaims
    cases hfind : (enumerateAll attestors w).value.find? (·.2.path = want.path) with
    | none =>
      rw [hfind] at hclaims
      cases hclaims
    | some pair =>
      rw [hfind] at hclaims
      obtain ⟨evidence, proven, hanswer, hderive, -, rfl⟩ := namedClaim_eq_ok_iff.mp hclaims
      obtain rfl := List.mem_singleton.mp hclaim
      refine ⟨⟨pair.1, pair.2, (enumerateAll attestors w).world⟩, ?_, evidence, hanswer, hderive⟩
      exact Option.mem_toList.mpr (Option.map_eq_some_iff.mpr ⟨pair, hfind, rfl⟩)

end Backed

/-! ### The grade of a source -/

section Grade

variable {W : Type} {C : Crypto} {M : Machine W}

/-- A source is graded when its candidates carry its name, its evidence establishes no presence, and
its evidence is vouched for exactly when the source is tailscaled. -/
structure Graded (attestor : Attestor W) : Prop where
  source : attestor.enumerate.Yields fun candidates ↦ ∀ candidate ∈ candidates,
    candidate.source = attestor.name
  evidence : ∀ candidate challenge, (attestor.prove candidate challenge).Yields
    fun evidence ↦ ∀ e ∈ evidence, e.tier.presence = .none ∧
      e.isVouched = decide (attestor.name = str "tailscale")

/-- A source that declines every proof is graded. -/
theorem graded_of_decline {name : Str} {enumerate : Action AttestorError W (List Candidate)}
    (hsource : enumerate.Yields fun candidates ↦ ∀ candidate ∈ candidates,
      candidate.source = name) : Graded ⟨name, enumerate, Attestor.decline name⟩ where
  source := hsource
  evidence _ _ := .fail

/-- A signature establishes possession and nothing more. -/
theorem graded_possession {name : Str} (hname : decide (name = str "tailscale") = false)
    (s : ChallengeSignature) : ∀ e ∈ [Evidence.possession s], e.tier.presence = .none ∧
      e.isVouched = decide (name = str "tailscale") := by
  intro e he
  rw [List.mem_singleton.mp he, hname]
  exact ⟨rfl, rfl⟩

theorem graded_ssh : Graded (Ssh.attestor C M) where
  source := by
    refine .seq fun stream ↦ .seq fun keys ↦ .pure fun candidate hcandidate ↦ ?_
    obtain ⟨key, -, rfl⟩ := List.mem_map.mp hcandidate
    rfl
  evidence candidate challenge := by
    have hname : decide (str "ssh-agent" = str "tailscale") = false := by
      with_unfolding_all decide
    refine .seq fun stream ↦ .seq fun keys ↦ .seq fun keyBlob ↦ .seq fun parts ↦ ?_
    dsimp only
    split
    · exact .fail
    · exact .seq fun signature ↦ .seq fun now ↦ .seq fun s ↦
        .pure (graded_possession hname s)

theorem graded_didKey : Graded (DidKey.attestor C M) where
  source := by
    refine .seq fun dids ↦ .pure fun candidate hcandidate ↦ ?_
    obtain ⟨did, -, rfl⟩ := List.mem_map.mp hcandidate
    rfl
  evidence candidate challenge := by
    have hname : decide (str "did:key" = str "tailscale") = false := by
      with_unfolding_all decide
    refine .seq fun dids ↦ .seq fun did ↦ .seq fun point ↦ .seq fun stream ↦ .seq fun keys ↦
      .seq fun keyBlob ↦ .seq fun signature ↦ .seq fun now ↦ .seq fun s ↦ ?_
    exact .pure (graded_possession hname s)

theorem graded_gpg : Graded (GpgKeyring.attestor M) where
  source := by
    refine .seq fun found ↦ .seq fun gpg ↦ .seq fun output ↦ ?_
    split
    · exact .pure fun candidate hnone ↦ by cases hnone
    · refine .pure fun candidate hcandidate ↦ ?_
      obtain ⟨fingerprint, uid, rfl⟩ := GpgKeyring.isGpgCandidate_parseGpgColons hcandidate
      rfl
  evidence candidate challenge := by
    have hname : decide (str "gpg" = str "tailscale") = false := by
      with_unfolding_all decide
    refine .seq fun found ↦ .seq fun gpg ↦ .seq fun candidates ↦ .seq fun fingerprint ↦
      .seq fun signed ↦ ?_
    split
    · exact .fail
    · exact .seq fun s ↦ .pure (graded_possession hname s)

theorem graded_tailscale : Graded (Tailscale.attestor M) where
  source := by
    intro w candidates hcandidates candidate hcandidate
    rcases Tailscale.attestor_enumerate M w candidates hcandidates with rfl | ⟨identity, rfl⟩
    · cases hcandidate
    · rw [List.mem_singleton.mp hcandidate]
      rfl
  evidence candidate challenge := by
    intro w evidence hevidence e he
    obtain ⟨askedAt, rfl⟩ := Tailscale.attestor_prove M candidate challenge w evidence hevidence
    rw [List.mem_singleton.mp he]
    exact ⟨rfl, (decide_eq_true rfl).symm⟩

theorem graded_oidc : Graded (Oidc.attestor M) := by
  refine graded_of_decline (.bind (P := fun candidates ↦ ∀ candidate ∈ candidates,
    candidate.source = str "oidc-cached") ?_ fun candidates hcandidates ↦
      .seq fun _ ↦ .pure hcandidates)
  refine .seq fun home ↦ ?_
  split
  · exact .pure fun candidate hnone ↦ by cases hnone
  · refine .seq fun adc ↦ .seq fun msal ↦ .seq fun access ↦ .pure fun candidate hcandidate ↦ ?_
    obtain ⟨token, -, htoken⟩ := List.mem_filterMap.mp hcandidate
    unfold Oidc.candidateFromJwt at htoken
    split at htoken
    · cases htoken
    · split at htoken
      · cases htoken
      · cases htoken
        rfl

theorem graded_fido2 (feature : Bool) : Graded (Fido2.attestor C M feature) := by
  refine graded_of_decline ?_
  cases feature with
  | true =>
    refine .seq fun devices ↦ .seq fun _ ↦ .pure fun candidate hcandidate ↦ ?_
    obtain ⟨dev, -, rfl⟩ := List.mem_map.mp hcandidate
    rfl
  | false => exact .pure fun candidate hnone ↦ by cases hnone

theorem graded_empty (name : Str) : Graded (Attestor.empty name : Attestor W) :=
  graded_of_decline (.pure fun candidate hnone ↦ by cases hnone)

theorem graded_unix (uid : ℕ) (displayName : Str) : Graded (Unix.attestor M uid displayName) where
  source := .pure fun candidate hcandidate ↦ by rw [List.mem_singleton.mp hcandidate]; rfl
  evidence candidate challenge := by
    have hname : decide (str "unix" = str "tailscale") = false := by
      with_unfolding_all decide
    refine .seq fun current ↦ ?_
    split
    · exact .fail
    · refine .seq fun now ↦ .pure fun e he ↦ ?_
      rw [List.mem_singleton.mp he]
      exact ⟨rfl, hname.symm⟩

/-- Every source of a registry is graded. -/
theorem graded_registryOf (C : Crypto) (M : Machine W) (features : Features) (probes : Probes) :
    ∀ attestor ∈ registryOf C M features probes, Graded attestor :=
  forall_mem_registryOf graded_tailscale graded_ssh graded_oidc graded_didKey graded_gpg
    (graded_fido2 _) (graded_empty _) (graded_empty _) graded_unix probes

/-- A claim that graded sources back has no presence, and is of the second tier exactly when it is
tailscaled's; otherwise it is of the first. -/
theorem level_of_backed {attestors : List (Attestor W)} {challenge : Bytes}
    {requested : Option SpiffeId} {w : W} {claim : Claim}
    (hgraded : ∀ attestor ∈ attestors, Graded attestor)
    (hbacked : Backed challenge requested attestors w claim) : claim.presence = .none ∧
      claim.assurance = if claim.source = str "tailscale" then .iaa2 else .iaa1 := by
  obtain ⟨⟨attestor, candidate, provedIn⟩, hrun, evidence, hproof, hderive⟩ := hbacked
  obtain ⟨hattestor, seenIn, candidates, hseen, hcandidate⟩ := shown_of_mem_proofs hrun
  have hgrade := hgraded attestor hattestor
  have hevidence := hgrade.evidence candidate challenge provedIn evidence hproof
  have hbound : ∀ e ∈ evidence.filter (·.bindsTo candidate challenge),
      e.tier.presence = .none ∧ e.isVouched = decide (attestor.name = str "tailscale") :=
    fun e he ↦ hevidence e (List.mem_filter.mp he).1
  obtain ⟨⟨best, hbest, heq⟩, -⟩ := Claim.observation_of_derive hderive
  have hpresence : best.tier.presence = claim.presence := congrArg (fun o ↦ (ofLex o).1) heq
  have hsource : claim.source = attestor.name :=
    (Claim.derive_eq_some hderive).1.trans
      (hgrade.source seenIn candidates hseen candidate hcandidate)
  refine ⟨hpresence.symm.trans (hbound best hbest).1, ?_⟩
  have htouch : (evidence.filter (·.bindsTo candidate challenge)).any Evidence.isTouch = false := by
    rw [List.any_eq_false]
    intro e he htouched
    have hhardware := e.hardware_le_presence_iff.mpr htouched
    rw [(hbound e he).1] at hhardware
    exact absurd hhardware (by decide)
  have hvouched : (evidence.filter (·.bindsTo candidate challenge)).any Evidence.isVouched =
      decide (attestor.name = str "tailscale") := by
    cases hname : decide (attestor.name = str "tailscale") with
    | true => exact List.any_eq_true.mpr ⟨best, hbest, (hbound best hbest).2.trans hname⟩
    | false =>
      rw [List.any_eq_false]
      intro e he
      rw [(hbound e he).2, hname]
      simp
  rw [Claim.assurance_of_derive hderive, hsource]
  unfold Claim.assuranceOf
  rw [htouch, hvouched]
  by_cases hname : attestor.name = str "tailscale"
  · simp [hname]
  · simp

end Grade

/-! ### What a daemon serves -/

section Serve

variable {L : TokenLib} {W : Type}

/-- A loop that refuses every claim serves nothing, and does not panic. -/
theorem issueAll_of_refused {tryIssue : ℕ → Claim → Except (Fault Status) (Jwtsvid L)} {i : ℕ}
    {claims : List Claim}
    (hrefused : ∀ j, ∀ claim ∈ claims, ∃ status, tryIssue j claim = .error (.error status)) :
    ∃ out, issueAll tryIssue i claims = .ok out ∧ out.served = [] := by
  induction claims generalizing i with
  | nil => exact ⟨_, rfl, rfl⟩
  | cons first rest ih =>
    obtain ⟨status, hfirst⟩ := hrefused i first List.mem_cons_self
    obtain ⟨out, hout, hserved⟩ :=
      ih (i := i + 1) fun j claim hclaim ↦ hrefused j claim (List.mem_cons_of_mem first hclaim)
    exact ⟨⟨out.served, some status⟩, by rw [issueAll, hfirst]; dsimp only; rw [hout], hserved⟩

/-- A claim without presence has none at any time. -/
theorem presenceAt_of_none {claim : Claim} (hnone : claim.presence = .none) (now : SystemTime) :
    presenceAt claim now = .none := by
  unfold presenceAt
  split_ifs
  · exact hnone
  · rfl

/-- Every claim a started daemon gathers is at the level of its source. -/
theorem level_of_started {C : Crypto} {M : Machine W} {features : Features} {signer : SvidSigner L}
    {w₀ : W} {service : WorkloadApiService L W}
    (hstart : (start C M features signer w₀).1 = .ok service) {challenge : Bytes}
    {requested : Option SpiffeId} {w : W} {claims : List Claim} {claim : Claim}
    (hclaims : (gather challenge requested service.attestors w).value = .ok claims)
    (hclaim : claim ∈ claims) : claim.presence = .none ∧
      claim.assurance = if claim.source = str "tailscale" then .iaa2 else .iaa1 := by
  obtain ⟨attestors, hprobe, rfl⟩ := start_eq_ok hstart
  obtain ⟨probes, rfl⟩ := probeSources_yields_registryOf C M features w₀ attestors hprobe
  exact level_of_backed (graded_registryOf C M features probes)
    (backed_of_mem_gather hclaims hclaim)

/-- What a daemon says of its identities: every claim behind an SVID is without presence, of the
second tier where tailscaled vouches for it and of the first otherwise, and the token and the hint
say just that. Assumes: a daemon that was started on some machine. -/
theorem started_levels (C : Crypto) (M : Machine W) (features : Features) (signer : SvidSigner L)
    (w₀ : W) (service : WorkloadApiService L W)
    (hstart : (start C M features signer w₀).1 = .ok service) (peer : Option ConsumerIdentity)
    (req : JwtsvidRequest) (readings : Readings) (w : W) :
    ∀ served ∈ (service.fetchJwtsvid C peer req readings w).served,
      let level : IdentityAssurance :=
        if served.1.source = str "tailscale" then .iaa2 else .iaa1
      served.1.presence = .none ∧ served.1.assurance = level ∧
      (∃ age, served.2.hint = SvidHint.display ⟨served.1.source, level, .none, age⟩) ∧
      ∃ (signedAt : SystemTime) (audiences : List Str) (hire : HireClaims),
        hire.identityAssurance = level ∧ hire.presence.present = false ∧
        service.signer.signJwtSvid C signedAt served.2.spiffeId audiences hire.toValue =
          .ok served.2.svid := by
  intro served hserved level
  obtain ⟨claim, svid⟩ := served
  obtain ⟨admitted, challenge, claims, j, -, -, hclaims, hclaim, hissue⟩ :=
    WorkloadApiService.issued_of_mem_served hserved
  obtain ⟨hpresence, hassurance⟩ := level_of_started hstart hclaims hclaim
  obtain ⟨-, hsign, hid, hhint⟩ := issue_eq_ok_iff.mp hissue
  have hdecayed := presenceAt_of_none hpresence readings.now
  have habsent : (hireExt claim readings.now).presence.present = false := by
    change decide (presenceAt claim readings.now ≠ .none) = false
    rw [hdecayed]
    rfl
  rw [← hid] at hsign
  refine ⟨hpresence, hassurance, ⟨(svidHint claim readings.now).age, ?_⟩, readings.signedAt j,
    admitted.exts.map (·.audience), hireExt claim readings.now, hassurance, habsent, hsign⟩
  change svid.hint = _
  rw [hhint, svidHint, hdecayed, hassurance]

/-- The account of a machine is served at the first tier. -/
theorem started_levels_account :
    (start .transparent (aliceMachine false) ⟨false, false⟩ aliceSigner ()).1 =
        .ok (aliceService false) ∧
      ((aliceService false).fetchJwtsvid .transparent (some WorkloadApiService.someBinary)
        everyIdentity (WorkloadApiService.readingsAt (WorkloadApiService.second 101))
        ()).served.length = 1 ∧
      ∀ served ∈ ((aliceService false).fetchJwtsvid .transparent
          (some WorkloadApiService.someBinary) everyIdentity
          (WorkloadApiService.readingsAt (WorkloadApiService.second 101)) ()).served,
        served.1.presence = .none := by
  refine ⟨start_alice false, by with_unfolding_all decide, fun served hserved ↦ ?_⟩
  exact (started_levels .transparent (aliceMachine false) ⟨false, false⟩ aliceSigner ()
    (aliceService false) (start_alice false) _ _ _ () served hserved).1

/-- A request whose audience asks for presence is refused, whatever the machine holds: no SVID is
served, and the reply is a status and no panic. Assumes: a daemon that was started on some machine,
and an audience that asks for a presence level. -/
theorem presence_never_served (C : Crypto) (M : Machine W) (features : Features)
    (signer : SvidSigner L) (w₀ : W) (service : WorkloadApiService L W)
    (hstart : (start C M features signer w₀).1 = .ok service) (peer : Option ConsumerIdentity)
    (req : JwtsvidRequest) (raw : Str) (hraw : raw ∈ req.audience) (ext : AudienceExtensions)
    (hparse : AudienceExtensions.parse raw = .ok ext) (hasks : ext.requirePresence ≠ .none)
    (readings : Readings) (w : W) :
    (service.fetchJwtsvid C peer req readings w).served = [] ∧
      ∃ status, (service.fetchJwtsvid C peer req readings w).reply = .error (.error status) := by
  cases haccept : acceptRequest peer req with
  | error status =>
    rw [WorkloadApiService.fetchJwtsvid_of_refused haccept]
    exact ⟨rfl, status, rfl⟩
  | ok admitted =>
    obtain ⟨-, -, hexts, -⟩ := acceptRequest_eq_ok_iff.mp haccept
    obtain ⟨ext', hext', hparse'⟩ := exists_parsed hexts hraw
    obtain rfl : ext = ext' := Except.ok.inj (hparse.symm.trans hparse')
    cases hchallenge : readings.challenge with
    | none =>
      unfold WorkloadApiService.fetchJwtsvid
      rw [haccept, hchallenge]
      exact ⟨rfl, _, rfl⟩
    | some challenge =>
      cases hclaims : (gather challenge.1 admitted.requested service.attestors w).value with
      | error status =>
        have hreply := WorkloadApiService.reply_of_gather_error (C := C) haccept hchallenge hclaims
        rcases WorkloadApiService.reply_cases C service peer req readings w with
          ⟨-, -, hserved⟩ | ⟨hok, -⟩
        · exact ⟨hserved, status, hreply⟩
        · cases hreply.symm.trans hok
      | ok claims =>
        -- No claim has the presence that is asked for, so the loop refuses them all.
        have hrefused : ∀ j, ∀ claim ∈ claims,
            ∃ status, service.tryIssue C admitted readings j claim = .error (.error status) := by
          intro j claim hclaim
          obtain ⟨hpresence, -⟩ := level_of_started hstart hclaims hclaim
          refine issue_refused ?_
          rw [Bool.eq_false_iff]
          intro hgates
          have hlevel := (passesGates_iff.mp hgates ext hext').1
          rw [presenceAt_of_none hpresence] at hlevel
          exact hasks (le_antisymm hlevel (PresenceLevel.none_le _))
        obtain ⟨out, hout, hserved⟩ := issueAll_of_refused (i := 0) hrefused
        obtain ⟨hsame, hreply⟩ :=
          WorkloadApiService.served_of_gather haccept hchallenge hclaims hout
        refine ⟨hsame.trans hserved, ?_⟩
        rw [hreply]
        unfold Issued.reply
        rw [hserved]
        exact ⟨_, rfl⟩

/-- An audience that asks for hardware presence is refused on a machine that has an account to
serve. -/
theorem presence_never_served_hardware :
    (start .transparent (aliceMachine false) ⟨false, false⟩ aliceSigner ()).1 =
        .ok (aliceService false) ∧
      ((aliceService false).fetchJwtsvid .transparent (some WorkloadApiService.someBinary)
        ⟨[str "https://rp.example?hire_require_presence=hardware"], []⟩
        (WorkloadApiService.readingsAt (WorkloadApiService.second 101)) ()).served = [] :=
  ⟨start_alice false, (presence_never_served .transparent (aliceMachine false) ⟨false, false⟩
    aliceSigner () (aliceService false) (start_alice false) _ _
    (str "https://rp.example?hire_require_presence=hardware") List.mem_cons_self
    ⟨str "https://rp.example", .hardware, none⟩ (by with_unfolding_all decide) (by decide) _
    ()).1⟩

end Serve

end Hire.Hired
