import Hire.Grpc.Service

/-!
# Two worlds that differ in their paths

The root identity reaches a consumer only through its pseudonym. This is a statement about two runs
of the same unnamed request: in the second world every candidate path is renamed by an injective
map, the accounts and subjects in platform and daemon evidence are renamed along, and display
names, attainable tiers and signature bytes are arbitrary; everything else is equal, and the two
outside worlds may evolve differently as long as they keep answering alike (`SameAttestor`, over a
relation on the worlds).

The relation is carried through the run, stage by stage. Renaming keeps which evidence binds, so a
claim is derived in both worlds or in neither, with the same tier (`derive_renamed`); the trace of
claims is renamed element by element (`proveSilent_renamed`); ranking looks at assurance and at
which URIs coincide, and for trust domains without a slash renaming keeps both
(`rankClaims_renamed`); a claim is issued in both worlds or refused with the same status, and the
two SVIDs have the same hint, audiences and extension (`issue_renamed`). `root_behind_pseudonym`
is the result for whole runs.
-/

set_option autoImplicit false
set_option relaxedAutoImplicit false

namespace Hire.Grpc

open Hire.Library Hire.Core Hire.Attestors

/-- Two answers of the same kind: both are errors, or both are values and related. -/
inductive SameAnswer {ε α β : Type} (R : α → β → Prop) : Except ε α → Except ε β → Prop
  | error (e e' : ε) : SameAnswer R (.error e) (.error e')
  | ok {a : α} {b : β} (h : R a b) : SameAnswer R (.ok a) (.ok b)

section Renamed

variable (ρ : Str → Str)

/-! ### Renamed candidates, evidence and claims -/

/-- A candidate with its path renamed, and any display name and attainable tier. -/
structure SameCandidate (candidate candidate' : Candidate) : Prop where
  source : candidate'.source = candidate.source
  domain : candidate'.domain = candidate.domain
  path : candidate'.path = ρ candidate.path
  proofCost : candidate'.proofCost = candidate.proofCost
  payload : '/' ∉ candidate.domain.toTrustDomain.payload

/-- Evidence with its account or subject renamed, and any signature bytes. -/
inductive SameEvidence : Evidence → Evidence → Prop
  | possession {s s' : ChallengeSignature} (hchallenge : s'.challenge = s.challenge)
      (hobserved : s'.observedAt = s.observedAt) : SameEvidence (.possession s) (.possession s')
  | idpVerified {token : VerifiedToken} (hpayload : '/' ∉ token.issuerDomain) :
      SameEvidence (.idpVerified token) (.idpVerified token)
  | hardwarePresence (touch : HardwareTouch) :
      SameEvidence (.hardwarePresence touch) (.hardwarePresence touch)
  | platformAssertion (account : Str) (askedAt : SystemTime) :
      SameEvidence (.platformAssertion ⟨account, askedAt⟩)
        (.platformAssertion ⟨ρ account, askedAt⟩)
  | daemonAssertion (subject : Str) (askedAt : SystemTime) :
      SameEvidence (.daemonAssertion ⟨subject, askedAt⟩) (.daemonAssertion ⟨ρ subject, askedAt⟩)

/-- A claim with its path renamed, and any display name. -/
structure SameClaim (claim claim' : Claim) : Prop where
  source : claim'.source = claim.source
  assurance : claim'.assurance = claim.assurance
  presence : claim'.presence = claim.presence
  attestedAt : claim'.attestedAt = claim.attestedAt
  spiffeId : claim'.spiffeId = ⟨claim.spiffeId.trustDomain, ρ claim.spiffeId.path⟩
  payload : '/' ∉ claim.spiffeId.trustDomain.payload

/-- Two attestors that answer alike: from related worlds they see renamed candidates, prove renamed
evidence of renamed candidates, and leave related worlds behind. -/
structure SameAttestor {W W' : Type} (S : W → W' → Prop) (attestor : Attestor W)
    (attestor' : Attestor W') : Prop where
  enumerate : ∀ w w', S w w' →
    SameAnswer (List.Forall₂ (SameCandidate ρ)) (attestor.enumerate w).1
        (attestor'.enumerate w').1 ∧
      S (attestor.enumerate w).2 (attestor'.enumerate w').2
  prove : ∀ candidate candidate' challenge w w', SameCandidate ρ candidate candidate' → S w w' →
    SameAnswer (List.Forall₂ (SameEvidence ρ)) (attestor.prove candidate challenge w).1
        (attestor'.prove candidate' challenge w').1 ∧
      S (attestor.prove candidate challenge w).2 (attestor'.prove candidate' challenge w').2

end Renamed

variable {ρ : Str → Str}

/-! ### Deriving and ranking -/

/-- Renamed evidence establishes the same tier. -/
theorem SameEvidence.tier {e e' : Evidence} (h : SameEvidence ρ e e') : e.tier = e'.tier := by
  cases h with
  | possession hchallenge hobserved => simp [Evidence.tier, hobserved]
  | _ => rfl

/-- Renamed evidence anchors a claim to the same issuer. -/
theorem SameEvidence.issuerAnchor {e e' : Evidence} (h : SameEvidence ρ e e') :
    e.issuerAnchor = e'.issuerAnchor := by
  cases h <;> rfl

/-- Renamed evidence binds to the renamed candidate exactly when it did before. -/
theorem SameEvidence.bindsTo (hρ : Function.Injective ρ) {candidate candidate' : Candidate}
    (hcandidate : SameCandidate ρ candidate candidate') (challenge : Bytes) {e e' : Evidence}
    (h : SameEvidence ρ e e') :
    e.bindsTo candidate challenge = e'.bindsTo candidate' challenge := by
  cases h with
  | possession hchallenge hobserved => simp [Evidence.bindsTo, hchallenge]
  | idpVerified hpayload => rfl
  | hardwarePresence touch => rfl
  | platformAssertion account askedAt =>
    simp [Evidence.bindsTo, hcandidate.path, hρ.eq_iff]
  | daemonAssertion subject askedAt =>
    simp [Evidence.bindsTo, hcandidate.path, hρ.eq_iff]

theorem foldl_absorb_renamed {tier : Tier} {evidence evidence' : List Evidence}
    (h : List.Forall₂ (SameEvidence ρ) evidence evidence') :
    (evidence.map Evidence.tier).foldl Tier.absorb tier =
      (evidence'.map Evidence.tier).foldl Tier.absorb tier := by
  induction h generalizing tier with
  | nil => rfl
  | cons hhead _ ih => simp only [List.map_cons, List.foldl_cons, hhead.tier, ih]

theorem findSome_anchor_renamed {evidence evidence' : List Evidence}
    (h : List.Forall₂ (SameEvidence ρ) evidence evidence') :
    evidence.findSome? Evidence.issuerAnchor = evidence'.findSome? Evidence.issuerAnchor := by
  induction h with
  | nil => rfl
  | cons hhead _ ih => simp only [List.findSome?_cons, hhead.issuerAnchor, ih]

/-- The anchor that renamed evidence names has no slash in its payload. -/
theorem slash_notMem_anchor {evidence evidence' : List Evidence} {domain : TrustDomain}
    (h : List.Forall₂ (SameEvidence ρ) evidence evidence') (hdomain : '/' ∉ domain.payload) :
    '/' ∉ ((evidence.findSome? Evidence.issuerAnchor).getD domain).payload := by
  induction h with
  | nil => exact hdomain
  | cons hhead _ ih =>
    rw [List.findSome?_cons]
    cases hhead with
    | idpVerified hpayload => exact hpayload
    | possession _ _ => exact ih
    | hardwarePresence _ => exact ih
    | platformAssertion _ _ => exact ih
    | daemonAssertion _ _ => exact ih

/-- A claim is derived in both worlds or in neither, and the one is the other renamed. -/
theorem derive_renamed (hρ : Function.Injective ρ) {candidate candidate' : Candidate}
    (hcandidate : SameCandidate ρ candidate candidate') (challenge : Bytes)
    {evidence evidence' : List Evidence}
    (hevidence : List.Forall₂ (SameEvidence ρ) evidence evidence') :
    Option.Rel (SameClaim ρ) (Claim.derive candidate challenge evidence)
      (Claim.derive candidate' challenge evidence') := by
  have hbound : List.Forall₂ (SameEvidence ρ) (evidence.filter (·.bindsTo candidate challenge))
      (evidence'.filter (·.bindsTo candidate' challenge)) :=
    List.rel_filter
      (fun _ _ he ↦ Iff.of_eq (congrArg (· = true) (he.bindsTo hρ hcandidate challenge))) hevidence
  unfold Claim.derive
  generalize evidence.filter (·.bindsTo candidate challenge) = bound at hbound ⊢
  generalize evidence'.filter (·.bindsTo candidate' challenge) = bound' at hbound ⊢
  cases hbound with
  | nil => exact .none
  | cons hhead htail =>
    have hanchor := findSome_anchor_renamed (.cons hhead htail)
    have hslash := slash_notMem_anchor (.cons hhead htail) hcandidate.payload
    simp only [hhead.tier, foldl_absorb_renamed htail]
    refine .some ⟨hcandidate.source, rfl, rfl, rfl, ?_, hslash⟩
    rw [hanchor, hcandidate.domain, hcandidate.path]

/-- Renaming keeps which claims have the same URI. -/
theorem uri_eq_iff_renamed (hρ : Function.Injective ρ) {claim claim' other other' : Claim}
    (h : SameClaim ρ claim claim') (hother : SameClaim ρ other other') :
    claim.spiffeId.uri = other.spiffeId.uri ↔ claim'.spiffeId.uri = other'.spiffeId.uri := by
  have hslash := TrustDomain.slash_notMem_display h.payload
  have hslash' := TrustDomain.slash_notMem_display hother.payload
  rw [h.spiffeId, hother.spiffeId]
  constructor
  · intro huri
    rw [SpiffeId.uri_inj_of_slash_free hslash hslash' huri]
  · intro huri
    have hrenamed := @SpiffeId.uri_inj_of_slash_free
      ⟨claim.spiffeId.trustDomain, ρ claim.spiffeId.path⟩
      ⟨other.spiffeId.trustDomain, ρ other.spiffeId.path⟩ hslash hslash' huri
    obtain ⟨htd, hpath⟩ := SpiffeId.mk.inj hrenamed
    have hids : claim.spiffeId = other.spiffeId := by
      calc claim.spiffeId = ⟨claim.spiffeId.trustDomain, claim.spiffeId.path⟩ := rfl
        _ = ⟨other.spiffeId.trustDomain, other.spiffeId.path⟩ := by rw [htd, hρ hpath]
    rw [hids]

/-- Renamed claims are ranked and thinned out alike. -/
theorem rankClaims_renamed (hρ : Function.Injective ρ) {proven proven' : List Claim}
    (h : List.Forall₂ (SameClaim ρ) proven proven') :
    List.Forall₂ (SameClaim ρ) (rankClaims proven) (rankClaims proven') :=
  forall₂_bestPerKey (fun _ _ hclaim ↦ hclaim.assurance.symm)
    (fun _ _ _ _ hclaim hother ↦ uri_eq_iff_renamed hρ hclaim hother) h

/-! ### Asking the attestors -/

section Gather

variable {W W' : Type} {S : W → W' → Prop}

/-- The attestors of two lists answer alike and see renamed candidates. -/
def SamePair (ρ : Str → Str) (S : W → W' → Prop) (pair : Attestor W × Candidate)
    (pair' : Attestor W' × Candidate) : Prop :=
  SameAttestor ρ S pair.1 pair'.1 ∧ SameCandidate ρ pair.2 pair'.2

theorem candidatesOf_renamed {attestor : Attestor W} {attestor' : Attestor W'}
    (hattestor : SameAttestor ρ S attestor attestor')
    {answer answer' : Except AttestorError (List Candidate)}
    (h : SameAnswer (List.Forall₂ (SameCandidate ρ)) answer answer') :
    List.Forall₂ (SamePair ρ S) (candidatesOf attestor answer)
      (candidatesOf attestor' answer') := by
  cases h with
  | error e e' => exact .nil
  | ok hcandidates =>
    exact List.rel_map (fun _ _ hcandidate ↦ ⟨hattestor, hcandidate⟩) hcandidates

/-- Enumeration shows the same candidates, renamed. -/
theorem enumerateAll_renamed {attestors : List (Attestor W)} {attestors' : List (Attestor W')}
    (h : List.Forall₂ (SameAttestor ρ S) attestors attestors') {w : W} {w' : W'} (hw : S w w') :
    List.Forall₂ (SamePair ρ S) (enumerateAll attestors w).value
        (enumerateAll attestors' w').value ∧
      S (enumerateAll attestors w).world (enumerateAll attestors' w').world := by
  induction h generalizing w w' with
  | nil => exact ⟨.nil, hw⟩
  | cons hattestor _ ih =>
    obtain ⟨hanswer, hworld⟩ := hattestor.enumerate w w' hw
    obtain ⟨hfound, hrest⟩ := ih hworld
    exact ⟨List.rel_append (candidatesOf_renamed hattestor hanswer) hfound, hrest⟩

theorem silentClaim_renamed (hρ : Function.Injective ρ) {candidate candidate' : Candidate}
    (hcandidate : SameCandidate ρ candidate candidate') (challenge : Bytes)
    {answer answer' : Except AttestorError (List Evidence)}
    (h : SameAnswer (List.Forall₂ (SameEvidence ρ)) answer answer') :
    List.Forall₂ (SameClaim ρ) (silentClaim candidate challenge answer).toList
      (silentClaim candidate' challenge answer').toList := by
  cases h with
  | error e e' => exact .nil
  | @ok evidence evidence' hevidence =>
    have hderived := derive_renamed hρ hcandidate challenge hevidence
    change List.Forall₂ _ (Claim.derive candidate challenge evidence).toList
      (Claim.derive candidate' challenge evidence').toList
    generalize Claim.derive candidate challenge evidence = derived at hderived ⊢
    generalize Claim.derive candidate' challenge evidence' = derived' at hderived ⊢
    cases hderived with
    | none => exact .nil
    | some hclaim => exact .cons hclaim .nil

/-- The silent candidates yield the same claims, renamed. -/
theorem proveSilent_renamed (hρ : Function.Injective ρ) (challenge : Bytes)
    {found : List (Attestor W × Candidate)} {found' : List (Attestor W' × Candidate)}
    (h : List.Forall₂ (SamePair ρ S) found found') {w : W} {w' : W'} (hw : S w w') :
    List.Forall₂ (SameClaim ρ) (proveSilent challenge found w).value
        (proveSilent challenge found' w').value ∧
      S (proveSilent challenge found w).world (proveSilent challenge found' w').world := by
  induction h generalizing w w' with
  | nil => exact ⟨.nil, hw⟩
  | @cons pair pair' _ _ hpair _ ih =>
    obtain ⟨attestor, candidate⟩ := pair
    obtain ⟨attestor', candidate'⟩ := pair'
    obtain ⟨hattestor, hcandidate⟩ := hpair
    unfold proveSilent
    rw [hcandidate.proofCost]
    by_cases hcost : candidate.proofCost = .silent
    · rw [if_neg (not_not.mpr hcost), if_neg (not_not.mpr hcost)]
      obtain ⟨hanswer, hworld⟩ := hattestor.prove _ _ challenge w w' hcandidate hw
      obtain ⟨hproven, hrest⟩ := ih hworld
      exact ⟨List.rel_append (silentClaim_renamed hρ hcandidate challenge hanswer) hproven, hrest⟩
    · rw [if_pos hcost, if_pos hcost]
      exact ih hw

/-- An unnamed request gathers the same claims, renamed. -/
theorem gather_renamed (hρ : Function.Injective ρ) (challenge : Bytes)
    {attestors : List (Attestor W)} {attestors' : List (Attestor W')}
    (h : List.Forall₂ (SameAttestor ρ S) attestors attestors') {w : W} {w' : W'} (hw : S w w') :
    ∃ claims claims', (gather challenge none attestors w).value = .ok claims ∧
      (gather challenge none attestors' w').value = .ok claims' ∧
      List.Forall₂ (SameClaim ρ) claims claims' := by
  obtain ⟨hfound, hworld⟩ := enumerateAll_renamed h hw
  obtain ⟨hproven, -⟩ := proveSilent_renamed hρ challenge hfound hworld
  exact ⟨_, _, rfl, rfl, rankClaims_renamed hρ hproven⟩

end Gather

/-! ### Issuing -/

/-- Two results: the same failure, or two values that are related. -/
inductive SameResult {ε α β : Type} (R : α → β → Prop) : Except ε α → Except ε β → Prop
  | error (e : ε) : SameResult R (.error e) (.error e)
  | ok {a : α} {b : β} (h : R a b) : SameResult R (.ok a) (.ok b)

section Issue

variable {L : TokenLib} {C : Crypto} {signer : SvidSigner L}

/-- Two SVIDs that differ in the pseudonym only. The hints are equal; the SPIFFE IDs have the same
trust domain and paths of sixty-four pseudonym digits; and the tokens encode the same header,
instants, audiences and extension, each with its own SPIFFE ID. -/
structure SameSvid (C : Crypto) (signer : SvidSigner L) (svid svid' : Jwtsvid L) : Prop where
  hint : svid.hint = svid'.hint
  spiffeId : ∃ trustDomain digits digits',
    svid.spiffeId = (SpiffeId.pseudonymous trustDomain digits).uri ∧
      svid'.spiffeId = (SpiffeId.pseudonymous trustDomain digits').uri ∧
      digits.length = 64 ∧ digits'.length = 64 ∧ ∀ c ∈ digits ++ digits', c ∈ hexDigits
  token : ∃ secs audiences hireExt,
    L.encode (signer.svidHeader C)
        (SvidSigner.svidClaims secs svid.spiffeId audiences hireExt).toValue signer.encodingKey =
          .ok svid.svid ∧
      L.encode (signer.svidHeader C)
        (SvidSigner.svidClaims secs svid'.spiffeId audiences hireExt).toValue signer.encodingKey =
          .ok svid'.svid

/-- A renamed claim publishes the same hint, extension and gates. -/
theorem SameClaim.published {claim claim' : Claim} (h : SameClaim ρ claim claim')
    (now : SystemTime) :
    claim'.ageAt now = claim.ageAt now ∧ presenceAt claim' now = presenceAt claim now ∧
      hireExt claim' now = hireExt claim now ∧ svidHint claim' now = svidHint claim now := by
  have hage : claim'.ageAt now = claim.ageAt now := by
    unfold Claim.ageAt
    rw [h.attestedAt]
  have hpresence : presenceAt claim' now = presenceAt claim now := by
    unfold presenceAt
    rw [hage, h.presence]
  refine ⟨hage, hpresence, ?_, ?_⟩
  · unfold hireExt publishedAt
    rw [hpresence, h.source, h.assurance, h.attestedAt, h.spiffeId]
  · unfold svidHint
    rw [hage, hpresence, h.source, h.assurance]

/-- The pseudonyms of a renamed root differ in their digits only. -/
theorem pseudonymousId_renamed {claim claim' : Claim} (h : SameClaim ρ claim claim')
    (consumer : ConsumerIdentity) :
    ∃ digits digits',
      signer.pseudonymousId C claim.spiffeId consumer =
          SpiffeId.pseudonymous claim.spiffeId.trustDomain digits ∧
        signer.pseudonymousId C claim'.spiffeId consumer =
          SpiffeId.pseudonymous claim.spiffeId.trustDomain digits' ∧
        digits.length = 64 ∧ digits'.length = 64 ∧ ∀ c ∈ digits ++ digits', c ∈ hexDigits := by
  have hlength : ∀ output : ByteArr 32, (hex output.1).length = 64 := by
    intro output
    rw [hex_length, output.2]
  rw [h.spiffeId]
  refine ⟨_, _, rfl, rfl, hlength _, hlength _, fun c hc ↦ ?_⟩
  rcases List.mem_append.mp hc with hc | hc
  · exact mem_hexDigits_of_mem_hex hc
  · exact mem_hexDigits_of_mem_hex hc

/-- Signing two SPIFFE IDs at one instant fails alike or succeeds for both. Assumes: encoding fails
whatever the payload is, or never. -/
theorem signJwtSvid_renamed (hencode : L.UniformEncode) (clock : SystemTime)
    (spiffeId spiffeId' : Str) (audiences : List Str) (hireExt : Json) :
    SameResult
      (fun token token' ↦ ∃ secs,
        L.encode (signer.svidHeader C)
            (SvidSigner.svidClaims secs spiffeId audiences hireExt).toValue signer.encodingKey =
              .ok token ∧
          L.encode (signer.svidHeader C)
            (SvidSigner.svidClaims secs spiffeId' audiences hireExt).toValue signer.encodingKey =
              .ok token')
      (signer.signJwtSvid C clock spiffeId audiences hireExt)
      (signer.signJwtSvid C clock spiffeId' audiences hireExt) := by
  unfold SvidSigner.signJwtSvid
  cases durationSince clock unixEpoch with
  | none => exact .error _
  | some sinceEpoch =>
    rcases hencode (signer.svidHeader C) signer.encodingKey with ⟨message, hfails⟩ | hencodes
    · simp only [hfails]
      exact .error _
    · obtain ⟨token, htoken⟩ := hencodes
        (SvidSigner.svidClaims sinceEpoch.asSecs spiffeId audiences hireExt).toValue
      obtain ⟨token', htoken'⟩ := hencodes
        (SvidSigner.svidClaims sinceEpoch.asSecs spiffeId' audiences hireExt).toValue
      simp only [htoken, htoken']
      exact .ok ⟨_, htoken, htoken'⟩

/-- A claim and its renaming are refused alike, or issued as SVIDs that differ in the pseudonym
only. Assumes: encoding fails whatever the payload is, or never. -/
theorem issue_renamed (hencode : L.UniformEncode) {claim claim' : Claim}
    (h : SameClaim ρ claim claim') (consumer : ConsumerIdentity) (audiences : List Str)
    (require : PresenceLevel) (maxAge : Option Duration) (now signedAt : SystemTime) :
    SameResult (SameSvid C signer)
      (issue C signer claim consumer audiences require maxAge now signedAt)
      (issue C signer claim' consumer audiences require maxAge now signedAt) := by
  obtain ⟨hage, hpresence, hext, hhint⟩ := h.published now
  obtain ⟨digits, digits', hid, hid', hdigits⟩ :=
    @pseudonymousId_renamed _ L C signer _ _ h consumer
  unfold issue
  rw [hage, hpresence, hext, hhint, hid, hid']
  by_cases hold : (!withinMaxAge (claim.ageAt now) maxAge) = true
  · rw [if_pos hold, if_pos hold]
    exact .error _
  rw [if_neg hold, if_neg hold]
  by_cases hweak : presenceAt claim now < require
  · rw [if_pos hweak, if_pos hweak]
    exact .error _
  rw [if_neg hweak, if_neg hweak]
  dsimp only
  have hsign := @signJwtSvid_renamed L C signer hencode signedAt
    (SpiffeId.pseudonymous claim.spiffeId.trustDomain digits).uri
    (SpiffeId.pseudonymous claim.spiffeId.trustDomain digits').uri audiences
    (hireExt claim now).toValue
  generalize signer.signJwtSvid C signedAt
    (SpiffeId.pseudonymous claim.spiffeId.trustDomain digits).uri audiences
    (hireExt claim now).toValue = signed at hsign ⊢
  generalize signer.signJwtSvid C signedAt
    (SpiffeId.pseudonymous claim.spiffeId.trustDomain digits').uri audiences
    (hireExt claim now).toValue = signed' at hsign ⊢
  cases hsign with
  | error fault => cases fault <;> exact .error _
  | ok htokens =>
    obtain ⟨secs, htoken, htoken'⟩ := htokens
    exact .ok ⟨rfl, ⟨_, digits, digits', rfl, rfl, hdigits⟩, ⟨secs, _, _, htoken, htoken'⟩⟩

/-- The loop serves renamed claims alike, with the same first refusal. -/
theorem issueAll_renamed {tryIssue : ℕ → Claim → Except (Fault Status) (Jwtsvid L)}
    (hissue : ∀ i claim claim', SameClaim ρ claim claim' →
      SameResult (SameSvid C signer) (tryIssue i claim) (tryIssue i claim'))
    {claims claims' : List Claim} (h : List.Forall₂ (SameClaim ρ) claims claims') (i : ℕ) :
    SameResult
      (fun out out' : Issued L ↦
        List.Forall₂ (fun pair pair' ↦ SameSvid C signer pair.2 pair'.2) out.served out'.served ∧
          out.refusal = out'.refusal)
      (issueAll tryIssue i claims) (issueAll tryIssue i claims') := by
  induction h generalizing i with
  | nil => exact .ok ⟨.nil, rfl⟩
  | @cons claim claim' rest rest' hclaim _ ih =>
    have hfirst := hissue i claim claim' hclaim
    have hrest := ih (i + 1)
    unfold issueAll
    generalize tryIssue i claim = first at hfirst ⊢
    generalize tryIssue i claim' = first' at hfirst ⊢
    generalize issueAll tryIssue (i + 1) rest = later at hrest ⊢
    generalize issueAll tryIssue (i + 1) rest' = later' at hrest ⊢
    cases hfirst with
    | error fault =>
      cases fault with
      | panic message => exact .error _
      | error status =>
        cases hrest with
        | error message => exact .error _
        | ok hout => exact .ok ⟨hout.1, rfl⟩
    | ok hsvid =>
      cases hrest with
      | error message => exact .error _
      | ok hout => exact .ok ⟨.cons hsvid hout.1, hout.2⟩

end Issue

namespace WorkloadApiService

variable {L : TokenLib} {W W' : Type} {S : W → W' → Prop}

/-- The root identity reaches the consumer only through its pseudonym. Two services with the same
signer, whose attestors answer alike up to a renaming of paths, reply to one unnamed request with
the same failure, or with equally many SVIDs in the same order that differ in the pseudonym only.
Assumes: the renaming is injective, the attestors answer alike and the worlds are related, the
request names no SPIFFE ID, and encoding fails whatever the payload is, or never. -/
theorem root_behind_pseudonym (C : Crypto) (hencode : L.UniformEncode)
    (hρ : Function.Injective ρ) (service : WorkloadApiService L W)
    (service' : WorkloadApiService L W') (hsigner : service'.signer = service.signer)
    (hattestors : List.Forall₂ (SameAttestor ρ S) service.attestors service'.attestors)
    (peer : Option ConsumerIdentity) (req : JwtsvidRequest) (hname : req.spiffeId = [])
    (readings : Readings) (w : W) (w' : W') (hw : S w w') :
    SameResult (List.Forall₂ (SameSvid C service.signer))
      (service.fetchJwtsvid C peer req readings w).reply
      (service'.fetchJwtsvid C peer req readings w').reply := by
  cases hadmitted : acceptRequest peer req with
  | error status =>
    rw [fetchJwtsvid_of_refused hadmitted, fetchJwtsvid_of_refused hadmitted]
    exact .error _
  | ok admitted =>
    have hrequested : admitted.requested = none := by
      obtain ⟨-, -, -, hcase⟩ := acceptRequest_eq_ok_iff.mp hadmitted
      rcases hcase with ⟨-, hnone⟩ | ⟨hne, -⟩
      · exact hnone
      · exact absurd hname hne
    unfold fetchJwtsvid
    simp only [hadmitted, hrequested]
    cases readings.challenge with
    | none => exact .error _
    | some challenge =>
      obtain ⟨claims, claims', hclaims, hclaims', hsame⟩ :=
        gather_renamed hρ challenge.1 hattestors hw
      have hserve := @issueAll_renamed ρ L C service.signer (service.tryIssue C admitted readings)
        (fun i claim claim' hclaim ↦ issue_renamed hencode hclaim _ _ _ _ _ _) _ _ hsame 0
      have hserve' : service'.serve C admitted readings claims' =
          issueAll (service.tryIssue C admitted readings) 0 claims' := by
        unfold serve tryIssue
        rw [hsigner]
      simp only [hclaims, hclaims', hserve']
      rw [serve]
      generalize issueAll (service.tryIssue C admitted readings) 0 claims = served at hserve ⊢
      generalize issueAll (service.tryIssue C admitted readings) 0 claims' = served' at hserve ⊢
      cases hserve with
      | error message => exact .error _
      | @ok out out' hout =>
        obtain ⟨hserved, hrefusal⟩ := hout
        dsimp only
        unfold Issued.reply
        rw [hrefusal]
        cases hempty : out.served with
        | nil =>
          rw [hempty] at hserved
          rw [List.forall₂_nil_left_iff.mp hserved]
          exact .error _
        | cons pair rest =>
          rw [hempty] at hserved
          obtain ⟨pair', rest', hpair, hrest, hcons⟩ := List.forall₂_cons_left_iff.mp hserved
          rw [hcons]
          exact .ok (List.forall₂_map_left_iff.mpr (List.forall₂_map_right_iff.mpr
            (.cons hpair hrest)))

/-- A source that names the account of the process by its path. -/
def accountSource (path displayName : Str) : Attestor Unit :=
  .constant (str "unix")
    [(Candidate.new (str "unix") .sshLocal path displayName).withProofCost .silent]
    [.platformAssertion ⟨path, 0⟩]

/-- The account source of a renamed path answers alike. -/
theorem sameAttestor_accountSource (path displayName displayName' : Str) :
    SameAttestor ρ (fun _ _ ↦ True) (accountSource path displayName)
      (accountSource (ρ path) displayName') where
  enumerate _ _ _ := ⟨.ok (.cons ⟨rfl, rfl, rfl, rfl, List.not_mem_nil⟩ .nil), trivial⟩
  prove _ _ _ _ _ _ _ := ⟨.ok (.cons (.platformAssertion path 0) .nil), trivial⟩

/-- Two accounts, one request: both worlds reply with one SVID. -/
theorem root_behind_pseudonym_accounts :
    let request : JwtsvidRequest := ⟨[str "rp"], []⟩
    let peer : Option ConsumerIdentity := some (.binarySha256 (fill 32 1))
    let run (path displayName : Str) := (transparent [accountSource path displayName]).fetchJwtsvid
      .transparent peer request (readingsAt 0) ()
    (run (str "unix/0") (str "root")).reply.toOption.map List.length = some 1 ∧
      SameResult (List.Forall₂ (SameSvid .transparent (transparent []).signer))
        (run (str "unix/0") (str "root")).reply
        (run ('u' :: str "unix/0") (str "somebody")).reply := by
  refine ⟨by with_unfolding_all decide, ?_⟩
  exact root_behind_pseudonym .transparent (fun _ _ ↦ Or.inr fun _ ↦ ⟨_, rfl⟩)
    (List.cons_injective (a := 'u')) (transparent [accountSource (str "unix/0") (str "root")])
    (transparent [accountSource ('u' :: str "unix/0") (str "somebody")]) rfl
    (.cons (sameAttestor_accountSource _ _ _) .nil) _ _ rfl (readingsAt 0) () () trivial

end WorkloadApiService

end Hire.Grpc
