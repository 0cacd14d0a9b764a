import Hire.Attestors.Attestor
import Hire.Core.Audience
import Hire.Core.Hvid
import Hire.Core.TrustBundle
import Hire.Library.Ranking

/-!
# The Workload API service

`hire-grpc/src/service.rs`. A request is admitted or refused before any attestor is called
(`acceptRequest`); then every attestor is asked for its candidates (`enumerateAll`), and the
candidates are proved, the one that is named or all the silent ones (`gatherClaims`); the proven
claims are ranked and thinned to one of each SPIFFE URI (`rankClaims`), and each claim that is left
is issued or refused (`issue`, `issueAll`).

The world outside the daemon is a state that every attestor call may read and change. A run of
`fetchJwtsvid` returns its reply together with the trace of attestor calls and their answers, and
with the claim behind each SVID. Clock readings and the challenge are inputs of a run
(`Readings`): the instant ages are measured at, and the reading behind each signature.

`issue_eq_ok_iff` and `mem_served_iff` are what the rest of the development uses: an SVID is served
for exactly the claims that pass the two gates and are signed, and it carries the pseudonym, the
parsed audiences and the extension of its claim.
-/

set_option autoImplicit false
set_option relaxedAutoImplicit false

namespace Hire.Grpc

open Hire.Library Hire.Core Hire.Attestors

/-! ### Requests and replies -/

/-- A gRPC status code. -/
inductive Code
  | invalidArgument
  | notFound
  | unauthenticated
  | «internal»
  deriving DecidableEq, Repr

/-- A gRPC status. -/
structure Status where
  code : Code
  message : Str
  deriving DecidableEq, Repr

/-- A request for JWT-SVIDs; an empty SPIFFE ID asks for every identity. -/
structure JwtsvidRequest where
  audience : List Str
  spiffeId : Str
  deriving DecidableEq, Repr

/-- An issued JWT-SVID. -/
structure Jwtsvid (L : TokenLib) where
  spiffeId : Str
  svid : L.Token
  hint : Str

/-- The service: its signer, its trust bundles and its attestors in registration order. -/
structure WorkloadApiService (L : TokenLib) (W : Type) where
  signer : SvidSigner L
  bundles : TrustBundleStore
  attestors : List (Attestor W)

/-- What a run reads besides its request: the challenge, if the generator answers, the instant ages
are measured at, and the clock behind the signature of each claim by its position. -/
structure Readings where
  challenge : Option (ByteArr 32)
  now : SystemTime
  signedAt : ℕ → SystemTime

/-! ### Admission -/

/-- Every audience string parsed, in order; the first that does not parse refuses the request. -/
def parseAudiences : List Str → Except AudienceParseError (List AudienceExtensions)
  | [] => .ok []
  | raw :: rest =>
    match AudienceExtensions.parse raw with
    | .error e => .error e
    | .ok ext =>
      match parseAudiences rest with
      | .error e => .error e
      | .ok exts => .ok (ext :: exts)

/-- The strictest presence level any audience names. -/
def requirePresence (exts : List AudienceExtensions) : PresenceLevel :=
  exts.foldl (fun acc ext ↦ max acc ext.requirePresence) .none

/-- The tightest age bound any audience names. -/
def maxAge (exts : List AudienceExtensions) : Option Duration := (exts.filterMap (·.maxAge)).min?

/-- What a request asks for, once it is admitted. -/
structure Admitted where
  consumer : ConsumerIdentity
  exts : List AudienceExtensions
  requested : Option SpiffeId

/-- Admit a request: the peer is attested, there is an audience, every audience parses, and a
SPIFFE ID parses if there is one. -/
def acceptRequest (peer : Option ConsumerIdentity) (req : JwtsvidRequest) :
    Except Status Admitted :=
  match peer with
  | none => .error ⟨.unauthenticated, str "consumer could not be attested"⟩
  | some consumer =>
    if req.audience = [] then .error ⟨.invalidArgument, str "audience must not be empty"⟩
    else
      match parseAudiences req.audience with
      | .error e => .error ⟨.invalidArgument, e.toStr⟩
      | .ok exts =>
        if req.spiffeId = [] then .ok ⟨consumer, exts, none⟩
        else
          match SpiffeId.fromStr req.spiffeId with
          | .error e => .error ⟨.invalidArgument, e.toStr⟩
          | .ok want => .ok ⟨consumer, exts, some want⟩

/-! ### Asking the attestors -/

section Gather

variable {W : Type}

/-- A call of an attestor, with its answer. -/
inductive Call (W : Type)
  | enumerate (attestor : Attestor W) (answer : Except AttestorError (List Candidate))
  | prove (attestor : Attestor W) (candidate : Candidate) (challenge : Bytes)
      (answer : Except AttestorError (List Evidence))

/-- A value, the attestor calls that were made for it, and the world after them. -/
structure Traced (W α : Type) where
  value : α
  calls : List (Call W)
  world : W

/-- The candidates an enumeration adds; a source that fails adds none. -/
def candidatesOf (attestor : Attestor W) :
    Except AttestorError (List Candidate) → List (Attestor W × Candidate)
  | .ok candidates => candidates.map (attestor, ·)
  | .error _ => []

/-- Every candidate every attestor can see, in registration order. -/
def enumerateAll : List (Attestor W) → W → Traced W (List (Attestor W × Candidate))
  | [], w => ⟨[], [], w⟩
  | attestor :: rest, w =>
    let answer := attestor.enumerate w
    let found := enumerateAll rest answer.2
    ⟨candidatesOf attestor answer.1 ++ found.value, .enumerate attestor answer.1 :: found.calls,
      found.world⟩

/-- The one refusal of a named identity that is not proven. -/
def deny : Status := ⟨.notFound, str "no such identity could be proven"⟩

/-- What the answer of a proof is worth for a named identity. -/
def namedClaim (want : SpiffeId) (candidate : Candidate) (challenge : Bytes) :
    Except AttestorError (List Evidence) → Except Status (List Claim)
  | .error _ => .error deny
  | .ok evidence =>
    match Claim.derive candidate challenge evidence with
    | none => .error deny
    | some claim => if claim.spiffeId ≠ want then .error deny else .ok [claim]

/-- Prove a named identity: the first candidate with its path, and no other. -/
def proveNamed (challenge : Bytes) (want : SpiffeId) (found : List (Attestor W × Candidate))
    (w : W) : Traced W (Except Status (List Claim)) :=
  match found.find? (·.2.path = want.path) with
  | none => ⟨.error deny, [], w⟩
  | some (attestor, candidate) =>
    let answer := attestor.prove candidate challenge w
    ⟨namedClaim want candidate challenge answer.1,
      [.prove attestor candidate challenge answer.1], answer.2⟩

/-- The claim a proof yields, if any. -/
def silentClaim (candidate : Candidate) (challenge : Bytes) :
    Except AttestorError (List Evidence) → Option Claim
  | .error _ => none
  | .ok evidence => Claim.derive candidate challenge evidence

/-- Prove every silent candidate, in order, and skip every other. -/
def proveSilent (challenge : Bytes) : List (Attestor W × Candidate) → W → Traced W (List Claim)
  | [], w => ⟨[], [], w⟩
  | (attestor, candidate) :: rest, w =>
    if candidate.proofCost ≠ .silent then proveSilent challenge rest w
    else
      let answer := attestor.prove candidate challenge w
      let proven := proveSilent challenge rest answer.2
      ⟨(silentClaim candidate challenge answer.1).toList ++ proven.value,
        .prove attestor candidate challenge answer.1 :: proven.calls, proven.world⟩

/-- The proven claims best first, one of each SPIFFE URI. -/
def rankClaims (proven : List Claim) : List Claim :=
  bestPerKey (fun claim ↦ claim.spiffeId.uri) Claim.assurance proven

/-- The claims of a request: of the identity it names, or of every silent candidate. -/
def gatherClaims (challenge : Bytes) (requested : Option SpiffeId)
    (found : List (Attestor W × Candidate)) (w : W) : Traced W (Except Status (List Claim)) :=
  match requested with
  | some want => proveNamed challenge want found w
  | none =>
    let proven := proveSilent challenge found w
    ⟨.ok (rankClaims proven.value), proven.calls, proven.world⟩

/-- Ask every attestor for its candidates, and prove what the request asks for. -/
def gather (challenge : Bytes) (requested : Option SpiffeId) (attestors : List (Attestor W))
    (w : W) : Traced W (Except Status (List Claim)) :=
  let found := enumerateAll attestors w
  let gathered := gatherClaims challenge requested found.value found.world
  ⟨gathered.value, found.calls ++ gathered.calls, gathered.world⟩

end Gather

/-! ### Issuing -/

/-- How long a presence observation is honoured. -/
def presenceTtl : Duration := Duration.fromSecs 300

/-- Whether an age satisfies a bound: strictly younger, and an age that cannot be measured
satisfies none. -/
def withinMaxAge (age maxAge : Option Duration) : Bool :=
  match maxAge with
  | some bound => age.any (· < bound)
  | none => true

/-- The presence of a claim after decay: its level while the observation is younger than the TTL,
and none after. -/
def presenceAt (claim : Claim) (now : SystemTime) : PresenceLevel :=
  if (claim.ageAt now).any (· < presenceTtl) then claim.presence else .none

/-- The two policy gates of a request on a claim. -/
def passesGates (require : PresenceLevel) (maxAge : Option Duration) (now : SystemTime)
    (claim : Claim) : Bool :=
  withinMaxAge (claim.ageAt now) maxAge && decide (require ≤ presenceAt claim now)

/-- The second a claim publishes its observation at; zero before the Unix epoch. -/
def publishedAt (claim : Claim) : ℕ := ((durationSince claim.attestedAt unixEpoch).getD 0).asSecs

/-- The `hire` extension of a claim. -/
def hireExt (claim : Claim) (now : SystemTime) : HireClaims where
  rootTrustDomain := claim.spiffeId.trustDomain.display
  sources := [claim.source]
  identityAssurance := claim.assurance
  presence :=
    { present := decide (presenceAt claim now ≠ .none)
      attestedBy := claim.source
      attestedAt := publishedAt claim
      presentUntil := saturatingAdd (publishedAt claim) presenceTtl.asSecs }
  authMethods := [claim.source]

/-- The hint of a claim. -/
def svidHint (claim : Claim) (now : SystemTime) : SvidHint where
  source := claim.source
  identityAssurance := claim.assurance
  presence := presenceAt claim now
  age := ((claim.ageAt now).map Duration.asSecs).getD u64Max

section Issue

variable {L : TokenLib} {W : Type}

/-- Turn one proven claim into one JWT-SVID, or say why it cannot be. -/
def issue (C : Crypto) (signer : SvidSigner L) (claim : Claim) (consumer : ConsumerIdentity)
    (audiences : List Str) (require : PresenceLevel) (maxAge : Option Duration) (now : SystemTime)
    (signedAt : SystemTime) : Except (Fault Status) (Jwtsvid L) :=
  if !withinMaxAge (claim.ageAt now) maxAge then
    .error (.error ⟨.unauthenticated,
      str "presence observation is older than the requested hire_max_age"⟩)
  else if presenceAt claim now < require then
    .error (.error ⟨.unauthenticated,
      str "required presence level not satisfied (need " ++ require.debug ++ str ", have " ++
        (presenceAt claim now).debug ++ str ")"⟩)
  else
    let spiffeId := (signer.pseudonymousId C claim.spiffeId consumer).uri
    match signer.signJwtSvid C signedAt spiffeId audiences (hireExt claim now).toValue with
    | .error (.panic message) => .error (.panic message)
    | .error (.error e) => .error (.error ⟨.internal, e.toStr⟩)
    | .ok token => .ok ⟨spiffeId, token, (svidHint claim now).display⟩

/-- What the issue loop collects: the claims that were served with their SVIDs, and the first
refusal. -/
structure Issued (L : TokenLib) where
  served : List (Claim × Jwtsvid L)
  refusal : Option Status

/-- Issue every claim in order, from a position on. A refusal is kept and the loop goes on; a panic
ends it. -/
def issueAll (tryIssue : ℕ → Claim → Except (Fault Status) (Jwtsvid L)) :
    ℕ → List Claim → Except Str (Issued L)
  | _, [] => .ok ⟨[], none⟩
  | i, claim :: rest =>
    match tryIssue i claim with
    | .error (.panic message) => .error message
    | .error (.error status) =>
      match issueAll tryIssue (i + 1) rest with
      | .error message => .error message
      | .ok out => .ok ⟨out.served, some status⟩
    | .ok svid =>
      match issueAll tryIssue (i + 1) rest with
      | .error message => .error message
      | .ok out => .ok ⟨(claim, svid) :: out.served, out.refusal⟩

/-- The reply to what the loop collected: an empty list refuses. -/
def Issued.reply (out : Issued L) : Except (Fault Status) (List (Jwtsvid L)) :=
  if out.served.isEmpty then
    .error (.error (out.refusal.getD ⟨.unauthenticated, str "no identity claims available"⟩))
  else .ok (out.served.map Prod.snd)

/-- A finished run: its reply, the claim behind each SVID, the attestor calls and the world. -/
structure Outcome (L : TokenLib) (W : Type) where
  reply : Except (Fault Status) (List (Jwtsvid L))
  served : List (Claim × Jwtsvid L)
  calls : List (Call W)
  world : W

namespace WorkloadApiService

/-- How a run issues the claim at a position. -/
def tryIssue (C : Crypto) (service : WorkloadApiService L W) (admitted : Admitted)
    (readings : Readings) (i : ℕ) (claim : Claim) : Except (Fault Status) (Jwtsvid L) :=
  issue C service.signer claim admitted.consumer (admitted.exts.map (·.audience))
    (requirePresence admitted.exts) (maxAge admitted.exts) readings.now (readings.signedAt i)

/-- Issue the claims of an admitted request. -/
def serve (C : Crypto) (service : WorkloadApiService L W) (admitted : Admitted)
    (readings : Readings) (claims : List Claim) : Except Str (Issued L) :=
  issueAll (service.tryIssue C admitted readings) 0 claims

/-- Answer a request for JWT-SVIDs. -/
def fetchJwtsvid (C : Crypto) (service : WorkloadApiService L W) (peer : Option ConsumerIdentity)
    (req : JwtsvidRequest) (readings : Readings) (w : W) : Outcome L W :=
  match acceptRequest peer req with
  | .error status => ⟨.error (.error status), [], [], w⟩
  | .ok admitted =>
    match readings.challenge with
    | none => ⟨.error (.error ⟨.internal, str "challenge generation failed"⟩), [], [], w⟩
    | some challenge =>
      let gathered := gather challenge.1 admitted.requested service.attestors w
      match gathered.value with
      | .error status => ⟨.error (.error status), [], gathered.calls, gathered.world⟩
      | .ok claims =>
        match service.serve C admitted readings claims with
        | .error message => ⟨.error (.panic message), [], gathered.calls, gathered.world⟩
        | .ok out => ⟨out.reply, out.served, gathered.calls, gathered.world⟩

end WorkloadApiService

/-- The root identities behind the SVIDs of a run, in order. -/
def Outcome.roots (run : Outcome L W) : List SpiffeId := run.served.map (·.1.spiffeId)

end Issue

/-! ### What admission establishes -/

/-- The audiences of a request parse exactly when each of them does. -/
theorem parseAudiences_eq_ok_iff {audience : List Str} {exts : List AudienceExtensions} :
    parseAudiences audience = .ok exts ↔
      List.Forall₂ (fun raw ext ↦ AudienceExtensions.parse raw = .ok ext) audience exts := by
  induction audience generalizing exts with
  | nil => simp [parseAudiences, eq_comm]
  | cons raw rest ih =>
    unfold parseAudiences
    cases hraw : AudienceExtensions.parse raw with
    | error e =>
      refine ⟨fun h ↦ (by cases h), fun h ↦ ?_⟩
      obtain ⟨ext, tail, hhead, -, -⟩ := List.forall₂_cons_left_iff.mp h
      cases hraw.symm.trans hhead
    | ok ext =>
      cases hrest : parseAudiences rest with
      | error e =>
        refine ⟨fun h ↦ (by cases h), fun h ↦ ?_⟩
        obtain ⟨_, tail, -, htail, -⟩ := List.forall₂_cons_left_iff.mp h
        cases hrest.symm.trans (ih.mpr htail)
      | ok exts' =>
        constructor
        · intro h
          cases h
          exact .cons hraw (ih.mp hrest)
        · intro h
          obtain ⟨ext', tail, hhead, htail, rfl⟩ := List.forall₂_cons_left_iff.mp h
          cases hraw.symm.trans hhead
          cases hrest.symm.trans (ih.mpr htail)
          rfl

/-- Some of the audiences that parse, in order, parse to some of the policies. -/
theorem parsed_of_sublist {audience fewer : List Str} {exts : List AudienceExtensions}
    (hsublist : fewer.Sublist audience)
    (hexts : List.Forall₂ (fun raw ext ↦ AudienceExtensions.parse raw = .ok ext) audience exts) :
    ∃ kept, List.Forall₂ (fun raw ext ↦ AudienceExtensions.parse raw = .ok ext) fewer kept ∧
      kept.Sublist exts := by
  induction hsublist generalizing exts with
  | slnil => exact ⟨[], .nil, List.nil_sublist _⟩
  | cons raw _ ih =>
    obtain ⟨ext, tail, -, htail, rfl⟩ := List.forall₂_cons_left_iff.mp hexts
    obtain ⟨kept, hkept, hsub⟩ := ih htail
    exact ⟨kept, hkept, hsub.cons ext⟩
  | cons_cons raw _ ih =>
    obtain ⟨ext, tail, hhead, htail, rfl⟩ := List.forall₂_cons_left_iff.mp hexts
    obtain ⟨kept, hkept, hsub⟩ := ih htail
    exact ⟨ext :: kept, .cons hhead hkept, hsub.cons_cons ext⟩

/-- An audience of a list that parses parses to one of the policies. -/
theorem exists_parsed {audience : List Str} {exts : List AudienceExtensions} {raw : Str}
    (hexts : List.Forall₂ (fun raw ext ↦ AudienceExtensions.parse raw = .ok ext) audience exts)
    (hraw : raw ∈ audience) : ∃ ext ∈ exts, AudienceExtensions.parse raw = .ok ext := by
  obtain ⟨kept, hkept, hsub⟩ := parsed_of_sublist (List.singleton_sublist.mpr hraw) hexts
  obtain ⟨ext, tail, hparse, -, rfl⟩ := List.forall₂_cons_left_iff.mp hkept
  exact ⟨ext, hsub.subset List.mem_cons_self, hparse⟩

/-- Audiences that parse one by one parse as a list. -/
theorem exists_parsed_all {audience : List Str}
    (hparse : ∀ raw ∈ audience, ∃ ext, AudienceExtensions.parse raw = .ok ext) :
    ∃ exts, List.Forall₂ (fun raw ext ↦ AudienceExtensions.parse raw = .ok ext) audience exts := by
  induction audience with
  | nil => exact ⟨[], .nil⟩
  | cons raw rest ih =>
    obtain ⟨ext, hext⟩ := hparse raw List.mem_cons_self
    obtain ⟨exts, hexts⟩ := ih fun raw' hraw' ↦ hparse raw' (List.mem_cons_of_mem raw hraw')
    exact ⟨ext :: exts, .cons hext hexts⟩

/-- A request is admitted exactly when its peer is attested, it names audiences that all parse, and
the SPIFFE ID it names, if any, parses. -/
theorem acceptRequest_eq_ok_iff {peer : Option ConsumerIdentity} {req : JwtsvidRequest}
    {admitted : Admitted} :
    acceptRequest peer req = .ok admitted ↔ peer = some admitted.consumer ∧ req.audience ≠ [] ∧
      List.Forall₂ (fun raw ext ↦ AudienceExtensions.parse raw = .ok ext) req.audience
        admitted.exts ∧
      (req.spiffeId = [] ∧ admitted.requested = none ∨ req.spiffeId ≠ [] ∧
        ∃ want, SpiffeId.fromStr req.spiffeId = .ok want ∧ admitted.requested = some want) := by
  rw [← parseAudiences_eq_ok_iff]
  obtain ⟨consumer, exts, requested⟩ := admitted
  unfold acceptRequest
  cases peer with
  | none => simp
  | some peer =>
    by_cases hempty : req.audience = []
    · simp [hempty]
    · dsimp only
      rw [if_neg hempty]
      cases hparse : parseAudiences req.audience with
      | error e => simp
      | ok parsed =>
        by_cases hname : req.spiffeId = []
        · simp [hname, hempty, eq_comm]
        · dsimp only
          rw [if_neg hname]
          cases hid : SpiffeId.fromStr req.spiffeId <;> simp [hname, hempty, eq_comm]

/-! ### What issuing establishes -/

section IssueSpec

variable {L : TokenLib} {W : Type} {C : Crypto}

/-- A claim is issued exactly when it passes both gates and is signed, and the SVID carries the
pseudonym, the audiences, the extension and the hint of the claim. -/
theorem issue_eq_ok_iff {signer : SvidSigner L} {claim : Claim} {consumer : ConsumerIdentity}
    {audiences : List Str} {require : PresenceLevel} {maxAge : Option Duration}
    {now signedAt : SystemTime} {svid : Jwtsvid L} :
    issue C signer claim consumer audiences require maxAge now signedAt = .ok svid ↔
      passesGates require maxAge now claim = true ∧
      signer.signJwtSvid C signedAt (signer.pseudonymousId C claim.spiffeId consumer).uri audiences
        (hireExt claim now).toValue = .ok svid.svid ∧
      svid.spiffeId = (signer.pseudonymousId C claim.spiffeId consumer).uri ∧
      svid.hint = (svidHint claim now).display := by
  obtain ⟨spiffeId, token, hint⟩ := svid
  unfold issue passesGates
  by_cases hage : withinMaxAge (claim.ageAt now) maxAge = true
  · by_cases hpresence : presenceAt claim now < require
    · simp [hage, hpresence, not_le.mpr hpresence]
    · rw [if_neg (by simp [hage]), if_neg hpresence]
      dsimp only
      cases hsign : signer.signJwtSvid C signedAt
          (signer.pseudonymousId C claim.spiffeId consumer).uri audiences
          (hireExt claim now).toValue with
      | ok token' =>
        simp only [hage, not_lt.mp hpresence, decide_true, Except.ok.injEq, Jwtsvid.mk.injEq,
          Bool.and_self, true_and]
        constructor
        · rintro ⟨rfl, rfl, rfl⟩
          exact ⟨rfl, rfl, rfl⟩
        · rintro ⟨rfl, rfl, rfl⟩
          exact ⟨rfl, rfl, rfl⟩
      | error fault => cases fault <;> simp
  · simp [hage]

/-- A claim that fails a gate is refused with a status, never with a panic. -/
theorem issue_refused {signer : SvidSigner L} {claim : Claim} {consumer : ConsumerIdentity}
    {audiences : List Str} {require : PresenceLevel} {maxAge : Option Duration}
    {now signedAt : SystemTime} (hgates : passesGates require maxAge now claim = false) :
    ∃ status, issue C signer claim consumer audiences require maxAge now signedAt =
      .error (.error status) := by
  unfold issue
  unfold passesGates at hgates
  by_cases hage : withinMaxAge (claim.ageAt now) maxAge = true
  · have hpresence : presenceAt claim now < require := by simpa [hage] using hgates
    exact ⟨_, by rw [if_neg (by simp [hage]), if_pos hpresence]⟩
  · exact ⟨_, by rw [if_pos (by simpa using hage)]⟩

/-- A loop that ends has refused or served its first claim, and served the rest as the loop over
them does. -/
theorem issueAll_cons_eq_ok {tryIssue : ℕ → Claim → Except (Fault Status) (Jwtsvid L)} {i : ℕ}
    {first : Claim} {rest : List Claim} {out : Issued L}
    (hout : issueAll tryIssue i (first :: rest) = .ok out) :
    ∃ later, issueAll tryIssue (i + 1) rest = .ok later ∧
      ((∃ status, tryIssue i first = .error (.error status) ∧ out.served = later.served) ∨
        ∃ svid, tryIssue i first = .ok svid ∧ out.served = (first, svid) :: later.served) := by
  unfold issueAll at hout
  split at hout
  · cases hout
  · rename_i status htry
    split at hout
    · cases hout
    · rename_i later hrest
      cases hout
      exact ⟨later, hrest, .inl ⟨status, htry, rfl⟩⟩
  · rename_i svid htry
    split at hout
    · cases hout
    · rename_i later hrest
      cases hout
      exact ⟨later, hrest, .inr ⟨svid, htry, rfl⟩⟩

/-- The loop serves exactly the claims that are issued, each with its SVID. -/
theorem mem_served_iff {tryIssue : ℕ → Claim → Except (Fault Status) (Jwtsvid L)} {i : ℕ}
    {claims : List Claim} {out : Issued L} (hout : issueAll tryIssue i claims = .ok out)
    {claim : Claim} {svid : Jwtsvid L} :
    (claim, svid) ∈ out.served ↔
      ∃ j, claims[j]? = some claim ∧ tryIssue (i + j) claim = .ok svid := by
  induction claims generalizing i out with
  | nil =>
    cases hout
    simp
  | cons first rest ih =>
    have hshift : (∃ j, (first :: rest)[j]? = some claim ∧ tryIssue (i + j) claim = .ok svid) ↔
        (first = claim ∧ tryIssue i claim = .ok svid) ∨
          ∃ j, rest[j]? = some claim ∧ tryIssue (i + 1 + j) claim = .ok svid := by
      constructor
      · rintro ⟨j, hj, hissue⟩
        cases j with
        | zero => exact Or.inl ⟨Option.some.inj hj, hissue⟩
        | succ j => exact Or.inr ⟨j, hj, by rwa [show i + 1 + j = i + (j + 1) by omega]⟩
      · rintro (⟨rfl, hissue⟩ | ⟨j, hj, hissue⟩)
        · exact ⟨0, rfl, hissue⟩
        · exact ⟨j + 1, hj, by rwa [show i + (j + 1) = i + 1 + j by omega]⟩
    rw [hshift]
    obtain ⟨later, hrest, ⟨status, htry, hserved⟩ | ⟨svid', htry, hserved⟩⟩ :=
      issueAll_cons_eq_ok hout
    · rw [hserved, ih hrest]
      refine ⟨Or.inr, fun h ↦ h.resolve_left ?_⟩
      rintro ⟨rfl, hissue⟩
      cases htry.symm.trans hissue
    · rw [hserved, List.mem_cons, ih hrest, Prod.mk.injEq]
      refine or_congr_left ⟨?_, ?_⟩
      · rintro ⟨rfl, rfl⟩
        exact ⟨rfl, htry⟩
      · rintro ⟨rfl, hissue⟩
        exact ⟨rfl, Except.ok.inj (hissue.symm.trans htry)⟩

/-- The claims behind the SVIDs are some of the claims, in their order. -/
theorem map_fst_served_sublist {tryIssue : ℕ → Claim → Except (Fault Status) (Jwtsvid L)} {i : ℕ}
    {claims : List Claim} {out : Issued L} (hout : issueAll tryIssue i claims = .ok out) :
    (out.served.map Prod.fst).Sublist claims := by
  induction claims generalizing i out with
  | nil =>
    cases hout
    exact .slnil
  | cons first rest ih =>
    obtain ⟨later, hrest, ⟨status, -, hserved⟩ | ⟨svid, -, hserved⟩⟩ := issueAll_cons_eq_ok hout
    · rw [hserved]
      exact (ih hrest).cons first
    · rw [hserved, List.map_cons]
      exact (ih hrest).cons_cons first

/-- A loop that issues exactly the claims that pass a test, and panics at none, serves exactly
those. Assumes: a claim that passes is issued, and one that does not is refused. -/
theorem issueAll_eq_filter {tryIssue : ℕ → Claim → Except (Fault Status) (Jwtsvid L)}
    {passes : Claim → Bool}
    (hpass : ∀ i claim, passes claim = true → ∃ svid, tryIssue i claim = .ok svid)
    (hfail : ∀ i claim, passes claim = false → ∃ status, tryIssue i claim = .error (.error status))
    (i : ℕ) (claims : List Claim) :
    ∃ out, issueAll tryIssue i claims = .ok out ∧
      out.served.map Prod.fst = claims.filter passes := by
  induction claims generalizing i with
  | nil => exact ⟨_, rfl, rfl⟩
  | cons first rest ih =>
    obtain ⟨out, hrest, hserved⟩ := ih (i + 1)
    unfold issueAll
    cases hfirst : passes first with
    | true =>
      obtain ⟨svid, htry⟩ := hpass i first hfirst
      refine ⟨⟨(first, svid) :: out.served, out.refusal⟩, by rw [htry, hrest], ?_⟩
      rw [List.filter_cons_of_pos hfirst, ← hserved, List.map_cons]
    | false =>
      obtain ⟨status, htry⟩ := hfail i first hfirst
      refine ⟨⟨out.served, some status⟩, by rw [htry, hrest], ?_⟩
      rw [List.filter_cons_of_neg (by simp [hfirst]), ← hserved]

namespace WorkloadApiService

/-- Signing succeeds at every reading of a run, whatever is signed. -/
def SigningSucceeds (C : Crypto) (service : WorkloadApiService L W) (readings : Readings) : Prop :=
  ∀ i spiffeId audiences hireExt, ∃ token,
    service.signer.signJwtSvid C (readings.signedAt i) spiffeId audiences hireExt = .ok token

/-- The gates of an admitted request on a claim. -/
def gates (admitted : Admitted) (readings : Readings) (claim : Claim) : Bool :=
  passesGates (requirePresence admitted.exts) (maxAge admitted.exts) readings.now claim

/-- Where signing succeeds, a run serves exactly the claims that pass its gates. Assumes: signing
succeeds. -/
theorem serve_eq_filter {service : WorkloadApiService L W} {readings : Readings}
    (hsign : service.SigningSucceeds C readings) (admitted : Admitted) (claims : List Claim) :
    ∃ out, service.serve C admitted readings claims = .ok out ∧
      out.served.map Prod.fst = claims.filter (gates admitted readings) := by
  refine issueAll_eq_filter ?_ ?_ 0 claims
  · intro i claim hgates
    obtain ⟨token, htoken⟩ := hsign i _ _ _
    exact ⟨⟨_, token, _⟩, issue_eq_ok_iff.mpr ⟨hgates, htoken, rfl, rfl⟩⟩
  · intro i claim hgates
    exact issue_refused hgates

/-- A run either fails and serves nothing, or replies with the SVIDs it serves. -/
theorem reply_cases (C : Crypto) (service : WorkloadApiService L W) (peer : Option ConsumerIdentity)
    (req : JwtsvidRequest) (readings : Readings) (w : W) :
    (∃ fault, (service.fetchJwtsvid C peer req readings w).reply = .error fault ∧
        (service.fetchJwtsvid C peer req readings w).served = []) ∨
      ((service.fetchJwtsvid C peer req readings w).reply =
          .ok ((service.fetchJwtsvid C peer req readings w).served.map Prod.snd) ∧
        (service.fetchJwtsvid C peer req readings w).served ≠ []) := by
  unfold fetchJwtsvid
  split
  · exact Or.inl ⟨_, rfl, rfl⟩
  · split
    · exact Or.inl ⟨_, rfl, rfl⟩
    · dsimp only
      split
      · exact Or.inl ⟨_, rfl, rfl⟩
      · split
        · exact Or.inl ⟨_, rfl, rfl⟩
        · rename_i out _
          unfold Issued.reply
          by_cases hserved : out.served = []
          · exact Or.inl ⟨_, if_pos (by simp [hserved]), hserved⟩
          · exact Or.inr ⟨if_neg (by simpa using hserved), hserved⟩

/-- A reply without a fault holds the SVIDs that were served, and something was served. -/
theorem served_of_reply {service : WorkloadApiService L W} {peer : Option ConsumerIdentity}
    {req : JwtsvidRequest} {readings : Readings} {w : W} {svids : List (Jwtsvid L)}
    (hreply : (service.fetchJwtsvid C peer req readings w).reply = .ok svids) :
    svids = (service.fetchJwtsvid C peer req readings w).served.map Prod.snd ∧
      (service.fetchJwtsvid C peer req readings w).served ≠ [] := by
  rcases reply_cases C service peer req readings w with ⟨fault, hfault, -⟩ | ⟨hok, hserved⟩
  · cases hreply.symm.trans hfault
  · exact ⟨Except.ok.inj (hreply.symm.trans hok), hserved⟩

/-- What is behind a run that serves something: an admitted request, a challenge, the claims that
were gathered, and the loop over them. -/
theorem served_ne_nil {service : WorkloadApiService L W} {peer : Option ConsumerIdentity}
    {req : JwtsvidRequest} {readings : Readings} {w : W}
    (hserved : (service.fetchJwtsvid C peer req readings w).served ≠ []) :
    ∃ admitted challenge claims out, acceptRequest peer req = .ok admitted ∧
      readings.challenge = some challenge ∧
      (gather challenge.1 admitted.requested service.attestors w).value = .ok claims ∧
      service.serve C admitted readings claims = .ok out ∧
      (service.fetchJwtsvid C peer req readings w).served = out.served := by
  unfold fetchJwtsvid at hserved ⊢
  split at hserved
  · exact absurd rfl hserved
  · rename_i admitted hadmitted
    split at hserved
    · exact absurd rfl hserved
    · rename_i challenge hchallenge
      dsimp only at hserved ⊢
      split at hserved
      · exact absurd rfl hserved
      · rename_i claims hclaims
        split at hserved
        · exact absurd rfl hserved
        · rename_i out hout
          exact ⟨admitted, challenge, claims, out, hadmitted, hchallenge, hclaims, hout,
            rfl⟩

/-- What is behind an SVID that is served: an admitted request, a challenge, the claims that were
gathered, and the issuance for one of them. -/
theorem issued_of_mem_served {service : WorkloadApiService L W} {peer : Option ConsumerIdentity}
    {req : JwtsvidRequest} {readings : Readings} {w : W} {claim : Claim} {svid : Jwtsvid L}
    (hserved : (claim, svid) ∈ (service.fetchJwtsvid C peer req readings w).served) :
    ∃ admitted challenge claims j, acceptRequest peer req = .ok admitted ∧
      readings.challenge = some challenge ∧
      (gather challenge.1 admitted.requested service.attestors w).value = .ok claims ∧
      claim ∈ claims ∧ service.tryIssue C admitted readings j claim = .ok svid := by
  obtain ⟨admitted, challenge, claims, out, hadmitted, hchallenge, hclaims, hout, heq⟩ :=
    served_ne_nil (List.ne_nil_of_mem hserved)
  rw [heq] at hserved
  obtain ⟨j, hj, hissue⟩ := (mem_served_iff hout).mp hserved
  exact ⟨admitted, challenge, claims, _, hadmitted, hchallenge, hclaims,
    List.mem_of_getElem? hj, hissue⟩

/-- A run that is admitted and gathers claims serves what the loop serves. -/
theorem served_of_gather {service : WorkloadApiService L W} {peer : Option ConsumerIdentity}
    {req : JwtsvidRequest} {readings : Readings} {w : W} {admitted : Admitted}
    {challenge : ByteArr 32} {claims : List Claim} {out : Issued L}
    (hadmitted : acceptRequest peer req = .ok admitted)
    (hchallenge : readings.challenge = some challenge)
    (hclaims : (gather challenge.1 admitted.requested service.attestors w).value = .ok claims)
    (hout : service.serve C admitted readings claims = .ok out) :
    (service.fetchJwtsvid C peer req readings w).served = out.served ∧
      (service.fetchJwtsvid C peer req readings w).reply = out.reply := by
  unfold fetchJwtsvid
  simp only [hadmitted, hchallenge, hclaims, hout, and_self]

/-- A run that is not admitted calls no attestor and replies with the refusal. -/
theorem fetchJwtsvid_of_refused {service : WorkloadApiService L W}
    {peer : Option ConsumerIdentity} {req : JwtsvidRequest} {readings : Readings} {w : W}
    {status : Status} (hadmitted : acceptRequest peer req = .error status) :
    service.fetchJwtsvid C peer req readings w = ⟨.error (.error status), [], [], w⟩ := by
  unfold fetchJwtsvid
  simp only [hadmitted]

/-- The attestor calls of an admitted run are those of its gathering. -/
theorem calls_of_gather {service : WorkloadApiService L W} {peer : Option ConsumerIdentity}
    {req : JwtsvidRequest} {readings : Readings} {w : W} {admitted : Admitted}
    {challenge : ByteArr 32} (hadmitted : acceptRequest peer req = .ok admitted)
    (hchallenge : readings.challenge = some challenge) :
    (service.fetchJwtsvid C peer req readings w).calls =
      (gather challenge.1 admitted.requested service.attestors w).calls := by
  unfold fetchJwtsvid
  simp only [hadmitted, hchallenge]
  split
  · rfl
  · split <;> rfl

/-- A run whose gathering fails replies with that failure. -/
theorem reply_of_gather_error {service : WorkloadApiService L W} {peer : Option ConsumerIdentity}
    {req : JwtsvidRequest} {readings : Readings} {w : W} {admitted : Admitted}
    {challenge : ByteArr 32} {status : Status} (hadmitted : acceptRequest peer req = .ok admitted)
    (hchallenge : readings.challenge = some challenge)
    (hclaims : (gather challenge.1 admitted.requested service.attestors w).value = .error status) :
    (service.fetchJwtsvid C peer req readings w).reply = .error (.error status) := by
  unfold fetchJwtsvid
  simp only [hadmitted, hchallenge, hclaims]

/-! ### A service to run a request on -/

/-- A service over transparent tokens with an empty bundle store. -/
def transparent (attestors : List (Attestor Unit)) :
    WorkloadApiService TokenLib.transparent Unit where
  signer := .fromSigningKey (fill 65 4) (fill 32 7)
  bundles := .new
  attestors := attestors

/-- A second of the Unix clock. -/
def second (n : ℕ) : SystemTime := (Duration.fromSecs n : ℕ)

/-- A consumer. -/
def someBinary : ConsumerIdentity := .binarySha256 (fill 32 1)

/-- Readings with a challenge and one clock for the whole run. -/
def readingsAt (now : SystemTime) : Readings := ⟨some (fill 32 0), now, fun _ ↦ now⟩

/-- Transparent tokens are signed at every reading after the Unix epoch. -/
theorem transparent_signingSucceeds (C : Crypto)
    (service : WorkloadApiService TokenLib.transparent W) {now : SystemTime} (hnow : 0 ≤ now) :
    service.SigningSucceeds C (readingsAt now) := by
  intro i spiffeId audiences hireExt
  refine ⟨_, (SvidSigner.signJwtSvid_eq_ok_iff C).mpr ⟨_, if_pos hnow, rfl⟩⟩

end WorkloadApiService

end IssueSpec

end Hire.Grpc
