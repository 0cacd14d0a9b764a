import Hire.Attestors.Keys
import Hire.Core.SpiffeId
import Hire.Library.Action

/-!
# Candidates, evidence and claims

`hire-attestors/src/claim.rs`. A candidate is what an attestor can see, a piece of evidence is what
an attestor proved, and a claim is what `Claim.derive` makes of a candidate and the evidence that
binds to it. Possession evidence comes out of one of three verifying constructors, which check a
signature against the candidate and the challenge; platform and daemon evidence records the account
or subject that was observed.

`Claim.derive_eq_none_iff` says when there is no claim: when no item binds. What an item still
knows of the candidate it was produced for differs by variant. A platform or daemon answer keeps
the path, so it binds to no other candidate; a signature keeps only the challenge, so it binds to
every candidate of the request that opened it. `Claim.derive_eq_none_iff_no_possession` puts the
two together: evidence produced for one candidate yields nothing for another exactly when none of
it is a signature, and `Claim.derive_rebinds_possession` is a signature that crosses over.
-/

set_option autoImplicit false
set_option relaxedAutoImplicit false

namespace Hire.Attestors

open Hire.Library Hire.Core

/-! ### Candidates -/

/-- An error of an attestor. -/
inductive AttestorError
  | unavailable (message : Str)
  | challengeFailed (message : Str)
  | io (message : Str)
  deriving DecidableEq, Repr

/-- The text of an error. -/
def AttestorError.display : AttestorError → Str
  | .unavailable message => str "source unavailable: " ++ message
  | .challengeFailed message => str "challenge failed: " ++ message
  | .io message => str "IO error: " ++ message

/-- A trust domain an attestor may name about itself with no evidence at all. -/
inductive SelfAssertedDomain
  | tailscale
  | sshLocal
  | pgpLocal
  | personalDid (did : Str)
  deriving DecidableEq, Repr

/-- A self-asserted domain as a trust domain. -/
def SelfAssertedDomain.toTrustDomain : SelfAssertedDomain → TrustDomain
  | .tailscale => .tailscale
  | .sshLocal => .sshLocal
  | .pgpLocal => .pgpLocal
  | .personalDid did => .personalDid did

/-- The highest tier an attestor believes a candidate could reach. -/
inductive AttainableAssurance
  | iaa1
  | iaa2
  | iaa3
  deriving DecidableEq, Repr

/-- Whether proving a candidate can interrupt a human. -/
inductive ProofCost
  | silent
  | interactive
  deriving DecidableEq, Repr

/-- An identity an attestor can see. -/
structure Candidate where
  source : Str
  domain : SelfAssertedDomain
  path : Str
  displayName : Str
  attainable : AttainableAssurance
  proofCost : ProofCost
  deriving DecidableEq, Repr

namespace Candidate

/-- A candidate that attains nothing and costs a prompt. -/
def new (source : Str) (domain : SelfAssertedDomain) (path displayName : Str) : Candidate :=
  ⟨source, domain, path, displayName, .iaa1, .interactive⟩

/-- Declare the highest tier a candidate could reach. -/
def withAttainable (candidate : Candidate) (attainable : AttainableAssurance) : Candidate :=
  { candidate with attainable }

/-- Declare whether proving a candidate can interrupt a human. -/
def withProofCost (candidate : Candidate) (proofCost : ProofCost) : Candidate :=
  { candidate with proofCost }

/-- The SPIFFE ID of a candidate if nothing further is proven. -/
def spiffeId (candidate : Candidate) : SpiffeId := ⟨candidate.domain.toTrustDomain, candidate.path⟩

end Candidate

/-! ### What the attestors ask of the machine -/

/-- What a finished process leaves behind. -/
structure ProcessOutput where
  success : Bool
  stdout : Bytes
  stderr : Bytes
  deriving DecidableEq, Repr

/-- The gpg installation and the clock: which binary is found, what it answers to arguments and
input, and what time it is. -/
structure Gpg (W : Type) where
  whichGpg : W → Option Str × W
  run : Str → List Str → Bytes → Action AttestorError W ProcessOutput
  now : W → SystemTime × W

/-! ### Possession -/

/-- A signed assertion: its bytes and the format they are in. -/
structure SignedAssertion where
  bytes : Bytes
  format : Str
  deriving DecidableEq, Repr

/-- A verified signature over a challenge, with the moment it was observed. -/
structure ChallengeSignature where
  assertion : SignedAssertion
  challenge : Bytes
  observedAt : SystemTime
  deriving DecidableEq, Repr

/-- The error of a blob that does not parse. -/
def malformed : AttestorError := .challengeFailed (str "malformed ssh-agent blob")

/-- The signature in an agent's framing: the algorithm it names must be the expected one, and it
must be sixty-four bytes with nothing after it. -/
def framedSignature (algorithm signature : Bytes) : Except AttestorError (ByteArr 64) :=
  match readString signature with
  | none => .error malformed
  | some (sigAlgorithm, rest) =>
    match readString rest with
    | none => .error malformed
    | some (sigBytes, rest) =>
      if sigAlgorithm ≠ algorithm ∨ rest ≠ [] then .error malformed
      else
        match toByteArr 64 sigBytes with
        | none => .error malformed
        | some sigBytes => .ok sigBytes

namespace ChallengeSignature

/-- Check an ssh-agent signature by the key a candidate names. -/
def verifySshEd25519 (C : Crypto) (candidate : Candidate) (challenge keyBlob signature : Bytes)
    (now : SystemTime) : Except AttestorError ChallengeSignature :=
  if Ssh.spiffePath C keyBlob ≠ candidate.path then
    .error (.challengeFailed (str "ssh-agent signed with a key the candidate does not name"))
  else
    match readString keyBlob with
    | none => .error malformed
    | some (algorithm, rest) =>
      match readString rest with
      | none => .error malformed
      | some (point, rest) =>
        if algorithm ≠ Ssh.sshEd25519 ∨ rest ≠ [] then
          .error (.challengeFailed (str "unsupported ssh key type " ++ fromUtf8Lossy algorithm))
        else
          match toByteArr 32 point with
          | none => .error malformed
          | some point =>
            if !C.validPoint point then
              .error (.challengeFailed (str "ssh-agent key is not a valid ed25519 point"))
            else
              match framedSignature algorithm signature with
              | .error e => .error e
              | .ok sigBytes =>
                if !C.verifyStrict point challenge sigBytes then
                  .error (.challengeFailed
                    (str "ssh-agent signature does not verify over the challenge"))
                else
                  .ok ⟨⟨sigBytes.1, str "application/vnd.hire.ssh-ed25519-signature"⟩, challenge,
                    now⟩

/-- Check a signature by the key a `did:key` encodes. -/
def verifyDidKeyEd25519 (C : Crypto) (candidate : Candidate) (challenge : Bytes) (did : Str)
    (signature : Bytes) (now : SystemTime) : Except AttestorError ChallengeSignature :=
  if DidKey.spiffePath C did ≠ candidate.path then
    .error (.challengeFailed (str "did:key signature is for a DID the candidate does not name"))
  else
    match DidKey.ed25519Point did with
    | none => .error (.challengeFailed (did ++ str " does not encode an ed25519 key"))
    | some point =>
      if !C.validPoint point then
        .error (.challengeFailed (str "did:key does not encode a valid ed25519 point"))
      else
        match framedSignature Ssh.sshEd25519 signature with
        | .error e => .error e
        | .ok sigBytes =>
          if !C.verifyStrict point challenge sigBytes then
            .error (.challengeFailed (str "did:key signature does not verify over the challenge"))
          else
            .ok ⟨⟨sigBytes.1, str "application/vnd.hire.did-key-ed25519-signature"⟩, challenge, now⟩

end ChallengeSignature

/-- Whether gpg's status output reports a good signature by a fingerprint, in the signing or in the
primary position. -/
def namesKey (status fingerprint : Str) : Bool :=
  ((lines status).filterMap (stripPrefix (str "[GNUPG:] VALIDSIG "))).any fun args ↦
    let fields := splitWhitespace args
    ([fields[0]?, fields[9]?].filterMap id).any (eqIgnoreAsciiCase · fingerprint)

/-- Check an OpenPGP signed message by the key a candidate names, with the installed gpg. -/
def ChallengeSignature.verifyOpenpgp {W : Type} (gpg : Gpg W) (candidate : Candidate)
    (challenge signedMessage : Bytes) : Action AttestorError W ChallengeSignature := do
  let fingerprint ← Action.ofOption (.challengeFailed (str "not a gpg candidate"))
    (stripPrefix (str "gpg/") candidate.path)
  let binary ← Action.ask gpg.whichGpg
  let binary ← Action.ofOption (.unavailable (str "gpg binary not found")) binary
  let output ← gpg.run binary [str "--status-fd", str "2", str "--decrypt"] signedMessage
  if !output.success || !namesKey (fromUtf8Lossy output.stderr) fingerprint then
    Action.fail (.challengeFailed
      (str "gpg did not report a valid signature by " ++ fingerprint))
  else if output.stdout ≠ challenge then
    Action.fail (.challengeFailed (str "gpg signature covers data that is not this challenge"))
  else
    let now ← Action.ask gpg.now
    pure ⟨⟨signedMessage, str "application/vnd.hire.openpgp-signed-message"⟩, challenge, now⟩

namespace ChallengeSignature

/-- A signature that was checked against an agent key keeps the challenge it was checked over. -/
theorem challenge_of_verifySshEd25519 {C : Crypto} {candidate : Candidate}
    {challenge keyBlob signature : Bytes} {now : SystemTime} {s : ChallengeSignature}
    (h : verifySshEd25519 C candidate challenge keyBlob signature now = .ok s) :
    s.challenge = challenge := by
  unfold verifySshEd25519 at h
  repeat' split at h
  all_goals cases h
  rfl

/-- A signature that was checked against a `did:key` keeps the challenge it was checked over. -/
theorem challenge_of_verifyDidKeyEd25519 {C : Crypto} {candidate : Candidate}
    {challenge : Bytes} {did : Str} {signature : Bytes} {now : SystemTime} {s : ChallengeSignature}
    (h : verifyDidKeyEd25519 C candidate challenge did signature now = .ok s) :
    s.challenge = challenge := by
  unfold verifyDidKeyEd25519 at h
  repeat' split at h
  all_goals cases h
  rfl

/-- A signature that gpg checked keeps the challenge it was checked over. -/
theorem challenge_of_verifyOpenpgp {W : Type} (gpg : Gpg W) (candidate : Candidate)
    (challenge signedMessage : Bytes) :
    Action.Yields (verifyOpenpgp gpg candidate challenge signedMessage)
      fun s ↦ s.challenge = challenge := by
  unfold verifyOpenpgp
  refine .seq fun fingerprint ↦ .seq fun found ↦ .seq fun binary ↦ .seq fun output ↦ ?_
  split
  · exact .fail
  · split
    · exact .fail
    · exact .seq fun now ↦ .pure rfl

end ChallengeSignature

/-! ### Evidence -/

/-- An identity token whose signature was checked against the issuer's key. -/
structure VerifiedToken where
  issuerDomain : Str
  authenticatedAt : SystemTime
  deriving DecidableEq, Repr

/-- An authenticator assertion whose user-present bit was observed set. -/
structure HardwareTouch where
  touchedAt : SystemTime
  deriving DecidableEq, Repr

/-- The account the kernel named, as a SPIFFE path, and when it was asked. -/
structure PlatformIdentity where
  account : Str
  askedAt : SystemTime
  deriving DecidableEq, Repr

/-- The identity a local daemon named, as a SPIFFE path, and when it was asked. -/
structure DaemonIdentity where
  subject : Str
  askedAt : SystemTime
  deriving DecidableEq, Repr

/-- Evidence supporting a candidate. -/
inductive Evidence
  | possession (signature : ChallengeSignature)
  | idpVerified (token : VerifiedToken)
  | hardwarePresence (touch : HardwareTouch)
  | platformAssertion (identity : PlatformIdentity)
  | daemonAssertion (identity : DaemonIdentity)
  deriving DecidableEq, Repr

/-- What a piece of evidence establishes, and when it was observed. -/
structure Tier where
  assurance : IdentityAssurance
  presence : PresenceLevel
  instant : SystemTime
  deriving DecidableEq, Repr

namespace Evidence

/-- The tier of a piece of evidence. -/
def tier : Evidence → Tier
  | possession s => ⟨.iaa1, .none, s.observedAt⟩
  | idpVerified t => ⟨.iaa2, .session, t.authenticatedAt⟩
  | hardwarePresence h => ⟨.iaa1, .hardware, h.touchedAt⟩
  | platformAssertion p => ⟨.iaa1, .none, p.askedAt⟩
  | daemonAssertion d => ⟨.iaa2, .none, d.askedAt⟩

/-- Whether evidence answers the challenge of this request, for this candidate. -/
def bindsTo (candidate : Candidate) (challenge : Bytes) : Evidence → Bool
  | possession s => s.challenge = challenge
  | platformAssertion p => p.account = candidate.path
  | daemonAssertion d => d.subject = candidate.path
  | idpVerified _ => true
  | hardwarePresence _ => true

/-- The trust domain a verified token re-anchors a claim to. -/
def issuerAnchor : Evidence → Option TrustDomain
  | idpVerified t => some (.orgOidc t.issuerDomain)
  | _ => none

/-- Whether a piece of evidence is a signature. -/
def isPossession : Evidence → Bool
  | possession _ => true
  | _ => false

end Evidence

/-- Fold one more tier in. Presence and its instant move together, and a tie takes the newer. -/
def Tier.absorb (acc tier : Tier) : Tier :=
  let assurance := max acc.assurance tier.assurance
  if acc.presence < tier.presence ∨ (tier.presence = acc.presence ∧ acc.instant < tier.instant) then
    ⟨assurance, tier.presence, tier.instant⟩
  else ⟨assurance, acc.presence, acc.instant⟩

/-! ### Claims -/

/-- A proven identity claim. -/
structure Claim where
  source : Str
  assurance : IdentityAssurance
  presence : PresenceLevel
  spiffeId : SpiffeId
  displayName : Str
  attestedAt : SystemTime
  deriving DecidableEq, Repr

namespace Claim

/-- Derive a claim from a candidate and the evidence that binds to it. -/
def derive (candidate : Candidate) (challenge : Bytes) (evidence : List Evidence) : Option Claim :=
  match evidence.filter (·.bindsTo candidate challenge) with
  | [] => none
  | first :: rest =>
    let tier := (rest.map Evidence.tier).foldl Tier.absorb first.tier
    let assurance :=
      if PresenceLevel.hardware ≤ tier.presence ∧ IdentityAssurance.iaa2 ≤ tier.assurance then
        IdentityAssurance.iaa3
      else tier.assurance
    let trustDomain :=
      ((first :: rest).findSome? Evidence.issuerAnchor).getD candidate.domain.toTrustDomain
    some ⟨candidate.source, assurance, tier.presence, ⟨trustDomain, candidate.path⟩,
      candidate.displayName, tier.instant⟩

/-- The age of the observation, or none when it is in the future. -/
def ageAt (claim : Claim) (now : SystemTime) : Option Duration := durationSince now claim.attestedAt

/-- There is no claim exactly when no evidence binds. -/
theorem derive_eq_none_iff {candidate : Candidate} {challenge : Bytes} {evidence : List Evidence} :
    derive candidate challenge evidence = none ↔
      ∀ e ∈ evidence, e.bindsTo candidate challenge = false := by
  rw [show (∀ e ∈ evidence, e.bindsTo candidate challenge = false) ↔
    evidence.filter (·.bindsTo candidate challenge) = [] by simp]
  unfold derive
  cases hbound : evidence.filter (·.bindsTo candidate challenge) <;> simp

/-- What is behind a claim: some evidence binds, and its tiers are absorbed into the first. -/
theorem exists_cons_of_derive {candidate : Candidate} {challenge : Bytes}
    {evidence : List Evidence} {claim : Claim}
    (h : derive candidate challenge evidence = some claim) :
    ∃ first rest, evidence.filter (·.bindsTo candidate challenge) = first :: rest ∧
      let tier := (rest.map Evidence.tier).foldl Tier.absorb first.tier
      claim = ⟨candidate.source,
        if PresenceLevel.hardware ≤ tier.presence ∧ IdentityAssurance.iaa2 ≤ tier.assurance then
          .iaa3
        else tier.assurance, tier.presence,
        ⟨((first :: rest).findSome? Evidence.issuerAnchor).getD candidate.domain.toTrustDomain,
          candidate.path⟩, candidate.displayName, tier.instant⟩ := by
  unfold derive at h
  split at h
  · cases h
  · rename_i first rest hbound
    exact ⟨first, rest, hbound, (Option.some.inj h).symm⟩

/-- A claim carries its candidate's source and path. -/
theorem derive_eq_some {candidate : Candidate} {challenge : Bytes} {evidence : List Evidence}
    {claim : Claim} (h : derive candidate challenge evidence = some claim) :
    claim.source = candidate.source ∧ claim.spiffeId.path = candidate.path ∧
      claim.spiffeId.trustDomain = ((evidence.filter (·.bindsTo candidate challenge)).findSome?
        Evidence.issuerAnchor).getD candidate.domain.toTrustDomain := by
  obtain ⟨first, rest, hbound, rfl⟩ := exists_cons_of_derive h
  exact ⟨rfl, rfl, by rw [hbound]⟩

/-! ### Evidence of one candidate offered for another -/

/-- Evidence that was produced for a candidate under a challenge: a signature returned by one of
the verifying constructors, or an answer that named the candidate's path. -/
inductive ProducedFor (C : Crypto) (candidate : Candidate) (challenge : Bytes) : Evidence → Prop
  | sshEd25519 {keyBlob signature : Bytes} {now : SystemTime} {s : ChallengeSignature}
      (h : ChallengeSignature.verifySshEd25519 C candidate challenge keyBlob signature now =
        .ok s) :
      ProducedFor C candidate challenge (.possession s)
  | didKeyEd25519 {did : Str} {signature : Bytes} {now : SystemTime} {s : ChallengeSignature}
      (h : ChallengeSignature.verifyDidKeyEd25519 C candidate challenge did signature now = .ok s) :
      ProducedFor C candidate challenge (.possession s)
  | openpgp {W : Type} {gpg : Gpg W} {world : W} {signedMessage : Bytes} {s : ChallengeSignature}
      (h : (ChallengeSignature.verifyOpenpgp gpg candidate challenge signedMessage world).1 =
        .ok s) :
      ProducedFor C candidate challenge (.possession s)
  | platform (askedAt : SystemTime) :
      ProducedFor C candidate challenge (.platformAssertion ⟨candidate.path, askedAt⟩)
  | daemon (askedAt : SystemTime) :
      ProducedFor C candidate challenge (.daemonAssertion ⟨candidate.path, askedAt⟩)

/-- Evidence produced for one candidate binds to a candidate with another path exactly when it is a
signature. Assumes: the paths differ. -/
theorem bindsTo_of_producedFor {C : Crypto} {candidate other : Candidate} {challenge : Bytes}
    {e : Evidence} (hpath : candidate.path ≠ other.path)
    (hproduced : ProducedFor C candidate challenge e) :
    e.bindsTo other challenge = e.isPossession := by
  cases hproduced with
  | sshEd25519 h =>
    exact decide_eq_true (ChallengeSignature.challenge_of_verifySshEd25519 h)
  | didKeyEd25519 h =>
    exact decide_eq_true (ChallengeSignature.challenge_of_verifyDidKeyEd25519 h)
  | openpgp h =>
    exact decide_eq_true (ChallengeSignature.challenge_of_verifyOpenpgp _ _ _ _ _ _ h)
  | platform askedAt => exact decide_eq_false hpath
  | daemon askedAt => exact decide_eq_false hpath

/-- Evidence produced for one candidate yields no claim for a candidate with another path exactly
when it contains no signature. Assumes: the paths differ and every item was produced for the first
candidate under the challenge. -/
theorem derive_eq_none_iff_no_possession (C : Crypto) (A B : Candidate) (challenge : Bytes)
    (evidence : List Evidence) (hpath : A.path ≠ B.path)
    (hproduced : ∀ e ∈ evidence, ProducedFor C A challenge e) :
    derive B challenge evidence = none ↔ ∀ e ∈ evidence, e.isPossession = false := by
  rw [derive_eq_none_iff]
  constructor
  · intro h e he
    rw [← bindsTo_of_producedFor hpath (hproduced e he)]
    exact h e he
  · intro h e he
    rw [bindsTo_of_producedFor hpath (hproduced e he)]
    exact h e he

/-! The first key of the signature fixtures in `claim.rs`: its point, the challenge it signed, the
signature, and the SHA-256 digest of its agent blob. -/

/-- The point of the fixture key. -/
def fixturePoint : ByteArr 32 :=
  ⟨[0xdb, 0x99, 0x5f, 0xe2, 0x51, 0x69, 0xd1, 0x41, 0xca, 0xb9, 0xbb, 0xba, 0x92, 0xba, 0xa0,
    0x1f, 0x9f, 0x2e, 0x1e, 0xce, 0x7d, 0xf4, 0xcb, 0x2a, 0xc0, 0x51, 0x90, 0xf3, 0x7f, 0xcc,
    0x1f, 0x9d], rfl⟩

/-- The signature of the fixture key over the fixture challenge. -/
def fixtureSignature : ByteArr 64 :=
  ⟨[0x24, 0xaa, 0x9e, 0x2c, 0x44, 0x0f, 0x78, 0xa2, 0xfe, 0x6d, 0x11, 0x0f, 0x53, 0x91, 0x79,
    0x63, 0x1c, 0x62, 0x65, 0x22, 0x9b, 0x7b, 0x08, 0x3b, 0xfb, 0x22, 0xa5, 0xcb, 0x7c, 0xc4,
    0x0a, 0x4d, 0xcf, 0xe9, 0x9e, 0x0a, 0x03, 0x23, 0xd7, 0x87, 0xd7, 0x09, 0xf9, 0x42, 0x41,
    0xb1, 0x0a, 0x48, 0x08, 0x00, 0x2f, 0x06, 0xf0, 0x4d, 0x4b, 0x42, 0x1e, 0xe3, 0x24, 0xb2,
    0xea, 0xe0, 0x4c, 0x06], rfl⟩

/-- The digest of the agent blob of the fixture key. -/
def fixtureDigest : ByteArr 32 :=
  ⟨[0x87, 0x2a, 0x5f, 0x6e, 0xbd, 0xee, 0xad, 0x87, 0xf3, 0x90, 0x70, 0xd9, 0x54, 0x42, 0xf6,
    0xe4, 0xd7, 0xf0, 0x77, 0x4a, 0xde, 0x2c, 0xa4, 0x2a, 0xf9, 0xd0, 0x2c, 0x8b, 0x8f, 0x12,
    0x06, 0xae], rfl⟩

/-- The fixture challenge: the bytes from zero to thirty-one. -/
def fixtureChallenge : Bytes := (List.range 32).map UInt8.ofNat

/-- The agent blob of the fixture key. -/
def fixtureBlob : Bytes := pushString (pushString [] Ssh.sshEd25519) fixturePoint.1

/-- The primitives as they answer on the fixture. -/
def fixtureCrypto : Crypto where
  sha256 blob := if blob = fixtureBlob then fixtureDigest else fill 32 0
  hkdfSha256 _ := fill 32 0
  validPoint point := point = fixturePoint
  verifyStrict point message signature :=
    point = fixturePoint ∧ message = fixtureChallenge ∧ signature = fixtureSignature

/-- The candidate of an agent key. -/
def fixtureCandidate (path : Str) : Candidate :=
  .new (str "ssh-agent") .sshLocal path (str "Test Key")

/-- The two paths of the fixtures: the key that signed, and another. -/
def fixturePaths : Str × Str :=
  (str "key/hypfbr3urYfzkHDZVEL25Nfwd0reLKQq+dAsi48SBq4",
    str "key/ZsrOVCtcb1bouzun0GIHz5vL5oCjVhVIQ3jfIBIgZ8g")

/-- The evidence the verifying constructor makes of the fixture signature. -/
def fixtureEvidence : Evidence :=
  .possession ⟨⟨fixtureSignature.1, str "application/vnd.hire.ssh-ed25519-signature"⟩,
    fixtureChallenge, 0⟩

theorem fixture_path_ne :
    (fixtureCandidate fixturePaths.1).path ≠ (fixtureCandidate fixturePaths.2).path := by
  decide +kernel

theorem producedFor_fixture : ∀ e ∈ [fixtureEvidence],
    ProducedFor fixtureCrypto (fixtureCandidate fixturePaths.1) fixtureChallenge e := by
  intro e he
  rw [List.mem_singleton.mp he]
  exact @ProducedFor.sshEd25519 _ _ _ fixtureBlob
    (pushString (pushString [] Ssh.sshEd25519) fixtureSignature.1) 0 _ (by decide +kernel)

/-- On the fixture the theorem speaks about a real signature: it was produced for one path, and it
is offered for another. -/
theorem derive_eq_none_iff_no_possession_fixture :
    (fixtureCandidate fixturePaths.1).path ≠ (fixtureCandidate fixturePaths.2).path ∧
      (∀ e ∈ [fixtureEvidence],
        ProducedFor fixtureCrypto (fixtureCandidate fixturePaths.1) fixtureChallenge e) ∧
      (derive (fixtureCandidate fixturePaths.2) fixtureChallenge [fixtureEvidence] = none ↔
        ∀ e ∈ [fixtureEvidence], e.isPossession = false) :=
  ⟨fixture_path_ne, producedFor_fixture,
    derive_eq_none_iff_no_possession _ _ _ _ _ fixture_path_ne producedFor_fixture⟩

/-- A signature crosses over: verified for one candidate, it yields a claim for another candidate
of the same request. -/
theorem derive_rebinds_possession :
    ¬ ∀ (C : Crypto) (A B : Candidate) (challenge : Bytes) (evidence : List Evidence),
      A.path ≠ B.path → (∀ e ∈ evidence, ProducedFor C A challenge e) →
      derive B challenge evidence = none := by
  intro h
  have hnone := h fixtureCrypto (fixtureCandidate fixturePaths.1) (fixtureCandidate fixturePaths.2)
    fixtureChallenge [fixtureEvidence] fixture_path_ne producedFor_fixture
  exact absurd hnone (by decide)

end Claim

end Hire.Attestors
