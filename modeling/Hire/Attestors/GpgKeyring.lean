import Hire.Attestors.Attestor

/-!
# The GPG keyring

`hire-attestors/src/gpg.rs`. The source lists the keys whose secret half the operator holds, and
proves one by having gpg-agent sign the challenge. The listing is read line by line
(`colonStep`): a `sec` record closes the key before it and opens the next one, the first `fpr`
record after it names the key, and the first `uid` record that is not revoked names its holder.

A proof lists the keys again, so the rules of the listing gate the signature too. The source is
confined to `ssh.local` (`attestor_confined`), which `isGpgCandidate_parseGpgColons` reads off the
one place where a candidate is made.
-/

set_option autoImplicit false
set_option relaxedAutoImplicit false

namespace Hire.Attestors.GpgKeyring

open Hire.Library Hire.Core

variable {W : Type}

/-! ### The colon listing -/

/-- Whether a validity field marks its record revoked. -/
def isRevoked (field : Option Str) : Bool := field = some (str "r")

/-- The candidate of a fingerprint and a user ID. -/
def makeCandidate (U : Unicode) (fingerprint displayName : Str) : Candidate :=
  ((Candidate.new (str "gpg") .sshLocal (str "gpg/" ++ U.toLowercase fingerprint)
    displayName).withAttainable .iaa1).withProofCost .interactive

/-- The candidate of a key that is complete, held and not revoked. -/
def flushKey (U : Unicode) (fingerprint uid : Option Str) (enrollable : Bool) : List Candidate :=
  match enrollable, fingerprint, uid with
  | true, some fp, some uid => [makeCandidate U fp uid]
  | _, _, _ => []

/-- The loop state of the listing: the candidates so far, and the key that is being read. -/
structure ColonState where
  candidates : List Candidate
  currentFp : Option Str
  currentUid : Option Str
  enrollable : Bool
  wantPrimaryFpr : Bool

/-- Read one line of the listing. -/
def colonStep (U : Unicode) (s : ColonState) (line : Str) : ColonState :=
  let fields := line.splitOn ':'
  if fields.head? = some (str "sec") then
    { candidates := s.candidates ++ flushKey U s.currentFp s.currentUid s.enrollable
      currentFp := none
      currentUid := none
      enrollable := fields[14]?.any (· ≠ str "#") && !isRevoked fields[1]?
      wantPrimaryFpr := true }
  else if fields.head? = some (str "fpr") ∧ s.wantPrimaryFpr = true then
    { s with currentFp := fields[9]?, wantPrimaryFpr := false }
  else if fields.head? = some (str "uid") ∧ s.currentUid = none ∧ isRevoked fields[1]? = false then
    { s with currentUid := fields[9]? }
  else s

/-- The candidates of a listing. -/
def parseGpgColons (U : Unicode) (output : Str) : List Candidate :=
  let s := (lines output).foldl (colonStep U) ⟨[], none, none, false, false⟩
  s.candidates ++ flushKey U s.currentFp s.currentUid s.enrollable

/-- Every candidate of a listing was made from a fingerprint and a user ID. -/
def IsGpgCandidate (U : Unicode) (candidate : Candidate) : Prop :=
  ∃ fingerprint uid, candidate = makeCandidate U fingerprint uid

theorem isGpgCandidate_flushKey {U : Unicode} {fingerprint uid : Option Str} {enrollable : Bool}
    {candidate : Candidate} (h : candidate ∈ flushKey U fingerprint uid enrollable) :
    IsGpgCandidate U candidate := by
  unfold flushKey at h
  split at h
  · exact ⟨_, _, List.mem_singleton.mp h⟩
  · cases h

theorem isGpgCandidate_colonStep {U : Unicode} {s : ColonState} (line : Str)
    (hs : ∀ candidate ∈ s.candidates, IsGpgCandidate U candidate) :
    ∀ candidate ∈ (colonStep U s line).candidates, IsGpgCandidate U candidate := by
  intro candidate hcandidate
  unfold colonStep at hcandidate
  dsimp only at hcandidate
  split_ifs at hcandidate
  · rcases List.mem_append.mp hcandidate with hbefore | hflushed
    · exact hs candidate hbefore
    · exact isGpgCandidate_flushKey hflushed
  · exact hs candidate hcandidate
  · exact hs candidate hcandidate
  · exact hs candidate hcandidate

theorem isGpgCandidate_foldl {U : Unicode} (text : List Str) {s : ColonState}
    (hs : ∀ candidate ∈ s.candidates, IsGpgCandidate U candidate) :
    ∀ candidate ∈ (text.foldl (colonStep U) s).candidates, IsGpgCandidate U candidate := by
  induction text generalizing s with
  | nil => exact hs
  | cons line rest ih => exact ih (isGpgCandidate_colonStep line hs)

/-- Every candidate of a listing was made from a fingerprint and a user ID. -/
theorem isGpgCandidate_parseGpgColons {U : Unicode} {output : Str} {candidate : Candidate}
    (h : candidate ∈ parseGpgColons U output) : IsGpgCandidate U candidate := by
  rcases List.mem_append.mp h with hbefore | hflushed
  · exact isGpgCandidate_foldl _ (fun _ hnone ↦ by cases hnone) candidate hbefore
  · exact isGpgCandidate_flushKey hflushed

/-! ### The keyring as a source -/

/-- Where gpg looks for the keyring. -/
def gnupgHome (M : Machine W) : Action AttestorError W Str := do
  match ← Action.ask (M.env (str "GNUPGHOME")) with
  | some home => pure home
  | none =>
    let home ← Action.ask (M.env (str "HOME"))
    let home := home.getD (str "/root")
    pure (if home = [] ∨ home.getLast? = some '/' then home ++ str ".gnupg"
      else home ++ str "/.gnupg")

/-- Whether there is a gpg binary and a keyring. -/
def isAvailable (M : Machine W) : Action AttestorError W Bool := do
  match ← Action.ask M.whichGpg with
  | none => pure false
  | some _ =>
    let home ← gnupgHome M
    Action.ask (M.pathExists home)

/-- The keys the operator holds, as candidates. -/
def enumerate (M : Machine W) : Action AttestorError W (List Candidate) := do
  let gpg ← Action.ask M.whichGpg
  let gpg ← Action.ofOption (.unavailable (str "gpg binary not found")) gpg
  let output ← (M.output gpg [str "--batch", str "--no-tty", str "--list-secret-keys",
    str "--with-colons", str "--fingerprint"]).mapError
      fun e ↦ .unavailable (str "gpg exec failed: " ++ e)
  if !output.success then pure []
  else pure (parseGpgColons M.unicode (fromUtf8Lossy output.stdout))

/-- Prove a key: list the keys again, have gpg-agent sign the challenge, and have gpg check it. -/
def prove (M : Machine W) (candidate : Candidate) (challenge : Bytes) :
    Action AttestorError W (List Evidence) := do
  let gpg ← Action.ask M.whichGpg
  let gpg ← Action.ofOption (.unavailable (str "gpg binary not found")) gpg
  let candidates ← enumerate M
  let fingerprint ← Action.ofOption
    (.challengeFailed (str "gpg does not hold an enrollable key for " ++ candidate.path))
    ((candidates.find? fun c ↦ decide (c.path = candidate.path)).bind fun c ↦
      stripPrefix (str "gpg/") c.path)
  let signed ← M.run gpg
    [str "--local-user", fingerprint, str "--sign", str "--output", str "-"] challenge
  if !signed.success then
    Action.fail (.challengeFailed (str "gpg-agent did not sign for " ++ candidate.path))
  else
    let s ← ChallengeSignature.verifyOpenpgp M.toGpg candidate challenge signed.stdout
    pure [.possession s]

/-- The keyring as a source. -/
def attestor (M : Machine W) : Attestor W where
  name := str "gpg"
  enumerate := enumerate M
  prove := prove M

/-- The keyring is confined to `ssh.local`. -/
theorem attestor_confined (M : Machine W) : (attestor M).Confined .sshLocal where
  enumerate := by
    refine .seq fun found ↦ .seq fun gpg ↦ .seq fun output ↦ ?_
    split
    · exact .pure fun candidate hnone ↦ by cases hnone
    · refine .pure fun candidate hcandidate ↦ ?_
      obtain ⟨fingerprint, uid, rfl⟩ := isGpgCandidate_parseGpgColons hcandidate
      rfl
  prove candidate challenge := by
    refine .seq fun found ↦ .seq fun gpg ↦ .seq fun candidates ↦ .seq fun fingerprint ↦
      .seq fun signed ↦ ?_
    split
    · exact .fail
    · exact .seq fun s ↦ .pure (Evidence.issuerAnchor_possession s)

end Hire.Attestors.GpgKeyring
