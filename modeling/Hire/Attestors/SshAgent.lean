import Hire.Attestors.Attestor

/-!
# The ssh agent and the keys it holds

`hire-attestors/src/ssh.rs` and the attestor of `hire-attestors/src/did_key.rs`. Both sources prove
possession through the agent protocol: `agentRoundtrip` frames a message and reads one reply,
`listIdentities` asks for the keys and `sign` for a signature. What a reply means is decided by two
pure readers, `decodeIdentities` and `decodeSignature`, so the protocol can be reasoned about
without a socket.

The ssh source names a key by its fingerprint and the `did:key` source by the hash of the DID that
encodes it. Neither trusts the candidate it is given: a proof lists the keys again. Both are
confined to `ssh.local` (`Ssh.attestor_confined`, `DidKey.attestor_confined`).
-/

set_option autoImplicit false
set_option relaxedAutoImplicit false

namespace Hire.Attestors

open Hire.Library Hire.Core

variable {W : Type}

namespace Ssh

/-! ### The protocol -/

/-- The message with which the agent refuses. -/
def agentFailure : UInt8 := 5

/-- The message that asks for the keys. -/
def requestIdentities : UInt8 := 11

/-- The message that answers with the keys. -/
def identitiesAnswer : UInt8 := 12

/-- The message that asks for a signature. -/
def signRequest : UInt8 := 13

/-- The message that answers with a signature. -/
def signResponse : UInt8 := 14

/-- The longest agent reply that is accepted. -/
def maxAgentReply : ℕ := 256 * 1024

/-- Whether an agent socket is configured and present. -/
def isAvailable (M : Machine W) : Action AttestorError W Bool := do
  match ← Action.ask (M.env (str "SSH_AUTH_SOCK")) with
  | none => pure false
  | some path => Action.ask (M.pathExists path)

/-- Open a connection to the agent. -/
def connect (M : Machine W) : Action AttestorError W ℕ := do
  let sockPath ← Action.ask (M.env (str "SSH_AUTH_SOCK"))
  let sockPath ← Action.ofOption (.unavailable (str "SSH_AUTH_SOCK not set")) sockPath
  (M.connect sockPath).mapError fun e ↦ .unavailable (str "cannot connect to SSH agent: " ++ e)

/-- Send a framed message, and return the reply without its length. -/
def agentRoundtrip (M : Machine W) (stream : ℕ) (msgType : UInt8) (payload : Bytes) :
    Action AttestorError W Bytes := do
  (M.writeAll stream (u32ToBeBytes (1 + payload.length))).mapError .io
  (M.writeAll stream [msgType]).mapError .io
  (M.writeAll stream payload).mapError .io
  let lenBuf ← (M.readExact stream 4).mapError .io
  let respLen := lenBuf.1.foldl (fun n b ↦ n * 256 + b.toNat) 0
  if respLen > maxAgentReply then
    Action.fail (.unavailable (str "ssh-agent reply too large"))
  else
    let resp ← (M.readExact stream respLen).mapError .io
    pure resp.1

/-- Read keys off an identities answer, as many as are claimed or as are complete. -/
def readIdentities : ℕ → Bytes → List (Bytes × Str)
  | 0, _ => []
  | nkeys + 1, cur =>
    match readString cur with
    | none => []
    | some (keyBlob, rest) =>
      match readString rest with
      | none => []
      | some (comment, rest) => (keyBlob, fromUtf8Lossy comment) :: readIdentities nkeys rest

/-- The keys of an identities answer, each with its comment. -/
def decodeIdentities : Bytes → Except AttestorError (List (Bytes × Str))
  | [] => .error (.unavailable (str "unexpected response from SSH agent"))
  | msgType :: cur =>
    if msgType ≠ identitiesAnswer then
      .error (.unavailable (str "unexpected response from SSH agent"))
    else
      match cur with
      | b0 :: b1 :: b2 :: b3 :: cur => .ok (readIdentities (u32FromBeBytes b0 b1 b2 b3) cur)
      | _ => .ok []

/-- Ask the agent which keys it holds. -/
def listIdentities (M : Machine W) (stream : ℕ) : Action AttestorError W (List (Bytes × Str)) := do
  let resp ← agentRoundtrip M stream requestIdentities []
  Action.ofExcept (decodeIdentities resp)

/-- The signature of a sign response, as the agent framed it. -/
def decodeSignature (subject : Str) : Bytes → Except AttestorError Bytes
  | [] => .error (.challengeFailed (str "unexpected response to ssh-agent sign request"))
  | msgType :: body =>
    if msgType = signResponse then
      match readString body with
      | none => .error (.challengeFailed (str "malformed SIGN_RESPONSE from ssh-agent"))
      | some (signature, trailing) =>
        if trailing ≠ [] then
          .error (.challengeFailed (str "trailing bytes after ssh-agent signature"))
        else .ok signature
    else if msgType = agentFailure then
      .error (.challengeFailed (str "ssh-agent declined to sign for " ++ subject))
    else .error (.challengeFailed (str "unexpected response to ssh-agent sign request"))

/-- Ask the agent to sign a challenge with a key. The subject is named in a refusal only. -/
def sign (M : Machine W) (stream : ℕ) (keyBlob challenge : Bytes) (subject : Str) :
    Action AttestorError W Bytes := do
  let payload := pushString (pushString [] keyBlob) challenge ++ u32ToBeBytes 0
  let resp ← agentRoundtrip M stream signRequest payload
  Action.ofExcept (decodeSignature subject resp)

/-! ### The agent as a source -/

/-- The candidate of an agent key. The agent does not say which keys prompt, so every key may. -/
def candidateOf (C : Crypto) (key : Bytes × Str) : Candidate :=
  ((Candidate.new (str "ssh-agent") .sshLocal (spiffePath C key.1) key.2).withAttainable
    .iaa1).withProofCost .interactive

/-- The keys the agent holds, as candidates. -/
def enumerate (C : Crypto) (M : Machine W) : Action AttestorError W (List Candidate) := do
  let stream ← connect M
  let keys ← listIdentities M stream
  pure (keys.map (candidateOf C))

/-- Prove an agent key: list the keys again, refuse what is not ed25519 before the agent is asked,
and check the signature that comes back. -/
def prove (C : Crypto) (M : Machine W) (candidate : Candidate) (challenge : Bytes) :
    Action AttestorError W (List Evidence) := do
  let stream ← connect M
  let keys ← listIdentities M stream
  let keyBlob ← Action.ofOption
    (.challengeFailed (str "ssh-agent no longer holds " ++ candidate.path))
    ((keys.map Prod.fst).find? fun blob ↦ decide (spiffePath C blob = candidate.path))
  let (algorithm, _) ← Action.ofOption
    (.challengeFailed (str "malformed key blob from ssh-agent")) (readString keyBlob)
  if algorithm ≠ sshEd25519 then
    Action.fail (.challengeFailed (str "ssh-agent key " ++ candidate.path ++ str " is " ++
      fromUtf8Lossy algorithm ++ str "; hire proves ssh-ed25519 keys only"))
  else
    let signature ← sign M stream keyBlob challenge candidate.path
    let now ← Action.ask M.now
    let s ← Action.ofExcept
      (ChallengeSignature.verifySshEd25519 C candidate challenge keyBlob signature now)
    pure [.possession s]

/-- The ssh agent as a source. -/
def attestor (C : Crypto) (M : Machine W) : Attestor W where
  name := str "ssh-agent"
  enumerate := enumerate C M
  prove := prove C M

/-- The ssh agent is confined to `ssh.local`. -/
theorem attestor_confined (C : Crypto) (M : Machine W) :
    (attestor C M).Confined .sshLocal where
  enumerate := by
    refine .seq fun stream ↦ .seq fun keys ↦ .pure fun candidate hcandidate ↦ ?_
    obtain ⟨key, -, rfl⟩ := List.mem_map.mp hcandidate
    rfl
  prove candidate challenge := by
    refine .seq fun stream ↦ .seq fun keys ↦ .seq fun keyBlob ↦ .seq fun parts ↦ ?_
    dsimp only
    split
    · exact .fail
    · exact .seq fun signature ↦ .seq fun now ↦ .seq fun s ↦
        .pure (Evidence.issuerAnchor_possession s)

end Ssh

/-! ### `did:key` identifiers whose key an agent holds -/

namespace DidKey

/-- The identifiers the operator configured. -/
def parseDidKeys (M : Machine W) : Action AttestorError W (List Str) := do
  let raw ← Action.ask (M.env (str "HIRE_DID_KEYS"))
  pure (parseDidKeysFrom (raw.getD []))

/-- Whether the operator configured any identifier. -/
def isAvailable (M : Machine W) : Action AttestorError W Bool := do
  let dids ← parseDidKeys M
  pure (dids ≠ [])

/-- The candidate of a DID. -/
def candidateOf (C : Crypto) (did : Str) : Candidate :=
  ((Candidate.new (str "did:key") .sshLocal (spiffePath C did) did).withAttainable
    .iaa1).withProofCost .interactive

/-- The identifiers the operator configured, as candidates. -/
def enumerate (C : Crypto) (M : Machine W) : Action AttestorError W (List Candidate) := do
  let dids ← parseDidKeys M
  pure (dids.map (candidateOf C))

/-- Prove a DID: read the configuration again, find the key the DID encodes in the agent, and check
the signature that comes back. -/
def prove (C : Crypto) (M : Machine W) (candidate : Candidate) (challenge : Bytes) :
    Action AttestorError W (List Evidence) := do
  let dids ← parseDidKeys M
  let did ← Action.ofOption
    (.challengeFailed (str "HIRE_DID_KEYS no longer names " ++ candidate.path))
    (dids.find? fun did ↦ decide (spiffePath C did = candidate.path))
  let point ← Action.ofOption
    (.challengeFailed (did ++ str " does not name an ed25519 key")) (ed25519Point did)
  let stream ← Ssh.connect M
  let keys ← Ssh.listIdentities M stream
  let keyBlob ← Action.ofOption
    (.challengeFailed (str "no local agent holds the key " ++ did ++ str " names"))
    ((keys.map Prod.fst).find? fun blob ↦ decide (Ssh.ed25519PointOf blob = some point))
  let signature ← Ssh.sign M stream keyBlob challenge candidate.path
  let now ← Action.ask M.now
  let s ← Action.ofExcept
    (ChallengeSignature.verifyDidKeyEd25519 C candidate challenge did signature now)
  pure [.possession s]

/-- The configured DIDs as a source. -/
def attestor (C : Crypto) (M : Machine W) : Attestor W where
  name := str "did:key"
  enumerate := enumerate C M
  prove := prove C M

/-- The configured DIDs are confined to `ssh.local`. -/
theorem attestor_confined (C : Crypto) (M : Machine W) :
    (attestor C M).Confined .sshLocal where
  enumerate := by
    refine .seq fun dids ↦ .pure fun candidate hcandidate ↦ ?_
    obtain ⟨did, -, rfl⟩ := List.mem_map.mp hcandidate
    rfl
  prove candidate challenge := by
    refine .seq fun dids ↦ .seq fun did ↦ .seq fun point ↦ .seq fun stream ↦ .seq fun keys ↦
      .seq fun keyBlob ↦ .seq fun signature ↦ .seq fun now ↦ .seq fun s ↦ ?_
    exact .pure (Evidence.issuerAnchor_possession s)

end DidKey

end Hire.Attestors
