import Hire.Attestors.Registry
import Hire.Library.Recording

/-!
# What the sources ask of the machine

Every source of `hire-attestors/src` reaches the machine through the questions of `Machine`.
`Machine.recorded` is the same machine with a record of the questions, so a run of a source on it is
the run on the machine itself, with the record beside it (`Action.Records`).

A question is quiet when it cannot ask for a signature. The others are those of a `SignRequest`: the
three writes that ask an agent to sign, or the gpg process that does. Enumerating asks quiet
questions only, whatever the source, and so does proving a silent candidate; proving any candidate
asks for one signature at most, over the challenge it was given and with a key its path names
(`Attestor.Footprint`, `registryOf_footprint`).
-/

set_option autoImplicit false
set_option relaxedAutoImplicit false

namespace Hire.Attestors

open Hire.Library Hire.Core

variable {W : Type}

/-! ### Questions -/

/-- A question to the machine. -/
inductive Op
  | whichGpg
  | run (program : Str) (args : List Str) (input : Bytes)
  | now
  | env (name : Str)
  | pathExists (path : Str)
  | readToString (path : Str)
  | connect (path : Str)
  | writeAll (stream : ℕ) (bytes : Bytes)
  | readExact (stream n : ℕ)
  | readToEnd (stream : ℕ)
  | output (program : Str) (args : List Str)
  | getuid
  | usernameFor (uid : ℕ)
  | fidokeyDevices
  | join
  deriving DecidableEq, Repr

/-- The machine with a record of its questions. -/
def Machine.recorded (M : Machine W) : Machine (Recorded W Op) where
  whichGpg := Action.recordAsk .whichGpg M.whichGpg
  run program args input := (M.run program args input).record (.run program args input)
  now := Action.recordAsk .now M.now
  unicode := M.unicode
  env name := Action.recordAsk (.env name) (M.env name)
  pathExists path := Action.recordAsk (.pathExists path) (M.pathExists path)
  readToString path := Action.recordAsk (.readToString path) (M.readToString path)
  parseJson := M.parseJson
  connect path := (M.connect path).record (.connect path)
  writeAll stream bytes := (M.writeAll stream bytes).record (.writeAll stream bytes)
  readExact stream n := (M.readExact stream n).record (.readExact stream n)
  readToEnd stream := (M.readToEnd stream).record (.readToEnd stream)
  output program args := (M.output program args).record (.output program args)
  getuid := Action.recordAsk .getuid M.getuid
  usernameFor uid := Action.recordAsk (.usernameFor uid) (M.usernameFor uid)
  fidokeyDevices := Action.recordAsk .fidokeyDevices M.fidokeyDevices
  join := M.join.record .join

/-- What a source writes that is not part of a request to sign: the request for the keys, in its
three pieces, and the request for tailscaled's status. -/
def harmless : List Bytes := [u32ToBeBytes 1, [Ssh.requestIdentities], [], Tailscale.statusRequest]

/-- A question that cannot ask for a signature. -/
def Op.Quiet : Op → Prop
  | .writeAll _ bytes => bytes ∈ harmless
  | .run _ args _ => str "--sign" ∉ args
  | .output _ args => str "--sign" ∉ args
  | _ => True

instance : DecidablePred Op.Quiet := fun op ↦ by
  cases op <;> unfold Op.Quiet <;> infer_instance

/-- The three writes that send a message to the agent. -/
def agentWrites (stream : ℕ) (msgType : UInt8) (payload : Bytes) : List Op :=
  [.writeAll stream (u32ToBeBytes (1 + payload.length)), .writeAll stream [msgType],
    .writeAll stream payload]

/-- A whole request for a signature over a challenge with a key that a path names: to an agent for a
key with that fingerprint, to an agent for the key of a DID with that hash, or to gpg for a key with
that fingerprint. -/
inductive SignRequest (C : Crypto) (path : Str) (challenge : Bytes) : List Op → Prop
  | ssh (stream : ℕ) {keyBlob : Bytes} (hkey : Ssh.spiffePath C keyBlob = path) :
      SignRequest C path challenge (agentWrites stream Ssh.signRequest
        (pushString (pushString [] keyBlob) challenge ++ u32ToBeBytes 0))
  | didKey (stream : ℕ) {keyBlob : Bytes} {did : Str} {point : ByteArr 32}
      (hdid : DidKey.spiffePath C did = path) (hpoint : DidKey.ed25519Point did = some point)
      (hkey : Ssh.ed25519PointOf keyBlob = some point) :
      SignRequest C path challenge (agentWrites stream Ssh.signRequest
        (pushString (pushString [] keyBlob) challenge ++ u32ToBeBytes 0))
  | gpg (program : Str) {fingerprint : Str} (hkey : path = str "gpg/" ++ fingerprint) :
      SignRequest C path challenge [.run program
        [str "--local-user", fingerprint, str "--sign", str "--output", str "-"] challenge]

/-- A request for a signature that may have been cut off, or none at all. -/
def signing (C : Crypto) (path : Str) (challenge : Bytes) : Language Op :=
  {word | word = [] ∨ ∃ request, SignRequest C path challenge request ∧ word <+: request}

theorem nil_mem_signing (C : Crypto) (path : Str) (challenge : Bytes) :
    [] ∈ signing C path challenge :=
  Or.inl rfl

theorem prefixes_le_signing {C : Crypto} {path : Str} {challenge : Bytes} {request : List Op}
    (h : SignRequest C path challenge request) : prefixes request ≤ signing C path challenge :=
  fun _ hword ↦ Or.inr ⟨request, h, hword⟩

/-! ### Quiet questions -/

section Quiet

variable (M : Machine W)

open Action

/-- What is proved of a source that only asks quiet questions. -/
abbrev QuietRecords {ε α : Type} (m' : Action ε (Recorded W Op) α) (m : Action ε W α) : Prop :=
  Records m' m (words Op.Quiet)

theorem quiet_env (name : Str) :
    QuietRecords (Action.ask (M.recorded.env name) : Action AttestorError _ _)
      (Action.ask (M.env name)) :=
  .ask (singleton_mem_words trivial)

theorem quiet_pathExists (path : Str) :
    QuietRecords (Action.ask (M.recorded.pathExists path) : Action AttestorError _ _)
      (Action.ask (M.pathExists path)) :=
  .ask (singleton_mem_words trivial)

theorem quiet_now :
    QuietRecords (Action.ask M.recorded.now : Action AttestorError _ _) (Action.ask M.now) :=
  .ask (singleton_mem_words trivial)

theorem quiet_whichGpg :
    QuietRecords (Action.ask M.recorded.whichGpg : Action AttestorError _ _)
      (Action.ask M.whichGpg) :=
  .ask (singleton_mem_words trivial)

theorem quiet_readExact (stream n : ℕ) :
    QuietRecords (M.recorded.readExact stream n) (M.readExact stream n) :=
  .record (singleton_mem_words trivial)

/-- Connecting to the agent is quiet. -/
theorem Ssh.quiet_connect : QuietRecords (Ssh.connect M.recorded) (Ssh.connect M) := by
  refine .seq absorbs_words (quiet_env M _) fun sockPath ↦ .ofOption_bind nil_mem_words
    fun path _ ↦ ?_
  exact .mapError (.record (singleton_mem_words trivial))

/-- A message to the agent is its three writes, as far as they go, and then reads. -/
theorem Ssh.records_agentRoundtrip (stream : ℕ) (msgType : UInt8) (payload : Bytes) :
    Records (Ssh.agentRoundtrip M.recorded stream msgType payload)
      (Ssh.agentRoundtrip M stream msgType payload)
      (prefixes (agentWrites stream msgType payload) * words Op.Quiet) := by
  refine .cons (.mapError (.record rfl)) (fun _ ↦ ?_) nil_mem_words
  refine .cons (.mapError (.record rfl)) (fun _ ↦ ?_) nil_mem_words
  refine .cons (.mapError (.record rfl)) (fun _ ↦ ?_) nil_mem_words
  have hquiet : words Op.Quiet ≤ prefixes [] * words Op.Quiet := by
    intro word hword
    exact Language.append_mem_mul (nil_mem_prefixes []) hword
  refine .mono ?_ hquiet
  refine .seq absorbs_words (.mapError (quiet_readExact M stream 4)) fun lenBuf ↦ ?_
  dsimp only
  split
  · exact .fail nil_mem_words
  · exact .seq absorbs_words (.mapError (quiet_readExact M stream _)) fun resp ↦ .pure nil_mem_words

/-- A message whose pieces are harmless is quiet. -/
theorem Ssh.quiet_agentRoundtrip {stream : ℕ} {msgType : UInt8} {payload : Bytes}
    (hpieces : ∀ op ∈ agentWrites stream msgType payload, op.Quiet) :
    QuietRecords (Ssh.agentRoundtrip M.recorded stream msgType payload)
      (Ssh.agentRoundtrip M stream msgType payload) := by
  refine .mono (Ssh.records_agentRoundtrip M stream msgType payload) fun word hword ↦ ?_
  obtain ⟨front, hfront, rest, hrest, rfl⟩ := Language.mem_mul.mp hword
  exact append_mem_words (fun op hop ↦ hpieces op (hfront.subset hop)) hrest

/-- Asking for the keys is quiet. -/
theorem Ssh.quiet_listIdentities (stream : ℕ) :
    QuietRecords (Ssh.listIdentities M.recorded stream) (Ssh.listIdentities M stream) := by
  refine .seq absorbs_words (Ssh.quiet_agentRoundtrip M fun op hop ↦ ?_)
    fun resp ↦ .ofExcept nil_mem_words
  simp only [agentWrites, List.mem_cons, List.not_mem_nil, or_false] at hop
  rcases hop with rfl | rfl | rfl <;> simp [Op.Quiet, harmless]

/-- Asking for a signature is a request for it, as far as it goes, and quiet behind it. -/
theorem Ssh.records_sign (stream : ℕ) (keyBlob challenge : Bytes) (subject : Str) :
    Records (Ssh.sign M.recorded stream keyBlob challenge subject)
      (Ssh.sign M stream keyBlob challenge subject)
      (prefixes (agentWrites stream Ssh.signRequest
        (pushString (pushString [] keyBlob) challenge ++ u32ToBeBytes 0)) * words Op.Quiet) := by
  exact .behind (Ssh.records_agentRoundtrip M stream _ _) fun resp ↦ .ofExcept nil_mem_words

/-- Listing gpg's keys is quiet. -/
theorem GpgKeyring.quiet_enumerate :
    QuietRecords (GpgKeyring.enumerate M.recorded) (GpgKeyring.enumerate M) := by
  refine .seq absorbs_words (quiet_whichGpg M) fun found ↦ .ofOption_bind nil_mem_words
    fun gpg _ ↦ ?_
  have hlist : str "--sign" ∉ [str "--batch", str "--no-tty", str "--list-secret-keys",
      str "--with-colons", str "--fingerprint"] := by
    with_unfolding_all decide
  refine .seq absorbs_words (.mapError (.record (singleton_mem_words hlist))) fun output ↦ ?_
  split
  · exact .pure nil_mem_words
  · exact .pure nil_mem_words

/-- Checking a signature with gpg is quiet. -/
theorem ChallengeSignature.quiet_verifyOpenpgp (candidate : Candidate)
    (challenge signedMessage : Bytes) :
    QuietRecords (verifyOpenpgp M.recorded.toGpg candidate challenge signedMessage)
      (verifyOpenpgp M.toGpg candidate challenge signedMessage) := by
  refine .ofOption_bind nil_mem_words fun fingerprint _ ↦ .seq absorbs_words (quiet_whichGpg M)
    fun found ↦ .ofOption_bind nil_mem_words fun binary _ ↦ ?_
  have hdecrypt : str "--sign" ∉ [str "--status-fd", str "2", str "--decrypt"] := by
    with_unfolding_all decide
  refine .seq absorbs_words (.record (singleton_mem_words hdecrypt)) fun output ↦ ?_
  split
  · exact .fail nil_mem_words
  · split
    · exact .fail nil_mem_words
    · exact .seq absorbs_words (quiet_now M) fun now ↦ .pure nil_mem_words

/-- Asking tailscaled for its status is quiet. -/
theorem Tailscale.quiet_fetchStatus :
    QuietRecords (Tailscale.fetchStatus M.recorded) (Tailscale.fetchStatus M) := by
  have hrequest : ∀ stream, (Op.writeAll stream Tailscale.statusRequest).Quiet := by
    intro stream
    simp [Op.Quiet, harmless]
  refine .seq absorbs_words (.mapError (.record (singleton_mem_words trivial))) fun stream ↦ ?_
  refine .seq absorbs_words (.mapError (.record (singleton_mem_words (hrequest stream))))
    fun _ ↦ ?_
  refine .seq absorbs_words (.mapError (.record (singleton_mem_words trivial))) fun response ↦ ?_
  exact .ofExcept_bind nil_mem_words fun body _ ↦ .ofExcept nil_mem_words

end Quiet

/-! ### The footprint of a source -/

/-- The footprint of a source: what it does on a recorded machine is what it does on the machine; it
lists with quiet questions, and so it proves what it lists as silent; and whatever it proves, it
asks for one signature at most, over the challenge and with a key the path of the candidate
names. -/
structure Attestor.Footprint (C : Crypto) (recorded : Attestor (Recorded W Op))
    (attestor : Attestor W) : Prop where
  name : recorded.name = attestor.name
  enumerate : Action.Records recorded.enumerate attestor.enumerate (words Op.Quiet)
  prove : ∀ candidate challenge, Action.Records (recorded.prove candidate challenge)
    (attestor.prove candidate challenge) (around Op.Quiet (signing C candidate.path challenge))
  silent : attestor.enumerate.Yields fun candidates ↦ ∀ candidate ∈ candidates,
    candidate.proofCost = .silent → ∀ challenge, Action.Records (recorded.prove candidate challenge)
      (attestor.prove candidate challenge) (words Op.Quiet)

/-- The footprint of a source that proves with quiet questions. -/
theorem Attestor.Footprint.of_quiet {C : Crypto} {recorded : Attestor (Recorded W Op)}
    {attestor : Attestor W} (hname : recorded.name = attestor.name)
    (henumerate : Action.Records recorded.enumerate attestor.enumerate (words Op.Quiet))
    (hprove : ∀ candidate challenge, Action.Records (recorded.prove candidate challenge)
      (attestor.prove candidate challenge) (words Op.Quiet)) : recorded.Footprint C attestor where
  name := hname
  enumerate := henumerate
  prove candidate challenge := .mono (hprove candidate challenge)
    (absorbs_around (nil_mem_signing C candidate.path challenge)).words_le
  silent _ _ _ candidate _ _ challenge := hprove candidate challenge

/-- The footprint of a source whose candidates may all prompt. -/
theorem Attestor.Footprint.of_interactive {C : Crypto} {recorded : Attestor (Recorded W Op)}
    {attestor : Attestor W} (hname : recorded.name = attestor.name)
    (henumerate : Action.Records recorded.enumerate attestor.enumerate (words Op.Quiet))
    (hprove : ∀ candidate challenge, Action.Records (recorded.prove candidate challenge)
      (attestor.prove candidate challenge) (around Op.Quiet (signing C candidate.path challenge)))
    (hinteractive : attestor.enumerate.Yields fun candidates ↦ ∀ candidate ∈ candidates,
      candidate.proofCost = .interactive) : recorded.Footprint C attestor where
  name := hname
  enumerate := henumerate
  prove := hprove
  silent w candidates hcandidates candidate hcandidate hsilent := by
    have hcost := hinteractive w candidates hcandidates candidate hcandidate
    rw [hsilent] at hcost
    cases hcost

section Sources

variable (C : Crypto) (M : Machine W)

open Action

/-- A request to sign an answer to a challenge, made between quiet questions. -/
theorem records_sign_around {path : Str} {stream : ℕ} {keyBlob challenge : Bytes} {subject : Str}
    {β : Type} {f' : Bytes → Action AttestorError (Recorded W Op) β}
    {f : Bytes → Action AttestorError W β}
    (hrequest : SignRequest C path challenge (agentWrites stream Ssh.signRequest
      (pushString (pushString [] keyBlob) challenge ++ u32ToBeBytes 0)))
    (hf : ∀ signature, QuietRecords (f' signature) (f signature)) :
    Records (Ssh.sign M.recorded stream keyBlob challenge subject >>= f')
      (Ssh.sign M stream keyBlob challenge subject >>= f)
      (around Op.Quiet (signing C path challenge)) := by
  refine .mono (.behind (Ssh.records_sign M stream keyBlob challenge subject) hf) ?_
  intro word hword
  obtain ⟨front, hfront, rest, hrest, rfl⟩ := Language.mem_mul.mp hword
  have hsigning : front ∈ signing C path challenge := prefixes_le_signing hrequest hfront
  exact mul_words_le_around (Language.append_mem_mul hsigning hrest)

/-- The agent as a source. -/
theorem Ssh.footprint : (Ssh.attestor C M.recorded).Footprint C (Ssh.attestor C M) := by
  refine .of_interactive rfl ?_ (fun candidate challenge ↦ ?_) ?_
  · exact .seq absorbs_words (Ssh.quiet_connect M) fun stream ↦
      .seq absorbs_words (Ssh.quiet_listIdentities M stream) fun keys ↦ .pure nil_mem_words
  · have hnil := nil_mem_signing C candidate.path challenge
    have habsorbs := absorbs_around (p := Op.Quiet) hnil
    have hempty := habsorbs.words_le nil_mem_words
    refine .seq habsorbs (Ssh.quiet_connect M) fun stream ↦
      .seq habsorbs (Ssh.quiet_listIdentities M stream) fun keys ↦ ?_
    refine .ofOption_bind hempty fun keyBlob hkeyBlob ↦ .ofOption_bind hempty fun parts _ ↦ ?_
    have hkey : spiffePath C keyBlob = candidate.path := by simpa using List.find?_some hkeyBlob
    dsimp only
    split
    · exact .fail hempty
    · refine records_sign_around C M (.ssh stream hkey) fun signature ↦ ?_
      exact .seq absorbs_words (quiet_now M) fun now ↦
        .ofExcept_bind nil_mem_words fun s _ ↦ .pure nil_mem_words
  · refine .seq fun stream ↦ .seq fun keys ↦ .pure fun candidate hcandidate ↦ ?_
    obtain ⟨key, -, rfl⟩ := List.mem_map.mp hcandidate
    rfl

/-- The configured DIDs as a source. -/
theorem DidKey.footprint : (DidKey.attestor C M.recorded).Footprint C (DidKey.attestor C M) := by
  have hparse : QuietRecords (DidKey.parseDidKeys M.recorded) (DidKey.parseDidKeys M) :=
    .seq absorbs_words (quiet_env M _) fun raw ↦ .pure nil_mem_words
  refine .of_interactive rfl ?_ (fun candidate challenge ↦ ?_) ?_
  · exact .seq absorbs_words hparse fun dids ↦ .pure nil_mem_words
  · have hnil := nil_mem_signing C candidate.path challenge
    have habsorbs := absorbs_around (p := Op.Quiet) hnil
    have hempty := habsorbs.words_le nil_mem_words
    refine .seq habsorbs hparse fun dids ↦ .ofOption_bind hempty fun did hdid ↦
      .ofOption_bind hempty fun point hpoint ↦ .seq habsorbs (Ssh.quiet_connect M) fun stream ↦
      .seq habsorbs (Ssh.quiet_listIdentities M stream) fun keys ↦
      .ofOption_bind hempty fun keyBlob hkeyBlob ↦ ?_
    have hnamed : spiffePath C did = candidate.path := by simpa using List.find?_some hdid
    have hkey : Ssh.ed25519PointOf keyBlob = some point := by simpa using List.find?_some hkeyBlob
    refine records_sign_around C M (.didKey stream hnamed hpoint hkey) fun signature ↦ ?_
    exact .seq absorbs_words (quiet_now M) fun now ↦
      .ofExcept_bind nil_mem_words fun s _ ↦ .pure nil_mem_words
  · refine .seq fun dids ↦ .pure fun candidate hcandidate ↦ ?_
    obtain ⟨did, -, rfl⟩ := List.mem_map.mp hcandidate
    rfl

/-- The keyring as a source. -/
theorem GpgKeyring.footprint :
    (GpgKeyring.attestor M.recorded).Footprint C (GpgKeyring.attestor M) := by
  refine .of_interactive rfl (GpgKeyring.quiet_enumerate M) (fun candidate challenge ↦ ?_) ?_
  · have hnil := nil_mem_signing C candidate.path challenge
    have habsorbs := absorbs_around (p := Op.Quiet) hnil
    have hempty := habsorbs.words_le nil_mem_words
    refine .seq habsorbs (quiet_whichGpg M) fun found ↦ .ofOption_bind hempty fun gpg _ ↦
      .seq habsorbs (GpgKeyring.quiet_enumerate M) fun candidates ↦
      .ofOption_bind hempty fun fingerprint hfingerprint ↦ ?_
    obtain ⟨listed, hlisted, hstrip⟩ := Option.bind_eq_some_iff.mp hfingerprint
    have hpath : candidate.path = str "gpg/" ++ fingerprint := by
      have hsame : listed.path = candidate.path := by simpa using List.find?_some hlisted
      rw [← hsame]
      exact stripPrefix_eq_some_iff.mp hstrip
    have hrequest : SignRequest C candidate.path challenge [.run gpg
        [str "--local-user", fingerprint, str "--sign", str "--output", str "-"] challenge] :=
      .gpg gpg hpath
    have hsigned : Records (M.recorded.run gpg
        [str "--local-user", fingerprint, str "--sign", str "--output", str "-"] challenge)
        (M.run gpg [str "--local-user", fingerprint, str "--sign", str "--output", str "-"]
          challenge) (signing C candidate.path challenge * words Op.Quiet) := by
      refine .record ?_
      have hwhole := prefixes_le_signing hrequest (List.prefix_refl _)
      simpa using Language.append_mem_mul hwhole (nil_mem_words (p := Op.Quiet))
    refine .mono (.behind hsigned fun signed ↦ ?_) mul_words_le_around
    split
    · exact .fail nil_mem_words
    · exact .seq absorbs_words (ChallengeSignature.quiet_verifyOpenpgp M candidate challenge _)
        fun s ↦ .pure nil_mem_words
  · refine .seq fun found ↦ .seq fun gpg ↦ .seq fun output ↦ ?_
    split
    · exact .pure fun candidate hnone ↦ by cases hnone
    · refine .pure fun candidate hcandidate ↦ ?_
      obtain ⟨fingerprint, uid, rfl⟩ := isGpgCandidate_parseGpgColons hcandidate
      rfl

/-- tailscaled as a source. -/
theorem Tailscale.footprint :
    (Tailscale.attestor M.recorded).Footprint C (Tailscale.attestor M) := by
  refine .of_quiet rfl ?_ fun candidate challenge ↦ ?_
  · refine .seq absorbs_words (quiet_pathExists M _) fun available ↦ ?_
    split
    · exact .pure nil_mem_words
    · exact .seq absorbs_words (Tailscale.quiet_fetchStatus M) fun status ↦
        .ofExcept_bind nil_mem_words fun identity _ ↦ .pure nil_mem_words
  · refine .seq absorbs_words (Tailscale.quiet_fetchStatus M) fun status ↦
      .ofExcept_bind nil_mem_words fun identity _ ↦ ?_
    dsimp only
    split
    · exact .fail nil_mem_words
    · exact .seq absorbs_words (quiet_now M) fun now ↦ .pure nil_mem_words

/-- The cached tokens as a source. -/
theorem Oidc.footprint : (Oidc.attestor M.recorded).Footprint C (Oidc.attestor M) := by
  have hread : ∀ path, QuietRecords (Oidc.readJson M.recorded path) (Oidc.readJson M path) :=
    fun path ↦ .seq absorbs_words (.ask (singleton_mem_words trivial)) fun text ↦
      .pure nil_mem_words
  refine .of_quiet rfl ?_ fun candidate challenge ↦ .fail nil_mem_words
  refine .seq absorbs_words ?_ fun candidates ↦ .seq absorbs_words
    (.mapError (.record (singleton_mem_words trivial))) fun _ ↦ .pure nil_mem_words
  refine .seq absorbs_words (quiet_env M _) fun home ↦ ?_
  split
  · exact .pure nil_mem_words
  · exact .seq absorbs_words (hread _) fun adc ↦ .seq absorbs_words (hread _) fun msal ↦
      .seq absorbs_words (hread _) fun access ↦ .pure nil_mem_words

/-- The devices as a source. -/
theorem Fido2.footprint (feature : Bool) :
    (Fido2.attestor C M.recorded feature).Footprint C (Fido2.attestor C M feature) := by
  refine .of_quiet rfl ?_ fun candidate challenge ↦ .fail nil_mem_words
  cases feature with
  | true =>
    exact .seq absorbs_words (.ask (singleton_mem_words trivial)) fun devices ↦
      .seq absorbs_words (.mapError (.record (singleton_mem_words trivial)))
        fun _ ↦ .pure nil_mem_words
  | false => exact .pure nil_mem_words

/-- A source that shows nothing. -/
theorem Attestor.empty_footprint (name : Str) :
    (Attestor.empty name : Attestor (Recorded W Op)).Footprint C (Attestor.empty name) :=
  .of_quiet rfl (.pure nil_mem_words) fun _ _ ↦ .fail nil_mem_words

/-- The account as a source. -/
theorem Unix.footprint (uid : ℕ) (displayName : Str) :
    (Unix.attestor M.recorded uid displayName).Footprint C (Unix.attestor M uid displayName) := by
  refine .of_quiet rfl (.pure nil_mem_words) fun candidate challenge ↦ ?_
  refine .seq absorbs_words (.ask (singleton_mem_words trivial)) fun current ↦ ?_
  split
  · exact .fail nil_mem_words
  · exact .seq absorbs_words (quiet_now M) fun now ↦ .pure nil_mem_words

end Sources

/-! ### The footprint of a registry -/

/-- A source that was probed has a footprint where the source has one. -/
theorem probed_footprint {C : Crypto} {recorded : Attestor (Recorded W Op)}
    {attestor : Attestor W} (available : Bool) (h : recorded.Footprint C attestor) :
    List.Forall₂ (Attestor.Footprint C) (probed available recorded)
      (probed available attestor) := by
  cases available with
  | true => exact .cons h .nil
  | false => exact .nil

/-- Every source of a registry has a footprint. -/
theorem registryOf_footprint (C : Crypto) (M : Machine W) (features : Features) (probes : Probes) :
    List.Forall₂ (Attestor.Footprint C) (registryOf C M.recorded features probes)
      (registryOf C M features probes) := by
  unfold registryOf
  refine List.rel_append (probed_footprint _ (Tailscale.footprint C M)) ?_
  refine List.rel_append ?_ (.cons (Unix.footprint C M _ _) .nil)
  refine List.rel_append ?_ (probed_footprint _ (Attestor.empty_footprint C _))
  refine List.rel_append ?_ (probed_footprint _ (Attestor.empty_footprint C _))
  refine List.rel_append ?_ (probed_footprint _ (Fido2.footprint C M features.fido2))
  refine List.rel_append ?_ (probed_footprint _ (GpgKeyring.footprint C M))
  refine List.rel_append ?_ (probed_footprint _ (DidKey.footprint C M))
  exact List.rel_append (probed_footprint _ (Ssh.footprint C M)) (.cons (Oidc.footprint C M) .nil)

/-! ### Probing -/

/-- A record in which nothing asked for a signature. -/
def NothingSigned (recorded : Recorded W Op) : Prop := ∀ op ∈ recorded.log, op.Quiet

section Probing

open Hire.Library.Action (Keeps)

variable {ε α : Type} (M : Machine W)

theorem keeps_ask {op : Op} {question : W → α × W} (h : op.Quiet) :
    Keeps NothingSigned (Action.ask (Action.recordAsk op question) : Action ε _ α) :=
  fun _ hlog ↦ append_mem_words hlog (singleton_mem_words h)

/-- Looking for an agent is quiet. -/
theorem Ssh.keeps_isAvailable : Keeps NothingSigned (Ssh.isAvailable M.recorded) := by
  refine .seq (keeps_ask trivial) fun path ↦ ?_
  split
  · exact .pure false
  · exact keeps_ask trivial

/-- Reading the configured DIDs is quiet. -/
theorem DidKey.keeps_isAvailable : Keeps NothingSigned (DidKey.isAvailable M.recorded) :=
  .seq (.seq (keeps_ask trivial) fun _ ↦ .pure _) fun _ ↦ .pure _

/-- Looking for gpg and its home is quiet. -/
theorem GpgKeyring.keeps_isAvailable : Keeps NothingSigned (GpgKeyring.isAvailable M.recorded) := by
  have hhome : Keeps NothingSigned (GpgKeyring.gnupgHome M.recorded) := by
    refine .seq (keeps_ask trivial) fun home ↦ ?_
    split
    · exact .pure _
    · exact .seq (keeps_ask trivial) fun _ ↦ .pure _
  refine .seq (keeps_ask trivial) fun found ↦ ?_
  split
  · exact .pure false
  · exact .seq hhome fun home ↦ keeps_ask trivial

/-- Looking for devices is quiet. -/
theorem Fido2.keeps_isAvailable (feature : Bool) :
    Keeps NothingSigned (Fido2.isAvailable M.recorded feature) := by
  unfold Fido2.isAvailable
  split
  · exact .seq (keeps_ask trivial) fun _ ↦ .pure _
  · exact .pure false

/-- Looking for a desktop is quiet. -/
theorem Goa.keeps_isAvailable (feature : Bool) :
    Keeps NothingSigned (Goa.isAvailable M.recorded feature) := by
  unfold Goa.isAvailable
  split
  · refine .seq (keeps_ask trivial) fun session ↦ ?_
    split
    · exact .pure true
    · exact .seq (keeps_ask trivial) fun _ ↦ .pure _
  · exact .pure false

/-- Reading the account is quiet. -/
theorem Unix.keeps_new : Keeps NothingSigned (Unix.new M.recorded) := by
  refine .seq (keeps_ask trivial) fun uid ↦ .seq (keeps_ask trivial) fun name ↦ ?_
  split
  · exact .pure _
  · exact .pure _
  · exact .pure _

/-- Probing a machine is quiet. -/
theorem probeSources_keeps (C : Crypto) (features : Features) :
    Keeps NothingSigned (probeSources C M.recorded features) :=
  .seq (keeps_ask trivial) fun _ ↦ .seq (Ssh.keeps_isAvailable M) fun _ ↦
    .seq (DidKey.keeps_isAvailable M) fun _ ↦ .seq (GpgKeyring.keeps_isAvailable M) fun _ ↦
      .seq (Fido2.keeps_isAvailable M _) fun _ ↦ .seq (Goa.keeps_isAvailable M _) fun _ ↦
        .seq (.pure false) fun _ ↦ .seq (Unix.keeps_new M) fun _ ↦ .pure _

/-- Listing what was probed is quiet. -/
theorem probeSources_yields_quiet (C : Crypto) (features : Features) :
    (probeSources C M.recorded features).Yields fun sources ↦
      ∀ attestor ∈ sources, Keeps NothingSigned attestor.enumerate := by
  intro w sources h
  obtain ⟨probes, rfl⟩ := probeSources_yields_registryOf C M.recorded features w sources h
  have hquiet : List.Forall₂ (fun recorded plain ↦ Keeps NothingSigned recorded.enumerate ∧
      Attestor.Footprint C recorded plain) (registryOf C M.recorded features probes)
      (registryOf C M features probes) :=
    (registryOf_footprint C M features probes).imp fun _ _ hfootprint ↦
      ⟨hfootprint.enumerate.keeps, hfootprint⟩
  exact ((List.forall₂_and_left _ _).mp hquiet).1

end Probing

end Hire.Attestors
