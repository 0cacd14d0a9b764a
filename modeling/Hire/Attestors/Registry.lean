import Hire.Attestors.GpgKeyring
import Hire.Attestors.SshAgent
import Hire.Attestors.Tailscale

/-!
# The remaining sources, and the registry

`oidc.rs`, `fido2.rs`, `goa.rs`, `piv.rs`, `unix.rs` and `registry.rs` of `hire-attestors/src`. Four
of the five sources here can see but not prove: they keep the default proof, which declines. The
account source proves with the kernel's word.

`probeSources` registers what is available, tailscaled first and the account last. Every source
but the first is confined to `ssh.local`, so `probeSources_eq_ok` splits a registry into the
Tailscale source, if its socket was found, and sources of one trust domain. `registryOf` is what the
answers of the probes make, and `probeSources_yields_registryOf` says that nothing else is made.
-/

set_option autoImplicit false
set_option relaxedAutoImplicit false

namespace Hire.Attestors

open Hire.Library Hire.Core

variable {W : Type}

/-! ### Cached OIDC tokens -/

namespace Oidc

/-- The payload of a token, read without checking its signature. -/
def parseJwtPayload (M : Machine W) (token : Str) : Option Json :=
  match splitOnce '.' token with
  | none => none
  | some (_, rest) =>
    match splitOnce '.' rest with
    | none => none
    | some (payload, _) => (base64Decode base64Url payload).bind fun decoded ↦
        (M.parseJson decoded).toOption

/-- The candidate of a token. -/
def candidateFromJwt (M : Machine W) (rawToken : Str) : Option Candidate :=
  match parseJwtPayload M rawToken with
  | none => none
  | some payload =>
    match (payload.get (str "sub")).bind Json.asStr with
    | none => none
    | some sub =>
      let displayName := (((payload.get (str "email")).or
        (payload.get (str "preferred_username"))).bind Json.asStr).getD sub
      some (((Candidate.new (str "oidc-cached") .sshLocal
        (str "user/" ++ sub ++ str "/via/oidc-cached") displayName).withAttainable
          .iaa2).withProofCost .silent)

/-- The tokens of an Azure cache: the secrets of its `IdToken` entries, or the `idToken` members of
a list. -/
def azureTokens : Json → List Str
  | .object members =>
    match members.lookup (str "IdToken") with
    | some (.object entries) =>
      entries.filterMap fun entry ↦ (entry.2.get (str "secret")).bind Json.asStr
    | _ => []
  | .array items => items.filterMap fun entry ↦ (entry.get (str "idToken")).bind Json.asStr
  | _ => []

/-- The JSON in a file, if it can be read. -/
def readJson (M : Machine W) (path : Str) : Action AttestorError W (Option Json) := do
  let text ← Action.ask (M.readToString path)
  pure (text.bind fun text ↦ (M.parseJson (utf8 text)).toOption)

/-- The candidates of the token caches, in the order they are scanned. -/
def scanTokenCaches (M : Machine W) : Action AttestorError W (List Candidate) := do
  match ← Action.ask (M.env (str "HOME")) with
  | none => pure []
  | some home =>
    let adc ← readJson M (home ++ str "/.config/gcloud/application_default_credentials.json")
    let msal ← readJson M (home ++ str "/.azure/msal_token_cache.json")
    let access ← readJson M (home ++ str "/.azure/accessTokens.json")
    let gcloud := (adc.bind (Json.get (str "id_token"))).bind Json.asStr
    let azure := (msal.toList ++ access.toList).flatMap azureTokens
    pure ((gcloud.toList ++ azure).filterMap (candidateFromJwt M))

/-- The cached tokens, as candidates. -/
def enumerate (M : Machine W) : Action AttestorError W (List Candidate) := do
  let candidates ← scanTokenCaches M
  M.join.mapError fun e ↦ .unavailable (str "token cache scan failed: " ++ e)
  pure candidates

/-- The cached tokens as a source. -/
def attestor (M : Machine W) : Attestor W where
  name := str "oidc-cached"
  enumerate := enumerate M
  prove := Attestor.decline (str "oidc-cached")

/-- A token is not believed about its issuer: its candidate is of `ssh.local`. -/
theorem domain_candidateFromJwt {M : Machine W} {rawToken : Str} {candidate : Candidate}
    (h : candidateFromJwt M rawToken = some candidate) :
    candidate.domain.toTrustDomain = .sshLocal := by
  unfold candidateFromJwt at h
  split at h
  · cases h
  · split at h
    · cases h
    · cases h
      rfl

/-- The cached tokens are confined to `ssh.local`. -/
theorem attestor_confined (M : Machine W) : (attestor M).Confined .sshLocal := by
  have hscan : (scanTokenCaches M).Yields
      fun candidates ↦ ∀ candidate ∈ candidates, candidate.domain.toTrustDomain = .sshLocal := by
    refine .seq fun home ↦ ?_
    split
    · exact .pure fun candidate hnone ↦ by cases hnone
    · refine .seq fun adc ↦ .seq fun msal ↦ .seq fun access ↦ .pure fun candidate hcandidate ↦ ?_
      obtain ⟨token, -, htoken⟩ := List.mem_filterMap.mp hcandidate
      exact domain_candidateFromJwt htoken
  exact Attestor.confined_of_decline (.bind hscan fun candidates hcandidates ↦
    .seq fun _ ↦ .pure hcandidates)

end Oidc

/-! ### FIDO2 devices -/

namespace Fido2

/-- The hash of a device path, as sixteen hexadecimal digits. -/
def devicePathHash (C : Crypto) (path : Str) : Str := hex ((C.sha256 (utf8 path)).1.take 8)

/-- Four hexadecimal digits. -/
def hex04 (n : UInt16) : Str := hex [UInt8.ofNat (n.toNat / 256), UInt8.ofNat n.toNat]

/-- The candidate of a device. -/
def candidateOf (C : Crypto) (dev : HidInfo) : Candidate :=
  let pathKey := match dev.param with
    | .path p => p
    | .vidPid vid pid => hex04 vid ++ str ":" ++ hex04 pid
  let product := if dev.productString = [] then str "Unknown" else dev.productString
  ((Candidate.new (str "fido2") .sshLocal (str "fido2/" ++ devicePathHash C pathKey)
    (str "FIDO2 " ++ product)).withAttainable .iaa3).withProofCost .interactive

/-- Whether the feature is compiled in and a device answers. -/
def isAvailable (M : Machine W) (feature : Bool) : Action AttestorError W Bool :=
  if feature then do
    let devices ← Action.ask M.fidokeyDevices
    pure (devices ≠ [])
  else pure false

/-- The devices that answer, as candidates. -/
def enumerate (C : Crypto) (M : Machine W) (feature : Bool) :
    Action AttestorError W (List Candidate) :=
  if feature then do
    let devices ← Action.ask M.fidokeyDevices
    M.join.mapError fun e ↦ .unavailable (str "fido2 task error: " ++ e)
    pure (devices.map (candidateOf C))
  else pure []

/-- The devices as a source. -/
def attestor (C : Crypto) (M : Machine W) (feature : Bool) : Attestor W where
  name := str "fido2"
  enumerate := enumerate C M feature
  prove := Attestor.decline (str "fido2")

/-- The devices are confined to `ssh.local`. -/
theorem attestor_confined (C : Crypto) (M : Machine W) (feature : Bool) :
    (attestor C M feature).Confined .sshLocal := by
  refine Attestor.confined_of_decline ?_
  unfold enumerate
  split
  · refine .seq fun devices ↦ .seq fun _ ↦ .pure fun candidate hcandidate ↦ ?_
    obtain ⟨dev, -, rfl⟩ := List.mem_map.mp hcandidate
    rfl
  · exact .pure fun candidate hnone ↦ by cases hnone

end Fido2

/-! ### Sources that see nothing yet -/

/-- A source that shows no candidate and declines every proof. -/
def Attestor.empty (name : Str) : Attestor W where
  name := name
  enumerate := pure []
  prove := Attestor.decline name

/-- A source that shows nothing is confined to any trust domain. -/
theorem Attestor.empty_confined (trustDomain : TrustDomain) (name : Str) :
    (Attestor.empty name : Attestor W).Confined trustDomain :=
  Attestor.confined_of_decline (.pure fun candidate hnone ↦ by cases hnone)

namespace Goa

/-- Whether the feature is compiled in and the session is a GNOME session. -/
def isAvailable (M : Machine W) (feature : Bool) : Action AttestorError W Bool :=
  if feature then do
    match ← Action.ask (M.env (str "GNOME_DESKTOP_SESSION_ID")) with
    | some _ => pure true
    | none =>
      let desktop ← Action.ask (M.env (str "XDG_CURRENT_DESKTOP"))
      pure (desktop.any fun d ↦ (position (str "GNOME") (M.unicode.toUppercase d)).isSome)
  else pure false

/-- The online accounts as a source. -/
def attestor : Attestor W := .empty (str "gnome-online-accounts")

end Goa

namespace Piv

/-- Smartcards are not detected, with or without the feature. -/
def isAvailable : Action AttestorError W Bool := pure false

/-- The smartcards as a source. -/
def attestor : Attestor W := .empty (str "piv")

end Piv

/-! ### The account -/

namespace Unix

/-- The SPIFFE path of an account. -/
def spiffePath (uid : ℕ) : Str := str "unix/" ++ Nat.toDigits 10 uid

/-- Prove an account: read the account again, and require the same path. -/
def prove (M : Machine W) (candidate : Candidate) (_challenge : Bytes) :
    Action AttestorError W (List Evidence) := do
  let uid ← Action.ask M.getuid
  if candidate.path ≠ spiffePath uid then
    Action.fail (.challengeFailed (str "candidate does not name the current account"))
  else
    let now ← Action.ask M.now
    pure [.platformAssertion ⟨candidate.path, now⟩]

/-- The account as a source, under the number and the name it had at start-up. -/
def attestor (M : Machine W) (uid : ℕ) (displayName : Str) : Attestor W where
  name := str "unix"
  enumerate := pure [((Candidate.new (str "unix") .sshLocal (spiffePath uid)
    displayName).withAttainable .iaa1).withProofCost .silent]
  prove := prove M

/-- Read the account once. A lookup that fails names the account by its number. -/
def new (M : Machine W) : Action AttestorError W (Attestor W) := do
  let uid ← Action.ask M.getuid
  let name ← Action.ask (M.usernameFor uid)
  match name with
  | .ok (some name) => pure (attestor M uid name)
  | .ok none => pure (attestor M uid (str "uid " ++ Nat.toDigits 10 uid))
  | .error _ => pure (attestor M uid (str "uid " ++ Nat.toDigits 10 uid))

/-- The account is confined to `ssh.local`. -/
theorem attestor_confined (M : Machine W) (uid : ℕ) (displayName : Str) :
    (attestor M uid displayName).Confined .sshLocal where
  enumerate := .pure fun candidate hcandidate ↦ by rw [List.mem_singleton.mp hcandidate]; rfl
  prove candidate challenge := by
    refine .seq fun current ↦ ?_
    split
    · exact .fail
    · refine .seq fun now ↦ .pure fun e he ↦ ?_
      rw [List.mem_singleton.mp he]
      rfl

/-- The account is confined to `ssh.local`, whatever its lookup says. -/
theorem new_yields (M : Machine W) :
    (new M).Yields fun attestor ↦ attestor.Confined .sshLocal := by
  refine .seq fun uid ↦ .seq fun name ↦ ?_
  split
  · exact .pure (attestor_confined M uid _)
  · exact .pure (attestor_confined M uid _)
  · exact .pure (attestor_confined M uid _)

end Unix

/-! ### The registry -/

/-- The optional sources that are compiled in. -/
structure Features where
  fido2 : Bool
  goa : Bool

/-- A source if its probe found it. -/
def probed (available : Bool) (attestor : Attestor W) : List (Attestor W) :=
  if available then [attestor] else []

/-- A source that was probed is there or not. -/
theorem mem_probed {available : Bool} {attestor found : Attestor W}
    (h : found ∈ probed available attestor) : found = attestor := by
  unfold probed at h
  split at h
  · exact List.mem_singleton.mp h
  · cases h

/-- Probe every source and register those that are available. -/
def probeSources (C : Crypto) (M : Machine W) (features : Features) :
    Action AttestorError W (List (Attestor W)) := do
  let tailscale ← Tailscale.isAvailable M
  let ssh ← Ssh.isAvailable M
  let didKey ← DidKey.isAvailable M
  let gpg ← GpgKeyring.isAvailable M
  let fido2 ← Fido2.isAvailable M features.fido2
  let goa ← Goa.isAvailable M features.goa
  let piv ← Piv.isAvailable
  let unix ← Unix.new M
  pure (probed tailscale (Tailscale.attestor M) ++ (probed ssh (Ssh.attestor C M) ++
    [Oidc.attestor M] ++ probed didKey (DidKey.attestor C M) ++
    probed gpg (GpgKeyring.attestor M) ++ probed fido2 (Fido2.attestor C M features.fido2) ++
    probed goa Goa.attestor ++ probed piv Piv.attestor ++ [unix]))

/-- A registry is the Tailscale source, if its socket was found, and sources that are confined to
`ssh.local`. -/
theorem probeSources_eq_ok {C : Crypto} {M : Machine W} {features : Features} {w : W}
    {attestors : List (Attestor W)} (h : (probeSources C M features w).1 = .ok attestors) :
    ∃ others, attestors =
        probed (M.pathExists Tailscale.socketPath w).1 (Tailscale.attestor M) ++ others ∧
      ∀ attestor ∈ others, attestor.Confined .sshLocal := by
  refine Action.Yields.of_ask (P := fun available found ↦ ∃ others,
    found = probed available (Tailscale.attestor M) ++ others ∧
      ∀ attestor ∈ others, attestor.Confined .sshLocal) (fun tailscale ↦ ?_) h
  refine .seq fun ssh ↦ .seq fun didKey ↦ .seq fun gpg ↦ .seq fun fido2 ↦ .seq fun goa ↦
    .seq fun piv ↦ .bind (Unix.new_yields M) fun unix hunix ↦ .pure ⟨_, rfl, ?_⟩
  intro attestor hattestor
  simp only [List.mem_append, List.mem_singleton] at hattestor
  rcases hattestor with ((((((h | h) | h) | h) | h) | h) | h) | h
  · rw [mem_probed h]
    exact Ssh.attestor_confined C M
  · rw [h]
    exact Oidc.attestor_confined M
  · rw [mem_probed h]
    exact DidKey.attestor_confined C M
  · rw [mem_probed h]
    exact GpgKeyring.attestor_confined M
  · rw [mem_probed h]
    exact Fido2.attestor_confined C M features.fido2
  · rw [mem_probed h]
    exact Attestor.empty_confined _ _
  · rw [mem_probed h]
    exact Attestor.empty_confined _ _
  · rw [h]
    exact hunix

/-! ### The registry of a probe -/

/-- What the probes of a registry found, and the account it read. -/
structure Probes where
  tailscale : Bool
  ssh : Bool
  didKey : Bool
  gpg : Bool
  fido2 : Bool
  goa : Bool
  piv : Bool
  uid : ℕ
  displayName : Str

/-- The registry that probes make. -/
def registryOf (C : Crypto) (M : Machine W) (features : Features) (probes : Probes) :
    List (Attestor W) :=
  probed probes.tailscale (Tailscale.attestor M) ++ (probed probes.ssh (Ssh.attestor C M) ++
    [Oidc.attestor M] ++ probed probes.didKey (DidKey.attestor C M) ++
    probed probes.gpg (GpgKeyring.attestor M) ++
    probed probes.fido2 (Fido2.attestor C M features.fido2) ++ probed probes.goa Goa.attestor ++
    probed probes.piv Piv.attestor ++ [Unix.attestor M probes.uid probes.displayName])

/-- Probing a machine makes a registry of it. -/
theorem probeSources_yields_registryOf (C : Crypto) (M : Machine W) (features : Features) :
    (probeSources C M features).Yields
      fun attestors ↦ ∃ probes, attestors = registryOf C M features probes := by
  have hunix : (Unix.new M).Yields
      fun unix ↦ ∃ uid displayName, unix = Unix.attestor M uid displayName := by
    refine .seq fun uid ↦ .seq fun name ↦ ?_
    split
    · exact .pure ⟨_, _, rfl⟩
    · exact .pure ⟨_, _, rfl⟩
    · exact .pure ⟨_, _, rfl⟩
  refine .seq fun tailscale ↦ .seq fun ssh ↦ .seq fun didKey ↦ .seq fun gpg ↦ .seq fun fido2 ↦
    .seq fun goa ↦ .seq fun piv ↦ .bind hunix fun unix hunix ↦ ?_
  obtain ⟨uid, displayName, rfl⟩ := hunix
  exact .pure ⟨⟨tailscale, ssh, didKey, gpg, fido2, goa, piv, uid, displayName⟩, rfl⟩

/-- What holds of every source there is holds of every source of a registry. -/
theorem forall_mem_registryOf {C : Crypto} {M : Machine W} {features : Features}
    {P : Attestor W → Prop} (htailscale : P (Tailscale.attestor M)) (hssh : P (Ssh.attestor C M))
    (hoidc : P (Oidc.attestor M)) (hdidKey : P (DidKey.attestor C M))
    (hgpg : P (GpgKeyring.attestor M)) (hfido2 : P (Fido2.attestor C M features.fido2))
    (hgoa : P Goa.attestor) (hpiv : P Piv.attestor)
    (hunix : ∀ uid displayName, P (Unix.attestor M uid displayName)) (probes : Probes) :
    ∀ attestor ∈ registryOf C M features probes, P attestor := by
  intro attestor hattestor
  simp only [registryOf, List.mem_append, List.mem_singleton] at hattestor
  rcases hattestor with h | (((((((h | h) | h) | h) | h) | h) | h) | h)
  · exact mem_probed h ▸ htailscale
  · exact mem_probed h ▸ hssh
  · exact h ▸ hoidc
  · exact mem_probed h ▸ hdidKey
  · exact mem_probed h ▸ hgpg
  · exact mem_probed h ▸ hfido2
  · exact mem_probed h ▸ hgoa
  · exact mem_probed h ▸ hpiv
  · exact h ▸ hunix _ _

end Hire.Attestors
