import Hire.Attestors.Verify
import Hire.Hired.Levels

/-!
# What is behind a root identity

The proofs of `ssh.rs`, `did_key.rs`, `gpg.rs`, `tailscale.rs` and `unix.rs` in
`hire-attestors/src`, followed from the machine to the SVID. `Proven` says what the machine answered
when a source proved a path under a challenge, from the world in which the proof started: a
signature over that very challenge by a key that was listed in it and that the path names, or the
word of tailscaled or of the kernel. Nothing is assumed about the machine, so a source that is lied
to proves nothing unless the signature verifies.

`root_proven` is the result for a started daemon: whatever it serves, the root identity behind it is
proven in this sense by one of the proofs of this request (`proofs`), under its challenge, and is of
the trust domain of its source.
-/

set_option autoImplicit false
set_option relaxedAutoImplicit false

namespace Hire.Hired

open Hire.Library Hire.Core Hire.Attestors Hire.Grpc

variable {W : Type}

/-! ### What a proof rests on -/

/-- What is behind a path that a source proved under a challenge, in a proof that started in a given
world: each answer is the machine's in the world that the answers before it left. -/
inductive Proven (C : Crypto) (M : Machine W) (challenge : Bytes) (w : W) : Str → Str → Prop
  /-- A key the agent listed: the path is its fingerprint, and it signed the challenge. -/
  | ssh {stream : ℕ} {keys : List (Bytes × Str)} {point : ByteArr 32} {sig : ByteArr 64}
      {w₁ w₂ w₃ : W} (hconnect : Ssh.connect M w = (.ok stream, w₁))
      (hlist : Ssh.listIdentities M stream w₁ = (.ok keys, w₂))
      (hheld : framed Ssh.sshEd25519 ++ framed point.1 ∈ keys.map Prod.fst)
      (hsign : Ssh.sign M stream (framed Ssh.sshEd25519 ++ framed point.1) challenge
        (Ssh.spiffePath C (framed Ssh.sshEd25519 ++ framed point.1)) w₂ =
          (.ok (framed Ssh.sshEd25519 ++ framed sig.1), w₃))
      (hpoint : C.validPoint point = true) (hverify : C.verifyStrict point challenge sig = true) :
      Proven C M challenge w (str "ssh-agent")
        (Ssh.spiffePath C (framed Ssh.sshEd25519 ++ framed point.1))
  /-- A DID the configuration names: the path is its hash, and the agent listed the key it encodes
  and signed the challenge with it. -/
  | didKey {did : Str} {stream : ℕ} {keys : List (Bytes × Str)} {keyBlob : Bytes}
      {point : ByteArr 32} {sig : ByteArr 64} {w₁ w₂ w₃ : W}
      (hnamed : did ∈ DidKey.parseDidKeysFrom ((M.env (str "HIRE_DID_KEYS") w).1.getD []))
      (hkey : DidKey.ed25519Point did = some point)
      (hconnect : Ssh.connect M (M.env (str "HIRE_DID_KEYS") w).2 = (.ok stream, w₁))
      (hlist : Ssh.listIdentities M stream w₁ = (.ok keys, w₂))
      (hheld : keyBlob ∈ keys.map Prod.fst) (hblob : Ssh.ed25519PointOf keyBlob = some point)
      (hsign : Ssh.sign M stream keyBlob challenge (DidKey.spiffePath C did) w₂ =
        (.ok (framed Ssh.sshEd25519 ++ framed sig.1), w₃))
      (hpoint : C.validPoint point = true) (hverify : C.verifyStrict point challenge sig = true) :
      Proven C M challenge w (str "did:key") (DidKey.spiffePath C did)
  /-- A key the keyring listed: the path is its fingerprint, gpg signed the challenge with it, and
  gpg reported a good signature by it over the challenge. -/
  | gpg {fingerprint signer checker : Str} {candidates : List Candidate}
      {signed output : ProcessOutput} {w₁ w₂ w₃ w₄ w₅ : W}
      (hsigner : M.whichGpg w = (some signer, w₁))
      (hlist : GpgKeyring.enumerate M w₁ = (.ok candidates, w₂))
      (hheld : ∃ candidate ∈ candidates, candidate.path = str "gpg/" ++ fingerprint)
      (hsign : M.run signer [str "--local-user", fingerprint, str "--sign", str "--output", str "-"]
        challenge w₂ = (.ok signed, w₃))
      (hsigned : signed.success = true)
      (hchecker : M.whichGpg w₃ = (some checker, w₄))
      (hcheck : M.run checker [str "--status-fd", str "2", str "--decrypt"] signed.stdout w₄ =
        (.ok output, w₅))
      (hsuccess : output.success = true)
      (hnames : namesKey (fromUtf8Lossy output.stderr) fingerprint = true)
      (hover : output.stdout = challenge) :
      Proven C M challenge w (str "gpg") (str "gpg/" ++ fingerprint)
  /-- The identity tailscaled reported. -/
  | tailscale {status : Json} {path display : Str}
      (hstatus : (Tailscale.fetchStatus M w).1 = .ok status)
      (hidentity : Tailscale.identityOf status = .ok (path, display)) :
      Proven C M challenge w (str "tailscale") path
  /-- The account the kernel named. -/
  | unix : Proven C M challenge w (str "unix") (Unix.spiffePath (M.getuid w).1)

/-- The trust domain of a source. -/
def domainOf (source : Str) : TrustDomain :=
  if source = str "tailscale" then .tailscale else .sshLocal

/-- A source is honest when it proves only what is proven, in its own trust domain. -/
structure Honest (C : Crypto) (M : Machine W) (attestor : Attestor W) : Prop where
  confined : attestor.Confined (domainOf attestor.name)
  prove : ∀ candidate challenge w evidence,
    (attestor.prove candidate challenge w).1 = .ok evidence →
      Proven C M challenge w attestor.name candidate.path

/-! ### The sources -/

section Sources

variable {C : Crypto} {M : Machine W}

/-- A source of `ssh.local`, unless it is tailscaled, is of its own trust domain. -/
theorem confined_of_local {attestor : Attestor W}
    (hname : decide (attestor.name = str "tailscale") = false)
    (h : attestor.Confined .sshLocal) : attestor.Confined (domainOf attestor.name) := by
  rwa [domainOf, if_neg (of_decide_eq_false hname)]

/-- A source that declines every proof is honest. -/
theorem honest_of_decline {name : Str} {enumerate : Action AttestorError W (List Candidate)}
    (hname : decide (name = str "tailscale") = false)
    (h : Attestor.Confined .sshLocal ⟨name, enumerate, Attestor.decline name⟩) :
    Honest C M ⟨name, enumerate, Attestor.decline name⟩ where
  confined := confined_of_local hname h
  prove _ _ _ _ h := by cases h

theorem honest_ssh : Honest C M (Ssh.attestor C M) where
  confined := confined_of_local
    (show decide (str "ssh-agent" = str "tailscale") = false by with_unfolding_all decide)
    (Ssh.attestor_confined C M)
  prove candidate challenge w evidence h := by
    obtain ⟨stream, w₁, hconnect, h⟩ := Action.bind_eq_ok h
    obtain ⟨keys, w₂, hlist, h⟩ := Action.bind_eq_ok h
    obtain ⟨keyBlob, _, hfind, h⟩ := Action.bind_eq_ok h
    obtain ⟨hheld, rfl⟩ := Action.ofOption_eq_ok hfind
    obtain ⟨parts, _, hparts, h⟩ := Action.bind_eq_ok h
    obtain ⟨-, rfl⟩ := Action.ofOption_eq_ok hparts
    dsimp only at h
    split_ifs at h
    · cases h
    · obtain ⟨signature, w₃, hsign, h⟩ := Action.bind_eq_ok h
      obtain ⟨now, _, -, h⟩ := Action.bind_eq_ok h
      obtain ⟨s, _, hs, -⟩ := Action.bind_eq_ok h
      obtain ⟨hpath, point, sig, rfl, hpoint, rfl, hverify, -⟩ :=
        ChallengeSignature.verifySshEd25519_eq_ok_iff.mp (Action.ofExcept_eq_ok hs).1
      rw [← hpath] at hsign ⊢
      exact .ssh hconnect hlist (List.mem_of_find?_eq_some hheld) hsign hpoint hverify

theorem honest_didKey : Honest C M (DidKey.attestor C M) where
  confined := confined_of_local
    (show decide (str "did:key" = str "tailscale") = false by with_unfolding_all decide)
    (DidKey.attestor_confined C M)
  prove candidate challenge w evidence h := by
    have hnames : DidKey.parseDidKeys M w = (.ok (DidKey.parseDidKeysFrom
      ((M.env (str "HIRE_DID_KEYS") w).1.getD [])), (M.env (str "HIRE_DID_KEYS") w).2) := rfl
    obtain ⟨dids, w₀, hdids, h⟩ := Action.bind_eq_ok h
    obtain ⟨hok, rfl⟩ := Prod.mk.inj (hnames.symm.trans hdids)
    obtain rfl := Except.ok.inj hok
    obtain ⟨did, _, hdid, h⟩ := Action.bind_eq_ok h
    obtain ⟨hnamed, rfl⟩ := Action.ofOption_eq_ok hdid
    obtain ⟨encoded, _, hencoded, h⟩ := Action.bind_eq_ok h
    obtain ⟨hkey, rfl⟩ := Action.ofOption_eq_ok hencoded
    obtain ⟨stream, w₁, hconnect, h⟩ := Action.bind_eq_ok h
    obtain ⟨keys, w₂, hlist, h⟩ := Action.bind_eq_ok h
    obtain ⟨keyBlob, _, hfind, h⟩ := Action.bind_eq_ok h
    obtain ⟨hheld, rfl⟩ := Action.ofOption_eq_ok hfind
    obtain ⟨signature, w₃, hsign, h⟩ := Action.bind_eq_ok h
    obtain ⟨now, _, -, h⟩ := Action.bind_eq_ok h
    obtain ⟨s, _, hs, -⟩ := Action.bind_eq_ok h
    obtain ⟨hpath, point, sig, hpointOf, hpoint, rfl, hverify, -⟩ :=
      ChallengeSignature.verifyDidKeyEd25519_eq_ok_iff.mp (Action.ofExcept_eq_ok hs).1
    obtain rfl := Option.some.inj (hkey.symm.trans hpointOf)
    rw [← hpath] at hsign ⊢
    exact .didKey (List.mem_of_find?_eq_some hnamed) hkey hconnect hlist
      (List.mem_of_find?_eq_some hheld) (by simpa using List.find?_some hheld) hsign hpoint hverify

/-- What a signature that gpg checked rests on. -/
theorem exists_check_of_verifyOpenpgp {candidate : Candidate} {challenge message : Bytes}
    {fingerprint : Str} (hpath : candidate.path = str "gpg/" ++ fingerprint) {w : W}
    {s : ChallengeSignature}
    (h : (ChallengeSignature.verifyOpenpgp M.toGpg candidate challenge message w).1 = .ok s) :
    ∃ checker w₁ output w₂, M.whichGpg w = (some checker, w₁) ∧
      M.run checker [str "--status-fd", str "2", str "--decrypt"] message w₁ = (.ok output, w₂) ∧
      output.success = true ∧ namesKey (fromUtf8Lossy output.stderr) fingerprint = true ∧
      output.stdout = challenge := by
  obtain ⟨named, _, hnamed, h⟩ := Action.bind_eq_ok h
  obtain ⟨hfingerprint, rfl⟩ := Action.ofOption_eq_ok hnamed
  rw [stripPrefix_eq_some_iff, hpath] at hfingerprint
  obtain rfl := List.append_cancel_left hfingerprint
  obtain ⟨found, w₁, hfound, h⟩ := Action.bind_eq_ok h
  obtain ⟨checker, _, hchecker, h⟩ := Action.bind_eq_ok h
  obtain ⟨rfl, rfl⟩ := Action.ofOption_eq_ok hchecker
  obtain ⟨output, w₂, hrun, h⟩ := Action.bind_eq_ok h
  split_ifs at h with hgood hover
  · cases h
  · cases h
  · rw [Bool.not_eq_true, Bool.or_eq_false_iff, Bool.not_eq_false', Bool.not_eq_false'] at hgood
    obtain ⟨hsome, rfl⟩ := Prod.mk.inj hfound
    exact ⟨checker, _, output, w₂, Prod.ext (Except.ok.inj hsome) rfl, hrun, hgood.1, hgood.2,
      not_not.mp hover⟩

theorem honest_gpg : Honest C M (GpgKeyring.attestor M) where
  confined := confined_of_local
    (show decide (str "gpg" = str "tailscale") = false by with_unfolding_all decide)
    (GpgKeyring.attestor_confined M)
  prove candidate challenge w evidence h := by
    obtain ⟨found, w₁, hfound, h⟩ := Action.bind_eq_ok h
    obtain ⟨signer, _, hsigner, h⟩ := Action.bind_eq_ok h
    obtain ⟨rfl, rfl⟩ := Action.ofOption_eq_ok hsigner
    obtain ⟨candidates, w₂, hlist, h⟩ := Action.bind_eq_ok h
    obtain ⟨fingerprint, _, hfind, h⟩ := Action.bind_eq_ok h
    obtain ⟨hheld, rfl⟩ := Action.ofOption_eq_ok hfind
    obtain ⟨listed, hlisted, hstrip⟩ := Option.bind_eq_some_iff.mp hheld
    have hlists : listed.path = candidate.path := by simpa using List.find?_some hlisted
    have hpath : candidate.path = str "gpg/" ++ fingerprint :=
      hlists.symm.trans (stripPrefix_eq_some_iff.mp hstrip)
    obtain ⟨signed, w₃, hsign, h⟩ := Action.bind_eq_ok h
    split_ifs at h with hsigned
    · cases h
    · obtain ⟨s, w₅, hs, -⟩ := Action.bind_eq_ok h
      obtain ⟨checker, w₄, output, w₅, hchecker, hcheck, hsuccess, hnames, hover⟩ :=
        exists_check_of_verifyOpenpgp (M := M) hpath
          (show (ChallengeSignature.verifyOpenpgp M.toGpg candidate challenge signed.stdout w₃).1 =
            .ok s by rw [hs])
      obtain ⟨hsome, rfl⟩ := Prod.mk.inj hfound
      rw [hpath]
      refine .gpg (Prod.ext (Except.ok.inj hsome) rfl) hlist ?_ hsign (by simpa using hsigned)
        hchecker hcheck hsuccess hnames hover
      exact ⟨listed, List.mem_of_find?_eq_some hlisted, stripPrefix_eq_some_iff.mp hstrip⟩

theorem honest_tailscale : Honest C M (Tailscale.attestor M) where
  confined := by
    rw [domainOf, if_pos (show (Tailscale.attestor M).name = str "tailscale" from rfl)]
    exact Tailscale.attestor_confined M
  prove candidate challenge w evidence h := by
    obtain ⟨status, w₁, hstatus, h⟩ := Action.bind_eq_ok h
    obtain ⟨identity, _, hread, h⟩ := Action.bind_eq_ok h
    obtain ⟨hidentity, rfl⟩ := Action.ofExcept_eq_ok hread
    dsimp only at h
    split_ifs at h with hpath
    · cases h
    · exact not_not.mp hpath ▸ .tailscale (by rw [hstatus]) hidentity

theorem honest_unix (uid : ℕ) (displayName : Str) :
    Honest C M (Unix.attestor M uid displayName) where
  confined := confined_of_local
    (show decide (str "unix" = str "tailscale") = false by with_unfolding_all decide)
    (Unix.attestor_confined M uid displayName)
  prove candidate challenge w evidence h := by
    obtain ⟨current, w₁, hcurrent, h⟩ := Action.bind_eq_ok h
    obtain ⟨hok, rfl⟩ := Prod.mk.inj hcurrent
    obtain rfl := Except.ok.inj hok
    split_ifs at h with hpath
    · cases h
    · rw [show candidate.path = Unix.spiffePath (M.getuid w).1 from not_not.mp hpath]
      exact .unix

/-- Every source of a registry is honest. -/
theorem honest_registryOf (C : Crypto) (M : Machine W) (features : Features) (probes : Probes) :
    ∀ attestor ∈ registryOf C M features probes, Honest C M attestor :=
  forall_mem_registryOf honest_tailscale honest_ssh
    (honest_of_decline (by with_unfolding_all decide) (Oidc.attestor_confined M)) honest_didKey
    honest_gpg
    (honest_of_decline (by with_unfolding_all decide)
      (Fido2.attestor_confined C M features.fido2))
    (honest_of_decline (by with_unfolding_all decide) (Attestor.empty_confined _ _))
    (honest_of_decline (by with_unfolding_all decide) (Attestor.empty_confined _ _))
    honest_unix probes

end Sources

/-! ### What a daemon serves -/

section Serve

variable {L : TokenLib}

/-- A claim that a registry backs is proven in the run of one of its proofs, in the trust domain of
its source. -/
theorem proven_of_backed {C : Crypto} {M : Machine W} {features : Features} {probes : Probes}
    {challenge : Bytes} {requested : Option SpiffeId} {w : W} {claim : Claim}
    (hbacked : Backed challenge requested (registryOf C M features probes) w claim) :
    (∃ proof ∈ proofs challenge requested (registryOf C M features probes) w,
      Proven C M challenge proof.world claim.source claim.spiffeId.path) ∧
      claim.spiffeId.trustDomain = domainOf claim.source := by
  obtain ⟨proof, hrun, evidence, hproof, hderive⟩ := hbacked
  obtain ⟨hattestor, seenIn, candidates, hseen, hcandidate⟩ := shown_of_mem_proofs hrun
  have hhonest := honest_registryOf C M features probes proof.attestor hattestor
  have hgrade := graded_registryOf C M features probes proof.attestor hattestor
  obtain ⟨hsource, hpath, -⟩ := Claim.derive_eq_some hderive
  have hname := hsource.trans (hgrade.source seenIn candidates hseen _ hcandidate)
  have hproven := hhonest.prove proof.candidate challenge proof.world evidence hproof
  rw [← hname, ← hpath] at hproven
  refine ⟨⟨proof, hrun, hproven⟩, ?_⟩
  rw [Claim.trustDomain_of_derive hderive
    (hhonest.confined.prove proof.candidate challenge proof.world evidence hproof), hname]
  exact hhonest.confined.enumerate seenIn candidates hseen _ hcandidate

end Serve

end Hire.Hired
