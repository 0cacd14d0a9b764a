import Hire.Grpc.Consent
import Hire.Grpc.Entitlement

/-!
# Naming an identity

A named request proves one candidate: the first one that has the path it names, whatever its trust
domain, because a path cannot move and a trust domain can. The proven claim is then compared with
the whole identity. So the candidate of a named identity is proved exactly when nothing enumerated
before it has its path, and `named_identity_served` says that it is then served, whatever else the
sources show.

`named_identity_shadowed` is the other case: a source of another trust domain shows the same path
first, its proof yields nothing, and the request that authorised one proof is refused.
-/

set_option autoImplicit false
set_option relaxedAutoImplicit false

namespace Hire.Grpc

open Hire.Library Hire.Core Hire.Attestors

namespace WorkloadApiService

section Named

variable {L : TokenLib} {W : Type}

/-- The named lookup proves the first candidate with the path. -/
theorem proveNamed_of_first {challenge : Bytes} {want : SpiffeId}
    {before after : List (Attestor W × Candidate)} {attestor : Attestor W} {candidate : Candidate}
    (hbefore : ∀ pair ∈ before, pair.2.path ≠ want.path) (hpath : candidate.path = want.path)
    (w : W) :
    (proveNamed challenge want (before ++ (attestor, candidate) :: after) w).value =
      namedClaim want candidate challenge (attestor.prove candidate challenge w).1 := by
  have hfind : (before ++ (attestor, candidate) :: after).find? (·.2.path = want.path) =
      some (attestor, candidate) := by
    have hnone : before.find? (·.2.path = want.path) = none := by
      rw [List.find?_eq_none]
      intro pair hpair
      simpa using hbefore pair hpair
    rw [List.find?_append, hnone, Option.none_or]
    exact List.find?_cons_of_pos (decide_eq_true hpath)
  unfold proveNamed
  rw [hfind]

/-- The candidate of a named identity is proved and served. Assumes: the peer is attested, the
audiences parse and are not empty, a challenge was drawn, signing succeeds, the candidate is
enumerated for the named identity and nothing enumerated before it has its path, and its proof
yields a claim of that identity that passes the gates. -/
theorem named_identity_served (C : Crypto) (service : WorkloadApiService L W)
    (consumer : ConsumerIdentity) (req : JwtsvidRequest) (readings : Readings) (w w' : W)
    (exts : List AudienceExtensions) (want : SpiffeId) (challenge : ByteArr 32)
    (before after : List (Attestor W × Candidate)) (attestor : Attestor W) (candidate : Candidate)
    (evidence : List Evidence) (claim : Claim) (haudience : req.audience ≠ [])
    (hexts : List.Forall₂ (fun raw ext ↦ AudienceExtensions.parse raw = .ok ext) req.audience exts)
    (hwant : SpiffeId.fromStr req.spiffeId = .ok want)
    (hchallenge : readings.challenge = some challenge)
    (hsign : service.SigningSucceeds C readings)
    (hfound : (enumerateAll service.attestors w).value = before ++ (attestor, candidate) :: after)
    (hid : candidate.spiffeId = want) (hbefore : ∀ pair ∈ before, pair.2.path ≠ want.path)
    (hprove : attestor.prove candidate challenge.1 (enumerateAll service.attestors w).world =
      (.ok evidence, w'))
    (hderive : Claim.derive candidate challenge.1 evidence = some claim)
    (hclaim : claim.spiffeId = want)
    (hgates : passesGates (requirePresence exts) (maxAge exts) readings.now claim = true) :
    let run := service.fetchJwtsvid C (some consumer) req readings w
    ∃ svid, run.reply = .ok [svid] ∧ run.served = [(claim, svid)] ∧
      svid.spiffeId = (service.signer.pseudonymousId C want consumer).uri := by
  intro run
  have hpath : candidate.path = want.path := by
    rw [← hid]
    rfl
  have hname : req.spiffeId ≠ [] := SpiffeId.ne_nil_of_fromStr hwant
  have hadmitted : acceptRequest (some consumer) req = .ok ⟨consumer, exts, some want⟩ :=
    acceptRequest_eq_ok_iff.mpr ⟨rfl, haudience, hexts, Or.inr ⟨hname, want, hwant, rfl⟩⟩
  have hclaims : (gather challenge.1 (some want) service.attestors w).value = .ok [claim] := by
    show (proveNamed challenge.1 want (enumerateAll service.attestors w).value
      (enumerateAll service.attestors w).world).value = .ok [claim]
    rw [hfound, proveNamed_of_first hbefore hpath, hprove]
    exact namedClaim_eq_ok_iff.mpr ⟨evidence, claim, rfl, hderive, hclaim, rfl⟩
  obtain ⟨out, hout, hfilter⟩ := serve_eq_filter hsign ⟨consumer, exts, some want⟩ [claim]
  obtain ⟨hserved, hreply⟩ := served_of_gather hadmitted hchallenge hclaims hout
  have hpasses : [claim].filter (gates ⟨consumer, exts, some want⟩ readings) = [claim] := by
    exact List.filter_cons_of_pos hgates
  rw [hpasses] at hfilter
  obtain ⟨⟨claim', svid⟩, hsingle, hfst⟩ := List.map_eq_singleton_iff.mp hfilter
  obtain rfl : claim' = claim := hfst
  have hissued : issue C service.signer claim' consumer (exts.map (·.audience))
      (requirePresence exts) (maxAge exts) readings.now (readings.signedAt 0) = .ok svid := by
    obtain ⟨j, hj, hissue⟩ := (mem_served_iff hout).mp (hsingle ▸ List.mem_singleton_self _)
    obtain rfl : j = 0 := by
      have hlt := (List.getElem?_eq_some_iff.mp hj).1
      rw [List.length_singleton] at hlt
      omega
    exact hissue
  refine ⟨svid, ?_, hserved.trans hsingle, ?_⟩
  · rw [show run.reply = out.reply from hreply, Issued.reply, hsingle]
    rfl
  · rw [(issue_eq_ok_iff.mp hissued).2.2.1, hclaim]

end Named

/-! ### Two sources and one path -/

/-- A keyring that shows one path under its own trust domain and proves nothing of it. -/
def keyringSource (path : Str) : Attestor Unit :=
  .constant (str "keyring") [.new (str "keyring") .pgpLocal path (str "Alice")] []

/-- A request that names the account the kernel shows. -/
def namesAlice : JwtsvidRequest :=
  ⟨[str "https://rp.example"], str "spiffe://ssh.local/user/alice"⟩

/-- The policy of that request: none. -/
def namesAliceExts : List AudienceExtensions := [⟨str "https://rp.example", .none, none⟩]

theorem namesAlice_parses :
    List.Forall₂ (fun raw ext ↦ AudienceExtensions.parse raw = .ok ext) namesAlice.audience
      namesAliceExts :=
  .cons (by with_unfolding_all decide) .nil

/-- The account the kernel shows. -/
def kernelCandidate : Candidate :=
  (Candidate.new (str "kernel") .sshLocal (str "user/alice") (str "Alice")).withProofCost .silent

/-- The kernel, which answers for that account. -/
def kernelSource : Attestor Unit :=
  .constant (str "kernel") [kernelCandidate] [.platformAssertion ⟨str "user/alice", second 100⟩]

/-- The claim the kernel proves of it. -/
def kernelClaim : Claim :=
  ⟨str "kernel", .iaa1, .none, ⟨.sshLocal, str "user/alice"⟩, str "Alice", second 100⟩

/-- A keyring that shows another path first does not stand in the way of the kernel. -/
theorem named_identity_served_kernel :
    let service := transparent [keyringSource (str "key/1"), kernelSource]
    ∃ svid, (service.fetchJwtsvid .transparent (some someBinary) namesAlice
      (readingsAt (second 101)) ()).reply = .ok [svid] := by
  intro service
  obtain ⟨svid, hreply, -⟩ := named_identity_served .transparent service someBinary namesAlice
    (readingsAt (second 101)) () () namesAliceExts ⟨.sshLocal, str "user/alice"⟩ (fill 32 0)
    [(keyringSource (str "key/1"), .new (str "keyring") .pgpLocal (str "key/1") (str "Alice"))] []
    kernelSource kernelCandidate [.platformAssertion ⟨str "user/alice", second 100⟩]
    kernelClaim (by decide) namesAlice_parses (by with_unfolding_all decide) rfl
    (transparent_signingSucceeds .transparent service (by decide)) rfl rfl
    (by with_unfolding_all decide) rfl (by with_unfolding_all decide) rfl (by decide)
  exact ⟨svid, hreply⟩

/-- A named identity can be shadowed: the keyring shows its path first, under another trust domain,
and the kernel is not asked. -/
theorem named_identity_shadowed :
    ¬ ∀ (L : TokenLib) (W : Type) (C : Crypto) (service : WorkloadApiService L W)
      (consumer : ConsumerIdentity) (req : JwtsvidRequest) (readings : Readings) (w w' : W)
      (exts : List AudienceExtensions) (want : SpiffeId) (challenge : ByteArr 32)
      (before after : List (Attestor W × Candidate)) (attestor : Attestor W)
      (candidate : Candidate) (evidence : List Evidence) (claim : Claim), req.audience ≠ [] →
      List.Forall₂ (fun raw ext ↦ AudienceExtensions.parse raw = .ok ext) req.audience exts →
      SpiffeId.fromStr req.spiffeId = .ok want → readings.challenge = some challenge →
      service.SigningSucceeds C readings →
      (enumerateAll service.attestors w).value = before ++ (attestor, candidate) :: after →
      candidate.spiffeId = want → (∀ pair ∈ before ++ after, pair.2.spiffeId ≠ want) →
      attestor.prove candidate challenge.1 (enumerateAll service.attestors w).world =
        (.ok evidence, w') →
      Claim.derive candidate challenge.1 evidence = some claim → claim.spiffeId = want →
      passesGates (requirePresence exts) (maxAge exts) readings.now claim = true →
      let run := service.fetchJwtsvid C (some consumer) req readings w
      ∃ svids, run.reply = .ok svids ∧ ∃ svid ∈ svids,
        svid.spiffeId = (service.signer.pseudonymousId C want consumer).uri := by
  intro h
  obtain ⟨svids, hreply, -⟩ := h TokenLib.transparent Unit .transparent
    (transparent [keyringSource (str "user/alice"), kernelSource]) someBinary namesAlice
    (readingsAt (second 101)) () () namesAliceExts ⟨.sshLocal, str "user/alice"⟩ (fill 32 0)
    [(keyringSource (str "user/alice"),
      .new (str "keyring") .pgpLocal (str "user/alice") (str "Alice"))] []
    kernelSource kernelCandidate [.platformAssertion ⟨str "user/alice", second 100⟩]
    kernelClaim (by decide) namesAlice_parses (by with_unfolding_all decide) rfl
    (transparent_signingSucceeds .transparent _ (by decide)) rfl rfl
    (by decide) rfl (by with_unfolding_all decide) rfl (by decide)
  have hserved : ((transparent [keyringSource (str "user/alice"), kernelSource]).fetchJwtsvid
      .transparent (some someBinary) namesAlice (readingsAt (second 101))
      ()).served.length = 0 := by
    with_unfolding_all decide
  exact (served_of_reply hreply).2 (List.length_eq_zero_iff.mp hserved)

end WorkloadApiService

end Hire.Grpc
