import Hire.Hired.Namespaces

/-!
# The account is always served

The account source of `hire-attestors/src/unix.rs` is registered without a probe, because its
availability needs no more than the kernel. `account_always_served` follows it through the whole
daemon: a consumer that was attested and asks for no policy is served an SVID for the account,
whether it names that identity or names none, whatever the other sources show, prove or fail at, and
the SVID verifies under the bundles that the daemon publishes.

The one thing assumed of the machine is that the kernel names the same account every time: a process
that does not call `setuid` keeps its account.
-/

set_option autoImplicit false
set_option relaxedAutoImplicit false

namespace Hire.Hired

open Hire.Library Hire.Core Hire.Attestors Hire.Grpc

variable {W : Type}

/-! ### A candidate that is always shown and always proven -/

/-- What a source shows in every world is among the candidates. -/
theorem mem_enumerateAll {attestors : List (Attestor W)} {attestor : Attestor W}
    (hattestor : attestor ∈ attestors) {candidate : Candidate}
    (hshows : ∀ w, ∃ candidates, (attestor.enumerate w).1 = .ok candidates ∧
      candidate ∈ candidates) (w : W) :
    (attestor, candidate) ∈ (enumerateAll attestors w).value := by
  induction attestors generalizing w with
  | nil => cases hattestor
  | cons first rest ih =>
    rcases List.mem_cons.mp hattestor with rfl | hlater
    · obtain ⟨candidates, hanswer, hcandidate⟩ := hshows w
      refine List.mem_append_left _ ?_
      rw [hanswer]
      exact List.mem_map_of_mem hcandidate
    · exact List.mem_append_right _ (ih hlater _)

/-- A silent candidate that is proven in every world has a claim in the loop. -/
theorem exists_mem_proveSilent {challenge : Bytes} {found : List (Attestor W × Candidate)}
    {attestor : Attestor W} {candidate : Candidate} (hfound : (attestor, candidate) ∈ found)
    (hcost : candidate.proofCost = .silent) {P : Claim → Prop}
    (hproves : ∀ w, ∃ claim, silentClaim candidate challenge
      (attestor.prove candidate challenge w).1 = some claim ∧ P claim) (w : W) :
    ∃ claim ∈ (proveSilent challenge found w).value, P claim := by
  induction found generalizing w with
  | nil => cases hfound
  | cons pair rest ih =>
    obtain ⟨first, shown⟩ := pair
    rcases List.mem_cons.mp hfound with heq | hlater
    · obtain ⟨rfl, rfl⟩ := Prod.mk.inj heq
      obtain ⟨claim, hclaim, hP⟩ := hproves w
      unfold proveSilent
      rw [if_neg (not_not.mpr hcost)]
      dsimp only
      rw [hclaim]
      exact ⟨claim, List.mem_append_left _ List.mem_cons_self, hP⟩
    · unfold proveSilent
      split_ifs with hloud
      · exact ih hlater w
      · obtain ⟨claim, hclaim, hP⟩ := ih hlater (first.prove shown challenge w).2
        exact ⟨claim, List.mem_append_right _ hclaim, hP⟩

/-! ### The account -/

/-- The identity of an account. -/
def accountOf (uid : ℕ) : SpiffeId := ⟨.sshLocal, Unix.spiffePath uid⟩

/-- Of the trust domains of the sources, only one gives the URI of an account. -/
theorem eq_accountOf_of_uri {root : SpiffeId} {source : Str} {uid : ℕ}
    (hdomain : root.trustDomain = domainOf source) (huri : root.uri = (accountOf uid).uri) :
    root = accountOf uid := by
  obtain ⟨trustDomain, path⟩ := root
  obtain rfl : trustDomain = domainOf source := hdomain
  unfold domainOf at huri ⊢
  simp only [SpiffeId.uri, accountOf, List.append_assoc, List.append_cancel_left_eq] at huri
  split_ifs at huri ⊢ with hsource
  · have hhead : some 't' = some 's' := by with_unfolding_all exact congrArg List.head? huri
    cases hhead
  · rw [accountOf, List.append_cancel_left (List.append_cancel_left huri)]

section Account

variable {M : Machine W} {uid : ℕ} (huid : ∀ w, (M.getuid w).1 = uid)
include huid

/-- The registry of a probe holds the account. -/
theorem probeSources_yields_account (C : Crypto) (features : Features) :
    (probeSources C M features).Yields fun attestors ↦ ∃ probes,
      attestors = registryOf C M features probes ∧ probes.uid = uid := by
  have hunix : (Unix.new M).Yields
      fun unix ↦ ∃ displayName, unix = Unix.attestor M uid displayName := by
    refine .bind (.answer _) fun current hcurrent ↦ .seq fun name ↦ ?_
    obtain ⟨w, hw⟩ := hcurrent
    obtain rfl : current = uid := (Except.ok.inj hw).symm.trans (huid w)
    split
    · exact .pure ⟨_, rfl⟩
    · exact .pure ⟨_, rfl⟩
    · exact .pure ⟨_, rfl⟩
  refine .seq fun tailscale ↦ .seq fun ssh ↦ .seq fun didKey ↦ .seq fun gpg ↦ .seq fun fido2 ↦
    .seq fun goa ↦ .seq fun piv ↦ .bind hunix fun unix hunix ↦ ?_
  obtain ⟨displayName, rfl⟩ := hunix
  exact .pure ⟨⟨tailscale, ssh, didKey, gpg, fido2, goa, piv, uid, displayName⟩, rfl, rfl⟩

/-- The proof of the account yields a claim of it, in every world and under every challenge. -/
theorem claim_of_account {candidate : Candidate} (hid : candidate.spiffeId = accountOf uid)
    (challenge : Bytes) (w : W) :
    ∃ claim, silentClaim candidate challenge (Unix.prove M candidate challenge w).1 = some claim ∧
      claim.spiffeId = accountOf uid := by
  have hpath : candidate.path = Unix.spiffePath uid := congrArg SpiffeId.path hid
  have hproof : (Unix.prove M candidate challenge w).1 =
      .ok [.platformAssertion ⟨candidate.path, (M.now (M.getuid w).2).1⟩] := by
    have hcurrent : (Action.ask M.getuid : Action AttestorError W ℕ) w =
        (.ok uid, (M.getuid w).2) := by
      rw [Action.ask, huid w]
    unfold Unix.prove
    rw [Action.bind_of_ok hcurrent, if_neg (not_not.mpr hpath)]
    rfl
  have hbinds : Evidence.bindsTo candidate challenge
      (.platformAssertion ⟨candidate.path, (M.now (M.getuid w).2).1⟩) = true := decide_eq_true rfl
  cases hderive : Claim.derive candidate challenge
      [.platformAssertion ⟨candidate.path, (M.now (M.getuid w).2).1⟩] with
  | none =>
    have hnot := Claim.derive_eq_none_iff.mp hderive _ List.mem_cons_self
    cases hbinds.symm.trans hnot
  | some claim =>
    have hshown := spiffeId_of_derive hderive fun e he ↦ by
      rw [List.mem_singleton.mp he]
      rfl
    rw [hproof]
    exact ⟨claim, hderive, hshown.trans hid⟩

/-- The candidates of a registry hold the account, and its claim is among those of a request that
names it or names nothing. -/
theorem account_mem_gather (C : Crypto) (features : Features) {probes : Probes}
    (hprobes : probes.uid = uid) {requested : Option SpiffeId}
    (hrequested : ∀ want, requested = some want → want = accountOf uid) (challenge : Bytes)
    (w : W) :
    ∃ claims, (gather challenge requested (registryOf C M features probes) w).value = .ok claims ∧
      ∃ claim ∈ claims, claim.spiffeId = accountOf uid := by
  subst hprobes
  let candidate : Candidate := ((Candidate.new (str "unix") .sshLocal (Unix.spiffePath probes.uid)
    probes.displayName).withAttainable .iaa1).withProofCost .silent
  have hfound : (Unix.attestor M probes.uid probes.displayName, candidate) ∈
      (enumerateAll (registryOf C M features probes) w).value :=
    mem_enumerateAll (by simp [registryOf]) (fun w ↦ ⟨[candidate], rfl, List.mem_cons_self⟩) w
  have hproves := claim_of_account huid
    (show candidate.spiffeId = accountOf probes.uid from rfl) challenge
  cases requested with
  | none =>
    obtain ⟨claim, hclaim, hid⟩ := exists_mem_proveSilent hfound rfl hproves
      (enumerateAll (registryOf C M features probes) w).world
    obtain ⟨best, hbest, huri⟩ :=
      exists_mem_bestPerKey (fun claim ↦ claim.spiffeId.uri) Claim.assurance hclaim
    have hgathered : (gather challenge none (registryOf C M features probes) w).value =
      .ok (rankClaims _) := rfl
    obtain ⟨-, hdomain⟩ := proven_of_backed (backed_of_mem_gather hgathered hbest)
    refine ⟨_, hgathered, best, hbest, ?_⟩
    refine eq_accountOf_of_uri hdomain ?_
    rw [← hid]
    exact huri
  | some want =>
    obtain rfl := hrequested want rfl
    obtain ⟨claim, hclaim, hid⟩ := hproves (enumerateAll (registryOf C M features probes) w).world
    obtain ⟨source, displayName, hclaims⟩ := gather_of_claim hfound hclaim
    exact ⟨_, hclaims, _, List.mem_cons_self, hid⟩

end Account

/-! ### What becomes of it -/

section Serve

variable {L : TokenLib}

/-- An audience that asks for nothing is satisfied by every claim. -/
theorem satisfiesPolicy_of_none {ext : AudienceExtensions} (hpresence : ext.requirePresence = .none)
    (hage : ext.maxAge = none) (now : SystemTime) (claim : Claim) :
    SatisfiesPolicy ext now claim := by
  refine ⟨?_, fun bound hbound ↦ ?_⟩
  · rw [hpresence]
    exact PresenceLevel.none_le _
  · rw [hage] at hbound
    cases hbound

/-- A consumer that asks for no policy is served an SVID for the account, whether it names the
account or names no identity, and the SVID verifies under the published bundles: no other source can
take that away, whatever it shows, proves or fails at. Assumes: the documented behaviour of the
token library, a daemon that was started on some machine whose kernel names one account, an attested
peer, audiences that parse and ask for nothing, a challenge that was drawn, and that signing
succeeds. -/
theorem account_always_served (C : Crypto) (hL : L.Documented) (M : Machine W) (features : Features)
    (signer : SvidSigner L) (w₀ : W) (service : WorkloadApiService L W)
    (hstart : (start C M features signer w₀).1 = .ok service) (uid : ℕ)
    (huid : ∀ w, (M.getuid w).1 = uid) (consumer : ConsumerIdentity) (req : JwtsvidRequest)
    (exts : List AudienceExtensions) (haudience : req.audience ≠ [])
    (hexts : List.Forall₂ (fun raw ext ↦ AudienceExtensions.parse raw = .ok ext) req.audience exts)
    (hpolicy : ∀ ext ∈ exts, ext.requirePresence = .none ∧ ext.maxAge = none)
    (hname : req.spiffeId = [] ∨ SpiffeId.fromStr req.spiffeId = .ok (accountOf uid))
    (readings : Readings) (challenge : ByteArr 32)
    (hchallenge : readings.challenge = some challenge)
    (hsign : service.SigningSucceeds C readings) (w : W) :
    ∃ svids, (service.fetchJwtsvid C (some consumer) req readings w).reply = .ok svids ∧
      ∃ svid ∈ svids, Verifies service svid ∧
        svid.spiffeId = (service.signer.pseudonymousId C (accountOf uid) consumer).uri := by
  obtain ⟨attestors, hprobe, rfl⟩ := start_eq_ok hstart
  obtain ⟨probes, rfl, hprobes⟩ := probeSources_yields_account huid C features w₀ attestors hprobe
  obtain ⟨requested, hadmitted, hrequested⟩ : ∃ requested, acceptRequest (some consumer) req =
      .ok ⟨consumer, exts, requested⟩ ∧ ∀ want, requested = some want → want = accountOf uid := by
    rcases hname with hempty | hparse
    · exact ⟨none, acceptRequest_eq_ok_iff.mpr ⟨rfl, haudience, hexts, .inl ⟨hempty, rfl⟩⟩,
        fun want hwant ↦ by cases hwant⟩
    · exact ⟨some (accountOf uid), acceptRequest_eq_ok_iff.mpr ⟨rfl, haudience, hexts,
        .inr ⟨SpiffeId.ne_nil_of_fromStr hparse, _, hparse, rfl⟩⟩,
        fun want hwant ↦ (Option.some.inj hwant).symm⟩
  obtain ⟨claims, hclaims, claim, hclaim, hid⟩ :=
    account_mem_gather huid C features hprobes hrequested challenge.1 w
  obtain ⟨out, hout, hfilter⟩ :=
    WorkloadApiService.serve_eq_filter hsign ⟨consumer, exts, requested⟩ claims
  have hgates : WorkloadApiService.gates ⟨consumer, exts, requested⟩ readings claim = true :=
    passesGates_iff.mpr fun ext hext ↦
      satisfiesPolicy_of_none (hpolicy ext hext).1 (hpolicy ext hext).2 _ _
  have hissued : claim ∈ out.served.map Prod.fst := by
    rw [hfilter]
    exact List.mem_filter.mpr ⟨hclaim, hgates⟩
  obtain ⟨⟨claim, svid⟩, hpair, rfl⟩ := List.mem_map.mp hissued
  obtain ⟨hserved, -⟩ := WorkloadApiService.served_of_gather hadmitted hchallenge hclaims hout
  rw [← hserved] at hpair
  rcases WorkloadApiService.reply_cases C (wire C signer (registryOf C M features probes))
      (some consumer) req readings w with ⟨-, -, hnothing⟩ | ⟨hreply, -⟩
  · rw [hnothing] at hpair
    cases hpair
  · rw [hserved] at hpair
    obtain ⟨j, -, hissue⟩ := (mem_served_iff hout).mp hpair
    have hlocal : claim.spiffeId.trustDomain = .sshLocal := congrArg SpiffeId.trustDomain hid
    refine ⟨_, hreply, svid, ?_, (verifies_iff hL hissue (.inl hlocal)).mpr hlocal, ?_⟩
    · rw [hserved]
      exact List.mem_map_of_mem hpair
    · rw [← hid]
      exact (issue_eq_ok_iff.mp hissue).2.2.1

/-- The account of a machine is served while its tailscaled answers too. -/
theorem account_always_served_tailscale :
    ∃ svids, ((aliceService true).fetchJwtsvid .transparent (some WorkloadApiService.someBinary)
        everyIdentity (WorkloadApiService.readingsAt (WorkloadApiService.second 101)) ()).reply =
          .ok svids ∧ ∃ svid ∈ svids, Verifies (aliceService true) svid := by
  obtain ⟨svids, hreply, svid, hsvid, hverifies, -⟩ := account_always_served .transparent
    TokenLib.transparent_documented (aliceMachine true) ⟨false, false⟩ aliceSigner ()
    (aliceService true) (start_alice true) 1000 (fun _ ↦ rfl) WorkloadApiService.someBinary
    everyIdentity [⟨str "https://rp.example", .none, none⟩] (by decide)
    (.cons (by with_unfolding_all decide) .nil)
    (fun ext hext ↦ by rw [List.mem_singleton.mp hext]; exact ⟨rfl, rfl⟩) (.inl rfl)
    (WorkloadApiService.readingsAt (WorkloadApiService.second 101)) (fill 32 0) rfl
    (WorkloadApiService.transparent_signingSucceeds .transparent _
      (show 0 ≤ WorkloadApiService.second 101 by decide)) ()
  exact ⟨svids, hreply, svid, hsvid, hverifies⟩

end Serve

end Hire.Hired
