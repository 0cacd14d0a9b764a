import Hire.Grpc.Service

/-!
# Which identities an unnamed request is served

An unnamed request proves every silent candidate, ranks the claims, keeps one claim of each SPIFFE
URI and only then applies the policy gates. `provenClaims` reads the claims off the trace of a run:
what was derived from the proofs that succeeded. `roots_unnamed` describes what a run serves in
terms of them: the claims that rank first of their URI and pass the gates.

An identity is entitled to an SVID when one of its proven claims passes the gates. It is served
when the claim that ranks first of its URI passes them. The two agree exactly when no gate refuses
the first claim of a URI that another claim of it would have passed:
`entitled_served_iff` states the condition, and `entitled_not_served` is a run that violates it.
Two sources prove one identity, the stronger proof is older than the age bound of the request, and
the fresh one was dropped before the bound was looked at.
-/

set_option autoImplicit false
set_option relaxedAutoImplicit false

namespace Hire.Grpc

open Hire.Library Hire.Core Hire.Attestors

section Proven

variable {W : Type}

/-- The claim an attestor call proved, if any. -/
def Call.claim : Call W → Option Claim
  | .enumerate .. => none
  | .prove _ candidate challenge answer => silentClaim candidate challenge answer

/-- The claims that were proven in a trace, in order. -/
def provenClaims (calls : List (Call W)) : List Claim := calls.filterMap Call.claim

/-- Enumeration proves no claim. -/
theorem provenClaims_enumerateAll (attestors : List (Attestor W)) (w : W) :
    provenClaims (enumerateAll attestors w).calls = [] := by
  induction attestors generalizing w with
  | nil => rfl
  | cons attestor rest ih => exact ih (attestor.enumerate w).2

/-- The loop over the silent candidates returns the claims of its trace. -/
theorem provenClaims_proveSilent (challenge : Bytes) (found : List (Attestor W × Candidate))
    (w : W) :
    provenClaims (proveSilent challenge found w).calls = (proveSilent challenge found w).value := by
  induction found generalizing w with
  | nil => rfl
  | cons pair rest ih =>
    obtain ⟨attestor, candidate⟩ := pair
    unfold proveSilent
    by_cases hcost : candidate.proofCost = .silent
    · rw [if_neg (by simp [hcost])]
      dsimp only
      rw [← ih]
      unfold provenClaims
      rw [List.filterMap_cons]
      cases hclaim : silentClaim candidate challenge (attestor.prove candidate challenge w).1 <;>
        simp [Call.claim, hclaim]
    · rw [if_pos hcost]
      exact ih w

/-- The claims of an unnamed request are the claims of its trace, ranked. -/
theorem gather_unnamed (challenge : Bytes) (attestors : List (Attestor W)) (w : W) :
    (gather challenge none attestors w).value =
      .ok (rankClaims (provenClaims (gather challenge none attestors w).calls)) := by
  have htrace : provenClaims (gather challenge none attestors w).calls =
      (proveSilent challenge (enumerateAll attestors w).value
        (enumerateAll attestors w).world).value := by
    change provenClaims (_ ++ _) = _
    rw [provenClaims, List.filterMap_append, ← provenClaims, ← provenClaims,
      provenClaims_enumerateAll, List.nil_append]
    exact provenClaims_proveSilent _ _ _
  rw [htrace]
  rfl

end Proven

namespace WorkloadApiService

variable {L : TokenLib} {W : Type}

/-- The root identities an unnamed run serves are those of the claims that rank first of their URI
and pass the gates. Assumes: the request is admitted and unnamed, and signing succeeds. -/
theorem mem_roots_unnamed {C : Crypto} {service : WorkloadApiService L W}
    {peer : Option ConsumerIdentity} {req : JwtsvidRequest} {readings : Readings} (w : W)
    {admitted : Admitted} (hadmitted : acceptRequest peer req = .ok admitted)
    (hname : admitted.requested = none) (hsign : service.SigningSucceeds C readings)
    (root : SpiffeId) :
    root ∈ (service.fetchJwtsvid C peer req readings w).roots ↔
      ∃ claim ∈ rankClaims (provenClaims (service.fetchJwtsvid C peer req readings w).calls),
        gates admitted readings claim = true ∧ claim.spiffeId = root := by
  cases hchallenge : readings.challenge with
  | none =>
    unfold fetchJwtsvid
    simp [hadmitted, hchallenge, Outcome.roots, provenClaims, rankClaims, bestPerKey, sortBest,
      retainNew]
  | some challenge =>
    have hclaims := hname ▸ gather_unnamed challenge.1 service.attestors w
    obtain ⟨out, hout, hfilter⟩ := serve_eq_filter hsign admitted
      (rankClaims (provenClaims (gather challenge.1 admitted.requested service.attestors w).calls))
    rw [calls_of_gather hadmitted hchallenge, Outcome.roots,
      (served_of_gather hadmitted hchallenge hclaims hout).1,
      show out.served.map (·.1.spiffeId) = (out.served.map Prod.fst).map Claim.spiffeId by
        rw [List.map_map]; rfl, hfilter]
    simp only [List.mem_map, List.mem_filter, and_assoc]

/-- No identity that qualifies is lost, and a refusal means that none qualifies, exactly when every
claim that passes the gates has a claim ranked first of its URI that passes them too and is for the
same SPIFFE ID. The first-ranked claim of a URI has the highest assurance proven for it, and is the
earliest of those. Assumes: the peer is attested, the audiences parse, the request is unnamed, and
signing succeeds. -/
theorem entitled_served_iff (C : Crypto) (service : WorkloadApiService L W)
    (consumer : ConsumerIdentity) (req : JwtsvidRequest) (readings : Readings) (w : W)
    (exts : List AudienceExtensions) (haudience : req.audience ≠ [])
    (hexts : List.Forall₂ (fun raw ext ↦ AudienceExtensions.parse raw = .ok ext) req.audience exts)
    (hname : req.spiffeId = []) (hsign : service.SigningSucceeds C readings) :
    let run := service.fetchJwtsvid C (some consumer) req readings w
    let passes := passesGates (requirePresence exts) (maxAge exts) readings.now
    ((∀ root, root ∈ run.roots ↔
        ∃ claim ∈ provenClaims run.calls, passes claim = true ∧ claim.spiffeId = root) ∧
      ((∃ fault, run.reply = .error fault) →
        ∀ claim ∈ provenClaims run.calls, passes claim = false)) ↔
    ∀ claim ∈ provenClaims run.calls, passes claim = true →
      ∃ best, ((provenClaims run.calls).filter fun other ↦
          decide (other.spiffeId.uri = claim.spiffeId.uri)).argmax Claim.assurance = some best ∧
        passes best = true ∧ best.spiffeId = claim.spiffeId := by
  intro run passes
  have hadmitted : acceptRequest (some consumer) req = .ok ⟨consumer, exts, none⟩ :=
    acceptRequest_eq_ok_iff.mpr ⟨rfl, haudience, hexts, Or.inl ⟨hname, rfl⟩⟩
  have hroots := mem_roots_unnamed w hadmitted rfl hsign
  constructor
  · rintro ⟨hserved, -⟩ claim hclaim hpasses
    obtain ⟨best, hbest, hgates, hid⟩ :=
      (hroots _).mp ((hserved claim.spiffeId).mpr ⟨claim, hclaim, hpasses, rfl⟩)
    refine ⟨best, ?_, hgates, hid⟩
    rw [← hid]
    exact (mem_bestPerKey_iff _ _).mp hbest
  · intro hcondition
    have hserved : ∀ claim ∈ provenClaims run.calls, passes claim = true →
        claim.spiffeId ∈ run.roots := by
      intro claim hclaim hpasses
      obtain ⟨best, hbest, hgates, hid⟩ := hcondition claim hclaim hpasses
      refine (hroots _).mpr ⟨best, (mem_bestPerKey_iff _ _).mpr ?_, hgates, hid⟩
      rw [hid]
      exact hbest
    refine ⟨fun root ↦ ⟨fun hroot ↦ ?_, ?_⟩, ?_⟩
    · obtain ⟨claim, hclaim, hgates, hid⟩ := (hroots root).mp hroot
      exact ⟨claim, mem_of_mem_bestPerKey hclaim, hgates, hid⟩
    · rintro ⟨claim, hclaim, hpasses, rfl⟩
      exact hserved claim hclaim hpasses
    · rintro ⟨fault, hfault⟩ claim hclaim
      by_contra hpasses
      have hroot := hserved claim hclaim (by simpa using hpasses)
      rcases reply_cases C service (some consumer) req readings w with ⟨-, -, hempty⟩ | ⟨hok, -⟩
      · rw [show run.roots = [] by rw [Outcome.roots, hempty]; rfl] at hroot
        cases hroot
      · cases hfault.symm.trans hok

/-! ### A run that loses an identity -/

/-- A daemon and the kernel, which prove one identity and have observed it at some seconds. -/
def observedAt (daemon kernel : ℕ) : List (Attestor Unit) :=
  let candidate (source : Str) : Candidate :=
    (Candidate.new source .sshLocal (str "user/alice") (str "Alice")).withProofCost .silent
  [.constant (str "daemon") [candidate (str "daemon")]
      [.daemonAssertion ⟨str "user/alice", second daemon⟩],
    .constant (str "kernel") [candidate (str "kernel")]
      [.platformAssertion ⟨str "user/alice", second kernel⟩]]

/-- Two sources that prove one identity: a daemon that answered long ago, and the kernel, which
answered just now. -/
def twoSources : List (Attestor Unit) := observedAt 0 100

/-- Two sources that prove one identity, and have both answered just now. -/
def youngSources : List (Attestor Unit) := observedAt 90 100

/-- A request for identities observed within the last minute. -/
def withinAMinute : JwtsvidRequest := ⟨[str "https://rp.example?hire_max_age=60"], []⟩

/-- The policy of that request. -/
def withinAMinuteExts : List AudienceExtensions :=
  [⟨str "https://rp.example", .none, some (Duration.fromSecs 60)⟩]

theorem withinAMinute_parses :
    List.Forall₂ (fun raw ext ↦ AudienceExtensions.parse raw = .ok ext) withinAMinute.audience
      withinAMinuteExts :=
  .cons (by with_unfolding_all decide) .nil

/-- While both claims are young enough the condition holds, and the identity for which the two
sources compete is served. -/
theorem entitled_served_iff_young :
    let service := transparent youngSources
    let run := service.fetchJwtsvid .transparent (some someBinary) withinAMinute
      (readingsAt (second 101)) ()
    (provenClaims run.calls).length = 2 ∧ ⟨.sshLocal, str "user/alice"⟩ ∈ run.roots := by
  intro service run
  have hsign : service.SigningSucceeds .transparent (readingsAt (second 101)) :=
    transparent_signingSucceeds .transparent service (show 0 ≤ second 101 by decide)
  let passes := passesGates (requirePresence withinAMinuteExts) (maxAge withinAMinuteExts)
    (second 101)
  have hiff := entitled_served_iff .transparent service someBinary withinAMinute
    (readingsAt (second 101)) () withinAMinuteExts (by decide) withinAMinute_parses rfl hsign
  have hcondition : ((provenClaims run.calls).all fun claim ↦
      (((provenClaims run.calls).filter fun other ↦
        decide (other.spiffeId.uri = claim.spiffeId.uri)).argmax Claim.assurance).any fun best ↦
          passes best && decide (best.spiffeId = claim.spiffeId)) = true := by
    with_unfolding_all decide
  have hproven : ((provenClaims run.calls).any fun claim ↦ passes claim &&
      decide (claim.spiffeId = ⟨.sshLocal, str "user/alice"⟩)) = true := by
    with_unfolding_all decide
  refine ⟨by with_unfolding_all decide, ((hiff.mpr fun claim hclaim _ ↦ ?_).1 _).mpr ?_⟩
  · obtain ⟨best, hbest, hpasses⟩ :=
      (Option.any_eq_true _ _).mp (List.all_eq_true.mp hcondition claim hclaim)
    obtain ⟨hgates, hid⟩ := Bool.and_eq_true_iff.mp hpasses
    exact ⟨best, hbest, hgates, of_decide_eq_true hid⟩
  · obtain ⟨claim, hclaim, hpasses⟩ := List.any_eq_true.mp hproven
    obtain ⟨hgates, hid⟩ := Bool.and_eq_true_iff.mp hpasses
    exact ⟨claim, hclaim, hgates, of_decide_eq_true hid⟩

/-- An identity that qualifies is lost: both sources prove it, the claim of the kernel is young
enough, and the request is refused because the claim of the daemon ranks first and is not. -/
theorem entitled_not_served :
    ¬ ∀ (L : TokenLib) (W : Type) (C : Crypto) (service : WorkloadApiService L W)
      (consumer : ConsumerIdentity) (req : JwtsvidRequest) (readings : Readings) (w : W)
      (exts : List AudienceExtensions), req.audience ≠ [] →
      List.Forall₂ (fun raw ext ↦ AudienceExtensions.parse raw = .ok ext) req.audience exts →
      req.spiffeId = [] → service.SigningSucceeds C readings →
      let run := service.fetchJwtsvid C (some consumer) req readings w
      let passes := passesGates (requirePresence exts) (maxAge exts) readings.now
      (∀ root, root ∈ run.roots ↔
          ∃ claim ∈ provenClaims run.calls, passes claim = true ∧ claim.spiffeId = root) ∧
        ((∃ fault, run.reply = .error fault) →
          ∀ claim ∈ provenClaims run.calls, passes claim = false) := by
  intro h
  have hserved := (h TokenLib.transparent Unit .transparent (transparent twoSources) someBinary
    withinAMinute (readingsAt (second 101)) () withinAMinuteExts (by decide)
    withinAMinute_parses rfl
    (transparent_signingSucceeds .transparent (transparent twoSources) (by decide))).1
  have hroot := (hserved ⟨.sshLocal, str "user/alice"⟩).mpr (by with_unfolding_all decide)
  exact absurd hroot (by with_unfolding_all decide)

end WorkloadApiService

end Hire.Grpc
