import Hire.Grpc.Service

/-!
# The consent boundary

What an unnamed request may cost a human, and what a named one may. The trace of a run records
every attestor call with its answer: `enumerated` reads off the candidates that were seen, and
`proved` the candidates that were proved, each with its attestor and in order.

The lemmas follow the two ways of proving. `proved_proveSilent` says that the loop proves exactly
the silent candidates, once each, and `proveNamed_cases` says everything the named lookup can do:
find nothing, or prove one candidate with the right path and judge its answer. `consent_boundary`
puts them together for a whole run, with the requests that call no attestor at all.
-/

set_option autoImplicit false
set_option relaxedAutoImplicit false

namespace Hire.Grpc

open Hire.Library Hire.Core Hire.Attestors

section Trace

variable {W : Type}

/-! ### Reading a trace -/

/-- The candidates an attestor call showed. -/
def Call.candidates : Call W → List (Attestor W × Candidate)
  | .enumerate attestor answer => candidatesOf attestor answer
  | .prove .. => []

/-- The candidate an attestor call proved. -/
def Call.target : Call W → Option (Attestor W × Candidate)
  | .enumerate .. => none
  | .prove attestor candidate _ _ => some (attestor, candidate)

/-- The candidates a trace shows, each with its attestor. -/
def enumerated (calls : List (Call W)) : List (Attestor W × Candidate) :=
  calls.flatMap Call.candidates

/-- The candidates that were proved in a trace, one for each call. -/
def proved (calls : List (Call W)) : List (Attestor W × Candidate) := calls.filterMap Call.target

@[simp] theorem enumerated_append (calls calls' : List (Call W)) :
    enumerated (calls ++ calls') = enumerated calls ++ enumerated calls' :=
  List.flatMap_append

@[simp] theorem proved_append (calls calls' : List (Call W)) :
    proved (calls ++ calls') = proved calls ++ proved calls' :=
  List.filterMap_append

/-- Enumeration shows exactly what it returns, and proves nothing. -/
theorem trace_enumerateAll (attestors : List (Attestor W)) (w : W) :
    enumerated (enumerateAll attestors w).calls = (enumerateAll attestors w).value ∧
      proved (enumerateAll attestors w).calls = [] := by
  induction attestors generalizing w with
  | nil => exact ⟨rfl, rfl⟩
  | cons attestor rest ih =>
    obtain ⟨hshown, hproved⟩ := ih (attestor.enumerate w).2
    constructor
    · change candidatesOf attestor _ ++ enumerated _ = candidatesOf attestor _ ++ _
      rw [hshown]
    · exact hproved

/-- The loop proves exactly the silent candidates, once each and in order. -/
theorem trace_proveSilent (challenge : Bytes) (found : List (Attestor W × Candidate)) (w : W) :
    enumerated (proveSilent challenge found w).calls = [] ∧
      proved (proveSilent challenge found w).calls =
        found.filter fun pair ↦ decide (pair.2.proofCost = .silent) := by
  induction found generalizing w with
  | nil => exact ⟨rfl, rfl⟩
  | cons pair rest ih =>
    obtain ⟨attestor, candidate⟩ := pair
    unfold proveSilent
    by_cases hcost : candidate.proofCost = .silent
    · obtain ⟨hshown, hproved⟩ := ih (attestor.prove candidate challenge w).2
      rw [if_neg (by simp [hcost]), List.filter_cons_of_pos (by simp [hcost]), ← hproved]
      exact ⟨hshown, rfl⟩
    · rw [if_pos hcost, List.filter_cons_of_neg (by simp [hcost])]
      exact ih w

/-- An unnamed request enumerates, and then proves. -/
theorem calls_gather_unnamed (challenge : Bytes) (attestors : List (Attestor W)) (w : W) :
    (gather challenge none attestors w).calls = (enumerateAll attestors w).calls ++
      (proveSilent challenge (enumerateAll attestors w).value
        (enumerateAll attestors w).world).calls := rfl

/-- The trace of an unnamed request: it shows what the attestors can see, and proves exactly the
silent candidates. -/
theorem trace_gather_unnamed (challenge : Bytes) (attestors : List (Attestor W)) (w : W) :
    enumerated (gather challenge none attestors w).calls = (enumerateAll attestors w).value ∧
      proved (gather challenge none attestors w).calls =
        (enumerateAll attestors w).value.filter fun pair ↦ decide (pair.2.proofCost = .silent) := by
  obtain ⟨hshown, hnone⟩ := trace_enumerateAll attestors w
  obtain ⟨hquiet, hproved⟩ := trace_proveSilent challenge (enumerateAll attestors w).value
    (enumerateAll attestors w).world
  rw [calls_gather_unnamed, enumerated_append, proved_append, hshown, hquiet, hnone, hproved]
  exact ⟨List.append_nil _, rfl⟩

/-- Everything the named lookup can do: find no candidate with the path and call nothing, or prove
the first one it finds and judge the answer. -/
theorem proveNamed_cases (challenge : Bytes) (want : SpiffeId)
    (found : List (Attestor W × Candidate)) (w : W) :
    ((∀ pair ∈ found, pair.2.path ≠ want.path) ∧
        proveNamed challenge want found w = ⟨.error deny, [], w⟩) ∨
      ∃ attestor candidate answer w', (attestor, candidate) ∈ found ∧
        candidate.path = want.path ∧ attestor.prove candidate challenge w = (answer, w') ∧
        proveNamed challenge want found w =
          ⟨namedClaim want candidate challenge answer,
            [.prove attestor candidate challenge answer], w'⟩ := by
  unfold proveNamed
  cases hfind : found.find? (·.2.path = want.path) with
  | none =>
    refine Or.inl ⟨fun pair hpair hpath ↦ ?_, rfl⟩
    exact List.find?_eq_none.mp hfind pair hpair (decide_eq_true hpath)
  | some pair =>
    obtain ⟨attestor, candidate⟩ := pair
    have hpath : candidate.path = want.path := by simpa using List.find?_some hfind
    exact Or.inr ⟨attestor, candidate, _, _, List.mem_of_find?_eq_some hfind, hpath, rfl, rfl⟩

/-- A proof is worth a claim exactly when evidence came back, a claim was derived from it, and the
claim is for the identity that was named. -/
theorem namedClaim_eq_ok_iff {want : SpiffeId} {candidate : Candidate} {challenge : Bytes}
    {answer : Except AttestorError (List Evidence)} {claims : List Claim} :
    namedClaim want candidate challenge answer = .ok claims ↔
      ∃ evidence claim, answer = .ok evidence ∧
        Claim.derive candidate challenge evidence = some claim ∧ claim.spiffeId = want ∧
        claims = [claim] := by
  cases answer with
  | error e => simp [namedClaim]
  | ok evidence =>
    unfold namedClaim
    cases hderive : Claim.derive candidate challenge evidence with
    | none => simp [hderive]
    | some claim =>
      by_cases hid : claim.spiffeId = want
      · simp [hid, hderive, eq_comm]
      · simp [hid, hderive]

/-- A proof that is worth nothing is refused with the one refusal. -/
theorem namedClaim_eq_error {want : SpiffeId} {candidate : Candidate} {challenge : Bytes}
    {answer : Except AttestorError (List Evidence)} {status : Status}
    (h : namedClaim want candidate challenge answer = .error status) : status = deny := by
  cases answer with
  | error e => exact (Except.error.inj h).symm
  | ok evidence =>
    unfold namedClaim at h
    dsimp only at h
    split at h
    · exact (Except.error.inj h).symm
    · split_ifs at h
      exact (Except.error.inj h).symm

end Trace

namespace WorkloadApiService

variable {L : TokenLib} {W : Type}

/-! ### Which requests reach an attestor -/

/-- A request that lacks an attested peer, an audience, or a string that parses is refused. -/
theorem acceptRequest_refuses {peer : Option ConsumerIdentity} {req : JwtsvidRequest}
    (h : peer = none ∨ req.audience = [] ∨
      (∃ raw ∈ req.audience, ∃ e, AudienceExtensions.parse raw = .error e) ∨
      (req.spiffeId ≠ [] ∧ ∃ e, SpiffeId.fromStr req.spiffeId = .error e)) :
    ∃ status, acceptRequest peer req = .error status := by
  cases hadmitted : acceptRequest peer req with
  | error status => exact ⟨status, rfl⟩
  | ok admitted =>
    obtain ⟨hpeer, haudience, hexts, hname⟩ := acceptRequest_eq_ok_iff.mp hadmitted
    rcases h with hnone | hempty | ⟨raw, hraw, e, herror⟩ | ⟨hne, e, herror⟩
    · rw [hnone] at hpeer
      cases hpeer
    · exact absurd hempty haudience
    · obtain ⟨ext, -, hparse⟩ := exists_parsed hexts hraw
      cases herror.symm.trans hparse
    · rcases hname with ⟨hempty, -⟩ | ⟨-, want, hparse, -⟩
      · exact absurd hempty hne
      · cases herror.symm.trans hparse

/-- A request with an attested peer and audiences that all parse is admitted, with what it
names. -/
theorem acceptRequest_accepts {peer : Option ConsumerIdentity} {req : JwtsvidRequest}
    (hpeer : peer.isSome = true) (haudience : req.audience ≠ [])
    (hparse : ∀ raw ∈ req.audience, ∃ ext, AudienceExtensions.parse raw = .ok ext) :
    (req.spiffeId = [] →
        ∃ admitted, acceptRequest peer req = .ok admitted ∧ admitted.requested = none) ∧
      ∀ want, SpiffeId.fromStr req.spiffeId = .ok want →
        ∃ admitted, acceptRequest peer req = .ok admitted ∧ admitted.requested = some want := by
  obtain ⟨consumer, rfl⟩ := Option.isSome_iff_exists.mp hpeer
  obtain ⟨exts, hexts⟩ := exists_parsed_all hparse
  constructor
  · intro hname
    exact ⟨⟨consumer, exts, none⟩, acceptRequest_eq_ok_iff.mpr ⟨rfl, haudience, hexts,
      Or.inl ⟨hname, rfl⟩⟩, rfl⟩
  · intro want hwant
    have hname : req.spiffeId ≠ [] := SpiffeId.ne_nil_of_fromStr hwant
    exact ⟨⟨consumer, exts, some want⟩, acceptRequest_eq_ok_iff.mpr ⟨rfl, haudience, hexts,
      Or.inr ⟨hname, want, hwant, rfl⟩⟩, rfl⟩

/-- Out of one claim, what is served is an SVID for that claim, or nothing. -/
theorem served_singleton {service : WorkloadApiService L W} {C : Crypto} {admitted : Admitted}
    {readings : Readings} {claim : Claim} {out : Issued L}
    (hout : service.serve C admitted readings [claim] = .ok out) (hne : out.served ≠ []) :
    ∃ svid, out.served = [(claim, svid)] := by
  obtain ⟨⟨claim', svid⟩, rest, hcons⟩ := List.exists_cons_of_ne_nil hne
  have hsublist := map_fst_served_sublist hout
  rw [hcons, List.map_cons] at hsublist
  obtain ⟨rfl, hrest⟩ : claim' = claim ∧ rest = [] := by
    simpa using hsublist.eq_of_length_le (by simp)
  exact ⟨svid, hcons.trans (by rw [hrest])⟩

/-- A proof call after calls that prove nothing is the only one. -/
theorem prove_mem_append_singleton {calls : List (Call W)} {attestor a : Attestor W}
    {candidate c : Candidate} {challenge ch : Bytes}
    {answer ans : Except AttestorError (List Evidence)}
    (hnone : proved calls = [])
    (hcall : .prove a c ch ans ∈ calls ++ [.prove attestor candidate challenge answer]) :
    c = candidate ∧ ch = challenge ∧ ans = answer := by
  rcases List.mem_append.mp hcall with hearlier | hlast
  · have htarget : (a, c) ∈ proved calls := List.mem_filterMap.mpr ⟨_, hearlier, rfl⟩
    rw [hnone] at htarget
    cases htarget
  · cases List.mem_singleton.mp hlast
    exact ⟨rfl, rfl, rfl⟩

/-- What a named run that reaches proving does. It proves at most one candidate, with the right
path; if it replies with SVIDs there is one, for a claim of the named identity that was derived
from that proof; and if the lookup fails, it replies with the one refusal. -/
theorem named_run (C : Crypto) (service : WorkloadApiService L W) {peer : Option ConsumerIdentity}
    {req : JwtsvidRequest} {readings : Readings} (w : W) {admitted : Admitted} {want : SpiffeId}
    {challenge : ByteArr 32} (hadmitted : acceptRequest peer req = .ok admitted)
    (hname : admitted.requested = some want) (hchallenge : readings.challenge = some challenge) :
    let run := service.fetchJwtsvid C peer req readings w
    let seen := (enumerateAll service.attestors w).value
    enumerated run.calls = seen ∧
      ((∀ pair ∈ seen, pair.2.path ≠ want.path) ∧ proved run.calls = [] ∧
          run.reply = .error (.error deny) ∨
        ∃ attestor candidate answer, (attestor, candidate) ∈ seen ∧
          candidate.path = want.path ∧ proved run.calls = [(attestor, candidate)] ∧
          (∀ a c ch ans, .prove a c ch ans ∈ run.calls →
            c = candidate ∧ ch = challenge.1 ∧ ans = answer) ∧
          Call.prove attestor candidate challenge.1 answer ∈ run.calls ∧
          ((∀ claims, namedClaim want candidate challenge.1 answer ≠ .ok claims) →
            run.reply = .error (.error deny)) ∧
          ∀ svids, run.reply = .ok svids → ∃ claim svid,
            namedClaim want candidate challenge.1 answer = .ok [claim] ∧
            run.served = [(claim, svid)] ∧ svids = [svid]) := by
  intro run seen
  obtain ⟨hshown, hnone⟩ := trace_enumerateAll service.attestors w
  have hcalls : run.calls = (gather challenge.1 (some want) service.attestors w).calls :=
    hname ▸ calls_of_gather hadmitted hchallenge
  have hgather : gather challenge.1 (some want) service.attestors w =
      ⟨(proveNamed challenge.1 want seen (enumerateAll service.attestors w).world).value,
        (enumerateAll service.attestors w).calls ++
          (proveNamed challenge.1 want seen (enumerateAll service.attestors w).world).calls,
        (proveNamed challenge.1 want seen (enumerateAll service.attestors w).world).world⟩ := rfl
  have hrefused : (gather challenge.1 (some want) service.attestors w).value = .error deny →
      run.reply = .error (.error deny) := by
    intro h
    exact reply_of_gather_error hadmitted hchallenge (hname ▸ h)
  rcases proveNamed_cases challenge.1 want seen (enumerateAll service.attestors w).world with
    ⟨hmissing, hproof⟩ | ⟨attestor, candidate, answer, w', hmem, hpath, -, hproof⟩
  · rw [hproof] at hgather
    refine ⟨?_, Or.inl ⟨hmissing, ?_, hrefused (by rw [hgather])⟩⟩
    · rw [hcalls, hgather]
      simpa using hshown
    · rw [hcalls, hgather]
      simpa using hnone
  · rw [hproof] at hgather
    have htrace : run.calls = (enumerateAll service.attestors w).calls ++
        [.prove attestor candidate challenge.1 answer] := by rw [hcalls, hgather]
    refine ⟨?_, Or.inr ⟨attestor, candidate, answer, hmem, hpath, ?_, ?_, ?_, ?_, ?_⟩⟩
    · rw [htrace, enumerated_append, hshown]
      exact List.append_nil _
    · rw [htrace, proved_append, hnone]
      rfl
    · intro a c ch ans hcall
      rw [htrace] at hcall
      exact prove_mem_append_singleton hnone hcall
    · rw [htrace]
      exact List.mem_append_right _ List.mem_cons_self
    · intro hworthless
      refine hrefused ?_
      rw [hgather]
      cases hvalue : namedClaim want candidate challenge.1 answer with
      | error status => rw [namedClaim_eq_error hvalue]
      | ok claims => exact absurd hvalue (hworthless claims)
    · intro svids hreply
      obtain ⟨hsvids, hserved⟩ := served_of_reply hreply
      obtain ⟨admitted', challenge', claims, out, hadmitted', hchallenge', hclaims, hout, heq⟩ :=
        served_ne_nil hserved
      cases hadmitted.symm.trans hadmitted'
      cases hchallenge.symm.trans hchallenge'
      rw [hname, hgather] at hclaims
      obtain ⟨evidence, claim, -, -, -, rfl⟩ := namedClaim_eq_ok_iff.mp hclaims
      obtain ⟨svid, hsingle⟩ := served_singleton hout (heq ▸ hserved)
      refine ⟨claim, svid, hclaims, heq.trans hsingle, ?_⟩
      rw [hsvids, heq, hsingle]
      rfl

/-- The consent boundary. A request without an attested peer, without an audience, or with a string
that does not parse calls no attestor. Otherwise an unnamed request proves every silent candidate
that was enumerated, once each, and no other. A named request proves at most one candidate, with
the path it names; if it succeeds it returns one SVID, for a claim of the named identity that was
derived from that proof; and every way the lookup can fail before the policy gates is answered with
one status. -/
theorem consent_boundary (C : Crypto) (service : WorkloadApiService L W)
    (peer : Option ConsumerIdentity) (req : JwtsvidRequest) (readings : Readings) (w : W) :
    let run := service.fetchJwtsvid C peer req readings w
    let seen := (enumerateAll service.attestors w).value
    (peer = none ∨ req.audience = [] ∨
        (∃ raw ∈ req.audience, ∃ e, AudienceExtensions.parse raw = .error e) ∨
        (req.spiffeId ≠ [] ∧ ∃ e, SpiffeId.fromStr req.spiffeId = .error e) →
      run.calls = []) ∧
    (peer.isSome = true → req.audience ≠ [] →
      (∀ raw ∈ req.audience, ∃ ext, AudienceExtensions.parse raw = .ok ext) →
      readings.challenge.isSome = true →
      (req.spiffeId = [] → enumerated run.calls = seen ∧
        proved run.calls = seen.filter fun pair ↦ decide (pair.2.proofCost = .silent)) ∧
      (∀ want, SpiffeId.fromStr req.spiffeId = .ok want →
        enumerated run.calls = seen ∧ (proved run.calls).length ≤ 1 ∧
        (∀ pair ∈ proved run.calls, pair ∈ seen ∧ pair.2.path = want.path) ∧
        (∀ svids, run.reply = .ok svids → ∃ claim svid, run.served = [(claim, svid)] ∧
          svids = [svid] ∧ claim.spiffeId = want ∧
          ∃ attestor candidate challenge evidence,
            Call.prove attestor candidate challenge (.ok evidence) ∈ run.calls ∧
              Claim.derive candidate challenge evidence = some claim) ∧
        ((∀ pair ∈ seen, pair.2.path ≠ want.path) ∨
          (∃ attestor candidate challenge e,
            Call.prove attestor candidate challenge (.error e) ∈ run.calls) ∨
          (∃ attestor candidate challenge evidence,
            Call.prove attestor candidate challenge (.ok evidence) ∈ run.calls ∧
              Claim.derive candidate challenge evidence = none) ∨
          (∃ attestor candidate challenge evidence claim,
            Call.prove attestor candidate challenge (.ok evidence) ∈ run.calls ∧
              Claim.derive candidate challenge evidence = some claim ∧ claim.spiffeId ≠ want) →
          run.reply =
            .error (.error ⟨.notFound, str "no such identity could be proven"⟩)))) := by
  intro run seen
  refine ⟨fun hrefused ↦ ?_, fun hpeer haudience hparse hchallenge ↦ ⟨fun hname ↦ ?_,
    fun want hwant ↦ ?_⟩⟩
  · obtain ⟨status, hadmitted⟩ := acceptRequest_refuses hrefused
    exact congrArg Outcome.calls (fetchJwtsvid_of_refused hadmitted)
  · obtain ⟨challenge, hchallenge⟩ := Option.isSome_iff_exists.mp hchallenge
    obtain ⟨admitted, hadmitted, hrequested⟩ :=
      (acceptRequest_accepts hpeer haudience hparse).1 hname
    rw [show run.calls = _ from calls_of_gather hadmitted hchallenge, hrequested]
    exact trace_gather_unnamed challenge.1 service.attestors w
  · obtain ⟨challenge, hchallenge⟩ := Option.isSome_iff_exists.mp hchallenge
    obtain ⟨admitted, hadmitted, hrequested⟩ :=
      (acceptRequest_accepts hpeer haudience hparse).2 want hwant
    obtain ⟨hshown, hmissing | hfound⟩ :=
      named_run C service w hadmitted hrequested hchallenge
    · obtain ⟨-, hproved, hreply⟩ := hmissing
      refine ⟨hshown, by rw [hproved]; exact Nat.zero_le 1, by rw [hproved]; simp, ?_,
        fun _ ↦ hreply⟩
      intro svids hok
      cases hreply.symm.trans hok
    · obtain ⟨attestor, candidate, answer, hmem, hpath, hproved, honly, hcall, hdeny, hok⟩ := hfound
      refine ⟨hshown, by rw [hproved]; exact le_rfl, ?_, ?_, ?_⟩
      · intro pair hpair
        rw [hproved] at hpair
        rw [List.mem_singleton.mp hpair]
        exact ⟨hmem, hpath⟩
      · intro svids hreply
        obtain ⟨claim, svid, hclaim, hserved, hsvids⟩ := hok svids hreply
        obtain ⟨evidence, claim', rfl, hderive, hid, hclaims⟩ := namedClaim_eq_ok_iff.mp hclaim
        obtain rfl : claim = claim' := by simpa using hclaims
        exact ⟨claim, svid, hserved, hsvids, hid, attestor, candidate, challenge.1, evidence,
          hcall, hderive⟩
      · intro hfailure
        refine hdeny fun claims hclaims ↦ ?_
        obtain ⟨evidence, claim, rfl, hderive, hid, -⟩ := namedClaim_eq_ok_iff.mp hclaims
        rcases hfailure with hmissing | ⟨a, c, ch, e, hcall'⟩ | ⟨a, c, ch, ev, hcall', hnone⟩ |
          ⟨a, c, ch, ev, claim', hcall', hderive', hne⟩
        · exact hmissing _ hmem hpath
        · obtain ⟨-, -, hanswer⟩ := honly _ _ _ _ hcall'
          cases hanswer
        · obtain ⟨rfl, rfl, hanswer⟩ := honly _ _ _ _ hcall'
          cases hanswer
          cases hderive.symm.trans hnone
        · obtain ⟨rfl, rfl, hanswer⟩ := honly _ _ _ _ hcall'
          cases hanswer
          cases hderive.symm.trans hderive'
          exact hne hid

end WorkloadApiService

end Hire.Grpc
