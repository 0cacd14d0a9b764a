import Hire.Attestors.Footprint
import Hire.Grpc.Service

/-!
# What a request makes the machine sign

A run of `fetch_jwtsvid` of `hire-grpc/src/service.rs` on a recorded machine, with the sources that
`probe_sources` registers. `fetchJwtsvid_recorded` says that the record changes nothing, and what is
in it: the listing of every source, then the proofs of the silent candidates or the one proof of the
candidate that is named.

So a consumer that names no identity never has anything signed with a key of the user
(`unnamed_never_signs`), and one that names an identity has one signature made at most, over the
challenge the daemon drew for this request and with a key the identity names
(`named_signs_at_most_once`). Neither chooses a byte of what is signed.
-/

set_option autoImplicit false
set_option relaxedAutoImplicit false

namespace Hire.Grpc

open Hire.Library Hire.Core Hire.Attestors

section Gather

variable {C : Crypto} {W : Type}

/-- A candidate that was seen on a recorded machine, and the same one on the machine: how its proof
is recorded. -/
structure SeenAs (C : Crypto) (recorded : Attestor (Recorded W Op) × Candidate)
    (seen : Attestor W × Candidate) : Prop where
  candidate : recorded.2 = seen.2
  prove : ∀ challenge, Action.Records (recorded.1.prove seen.2 challenge)
    (seen.1.prove seen.2 challenge) (around Op.Quiet (signing C seen.2.path challenge))
  silent : seen.2.proofCost = .silent → ∀ challenge, Action.Records
    (recorded.1.prove seen.2 challenge) (seen.1.prove seen.2 challenge) (words Op.Quiet)

/-- The candidates a source with a footprint adds are seen as they are on the machine. -/
theorem seenAs_candidatesOf {recorded : Attestor (Recorded W Op)} {attestor : Attestor W}
    (h : recorded.Footprint C attestor) (w : W) :
    List.Forall₂ (SeenAs C) (candidatesOf recorded (attestor.enumerate w).1)
      (candidatesOf attestor (attestor.enumerate w).1) := by
  cases hanswer : (attestor.enumerate w).1 with
  | error e => exact .nil
  | ok candidates =>
    have hsilent := h.silent w candidates hanswer
    unfold candidatesOf
    rw [List.forall₂_map_left_iff, List.forall₂_map_right_iff, List.forall₂_same]
    exact fun candidate hcandidate ↦
      ⟨rfl, h.prove candidate, fun hcost ↦ hsilent candidate hcandidate hcost⟩

/-- Enumerating asks quiet questions, and sees the same candidates. -/
theorem enumerateAll_recorded {recorded : List (Attestor (Recorded W Op))}
    {attestors : List (Attestor W)} (h : List.Forall₂ (Attestor.Footprint C) recorded attestors)
    (w : W) (log : List Op) :
    ∃ word ∈ words Op.Quiet, (enumerateAll recorded ⟨w, log⟩).world =
        ⟨(enumerateAll attestors w).world, log ++ word⟩ ∧
      List.Forall₂ (SeenAs C) (enumerateAll recorded ⟨w, log⟩).value
        (enumerateAll attestors w).value := by
  induction h generalizing w log with
  | nil => exact ⟨[], nil_mem_words, by rw [List.append_nil]; rfl, .nil⟩
  | @cons recorded attestor recordeds attestors hfirst hrest ih =>
    obtain ⟨word, hword, heq⟩ := hfirst.enumerate w log
    obtain ⟨later, hlater, hworld, hvalue⟩ := ih (attestor.enumerate w).2 (log ++ word)
    refine ⟨word ++ later, append_mem_words hword hlater, ?_, ?_⟩
    · simp only [enumerateAll, heq, hworld, List.append_assoc]
    · simp only [enumerateAll, heq]
      exact List.rel_append (seenAs_candidatesOf hfirst w) hvalue

/-- Proving the silent candidates asks quiet questions, and proves the same claims. -/
theorem proveSilent_recorded {recorded : List (Attestor (Recorded W Op) × Candidate)}
    {seen : List (Attestor W × Candidate)} (h : List.Forall₂ (SeenAs C) recorded seen)
    (challenge : Bytes) (w : W) (log : List Op) :
    ∃ word ∈ words Op.Quiet, (proveSilent challenge recorded ⟨w, log⟩).world =
        ⟨(proveSilent challenge seen w).world, log ++ word⟩ ∧
      (proveSilent challenge recorded ⟨w, log⟩).value = (proveSilent challenge seen w).value := by
  induction h generalizing w log with
  | nil => exact ⟨[], nil_mem_words, by rw [List.append_nil]; rfl, rfl⟩
  | @cons recorded seen recordeds seens hfirst hrest ih =>
    obtain ⟨attestor', candidate'⟩ := recorded
    obtain ⟨attestor, candidate⟩ := seen
    obtain rfl : candidate' = candidate := hfirst.candidate
    by_cases hcost : candidate'.proofCost = .silent
    · obtain ⟨word, hword, heq⟩ := hfirst.silent hcost challenge w log
      dsimp only at heq
      obtain ⟨later, hlater, hworld, hvalue⟩ := ih (attestor.prove candidate' challenge w).2
        (log ++ word)
      have hgo : ¬ candidate'.proofCost ≠ .silent := not_not.mpr hcost
      refine ⟨word ++ later, append_mem_words hword hlater, ?_, ?_⟩
      · simp only [proveSilent, if_neg hgo, heq, hworld, List.append_assoc]
      · simp only [proveSilent, if_neg hgo, heq, hvalue]
    · obtain ⟨word, hword, hworld, hvalue⟩ := ih w log
      refine ⟨word, hword, ?_, ?_⟩
      · simp only [proveSilent, if_pos hcost, hworld]
      · simp only [proveSilent, if_pos hcost, hvalue]

/-- The first candidate with a path is the same on both machines. -/
theorem seenAs_find? {recorded : List (Attestor (Recorded W Op) × Candidate)}
    {seen : List (Attestor W × Candidate)} (h : List.Forall₂ (SeenAs C) recorded seen)
    (path : Str) :
    (recorded.find? (·.2.path = path) = none ∧ seen.find? (·.2.path = path) = none) ∨
      ∃ first' first, recorded.find? (·.2.path = path) = some first' ∧
        seen.find? (·.2.path = path) = some first ∧ SeenAs C first' first := by
  induction h with
  | nil => exact .inl ⟨rfl, rfl⟩
  | @cons first' first recordeds seens hfirst hrest ih =>
    rw [List.find?_cons, List.find?_cons, hfirst.candidate]
    cases hpath : decide (first.2.path = path) with
    | true => exact .inr ⟨first', first, rfl, rfl, hfirst⟩
    | false => exact ih

/-- Proving a named identity asks for one signature at most, and proves the same claim. -/
theorem proveNamed_recorded {recorded : List (Attestor (Recorded W Op) × Candidate)}
    {seen : List (Attestor W × Candidate)} (h : List.Forall₂ (SeenAs C) recorded seen)
    (challenge : Bytes) (want : SpiffeId) (w : W) (log : List Op) :
    ∃ word ∈ around Op.Quiet (signing C want.path challenge),
      (proveNamed challenge want recorded ⟨w, log⟩).world =
        ⟨(proveNamed challenge want seen w).world, log ++ word⟩ ∧
      (proveNamed challenge want recorded ⟨w, log⟩).value =
        (proveNamed challenge want seen w).value := by
  have hnone := (absorbs_around (p := Op.Quiet)
    (nil_mem_signing C want.path challenge)).words_le nil_mem_words
  unfold proveNamed
  rcases seenAs_find? h want.path with
    ⟨hmissing', hmissing⟩ | ⟨first', first, hfound', hfound, hseen⟩
  · rw [hmissing', hmissing]
    exact ⟨[], hnone, by rw [List.append_nil], rfl⟩
  · rw [hfound', hfound]
    obtain ⟨attestor', candidate'⟩ := first'
    obtain ⟨attestor, candidate⟩ := first
    obtain rfl : candidate' = candidate := hseen.candidate
    have hpath : candidate'.path = want.path := by simpa using List.find?_some hfound
    obtain ⟨word, hword, heq⟩ := hseen.prove challenge w log
    dsimp only at heq ⊢
    rw [heq]
    exact ⟨word, hpath ▸ hword, rfl, rfl⟩

/-- Gathering the claims of a request asks quiet questions where it names no identity, and for one
signature at most where it names one, and it gathers the same claims. -/
theorem gather_recorded {recorded : List (Attestor (Recorded W Op))} {attestors : List (Attestor W)}
    (h : List.Forall₂ (Attestor.Footprint C) recorded attestors) (challenge : Bytes)
    (requested : Option SpiffeId) (w : W) (log : List Op) :
    ∃ word, (gather challenge requested recorded ⟨w, log⟩).world =
        ⟨(gather challenge requested attestors w).world, log ++ word⟩ ∧
      (gather challenge requested recorded ⟨w, log⟩).value =
        (gather challenge requested attestors w).value ∧
      ((requested = none ∧ word ∈ words Op.Quiet) ∨ ∃ want, requested = some want ∧
        word ∈ around Op.Quiet (signing C want.path challenge)) := by
  obtain ⟨word, hword, hworld, hseen⟩ := enumerateAll_recorded h w log
  unfold gather gatherClaims
  dsimp only
  rw [hworld]
  cases requested with
  | none =>
    obtain ⟨later, hlater, hworld', hvalue⟩ := proveSilent_recorded hseen challenge
      (enumerateAll attestors w).world (log ++ word)
    rw [List.append_assoc] at hworld'
    refine ⟨word ++ later, hworld', ?_, .inl ⟨rfl, append_mem_words hword hlater⟩⟩
    dsimp only
    rw [hvalue]
  | some want =>
    obtain ⟨later, hlater, hworld', hvalue⟩ := proveNamed_recorded hseen challenge want
      (enumerateAll attestors w).world (log ++ word)
    rw [List.append_assoc] at hworld'
    refine ⟨word ++ later, hworld', hvalue, .inr ⟨want, rfl, ?_⟩⟩
    have habsorbs := absorbs_around (p := Op.Quiet) (nil_mem_signing C want.path challenge)
    exact habsorbs.mul_le (Language.append_mem_mul hword hlater)

end Gather

namespace WorkloadApiService

variable {L : TokenLib} {W : Type}

/-- A run on a recorded machine replies as on the machine and leaves the same world behind, and its
record is quiet, or it has the one request for a signature that proving the named identity makes. -/
theorem fetchJwtsvid_recorded {C : Crypto} (recorded : WorkloadApiService L (Recorded W Op))
    (service : WorkloadApiService L W) (hsigner : recorded.signer = service.signer)
    (hattestors : List.Forall₂ (Attestor.Footprint C) recorded.attestors service.attestors)
    (peer : Option ConsumerIdentity) (req : JwtsvidRequest) (readings : Readings) (w : W)
    (log : List Op) :
    ∃ word, (recorded.fetchJwtsvid C peer req readings ⟨w, log⟩).reply =
        (service.fetchJwtsvid C peer req readings w).reply ∧
      (recorded.fetchJwtsvid C peer req readings ⟨w, log⟩).world =
        ⟨(service.fetchJwtsvid C peer req readings w).world, log ++ word⟩ ∧
      (word ∈ words Op.Quiet ∨ ∃ want challenge, SpiffeId.fromStr req.spiffeId = .ok want ∧
        req.spiffeId ≠ [] ∧ readings.challenge = some challenge ∧
        word ∈ around Op.Quiet (signing C want.path challenge.1)) := by
  have hserve : ∀ admitted claims, recorded.serve C admitted readings claims =
      service.serve C admitted readings claims := by
    intro admitted claims
    unfold serve tryIssue
    rw [hsigner]
  cases haccept : acceptRequest peer req with
  | error status =>
    rw [fetchJwtsvid_of_refused haccept, fetchJwtsvid_of_refused haccept]
    exact ⟨[], rfl, by rw [List.append_nil], .inl nil_mem_words⟩
  | ok admitted =>
    obtain ⟨-, -, -, hrequested⟩ := acceptRequest_eq_ok_iff.mp haccept
    cases hchallenge : readings.challenge with
    | none =>
      refine ⟨[], ?_, ?_, .inl nil_mem_words⟩
      · simp only [fetchJwtsvid, haccept, hchallenge]
      · simp only [fetchJwtsvid, haccept, hchallenge, List.append_nil]
    | some challenge =>
      obtain ⟨word, hworld, hvalue, hword⟩ :=
        gather_recorded hattestors challenge.1 admitted.requested w log
      refine ⟨word, ?_, ?_, ?_⟩
      · simp only [fetchJwtsvid, haccept, hchallenge, hvalue, hserve]
        split
        · rfl
        · split <;> rfl
      · simp only [fetchJwtsvid, haccept, hchallenge, hvalue, hserve]
        split
        · exact hworld
        · split <;> exact hworld
      · rcases hword with ⟨-, hquiet⟩ | ⟨want, hwant, hsigning⟩
        · exact .inl hquiet
        · rcases hrequested with ⟨-, hnone⟩ | ⟨hnamed, want', hparse, hsome⟩
          · cases hwant.symm.trans hnone
          · obtain rfl := Option.some.inj (hwant.symm.trans hsome)
            exact .inr ⟨want, challenge, hparse, hnamed, rfl, hsigning⟩

/-- A request that names no identity adds nothing but quiet questions to a record. -/
theorem nothingSigned_fetchJwtsvid {C : Crypto} (recorded : WorkloadApiService L (Recorded W Op))
    (service : WorkloadApiService L W) (hsigner : recorded.signer = service.signer)
    (hattestors : List.Forall₂ (Attestor.Footprint C) recorded.attestors service.attestors)
    (peer : Option ConsumerIdentity) (audience : List Str) (readings : Readings)
    {start : Recorded W Op} (h : NothingSigned start) :
    NothingSigned (recorded.fetchJwtsvid C peer ⟨audience, []⟩ readings start).world := by
  obtain ⟨word, -, hworld, hword⟩ := fetchJwtsvid_recorded recorded service hsigner hattestors peer
    ⟨audience, []⟩ readings start.world start.log
  rcases hword with hquiet | ⟨-, -, -, hnamed, -⟩
  · unfold NothingSigned
    rw [hworld]
    exact append_mem_words h hquiet
  · exact absurd rfl hnamed

/-- A request that names no identity asks the machine for no signature, whatever the machine holds
and answers: the record of its run is quiet, and the run is the one on the machine itself. -/
theorem unnamed_never_signs (C : Crypto) (M : Machine W) (features : Features) (probes : Probes)
    (signer : SvidSigner L) (bundles : TrustBundleStore) (peer : Option ConsumerIdentity)
    (audience : List Str) (readings : Readings) (w : W) :
    let recorded : WorkloadApiService L (Recorded W Op) :=
      ⟨signer, bundles, registryOf C M.recorded features probes⟩
    let service : WorkloadApiService L W := ⟨signer, bundles, registryOf C M features probes⟩
    let run := recorded.fetchJwtsvid C peer ⟨audience, []⟩ readings ⟨w, []⟩
    run.reply = (service.fetchJwtsvid C peer ⟨audience, []⟩ readings w).reply ∧
      run.world.world = (service.fetchJwtsvid C peer ⟨audience, []⟩ readings w).world ∧
      ∀ op ∈ run.world.log, op.Quiet := by
  intro recorded service run
  obtain ⟨word, hreply, hworld, hword⟩ := fetchJwtsvid_recorded recorded service rfl
    (registryOf_footprint C M features probes) peer ⟨audience, []⟩ readings w []
  refine ⟨hreply, congrArg Recorded.world hworld, ?_⟩
  rcases hword with hquiet | ⟨-, -, -, hnamed, -⟩
  · change ∀ op ∈ (recorded.fetchJwtsvid C peer ⟨audience, []⟩ readings ⟨w, []⟩).world.log, op.Quiet
    rw [hworld]
    exact hquiet
  · exact absurd rfl hnamed

/-- A request asks the machine for one signature at most, whatever the machine holds and answers.
Where the record of its run is not quiet, the request names an identity, and between quiet questions
there is one request for a signature, over the challenge of this run and with a key the path of that
identity names; an error may have cut it off. -/
theorem named_signs_at_most_once (C : Crypto) (M : Machine W) (features : Features)
    (probes : Probes) (signer : SvidSigner L) (bundles : TrustBundleStore)
    (peer : Option ConsumerIdentity) (req : JwtsvidRequest) (readings : Readings) (w : W) :
    let recorded : WorkloadApiService L (Recorded W Op) :=
      ⟨signer, bundles, registryOf C M.recorded features probes⟩
    let log := (recorded.fetchJwtsvid C peer req readings ⟨w, []⟩).world.log
    (∀ op ∈ log, op.Quiet) ∨ ∃ want challenge before request whole after,
      SpiffeId.fromStr req.spiffeId = .ok want ∧ readings.challenge = some challenge ∧
      log = before ++ request ++ after ∧ (∀ op ∈ before ++ after, op.Quiet) ∧
      SignRequest C want.path challenge.1 whole ∧ request <+: whole := by
  intro recorded log
  obtain ⟨word, -, hworld, hword⟩ := fetchJwtsvid_recorded recorded
    ⟨signer, bundles, registryOf C M features probes⟩ rfl
    (registryOf_footprint C M features probes) peer req readings w []
  have hlog : log = word := congrArg Recorded.log hworld
  rw [hlog]
  rcases hword with hquiet | ⟨want, challenge, hparse, -, hchallenge, haround⟩
  · exact .inl hquiet
  · obtain ⟨before, hbefore, request, hrequest, after, hafter, rfl⟩ := mem_around.mp haround
    have hboth : ∀ op ∈ before ++ after, op.Quiet := append_mem_words hbefore hafter
    rcases hrequest with rfl | ⟨whole, hwhole, hprefix⟩
    · rw [List.append_nil]
      exact .inl hboth
    · exact .inr ⟨want, challenge, before, request, whole, after, hparse, hchallenge, rfl, hboth,
        hwhole, hprefix⟩

end WorkloadApiService

end Hire.Grpc
