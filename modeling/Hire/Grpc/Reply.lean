import Hire.Attestors.Lattice
import Hire.Grpc.Consent
import Hire.Grpc.Entitlement

/-!
# The shape of the unnamed reply

An unnamed request asks the attestors in registration order, proves the silent candidates in the
order they were shown, sorts the claims by decreasing assurance without moving equals, and keeps the
first claim of each SPIFFE URI. `proofs` reads off a trace which candidate each proof was for and
which claim it yielded, so that a claim has a place: the place of its candidate. `IsRanking` is what
callers rely on for `svids[0]`, stated by places, and `isRanking_rankClaims` says that the
composition of concatenation, stable sort and first-wins thinning has it.

`unnamed_reply_shape` states it for a whole run, together with what does not change it: the tier a
candidate was declared to attain (`Redeclares`), and a source that fails to enumerate
(`enumerateAll_append`).
-/

set_option autoImplicit false
set_option relaxedAutoImplicit false

namespace Hire.Grpc

open Hire.Library Hire.Core Hire.Attestors

/-! ### Claims and their places -/

/-- A list of claims ranks what a list of proofs yielded. No SPIFFE URI is there twice, and the
assurance does not increase. The claims have places among the proofs: each was yielded at its place,
of two claims of equal assurance the one at the earlier place comes first, and whatever was yielded
has a claim of its URI with a higher assurance, or with the same assurance at the same or an earlier
place. -/
structure IsRanking (yielded : List (Option Claim)) (claims : List Claim) : Prop where
  nodup : (claims.map (·.spiffeId.uri)).Nodup
  assurance_le : claims.Pairwise fun first later ↦ later.assurance ≤ first.assurance
  places : ∃ placed : List (Claim × ℕ), claims = placed.map Prod.fst ∧
    (∀ p ∈ placed, yielded[p.2]? = some (some p.1)) ∧
    placed.Pairwise (fun p q ↦ p.1.assurance = q.1.assurance → p.2 < q.2) ∧
    ∀ (i : ℕ) (claim : Claim), yielded[i]? = some (some claim) →
      ∃ p ∈ placed, p.1.spiffeId.uri = claim.spiffeId.uri ∧
        (claim.assurance < p.1.assurance ∨ claim.assurance = p.1.assurance ∧ p.2 ≤ i)

/-- The claims that proofs yielded, each with the place of its proof. -/
def placedClaims (yielded : List (Option Claim)) : List (Claim × ℕ) :=
  yielded.zipIdx.filterMap fun p ↦ p.1.map (·, p.2)

theorem mem_placedClaims_iff {yielded : List (Option Claim)} {p : Claim × ℕ} :
    p ∈ placedClaims yielded ↔ yielded[p.2]? = some (some p.1) := by
  obtain ⟨claim, i⟩ := p
  unfold placedClaims
  rw [List.mem_filterMap]
  constructor
  · rintro ⟨⟨answer, j⟩, hmem, hanswer⟩
    obtain ⟨claim', rfl, heq⟩ := Option.map_eq_some_iff.mp hanswer
    obtain ⟨rfl, rfl⟩ := Prod.mk.inj heq
    exact List.mk_mem_zipIdx_iff_getElem?.mp hmem
  · intro h
    exact ⟨(some claim, i), List.mk_mem_zipIdx_iff_getElem?.mpr h, rfl⟩

/-- The places of the claims increase. -/
theorem pairwise_placedClaims (yielded : List (Option Claim)) :
    (placedClaims yielded).Pairwise fun p q ↦ p.2 < q.2 := by
  have hplaces : yielded.zipIdx.Pairwise fun p q ↦ p.2 < q.2 := by
    rw [← List.pairwise_map, List.zipIdx_map_snd]
    exact List.pairwise_lt_range'
  unfold placedClaims
  rw [List.pairwise_filterMap]
  refine hplaces.imp fun {p q} hlt a ha b hb ↦ ?_
  obtain ⟨_, -, rfl⟩ := Option.map_eq_some_iff.mp ha
  obtain ⟨_, -, rfl⟩ := Option.map_eq_some_iff.mp hb
  exact hlt

theorem map_fst_placedClaims (yielded : List (Option Claim)) :
    (placedClaims yielded).map Prod.fst = yielded.filterMap id := by
  unfold placedClaims
  rw [List.map_filterMap]
  conv_rhs => rw [← List.zipIdx_map_fst 0 yielded, List.filterMap_map]
  refine List.filterMap_congr fun p _ ↦ ?_
  rw [Option.map_map]
  exact Option.map_id_apply

/-- Sorting by assurance and keeping the first claim of each URI is a ranking. -/
theorem isRanking_rankClaims (yielded : List (Option Claim)) :
    IsRanking yielded (rankClaims (yielded.filterMap id)) := by
  have hplaces := pairwise_placedClaims yielded
  have hmap : rankClaims (yielded.filterMap id) =
      (bestPerKey (fun p ↦ p.1.spiffeId.uri) (fun p ↦ p.1.assurance)
        (placedClaims yielded)).map Prod.fst := by
    rw [← map_fst_placedClaims]
    exact (map_fst_bestPerKey (fun claim ↦ claim.spiffeId.uri) Claim.assurance _).symm
  have horder := pairwise_outranks_bestPerKey (fun claim ↦ claim.spiffeId.uri) Claim.assurance
    hplaces
  refine ⟨nodup_map_bestPerKey _ _ _, ?_, _, hmap, ?_, ?_, ?_⟩
  · rw [hmap, List.pairwise_map]
    exact horder.imp fun h ↦ h.rank_le
  · intro p hp
    exact mem_placedClaims_iff.mp (mem_of_mem_bestPerKey hp)
  · refine horder.imp fun {p q} h heq ↦ ?_
    rcases h with hlt | ⟨-, hplace⟩
    · exact absurd heq hlt.ne'
    · exact hplace
  · intro i claim hyielded
    have hmem : (claim, i) ∈ placedClaims yielded := mem_placedClaims_iff.mpr hyielded
    obtain ⟨q, hq, huri, hbefore⟩ :=
      exists_outranks_of_mem (fun claim ↦ claim.spiffeId.uri) Claim.assurance hplaces hmem
    refine ⟨q, hq, huri, ?_⟩
    rcases hbefore with rfl | hlt | ⟨heq, hplace⟩
    · exact Or.inr ⟨rfl, le_rfl⟩
    · exact Or.inl hlt
    · exact Or.inr ⟨heq.symm, hplace.le⟩

/-! ### The proofs of a trace -/

section Trace

variable {W : Type}

/-- The attestor a call asked for its candidates. -/
def Call.asked : Call W → Option (Attestor W)
  | .enumerate attestor _ => some attestor
  | .prove .. => none

/-- What a call proved: the candidate with its attestor, and the claim it yielded. -/
def Call.proof : Call W → Option ((Attestor W × Candidate) × Option Claim)
  | .enumerate .. => none
  | .prove attestor candidate challenge answer =>
    some ((attestor, candidate), silentClaim candidate challenge answer)

/-- The attestors a trace asked for their candidates, in order. -/
def asked (calls : List (Call W)) : List (Attestor W) := calls.filterMap Call.asked

/-- The proofs of a trace, in order. -/
def proofs (calls : List (Call W)) : List ((Attestor W × Candidate) × Option Claim) :=
  calls.filterMap Call.proof

theorem map_fst_proofs (calls : List (Call W)) : (proofs calls).map Prod.fst = proved calls := by
  unfold proofs proved
  rw [List.map_filterMap]
  refine List.filterMap_congr fun call _ ↦ ?_
  cases call with
  | enumerate => rfl
  | prove => rfl

theorem filterMap_snd_proofs (calls : List (Call W)) :
    ((proofs calls).map Prod.snd).filterMap id = provenClaims calls := by
  unfold proofs provenClaims
  rw [List.map_filterMap, List.filterMap_filterMap]
  refine List.filterMap_congr fun call _ ↦ ?_
  cases call with
  | enumerate => rfl
  | prove => rfl

theorem asked_enumerateAll (attestors : List (Attestor W)) (w : W) :
    asked (enumerateAll attestors w).calls = attestors := by
  induction attestors generalizing w with
  | nil => rfl
  | cons attestor rest ih =>
    show attestor :: asked (enumerateAll rest (attestor.enumerate w).2).calls = attestor :: rest
    rw [ih]

theorem asked_proveSilent (challenge : Bytes) (found : List (Attestor W × Candidate)) (w : W) :
    asked (proveSilent challenge found w).calls = [] := by
  induction found generalizing w with
  | nil => rfl
  | cons pair rest ih =>
    unfold proveSilent
    by_cases hcost : pair.2.proofCost = .silent
    · rw [if_neg (by simp [hcost])]
      exact ih _
    · rw [if_pos hcost]
      exact ih w

/-- Every attestor is asked once, in registration order. -/
theorem asked_gather_unnamed (challenge : Bytes) (attestors : List (Attestor W)) (w : W) :
    asked (gather challenge none attestors w).calls = attestors := by
  rw [calls_gather_unnamed, asked, List.filterMap_append]
  show asked _ ++ asked _ = attestors
  rw [asked_enumerateAll, asked_proveSilent, List.append_nil]

/-! ### A source that fails -/

/-- Attestors are asked one after the other. -/
theorem enumerateAll_append (before after : List (Attestor W)) (w : W) :
    (enumerateAll (before ++ after) w).value = (enumerateAll before w).value ++
      (enumerateAll after (enumerateAll before w).world).value := by
  induction before generalizing w with
  | nil => rfl
  | cons attestor rest ih =>
    show candidatesOf attestor (attestor.enumerate w).1 ++
      (enumerateAll (rest ++ after) (attestor.enumerate w).2).value = _
    rw [ih, ← List.append_assoc]
    rfl

/-- A source that fails to enumerate adds nothing to what the others show. -/
theorem enumerateAll_of_failure {before after : List (Attestor W)} {bad : Attestor W} {w : W}
    {e : AttestorError} (hfails : (bad.enumerate (enumerateAll before w).world).1 = .error e) :
    (enumerateAll (before ++ bad :: after) w).value = (enumerateAll before w).value ++
      (enumerateAll after (bad.enumerate (enumerateAll before w).world).2).value := by
  rw [enumerateAll_append]
  show _ ++ (candidatesOf bad (bad.enumerate (enumerateAll before w).world).1 ++ _) = _
  rw [hfails]
  rfl

/-! ### Declared tiers -/

/-- Two candidates of two sources that differ in the declared tier and are proved alike. -/
def SameProof (pair pair' : Attestor W × Candidate) : Prop :=
  pair'.2 = pair.2.withAttainable pair'.2.attainable ∧ pair'.1.prove pair'.2 = pair.1.prove pair.2

/-- A source that shows what another shows with other declared tiers: from every world the two leave
the same world, and show candidates that differ in nothing else and are proved alike. -/
def Redeclares (attestor attestor' : Attestor W) : Prop :=
  ∀ w, (attestor'.enumerate w).2 = (attestor.enumerate w).2 ∧
    List.Forall₂ SameProof (candidatesOf attestor (attestor.enumerate w).1)
      (candidatesOf attestor' (attestor'.enumerate w).1)

theorem enumerateAll_redeclared {attestors attestors' : List (Attestor W)}
    (h : List.Forall₂ Redeclares attestors attestors') (w : W) :
    List.Forall₂ SameProof (enumerateAll attestors w).value (enumerateAll attestors' w).value ∧
      (enumerateAll attestors' w).world = (enumerateAll attestors w).world := by
  induction h generalizing w with
  | nil => exact ⟨.nil, rfl⟩
  | @cons attestor attestor' rest rest' hsame _ ih =>
    obtain ⟨hworld, hshown⟩ := hsame w
    unfold enumerateAll
    dsimp only
    rw [hworld]
    obtain ⟨hrest, hend⟩ := ih (attestor.enumerate w).2
    exact ⟨List.rel_append hshown hrest, hend⟩

/-- A claim does not depend on the declared tier. -/
theorem silentClaim_withAttainable (candidate : Candidate) (attainable : AttainableAssurance)
    (challenge : Bytes) (answer : Except AttestorError (List Evidence)) :
    silentClaim (candidate.withAttainable attainable) challenge answer =
      silentClaim candidate challenge answer := rfl

theorem proveSilent_redeclared (challenge : Bytes) {found found' : List (Attestor W × Candidate)}
    (h : List.Forall₂ SameProof found found') (w : W) :
    (proveSilent challenge found' w).value = (proveSilent challenge found w).value ∧
      (proveSilent challenge found' w).world = (proveSilent challenge found w).world := by
  induction h generalizing w with
  | nil => exact ⟨rfl, rfl⟩
  | @cons pair pair' rest rest' hsame _ ih =>
    obtain ⟨hcandidate, hprove⟩ := hsame
    have hcost : pair'.2.proofCost = pair.2.proofCost := by
      rw [hcandidate]
      rfl
    have hclaim : ∀ answer, silentClaim pair'.2 challenge answer =
        silentClaim pair.2 challenge answer := by
      intro answer
      rw [hcandidate, silentClaim_withAttainable]
    unfold proveSilent
    rw [hcost, hprove]
    by_cases hsilent : pair.2.proofCost = .silent
    · rw [if_neg (by simp [hsilent]), if_neg (by simp [hsilent])]
      obtain ⟨hvalue, hworld⟩ := ih (pair.1.prove pair.2 challenge w).2
      dsimp only
      rw [hclaim, hvalue]
      exact ⟨rfl, hworld⟩
    · rw [if_pos hsilent, if_pos hsilent]
      exact ih w

theorem gather_redeclared (challenge : Bytes) {attestors attestors' : List (Attestor W)}
    (h : List.Forall₂ Redeclares attestors attestors') (w : W) :
    (gather challenge none attestors' w).value = (gather challenge none attestors w).value ∧
      (gather challenge none attestors' w).world = (gather challenge none attestors w).world := by
  obtain ⟨hfound, hworld⟩ := enumerateAll_redeclared h w
  obtain ⟨hvalue, hend⟩ := proveSilent_redeclared challenge hfound (enumerateAll attestors w).world
  unfold gather gatherClaims
  dsimp only
  rw [hworld, hvalue]
  exact ⟨rfl, hend⟩

end Trace

namespace WorkloadApiService

variable {L : TokenLib} {W : Type}

/-- A run is determined by what it gathers. Assumes: the request is admitted, there is a challenge,
and the two gatherings return the same claims and leave the same world. -/
theorem outcome_of_gather {C : Crypto} {service : WorkloadApiService L W}
    {attestors' : List (Attestor W)} {peer : Option ConsumerIdentity} {req : JwtsvidRequest}
    {readings : Readings} {w : W} {admitted : Admitted} {challenge : ByteArr 32}
    (hadmitted : acceptRequest peer req = .ok admitted)
    (hchallenge : readings.challenge = some challenge)
    (hvalue : (gather challenge.1 admitted.requested attestors' w).value =
      (gather challenge.1 admitted.requested service.attestors w).value)
    (hworld : (gather challenge.1 admitted.requested attestors' w).world =
      (gather challenge.1 admitted.requested service.attestors w).world) :
    let run := service.fetchJwtsvid C peer req readings w
    let run' := { service with attestors := attestors' }.fetchJwtsvid C peer req readings w
    run'.reply = run.reply ∧ run'.served = run.served ∧ run'.world = run.world := by
  intro run run'
  have hserve : ∀ claims,
      { service with attestors := attestors' }.serve C admitted readings claims =
      service.serve C admitted readings claims := fun claims ↦ rfl
  unfold run run' fetchJwtsvid
  simp only [hadmitted, hchallenge, hvalue, hworld, hserve]
  split
  · exact ⟨rfl, rfl, rfl⟩
  · split
    · exact ⟨rfl, rfl, rfl⟩
    · exact ⟨rfl, rfl, rfl⟩

/-- The shape of the unnamed reply. Every attestor is asked once and in registration order, and the
silent candidates are proved in the order they were shown. The claims handed to issuance are the
ranking of what these proofs yielded. The SVIDs returned belong to some of them, in their order, and
an Ok reply is not empty. Other declared tiers change nothing, and a source that fails to enumerate
adds nothing and takes nothing away. Assumes: the request is admitted and unnamed, and a challenge
was drawn. -/
theorem unnamed_reply_shape (C : Crypto) (service : WorkloadApiService L W)
    (peer : Option ConsumerIdentity) (req : JwtsvidRequest) (readings : Readings) (w : W)
    (admitted : Admitted) (challenge : ByteArr 32)
    (hadmitted : acceptRequest peer req = .ok admitted) (hname : admitted.requested = none)
    (hchallenge : readings.challenge = some challenge) :
    let run := service.fetchJwtsvid C peer req readings w
    (asked run.calls = service.attestors ∧ (proofs run.calls).map Prod.fst =
      (enumerated run.calls).filter fun pair ↦ decide (pair.2.proofCost = .silent)) ∧
    (∃ claims, (gather challenge.1 none service.attestors w).value = .ok claims ∧
      (∀ out, service.serve C admitted readings claims = .ok out →
        run.served = out.served ∧ run.reply = out.reply) ∧
      IsRanking ((proofs run.calls).map Prod.snd) claims ∧
      (run.served.map Prod.fst).Sublist claims) ∧
    (∀ svids, run.reply = .ok svids → svids = run.served.map Prod.snd ∧ svids ≠ []) ∧
    (∀ attestors', List.Forall₂ Redeclares service.attestors attestors' →
      let run' := { service with attestors := attestors' }.fetchJwtsvid C peer req readings w
      (gather challenge.1 none attestors' w).value =
          (gather challenge.1 none service.attestors w).value ∧
        run'.reply = run.reply ∧ run'.served = run.served ∧ run'.world = run.world) ∧
    ∀ (before after : List (Attestor W)) (bad : Attestor W) (e : AttestorError),
      service.attestors = before ++ bad :: after →
      (bad.enumerate (enumerateAll before w).world).1 = .error e →
      enumerated run.calls = (enumerateAll before w).value ++
          (enumerateAll after (bad.enumerate (enumerateAll before w).world).2).value ∧
        ((bad.enumerate (enumerateAll before w).world).2 = (enumerateAll before w).world →
          enumerated run.calls = (enumerateAll (before ++ after) w).value) := by
  intro run
  have hcalls : run.calls = (gather challenge.1 none service.attestors w).calls :=
    hname ▸ calls_of_gather hadmitted hchallenge
  obtain ⟨hshown, hproved⟩ := trace_gather_unnamed challenge.1 service.attestors w
  have hclaims := gather_unnamed challenge.1 service.attestors w
  rw [hcalls, map_fst_proofs, asked_gather_unnamed, hproved, hshown]
  refine ⟨⟨rfl, rfl⟩, ⟨_, hclaims, ?_, ?_, ?_⟩, ?_, ?_, ?_⟩
  · intro out hout
    exact served_of_gather hadmitted hchallenge (hname ▸ hclaims) hout
  · rw [← filterMap_snd_proofs]
    exact isRanking_rankClaims _
  · by_cases hserved : run.served = []
    · rw [hserved]
      exact List.nil_sublist _
    · obtain ⟨admitted', challenge', claims, out, hadmitted', hchallenge', hclaims', hout, heq⟩ :=
        served_ne_nil hserved
      obtain rfl := Except.ok.inj (hadmitted.symm.trans hadmitted')
      obtain rfl := Option.some.inj (hchallenge.symm.trans hchallenge')
      rw [hname] at hclaims'
      rw [Except.ok.inj (hclaims.symm.trans hclaims'), show run.served = _ from heq]
      exact map_fst_served_sublist hout
  · intro svids hreply
    obtain ⟨hsvids, hserved⟩ := served_of_reply hreply
    refine ⟨hsvids, ?_⟩
    rw [hsvids]
    simpa using hserved
  · intro attestors' hredeclared
    obtain ⟨hvalue, hworld⟩ := gather_redeclared challenge.1 hredeclared w
    exact ⟨hvalue, outcome_of_gather hadmitted hchallenge (hname ▸ hvalue) (hname ▸ hworld)⟩
  · intro before after bad e hattestors hfails
    rw [hattestors, enumerateAll_of_failure hfails]
    refine ⟨rfl, fun hunchanged ↦ ?_⟩
    rw [hunchanged, enumerateAll_append]

/-- Two sources prove one identity, the claims are the ranking of their two proofs, and the reply
holds one SVID. -/
theorem unnamed_reply_shape_young :
    let run := (transparent youngSources).fetchJwtsvid .transparent (some someBinary) withinAMinute
      (readingsAt (second 101)) ()
    (proofs run.calls).length = 2 ∧
      (∃ claims, IsRanking ((proofs run.calls).map Prod.snd) claims ∧ claims.length = 1) ∧
      ∃ svid, run.reply = .ok [svid] ∧ run.served.map Prod.snd = [svid] := by
  intro run
  have hadmitted : acceptRequest (some someBinary) withinAMinute =
      .ok ⟨someBinary, withinAMinuteExts, none⟩ :=
    acceptRequest_eq_ok_iff.mpr ⟨rfl, by decide, withinAMinute_parses, Or.inl ⟨rfl, rfl⟩⟩
  obtain ⟨-, ⟨claims, hclaims, -, hranking, -⟩, hreply, -⟩ := unnamed_reply_shape .transparent
    (transparent youngSources) (some someBinary) withinAMinute (readingsAt (second 101)) ()
    ⟨someBinary, withinAMinuteExts, none⟩ (fill 32 0) hadmitted rfl rfl
  have hlength : ((gather (fill 32 0).1 none youngSources ()).value.map List.length) = .ok 1 := by
    with_unfolding_all decide
  rw [show (gather (fill 32 0).1 none youngSources ()).value = .ok claims from hclaims] at hlength
  refine ⟨by with_unfolding_all decide, ⟨claims, hranking, Except.ok.inj hlength⟩, ?_⟩
  have hone : (match run.reply with
    | .ok svids => svids.length = 1
    | .error _ => False) := by
    with_unfolding_all exact rfl
  cases hanswer : run.reply with
  | error fault =>
    rw [hanswer] at hone
    exact hone.elim
  | ok svids =>
    rw [hanswer] at hone
    obtain ⟨svid, rfl⟩ := List.length_eq_one_iff.mp hone
    exact ⟨svid, rfl, (hreply [svid] hanswer).1.symm⟩

end WorkloadApiService

end Hire.Grpc
