import Hire.Attestors.Claim
import Hire.Library.Ranking
import Mathlib.Data.Prod.Lex

/-!
# What a claim says of its evidence

`Claim.derive` folds the evidence that binds from left to right and carries three accumulators. This
module states what the fold computes without its order. The observation of an item is its presence
level and its instant, compared by the level first, and `Tier.absorb` keeps the larger of two
observations and the larger of two assurances, each for itself (`Tier.observation_absorb`,
`Tier.assurance_absorb`). A claim therefore publishes the greatest observation there is, and its
assurance depends only on which kinds of evidence are there (`Claim.assurance_of_derive`).

`Claim.derive_is_lattice` collects this, and what follows from it: evidence that does not bind, the
tier a candidate was declared to attain and the cost of proving it change nothing, and the order of
the evidence changes neither assurance nor observation.
-/

set_option autoImplicit false
set_option relaxedAutoImplicit false

namespace Hire.Attestors

open Hire.Library Hire.Core

/-! ### Observations -/

/-- The observation of a tier: a presence level and an instant, compared by the level first. -/
def Tier.observation (tier : Tier) : PresenceLevel ×ₗ SystemTime :=
  toLex (tier.presence, tier.instant)

/-- Absorbing a tier keeps the larger observation. -/
theorem Tier.observation_absorb (acc tier : Tier) :
    (acc.absorb tier).observation = max acc.observation tier.observation := by
  have hlt : acc.observation < tier.observation ↔
      acc.presence < tier.presence ∨ acc.presence = tier.presence ∧ acc.instant < tier.instant :=
    Prod.Lex.toLex_lt_toLex
  unfold Tier.absorb
  by_cases hnewer : acc.observation < tier.observation
  · rw [max_eq_right hnewer.le]
    rw [hlt] at hnewer
    rw [if_pos (hnewer.imp_right fun h ↦ ⟨h.1.symm, h.2⟩)]
    rfl
  · rw [max_eq_left (not_lt.mp hnewer)]
    rw [hlt] at hnewer
    rw [if_neg fun h ↦ hnewer (h.imp_right fun h ↦ ⟨h.1.symm, h.2⟩)]
    rfl

/-- Absorbing a tier keeps the larger assurance. -/
theorem Tier.assurance_absorb (acc tier : Tier) :
    (acc.absorb tier).assurance = max acc.assurance tier.assurance := by
  unfold Tier.absorb
  split_ifs <;> rfl

namespace Evidence

/-- The presence level and the instant of a piece of evidence, compared by the level first. -/
def observation (e : Evidence) : PresenceLevel ×ₗ SystemTime := e.tier.observation

/-- Whether a piece of evidence is a touch of an authenticator. -/
def isTouch : Evidence → Bool
  | hardwarePresence _ => true
  | _ => false

/-- Whether an identity provider is behind a piece of evidence: a verified token, or the answer of
a daemon that holds an issued identity. -/
def isVouched : Evidence → Bool
  | idpVerified _ => true
  | daemonAssertion _ => true
  | _ => false

/-- The verified token a piece of evidence is, if it is one. -/
def token : Evidence → Option VerifiedToken
  | idpVerified t => some t
  | _ => none

/-- Only a touch establishes hardware presence. -/
theorem hardware_le_presence_iff (e : Evidence) :
    PresenceLevel.hardware ≤ e.tier.presence ↔ e.isTouch = true := by
  cases e <;> simp [tier, isTouch, PresenceLevel.le_iff_rank, PresenceLevel.rank]

/-- The tier of a piece of evidence is the second level when it is vouched for, and the first
otherwise. -/
theorem assurance_tier (e : Evidence) :
    e.tier.assurance = if e.isVouched then IdentityAssurance.iaa2 else .iaa1 := by
  cases e <;> rfl

/-- A token re-anchors to its issuer, and nothing else re-anchors. -/
theorem issuerAnchor_eq (e : Evidence) :
    e.issuerAnchor = e.token.map fun t ↦ TrustDomain.orgOidc t.issuerDomain := by
  cases e <;> rfl

end Evidence

namespace Claim

variable {candidate : Candidate} {challenge : Bytes} {evidence : List Evidence} {claim : Claim}

/-! ### The fold without its order -/

/-- The assurance of a list of evidence: the third level when there is a touch and something vouched
for, the second when there is something vouched for, and the first otherwise. -/
def assuranceOf (bound : List Evidence) : IdentityAssurance :=
  if bound.any Evidence.isTouch = true ∧ bound.any Evidence.isVouched = true then .iaa3
  else if bound.any Evidence.isVouched = true then .iaa2
  else .iaa1

/-- The trust domain of a list of evidence: the issuer of the first token, or the candidate's own
domain when there is none. -/
def trustDomainOf (candidate : Candidate) (bound : List Evidence) : TrustDomain :=
  match bound.filterMap Evidence.token with
  | [] => candidate.domain.toTrustDomain
  | first :: _ => .orgOidc first.issuerDomain

/-- The observation of a claim: its presence level and its instant, compared by the level first. -/
def observation (claim : Claim) : PresenceLevel ×ₗ SystemTime :=
  toLex (claim.presence, claim.attestedAt)

/-- A claim publishes the greatest observation of the evidence that binds. -/
theorem observation_of_derive (h : derive candidate challenge evidence = some claim) :
    IsGreatest {o | ∃ e ∈ evidence.filter (·.bindsTo candidate challenge), e.observation = o}
      claim.observation := by
  obtain ⟨first, rest, hbound, rfl⟩ := exists_cons_of_derive h
  rw [hbound]
  have hgreatest := isGreatest_foldl Tier.observation_absorb first.tier (rest.map Evidence.tier)
  simp only [← List.map_cons, List.mem_map, exists_exists_and_eq_and] at hgreatest
  exact hgreatest

/-- The largest assurance of a fold over evidence says whether any of it is vouched for. -/
theorem assurance_foldl (first : Evidence) (rest : List Evidence) :
    ((rest.map Evidence.tier).foldl Tier.absorb first.tier).assurance =
      if (first :: rest).any Evidence.isVouched then IdentityAssurance.iaa2 else .iaa1 := by
  have hgreatest := isGreatest_foldl Tier.assurance_absorb first.tier (rest.map Evidence.tier)
  simp only [← List.map_cons, List.mem_map, exists_exists_and_eq_and,
    Evidence.assurance_tier] at hgreatest
  refine hgreatest.unique ?_
  by_cases hvouched : (first :: rest).any Evidence.isVouched = true
  · rw [if_pos hvouched]
    obtain ⟨e, he, hisVouched⟩ := List.any_eq_true.mp hvouched
    refine ⟨⟨e, he, if_pos hisVouched⟩, ?_⟩
    rintro level ⟨e', -, rfl⟩
    split_ifs <;> simp [IdentityAssurance.le_iff_rank, IdentityAssurance.rank]
  · rw [if_neg hvouched]
    have hnone : ∀ e ∈ first :: rest, e.isVouched = false := by simpa using hvouched
    refine ⟨⟨first, List.mem_cons_self, by simp [hnone first List.mem_cons_self]⟩, ?_⟩
    rintro level ⟨e, he, rfl⟩
    simp [hnone e he]

/-- The assurance of a claim depends only on which kinds of evidence bind. -/
theorem assurance_of_derive (h : derive candidate challenge evidence = some claim) :
    claim.assurance = assuranceOf (evidence.filter (·.bindsTo candidate challenge)) := by
  have hobservation := observation_of_derive h
  have htouch : PresenceLevel.hardware ≤ claim.presence ↔
      (evidence.filter (·.bindsTo candidate challenge)).any Evidence.isTouch = true := by
    obtain ⟨⟨best, hbest, heq⟩, hupper⟩ := hobservation
    rw [List.any_eq_true]
    constructor
    · intro hhardware
      have hpresence : best.tier.presence = claim.presence := congrArg (fun o ↦ (ofLex o).1) heq
      exact ⟨best, hbest, best.hardware_le_presence_iff.mp (hpresence ▸ hhardware)⟩
    · rintro ⟨e, he, hisTouch⟩
      have hle : e.observation ≤ claim.observation := hupper ⟨e, he, rfl⟩
      exact (e.hardware_le_presence_iff.mpr hisTouch).trans (Prod.Lex.monotone_fst _ _ hle)
  obtain ⟨first, rest, hbound, rfl⟩ := exists_cons_of_derive h
  rw [hbound] at htouch ⊢
  simp only [assurance_foldl, htouch, assuranceOf]
  by_cases hvouched : (first :: rest).any Evidence.isVouched = true
  · simp [hvouched]
  · simp [hvouched, IdentityAssurance.le_iff_rank, IdentityAssurance.rank]

/-- A claim carries its candidate's display name. -/
theorem displayName_of_derive (h : derive candidate challenge evidence = some claim) :
    claim.displayName = candidate.displayName := by
  obtain ⟨first, rest, -, rfl⟩ := exists_cons_of_derive h
  rfl

/-- The trust domain of a claim is that of the first token that binds. -/
theorem trustDomain_of_derive_token (h : derive candidate challenge evidence = some claim) :
    claim.spiffeId.trustDomain =
      trustDomainOf candidate (evidence.filter (·.bindsTo candidate challenge)) := by
  rw [(derive_eq_some h).2.2]
  generalize evidence.filter (·.bindsTo candidate challenge) = bound
  unfold trustDomainOf
  induction bound with
  | nil => rfl
  | cons e rest ih =>
    rw [List.findSome?_cons, List.filterMap_cons, e.issuerAnchor_eq]
    cases e.token with
    | none => exact ih
    | some t => rfl

/-! ### The lattice -/

/-- What is derived is determined by the evidence that binds. -/
theorem derive_congr {evidence' : List Evidence}
    (hbound : evidence'.filter (·.bindsTo candidate challenge) =
      evidence.filter (·.bindsTo candidate challenge)) :
    derive candidate challenge evidence' = derive candidate challenge evidence := by
  unfold derive
  rw [hbound]

/-- The order of the evidence changes neither the assurance nor the observation of a claim. -/
theorem derive_perm {evidence' : List Evidence} (hperm : evidence'.Perm evidence) :
    (derive candidate challenge evidence').map
        (fun claim ↦ (claim.assurance, claim.presence, claim.attestedAt)) =
      (derive candidate challenge evidence).map
        fun claim ↦ (claim.assurance, claim.presence, claim.attestedAt) := by
  have hbound := hperm.filter (·.bindsTo candidate challenge)
  cases h : derive candidate challenge evidence with
  | none =>
    rw [derive_eq_none_iff] at h
    rw [derive_eq_none_iff.mpr fun e he ↦ h e (hperm.mem_iff.mp he)]
  | some claim =>
    cases h' : derive candidate challenge evidence' with
    | none =>
      rw [derive_eq_none_iff] at h'
      rw [derive_eq_none_iff.mpr fun e he ↦ h' e (hperm.mem_iff.mpr he)] at h
      cases h
    | some claim' =>
      have hobservation : claim'.observation = claim.observation := by
        refine (observation_of_derive h').unique ?_
        simp only [hbound.mem_iff]
        exact observation_of_derive h
      have hassurance : claim'.assurance = claim.assurance := by
        rw [assurance_of_derive h', assurance_of_derive h]
        simp only [assuranceOf, hbound.any_eq]
      obtain ⟨hpresence, hinstant⟩ := Prod.mk.inj (toLex.injective hobservation)
      rw [Option.map_some, Option.map_some, hassurance, hpresence, hinstant]

/-- A further piece of evidence that binds, at any position, leaves a claim with the larger of the
two observations. Assumes: the evidence without it yields a claim, and the item binds. -/
theorem derive_insert {before after : List Evidence} {e : Evidence}
    (h : derive candidate challenge (before ++ after) = some claim)
    (hbinds : e.bindsTo candidate challenge = true) :
    ∃ claim', derive candidate challenge (before ++ e :: after) = some claim' ∧
      claim'.observation = max claim.observation e.observation := by
  have hmem : ∀ x, x ∈ (before ++ e :: after).filter (·.bindsTo candidate challenge) ↔
      x = e ∨ x ∈ (before ++ after).filter (·.bindsTo candidate challenge) := by
    intro x
    simp only [List.mem_filter, List.mem_append, List.mem_cons]
    constructor
    · rintro ⟨hbefore | rfl | hafter, hx⟩
      · exact Or.inr ⟨Or.inl hbefore, hx⟩
      · exact Or.inl rfl
      · exact Or.inr ⟨Or.inr hafter, hx⟩
    · rintro (rfl | ⟨hbefore | hafter, hx⟩)
      · exact ⟨Or.inr (Or.inl rfl), hbinds⟩
      · exact ⟨Or.inl hbefore, hx⟩
      · exact ⟨Or.inr (Or.inr hafter), hx⟩
  cases h' : derive candidate challenge (before ++ e :: after) with
  | none =>
    rw [derive_eq_none_iff.mp h' e (by simp)] at hbinds
    cases hbinds
  | some claim' =>
    refine ⟨claim', rfl, (observation_of_derive h').unique ?_⟩
    obtain ⟨⟨best, hbest, heq⟩, hupper⟩ := observation_of_derive h
    constructor
    · rcases max_choice claim.observation e.observation with hmax | hmax
      · exact ⟨best, (hmem best).mpr (Or.inr hbest), heq.trans hmax.symm⟩
      · exact ⟨e, (hmem e).mpr (Or.inl rfl), hmax.symm⟩
    · rintro o ⟨x, hx, rfl⟩
      rcases (hmem x).mp hx with rfl | hold
      · exact le_max_right _ _
      · exact (hupper ⟨x, hold, rfl⟩).trans (le_max_left _ _)

/-- Deriving a claim computes the evidence lattice. There is no claim exactly when nothing binds.
Otherwise presence and instant are the greatest observation of what binds, the assurance follows
from the kinds of evidence among it, the trust domain from its first token, and the rest from the
candidate. Evidence that does not bind, the tier a candidate was declared to attain and the cost of
its proof change no field; the order of the evidence changes neither assurance, presence nor
instant. -/
theorem derive_is_lattice (candidate : Candidate) (challenge : Bytes) (evidence : List Evidence) :
    let bound := evidence.filter (·.bindsTo candidate challenge)
    (derive candidate challenge evidence = none ↔ bound = []) ∧
    (∀ claim, derive candidate challenge evidence = some claim →
      IsGreatest {o | ∃ e ∈ bound, toLex (e.tier.presence, e.tier.instant) = o}
        (toLex (claim.presence, claim.attestedAt)) ∧
      claim.assurance =
        (if bound.any Evidence.isTouch = true ∧ bound.any Evidence.isVouched = true then .iaa3
        else if bound.any Evidence.isVouched = true then .iaa2
        else .iaa1) ∧
      claim.spiffeId.trustDomain =
        (match bound.filterMap Evidence.token with
        | [] => candidate.domain.toTrustDomain
        | first :: _ => .orgOidc first.issuerDomain) ∧
      claim.spiffeId.path = candidate.path ∧ claim.source = candidate.source ∧
      claim.displayName = candidate.displayName) ∧
    (∀ evidence', evidence'.filter (·.bindsTo candidate challenge) = bound →
      derive candidate challenge evidence' = derive candidate challenge evidence) ∧
    (∀ attainable proofCost,
      derive { candidate with attainable, proofCost } challenge evidence =
        derive candidate challenge evidence) ∧
    (∀ evidence', evidence'.Perm evidence →
      (derive candidate challenge evidence').map
          (fun claim ↦ (claim.assurance, claim.presence, claim.attestedAt)) =
        (derive candidate challenge evidence).map
          fun claim ↦ (claim.assurance, claim.presence, claim.attestedAt)) := by
  refine ⟨?_, fun claim h ↦ ?_, fun evidence' ↦ derive_congr, fun attainable proofCost ↦ ?_,
    fun evidence' ↦ derive_perm⟩
  · rw [derive_eq_none_iff]
    simp
  · obtain ⟨hsource, hpath, -⟩ := derive_eq_some h
    exact ⟨observation_of_derive h, assurance_of_derive h, trustDomain_of_derive_token h, hpath,
      hsource, displayName_of_derive h⟩
  · have hbinds : ∀ e : Evidence,
        e.bindsTo { candidate with attainable, proofCost } challenge =
          e.bindsTo candidate challenge := by
      intro e
      cases e <;> rfl
    unfold derive
    simp only [hbinds]

end Claim

end Hire.Attestors
