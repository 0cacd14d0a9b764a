import Hire.Attestors.Lattice
import Hire.Core.Hint
import Hire.Grpc.Service

/-!
# How an observation ages

A claim carries one observation, and three clocks look at it: the age bound of the caller, the
presence TTL of the daemon, and the whole seconds that are published. `passesGates_of_younger` is
what the first two have in common: a claim with at least as much presence and at most as much age
passes whatever the other passes. Re-requesting only makes an observation older, so presence only
decays, and what a token publishes of its observation does not move (`presence_only_decays`).

Evidence decides the same way. A further item replaces the observation of a claim exactly when its
presence level is higher, or equal and newer (`derive_insert`). A higher level can be old, and then
it takes the fresh observation of a lower level with it: `inserted_passes_iff` says when a claim
that passed still passes, and `insertion_refuses` is a stale touch that costs a fresh answer its
credential.

The hint and the token tell one observation twice. `tag_matches_token` compares them: they agree on
source, assurance and presence, and the token never reads younger than the hint for an observation
between the Unix epoch and the request. An observation before the epoch is published as zero, and
one after the request has the largest age a hint can carry, so there the two ages do not compare
(`tag_older_than_token`).
-/

set_option autoImplicit false
set_option relaxedAutoImplicit false

namespace Hire.Grpc

open Hire.Library Hire.Core Hire.Attestors

/-! ### Age -/

/-- The age of an observation that is not in the future is measurable. -/
theorem ageAt_of_le {claim : Claim} {now : SystemTime} (h : claim.attestedAt ≤ now) :
    claim.ageAt now = some (now - claim.attestedAt).toNat := by
  unfold Claim.ageAt durationSince
  rw [if_pos h]

/-- A claim with no less presence and no more age than another shows at least its presence after
decay. Assumes: the age of the other is measurable. -/
theorem presenceAt_le_of_younger {claim claim' : Claim} {now now' : SystemTime}
    {age age' : Duration} (hpresence : claim.presence ≤ claim'.presence)
    (hage : claim.ageAt now = some age) (hage' : claim'.ageAt now' = some age')
    (hyounger : age' ≤ age) :
    presenceAt claim now ≤ presenceAt claim' now' := by
  unfold presenceAt
  rw [hage, hage']
  simp only [Option.any_some, decide_eq_true_eq]
  by_cases hfresh : age < presenceTtl
  · rw [if_pos hfresh, if_pos (lt_of_le_of_lt hyounger hfresh)]
    exact hpresence
  · rw [if_neg hfresh]
    exact PresenceLevel.none_le _

/-- A claim with no less presence and no more age than another passes whatever the other passes. -/
theorem passesGates_of_younger {claim claim' : Claim} {now now' : SystemTime} {age age' : Duration}
    {require : PresenceLevel} {maxAge : Option Duration}
    (hpresence : claim.presence ≤ claim'.presence) (hage : claim.ageAt now = some age)
    (hage' : claim'.ageAt now' = some age') (hyounger : age' ≤ age)
    (hpasses : passesGates require maxAge now claim = true) :
    passesGates require maxAge now' claim' = true := by
  unfold passesGates at hpasses ⊢
  rw [Bool.and_eq_true, decide_eq_true_eq] at hpasses ⊢
  refine ⟨?_, hpasses.2.trans (presenceAt_le_of_younger hpresence hage hage' hyounger)⟩
  obtain ⟨hwithin, -⟩ := hpasses
  rw [hage] at hwithin
  rw [hage']
  cases maxAge with
  | none => rfl
  | some bound =>
    simp only [withinMaxAge, Option.any_some, decide_eq_true_eq] at hwithin ⊢
    exact lt_of_le_of_lt hyounger hwithin

/-! ### Publication -/

section Publication

variable {L : TokenLib} {C : Crypto}

/-- An SVID publishes an extension and a hint: its token encodes a payload with the extension, and
its hint is the text of the hint. -/
def Publishes (C : Crypto) (signer : SvidSigner L) (audiences : List Str) (svid : Jwtsvid L)
    (ext : HireClaims) (hint : SvidHint) : Prop :=
  (∃ secs, L.encode (signer.svidHeader C)
    (SvidSigner.svidClaims secs svid.spiffeId audiences ext.toValue).toValue signer.encodingKey =
      .ok svid.svid) ∧
    svid.hint = hint.display

/-- What is issued publishes the extension and the hint of its claim. -/
theorem publishes_of_issue {signer : SvidSigner L} {claim : Claim} {consumer : ConsumerIdentity}
    {audiences : List Str} {require : PresenceLevel} {maxAge : Option Duration}
    {now signedAt : SystemTime} {svid : Jwtsvid L}
    (h : issue C signer claim consumer audiences require maxAge now signedAt = .ok svid) :
    Publishes C signer audiences svid (hireExt claim now) (svidHint claim now) := by
  obtain ⟨-, hsign, hid, hhint⟩ := issue_eq_ok_iff.mp h
  obtain ⟨sinceEpoch, -, hencode⟩ := (SvidSigner.signJwtSvid_eq_ok_iff C).mp hsign
  exact ⟨⟨sinceEpoch.asSecs, hid ▸ hencode⟩, hhint⟩

/-- Signing succeeds at a reading of the clock, whatever is signed. -/
def SignsAt (C : Crypto) (signer : SvidSigner L) (clock : SystemTime) : Prop :=
  ∀ spiffeId audiences hireExt, ∃ token,
    signer.signJwtSvid C clock spiffeId audiences hireExt = .ok token

/-- The second an observation after the Unix epoch is published at. -/
theorem publishedAt_of_epoch_le {claim : Claim} (h : unixEpoch ≤ claim.attestedAt) :
    publishedAt claim = claim.attestedAt.toNat / 1000000000 := by
  unfold publishedAt durationSince
  rw [if_pos h, Option.getD_some, unixEpoch, Int.sub_zero]
  rfl

/-- While an observation is within the presence TTL, the second of the request is not past the
second presence is published to last until. Assumes: the observation is not before the epoch nor
after the request, and the clock can hold the request. -/
theorem wholeSecond_le_presentUntil {claim : Claim} {now : SystemTime}
    (hepoch : unixEpoch ≤ claim.attestedAt) (hobserved : claim.attestedAt ≤ now)
    (hrange : now.Representable) (hpresent : (hireExt claim now).presence.present = true) :
    now.wholeSecond ≤ (hireExt claim now).presence.presentUntil := by
  have hfresh : (now - claim.attestedAt).toNat < 300000000000 := by
    have hany : (claim.ageAt now).any (· < presenceTtl) = true := by
      by_contra hold
      have hnone : presenceAt claim now = .none := if_neg hold
      simp [hireExt, hnone] at hpresent
    rw [ageAt_of_le hobserved, Option.any_some, decide_eq_true_eq] at hany
    exact hany
  have hseconds : ∀ t a : ℤ, 0 ≤ a → a ≤ t → t < 9223372036854775808000000000 →
      (t - a).toNat < 300000000000 →
      t / 1000000000 ≤ ((min (a.toNat / 1000000000 + 300) 18446744073709551615 : ℕ) : ℤ) := by
    omega
  show now.wholeSecond ≤ (saturatingAdd (publishedAt claim) presenceTtl.asSecs : ℕ)
  rw [publishedAt_of_epoch_le hepoch]
  exact hseconds now claim.attestedAt hepoch hobserved hrange.2 hfresh

/-- Presence only decays, and re-requesting cannot extend it. A claim that is issued at a later
request is issued at an earlier one, with at least the presence; the instants a token publishes are
the same at both, and while it says that a human is present, the second of the request is not past
the end it names. Assumes: the observation is not before the epoch, both requests come after it in
order, the clock can hold them, and signing succeeds. -/
theorem presence_only_decays (C : Crypto) (signer : SvidSigner L) (claim : Claim)
    (consumer : ConsumerIdentity) (audiences : List Str) (require : PresenceLevel)
    (maxAge : Option Duration) (t₁ t₂ signedAt₁ signedAt₂ : SystemTime)
    (hepoch : unixEpoch ≤ claim.attestedAt) (hobserved : claim.attestedAt ≤ t₁) (hle : t₁ ≤ t₂)
    (hrange : t₂.Representable) (hsign : SignsAt C signer signedAt₁) :
    ((∃ svid, issue C signer claim consumer audiences require maxAge t₂ signedAt₂ = .ok svid) →
      ∃ svid, issue C signer claim consumer audiences require maxAge t₁ signedAt₁ = .ok svid) ∧
    (∀ t signedAt svid,
      issue C signer claim consumer audiences require maxAge t signedAt = .ok svid →
      Publishes C signer audiences svid (hireExt claim t) (svidHint claim t)) ∧
    (svidHint claim t₂).presence ≤ (svidHint claim t₁).presence ∧
    (hireExt claim t₂).presence.attestedAt = (hireExt claim t₁).presence.attestedAt ∧
    (hireExt claim t₂).presence.presentUntil = (hireExt claim t₁).presence.presentUntil ∧
    ∀ t ∈ [t₁, t₂], (hireExt claim t).presence.present = true →
      t.wholeSecond ≤ (hireExt claim t).presence.presentUntil := by
  have hobserved₂ : claim.attestedAt ≤ t₂ := hobserved.trans hle
  have hyounger : (t₁ - claim.attestedAt).toNat ≤ (t₂ - claim.attestedAt).toNat :=
    Int.toNat_le_toNat (Int.sub_le_sub_right hle _)
  have hrange₁ : t₁.Representable :=
    ⟨le_trans (le_trans (by decide) hepoch) hobserved, lt_of_le_of_lt hle hrange.2⟩
  refine ⟨?_, fun t signedAt svid h ↦ publishes_of_issue h, ?_, rfl, rfl, ?_⟩
  · rintro ⟨svid, h⟩
    have hpasses := passesGates_of_younger le_rfl (ageAt_of_le hobserved₂) (ageAt_of_le hobserved)
      hyounger (issue_eq_ok_iff.mp h).1
    obtain ⟨token, htoken⟩ := hsign (signer.pseudonymousId C claim.spiffeId consumer).uri audiences
      (hireExt claim t₁).toValue
    exact ⟨⟨_, token, _⟩, issue_eq_ok_iff.mpr ⟨hpasses, htoken, rfl, rfl⟩⟩
  · exact presenceAt_le_of_younger le_rfl (ageAt_of_le hobserved₂) (ageAt_of_le hobserved) hyounger
  · intro t ht hpresent
    simp only [List.mem_cons, List.not_mem_nil, or_false] at ht
    rcases ht with rfl | rfl
    · exact wholeSecond_le_presentUntil hepoch hobserved hrange₁ hpresent
    · exact wholeSecond_le_presentUntil hepoch hobserved₂ hrange hpresent

/-- A touch observed one hundred and a half seconds after the epoch. -/
def touchClaim : Claim where
  source := str "fido2"
  assurance := .iaa1
  presence := .hardware
  spiffeId := ⟨.sshLocal, str "key/a"⟩
  displayName := str "Key"
  attestedAt := 100500000000

/-- A signer of transparent tokens. -/
def touchSigner : SvidSigner .transparent := .fromSigningKey (fill 65 4) (fill 32 7)

/-- What the touch is issued as at a request that requires a level and names no age bound. -/
def touchSvid (require : PresenceLevel) (now : SystemTime) :
    Except (Fault Status) (Jwtsvid .transparent) :=
  issue .transparent touchSigner touchClaim (.binarySha256 (fill 32 1)) [str "rp"] require none now
    now

/-- Transparent tokens are signed at every reading after the Unix epoch. -/
theorem signsAt_transparent (C : Crypto) (signer : SvidSigner TokenLib.transparent)
    {clock : SystemTime} (hclock : 0 ≤ clock) : SignsAt C signer clock :=
  fun _ _ _ ↦ ⟨_, (SvidSigner.signJwtSvid_eq_ok_iff C).mpr ⟨_, if_pos hclock, rfl⟩⟩

/-- The touch is issued with its presence one nanosecond before the TTL ends, and therefore at once
after it was observed. -/
theorem presence_only_decays_touch :
    (∃ svid, touchSvid .hardware 400499999999 = .ok svid) ∧
    (∃ svid, touchSvid .hardware 100500000000 = .ok svid) ∧
    (svidHint touchClaim 400499999999).presence ≤ (svidHint touchClaim 100500000000).presence := by
  have hdecays := presence_only_decays .transparent touchSigner touchClaim
    (.binarySha256 (fill 32 1)) [str "rp"] .hardware none 100500000000 400499999999 100500000000
    400499999999 (by decide) (by decide) (by decide) ⟨by decide, by decide⟩
    (signsAt_transparent _ _ (by decide))
  have hlast : ∃ svid, touchSvid .hardware 400499999999 = .ok svid :=
    ⟨⟨_, _, _⟩, issue_eq_ok_iff.mpr ⟨by decide, rfl, rfl, rfl⟩⟩
  exact ⟨hlast, hdecays.1 hlast, hdecays.2.2.1⟩

/-! ### The hint and the token -/

/-- The age of a hint is a 64-bit integer. Assumes: the clock can hold both instants. -/
theorem svidHint_age_le {claim : Claim} {now : SystemTime}
    (hattested : claim.attestedAt.Representable) (hnow : now.Representable) :
    (svidHint claim now).age ≤ u64Max := by
  show ((claim.ageAt now).map Duration.asSecs).getD u64Max ≤ u64Max
  cases hage : claim.ageAt now with
  | none => exact le_rfl
  | some age => exact asSecs_le_u64Max hnow hattested hage

/-- The age of a hint, for an observation that is not after the request. -/
theorem svidHint_age_of_le {claim : Claim} {now : SystemTime} (hobserved : claim.attestedAt ≤ now) :
    (svidHint claim now).age = (now - claim.attestedAt).toNat / 1000000000 := by
  show ((claim.ageAt now).map Duration.asSecs).getD u64Max = _
  rw [ageAt_of_le hobserved]
  rfl

/-- The age of the observation in whole seconds is at most the difference of the two whole seconds.
Assumes: the observation is not before the epoch nor after the request. -/
theorem age_le_wholeSecond_sub {claim : Claim} {now : SystemTime}
    (hepoch : unixEpoch ≤ claim.attestedAt) (hobserved : claim.attestedAt ≤ now) :
    ((svidHint claim now).age : ℤ) ≤ now.wholeSecond - publishedAt claim := by
  have hseconds : ∀ t a : ℤ, 0 ≤ a → a ≤ t →
      (((t - a).toNat / 1000000000 : ℕ) : ℤ) ≤
        t / 1000000000 - ((a.toNat / 1000000000 : ℕ) : ℤ) := by
    omega
  rw [svidHint_age_of_le hobserved, publishedAt_of_epoch_le hepoch]
  exact hseconds now claim.attestedAt hepoch hobserved

/-- The hint and the token tell the same story. The hint parses; its source and assurance are those
of the token's `hire` block, and it names a presence exactly when the block says that a human is
present. For an observation between the epoch and the request the token reads at least as old as the
hint. An observation before the epoch is published as zero, the oldest a token can carry; for one
after the request the hint carries the largest age, and no presence is asserted. Assumes: the
request is not before the epoch, the clock can hold both instants, the source contains no separator,
and the claim is issued. -/
theorem tag_matches_token (C : Crypto) (signer : SvidSigner L) (claim : Claim)
    (consumer : ConsumerIdentity) (audiences : List Str) (require : PresenceLevel)
    (maxAge : Option Duration) (now signedAt : SystemTime) (svid : Jwtsvid L)
    (hnow : unixEpoch ≤ now) (hattested : claim.attestedAt.Representable)
    (hrange : now.Representable) (hsource : '&' ∉ claim.source)
    (hissue : issue C signer claim consumer audiences require maxAge now signedAt = .ok svid) :
    ∃ hint, SvidHint.fromStr svid.hint = .ok hint ∧
      Publishes C signer audiences svid (hireExt claim now) hint ∧
      (hireExt claim now).sources = [hint.source] ∧
      (hireExt claim now).presence.attestedBy = hint.source ∧
      (hireExt claim now).identityAssurance = hint.identityAssurance ∧
      (hint.presence ≠ .none ↔ (hireExt claim now).presence.present = true) ∧
      (unixEpoch ≤ claim.attestedAt → claim.attestedAt ≤ now →
        (hint.age : ℤ) ≤ now.wholeSecond - (hireExt claim now).presence.attestedAt) ∧
      (claim.attestedAt < unixEpoch → (hireExt claim now).presence.attestedAt = 0 ∧
        now.wholeSecond ≤ hint.age) ∧
      (now < claim.attestedAt → hint.age = u64Max ∧ hint.presence = .none) := by
  have hpublishes := publishes_of_issue hissue
  refine ⟨svidHint claim now, ?_, hpublishes, rfl, rfl, rfl, ?_, age_le_wholeSecond_sub,
    fun hbefore ↦ ⟨?_, ?_⟩, fun hfuture ↦ ?_⟩
  · rw [hpublishes.2]
    exact SvidHint.fromStr_display hsource (svidHint_age_le hattested hrange)
  · simp [hireExt, svidHint]
  · show publishedAt claim = 0
    unfold publishedAt durationSince
    rw [if_neg (not_le.mpr hbefore)]
    rfl
  · have hseconds : ∀ t a : ℤ, 0 ≤ t → a < 0 →
        t / 1000000000 ≤ (((t - a).toNat / 1000000000 : ℕ) : ℤ) := by
      omega
    rw [svidHint_age_of_le (hbefore.le.trans hnow)]
    exact hseconds now claim.attestedAt hnow hbefore
  · have hage : claim.ageAt now = none := by
      unfold Claim.ageAt durationSince
      exact if_neg (not_le.mpr hfuture)
    refine ⟨?_, ?_⟩
    · show ((claim.ageAt now).map Duration.asSecs).getD u64Max = u64Max
      rw [hage]
      rfl
    · show presenceAt claim now = .none
      unfold presenceAt
      rw [hage]
      rfl

/-- Half a minute after the touch, the hint and the token agree. -/
theorem tag_matches_token_touch :
    ∃ svid, touchSvid .none 130000000000 = .ok svid ∧
      ∃ hint, SvidHint.fromStr svid.hint = .ok hint ∧ hint.presence = .hardware ∧
      (hint.age : ℤ) ≤ SystemTime.wholeSecond 130000000000 -
        (hireExt touchClaim 130000000000).presence.attestedAt := by
  have hissue : ∃ svid, touchSvid .none 130000000000 = .ok svid :=
    ⟨⟨_, _, _⟩, issue_eq_ok_iff.mpr ⟨by decide, rfl, rfl, rfl⟩⟩
  obtain ⟨svid, hsvid⟩ := hissue
  obtain ⟨hint, hparse, hpublishes, -, -, -, -, hage, -⟩ := tag_matches_token .transparent
    touchSigner touchClaim (.binarySha256 (fill 32 1)) [str "rp"] .none none 130000000000
    130000000000 svid (by decide) ⟨by decide, by decide⟩ ⟨by decide, by decide⟩
    (by with_unfolding_all decide) hsvid
  refine ⟨svid, hsvid, hint, hparse, ?_, hage (by decide) (by decide)⟩
  have hread : SvidHint.fromStr svid.hint = .ok (svidHint touchClaim 130000000000) := by
    rw [(publishes_of_issue hsvid).2]
    with_unfolding_all decide
  rw [Except.ok.inj (hparse.symm.trans hread)]
  decide

/-- The hint can read older than the token: a touch dated after the request is issued, its hint
carries the largest age, and the age computed from its token is negative. -/
theorem tag_older_than_token :
    ¬ ∀ (L : TokenLib) (C : Crypto) (signer : SvidSigner L) (claim : Claim)
      (consumer : ConsumerIdentity) (audiences : List Str) (require : PresenceLevel)
      (maxAge : Option Duration) (now signedAt : SystemTime) (svid : Jwtsvid L), unixEpoch ≤ now →
      claim.attestedAt.Representable → now.Representable → '&' ∉ claim.source →
      issue C signer claim consumer audiences require maxAge now signedAt = .ok svid →
      ∃ hint, SvidHint.fromStr svid.hint = .ok hint ∧
        (hireExt claim now).sources = [hint.source] ∧
        (hireExt claim now).identityAssurance = hint.identityAssurance ∧
        (hint.presence ≠ .none ↔ (hireExt claim now).presence.present = true) ∧
        (hint.age : ℤ) ≤ now.wholeSecond - (hireExt claim now).presence.attestedAt := by
  intro h
  have hissue : ∃ svid, touchSvid .none 50000000000 = .ok svid :=
    ⟨⟨_, _, _⟩, issue_eq_ok_iff.mpr ⟨by decide, rfl, rfl, rfl⟩⟩
  obtain ⟨svid, hsvid⟩ := hissue
  obtain ⟨hint, hparse, -, -, -, hage⟩ := h .transparent .transparent touchSigner touchClaim
    (.binarySha256 (fill 32 1)) [str "rp"] .none none 50000000000 50000000000 svid (by decide)
    ⟨by decide, by decide⟩ ⟨by decide, by decide⟩ (by with_unfolding_all decide) hsvid
  have hread : SvidHint.fromStr svid.hint = .ok (svidHint touchClaim 50000000000) := by
    rw [(publishes_of_issue hsvid).2]
    with_unfolding_all decide
  rw [Except.ok.inj (hparse.symm.trans hread)] at hage
  exact absurd hage (by decide)

end Publication

/-! ### A further piece of evidence -/

/-- A claim whose presence is above a requirement passes the gates exactly when its age is within
the bound, and within the presence TTL if anything is required. Assumes: the presence of the claim
is above what is required. -/
theorem passesGates_iff_of_le_presence {claim : Claim} {now : SystemTime} {require : PresenceLevel}
    {maxAge : Option Duration} (hrequire : require ≤ claim.presence) :
    passesGates require maxAge now claim = true ↔ withinMaxAge (claim.ageAt now) maxAge = true ∧
      (require = .none ∨ ∃ age, claim.ageAt now = some age ∧ age < presenceTtl) := by
  have hfresh : (∃ age, claim.ageAt now = some age ∧ age < presenceTtl) ↔
      (claim.ageAt now).any (· < presenceTtl) = true := by
    rw [Option.any_eq_true]
    simp only [decide_eq_true_eq]
  rw [passesGates, Bool.and_eq_true, decide_eq_true_eq, hfresh]
  refine and_congr_right fun _ ↦ ?_
  unfold presenceAt
  by_cases hany : (claim.ageAt now).any (· < presenceTtl) = true
  · rw [if_pos hany]
    exact iff_of_true hrequire (Or.inr hany)
  · rw [if_neg hany]
    constructor
    · intro hle
      exact Or.inl (le_antisymm hle (PresenceLevel.none_le _))
    · intro h
      exact (h.resolve_right hany).le

/-- A claim that passes the gates still passes them with a further piece of evidence exactly when
the item does not raise the presence of the claim, or is itself within the age bound, and within the
presence TTL if any presence is required. Assumes: the item binds, nothing was observed after the
clock reading, and the claim without the item passes. -/
theorem inserted_passes_iff (candidate : Candidate) (challenge : Bytes)
    (before after : List Evidence) (e : Evidence) (now : SystemTime) (require : PresenceLevel)
    (maxAge : Option Duration) (claim : Claim) (hbinds : e.bindsTo candidate challenge = true)
    (hobserved : ∀ x ∈ before ++ e :: after, x.tier.instant ≤ now)
    (hderive : Claim.derive candidate challenge (before ++ after) = some claim)
    (hpasses : passesGates require maxAge now claim = true) :
    ∃ claim', Claim.derive candidate challenge (before ++ e :: after) = some claim' ∧
      (passesGates require maxAge now claim' = true ↔
        e.tier.presence ≤ claim.presence ∨
          withinMaxAge (durationSince now e.tier.instant) maxAge = true ∧
            (require = .none ∨
              ∃ age, durationSince now e.tier.instant = some age ∧ age < presenceTtl)) := by
  obtain ⟨claim', hderive', hobservation⟩ := Claim.derive_insert hderive hbinds
  refine ⟨claim', hderive', ?_⟩
  have hrequire : require ≤ claim.presence := by
    have hle := hpasses
    rw [passesGates, Bool.and_eq_true, decide_eq_true_eq] at hle
    refine hle.2.trans ?_
    unfold presenceAt
    split_ifs
    · exact le_rfl
    · exact PresenceLevel.none_le _
  by_cases hraises : e.tier.presence ≤ claim.presence
  · -- The claim keeps its level, and its observation is no older than it was.
    refine iff_of_true ?_ (Or.inl hraises)
    obtain ⟨⟨seen, hseen, hseenAt⟩, -⟩ := Claim.observation_of_derive hderive'
    have hnow : claim'.attestedAt ≤ now := by
      have hinstant : seen.tier.instant = claim'.attestedAt :=
        congrArg (fun o ↦ (ofLex o).2) hseenAt
      exact hinstant ▸ hobserved seen (List.mem_filter.mp hseen).1
    have hle : claim.observation ≤ claim'.observation := hobservation ▸ le_max_left _ _
    have hpresence : claim'.presence = claim.presence := by
      refine le_antisymm ?_ (Prod.Lex.monotone_fst _ _ hle)
      rcases max_choice claim.observation e.observation with hmax | hmax
      · rw [hmax] at hobservation
        exact (congrArg (fun o ↦ (ofLex o).1) hobservation).le
      · rw [hmax] at hobservation
        exact (congrArg (fun o ↦ (ofLex o).1) hobservation).le.trans hraises
    have hinstant : claim.attestedAt ≤ claim'.attestedAt := by
      rcases Prod.Lex.toLex_le_toLex.mp hle with hlt | ⟨-, hle⟩
      · exact absurd hlt (by rw [hpresence]; exact lt_irrefl _)
      · exact hle
    exact passesGates_of_younger hpresence.ge (ageAt_of_le (hinstant.trans hnow))
      (ageAt_of_le hnow) (Int.toNat_le_toNat (Int.sub_le_sub_left hinstant _)) hpasses
  · -- The item takes the place of the observation, and the gates look at the item alone.
    have hlt : claim.observation < e.observation :=
      Prod.Lex.toLex_lt_toLex.mpr (Or.inl (not_le.mp hraises))
    rw [max_eq_right hlt.le] at hobservation
    have hpresence : claim'.presence = e.tier.presence :=
      congrArg (fun o ↦ (ofLex o).1) hobservation
    have hinstant : claim'.attestedAt = e.tier.instant :=
      congrArg (fun o ↦ (ofLex o).2) hobservation
    have hage : claim'.ageAt now = durationSince now e.tier.instant := by
      rw [Claim.ageAt, hinstant]
    rw [or_iff_right hraises, ← hage]
    refine passesGates_iff_of_le_presence ?_
    rw [hpresence]
    exact hrequire.trans (not_le.mp hraises).le

/-- A candidate the kernel names. -/
def accountCandidate : Candidate :=
  (Candidate.new (str "unix") .sshLocal (str "user/alice") (str "Alice")).withProofCost .silent

/-- What the kernel answered one thousand seconds after the epoch. -/
def accountAnswer : Evidence := .platformAssertion ⟨str "user/alice", 1000000000000⟩

/-- A touch so many seconds after the epoch. -/
def touchAt (secs : ℕ) : Evidence := .hardwarePresence ⟨Duration.fromSecs secs⟩

/-- A touch of the same minute costs nothing: the claim still passes a bound of sixty seconds. -/
theorem inserted_passes_iff_touch :
    ∃ claim', Claim.derive accountCandidate [] [touchAt 990, accountAnswer] = some claim' ∧
      passesGates .none (some (Duration.fromSecs 60)) 1000000000000 claim' = true := by
  obtain ⟨claim', hderive, hpasses⟩ := inserted_passes_iff accountCandidate [] [] [accountAnswer]
    (touchAt 990) 1000000000000 .none (some (Duration.fromSecs 60))
    ⟨str "unix", .iaa1, .none, ⟨.sshLocal, str "user/alice"⟩, str "Alice", 1000000000000⟩
    (by decide) (by decide) (by with_unfolding_all decide) (by decide)
  exact ⟨claim', hderive, hpasses.mpr (Or.inr ⟨by decide, Or.inl rfl⟩)⟩

/-- A genuine touch can cost an identity its credential: the answer of the kernel alone is young
enough for a bound of sixty seconds, and with a touch of ten minutes before it is not. -/
theorem insertion_refuses :
    ¬ ∀ (candidate : Candidate) (challenge : Bytes) (before after : List Evidence) (e : Evidence)
      (now : SystemTime) (require : PresenceLevel) (maxAge : Option Duration) (claim : Claim),
      e.bindsTo candidate challenge = true →
      (∀ x ∈ before ++ e :: after, x.tier.instant ≤ now) →
      Claim.derive candidate challenge (before ++ after) = some claim →
      passesGates require maxAge now claim = true →
      ∃ claim', Claim.derive candidate challenge (before ++ e :: after) = some claim' ∧
        passesGates require maxAge now claim' = true := by
  intro h
  obtain ⟨claim', hderive, hpasses⟩ := h accountCandidate [] [] [accountAnswer] (touchAt 400)
    1000000000000 .none (some (Duration.fromSecs 60))
    ⟨str "unix", .iaa1, .none, ⟨.sshLocal, str "user/alice"⟩, str "Alice", 1000000000000⟩
    (by decide) (by decide) (by with_unfolding_all decide) (by decide)
  have hstale : Claim.derive accountCandidate [] [touchAt 400, accountAnswer] = some
      ⟨str "unix", .iaa1, .hardware, ⟨.sshLocal, str "user/alice"⟩, str "Alice", 400000000000⟩ := by
    with_unfolding_all decide
  obtain rfl := Option.some.inj (hstale.symm.trans hderive)
  exact absurd hpasses (by decide)

end Hire.Grpc
