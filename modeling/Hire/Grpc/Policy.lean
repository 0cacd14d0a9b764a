import Hire.Grpc.Service
import Mathlib.Data.List.Perm.Basic

/-!
# The strictest policy wins

Every audience of a request carries its own policy, and the request is gated once, on the strictest
presence level and the tightest age bound any of them names. `passesGates_iff` says that this one
gate is the conjunction of the policies: a claim passes exactly when it satisfies every audience
(`SatisfiesPolicy`). The order of the audiences and repetitions among them therefore cannot matter,
and a further audience can only remove identities: `roots_sublist` compares two requests that
differ in their audiences only, and says that the identities served to the one with more policies
are, in order, among those served to the other.

`strictest_policy_wins` collects this for a whole run of `fetchJwtsvid`.
-/

set_option autoImplicit false
set_option relaxedAutoImplicit false

namespace Hire.Grpc

open Hire.Library Hire.Core Hire.Attestors

/-! ### One gate for all audiences -/

/-- A claim satisfies the policy of an audience: its presence after decay is at least the level the
audience requires, and its age is measurable and strictly below a bound the audience names. -/
def SatisfiesPolicy (ext : AudienceExtensions) (now : SystemTime) (claim : Claim) : Prop :=
  ext.requirePresence ≤ presenceAt claim now ∧
    ∀ bound, ext.maxAge = some bound → ∃ age, claim.ageAt now = some age ∧ age < bound

theorem foldl_max_le_iff {exts : List AudienceExtensions} {start level : PresenceLevel} :
    exts.foldl (fun acc ext ↦ max acc ext.requirePresence) start ≤ level ↔
      start ≤ level ∧ ∀ ext ∈ exts, ext.requirePresence ≤ level := by
  induction exts generalizing start with
  | nil => simp
  | cons ext rest ih =>
    rw [List.foldl_cons, ih, max_le_iff, List.forall_mem_cons, and_assoc]

/-- A level satisfies the strictest requirement exactly when it satisfies every one. -/
theorem requirePresence_le_iff {exts : List AudienceExtensions} {level : PresenceLevel} :
    requirePresence exts ≤ level ↔ ∀ ext ∈ exts, ext.requirePresence ≤ level := by
  unfold requirePresence
  rw [foldl_max_le_iff]
  exact and_iff_right (PresenceLevel.none_le level)

/-- An age satisfies the tightest bound exactly when it satisfies every bound that is named. -/
theorem withinMaxAge_maxAge_iff {exts : List AudienceExtensions} {age : Option Duration} :
    withinMaxAge age (maxAge exts) = true ↔
      ∀ ext ∈ exts, ∀ bound, ext.maxAge = some bound → ∃ a, age = some a ∧ a < bound := by
  have hnamed : ∀ bound, bound ∈ exts.filterMap (·.maxAge) ↔
      ∃ ext ∈ exts, ext.maxAge = some bound := fun bound ↦ List.mem_filterMap
  unfold maxAge
  cases hmin : (exts.filterMap (·.maxAge)).min? with
  | none =>
    rw [List.min?_eq_none_iff] at hmin
    refine ⟨fun _ ext hext bound hbound ↦ ?_, fun _ ↦ rfl⟩
    have hmem := (hnamed bound).mpr ⟨ext, hext, hbound⟩
    rw [hmin] at hmem
    cases hmem
  | some tightest =>
    obtain ⟨hmem, hle⟩ := List.min?_eq_some_iff.mp hmin
    simp only [withinMaxAge, Option.any_eq_true, decide_eq_true_eq]
    constructor
    · rintro ⟨a, rfl, ha⟩ ext hext bound hbound
      exact ⟨a, rfl, lt_of_lt_of_le ha (hle bound ((hnamed bound).mpr ⟨ext, hext, hbound⟩))⟩
    · intro h
      obtain ⟨ext, hext, hbound⟩ := (hnamed tightest).mp hmem
      exact h ext hext tightest hbound

/-- A claim passes the gates of a request exactly when it satisfies the policy of every audience. -/
theorem passesGates_iff {exts : List AudienceExtensions} {now : SystemTime} {claim : Claim} :
    passesGates (requirePresence exts) (maxAge exts) now claim = true ↔
      ∀ ext ∈ exts, SatisfiesPolicy ext now claim := by
  unfold passesGates SatisfiesPolicy
  rw [Bool.and_eq_true, decide_eq_true_eq, withinMaxAge_maxAge_iff, requirePresence_le_iff]
  constructor
  · rintro ⟨hage, hpresence⟩ ext hext
    exact ⟨hpresence ext hext, hage ext hext⟩
  · intro h
    exact ⟨fun ext hext ↦ (h ext hext).2, fun ext hext ↦ (h ext hext).1⟩

namespace WorkloadApiService

variable {L : TokenLib} {W : Type} {C : Crypto}

/-! ### Two requests that differ in their audiences -/

/-- A request that is admitted is admitted with other audiences that parse. -/
theorem acceptRequest_with_audience {peer : Option ConsumerIdentity} {req : JwtsvidRequest}
    {admitted : Admitted} {audience : List Str} {exts : List AudienceExtensions}
    (hadmitted : acceptRequest peer req = .ok admitted) (hne : audience ≠ [])
    (hparse : List.Forall₂ (fun raw ext ↦ AudienceExtensions.parse raw = .ok ext) audience exts) :
    acceptRequest peer { req with audience } = .ok { admitted with exts } := by
  obtain ⟨hpeer, -, -, hname⟩ := acceptRequest_eq_ok_iff.mp hadmitted
  exact acceptRequest_eq_ok_iff.mpr ⟨hpeer, hne, hparse, hname⟩

/-- Where signing succeeds, the identities served to a request are, in order, among those served to
the same request with audiences that name no further policy. Assumes: signing succeeds, and
whenever the audiences of the request parse, the others parse to a part of the same policies. -/
theorem roots_sublist {service : WorkloadApiService L W} {readings : Readings}
    (hsign : service.SigningSucceeds C readings) (peer : Option ConsumerIdentity)
    (req : JwtsvidRequest) (w : W) (audience : List Str)
    (hne : req.audience ≠ [] → audience ≠ [])
    (hparse : ∀ exts,
      List.Forall₂ (fun raw ext ↦ AudienceExtensions.parse raw = .ok ext) req.audience exts →
      ∃ fewer, List.Forall₂ (fun raw ext ↦ AudienceExtensions.parse raw = .ok ext) audience fewer ∧
        fewer ⊆ exts) :
    (service.fetchJwtsvid C peer req readings w).roots.Sublist
      (service.fetchJwtsvid C peer { req with audience } readings w).roots := by
  by_cases hserved : (service.fetchJwtsvid C peer req readings w).served = []
  · rw [Outcome.roots, hserved]
    exact List.nil_sublist _
  obtain ⟨admitted, challenge, claims, out, hadmitted, hchallenge, hclaims, hout, heq⟩ :=
    served_ne_nil hserved
  obtain ⟨-, haudience, hexts, -⟩ := acceptRequest_eq_ok_iff.mp hadmitted
  obtain ⟨fewer, hfewer, hsubset⟩ := hparse _ hexts
  have hadmitted' := acceptRequest_with_audience hadmitted (hne haudience) hfewer
  obtain ⟨out₁, hout₁, hfilter₁⟩ := serve_eq_filter hsign admitted claims
  obtain ⟨out₂, hout₂, hfilter₂⟩ :=
    serve_eq_filter hsign { admitted with exts := fewer } claims
  have hrun₁ := (served_of_gather hadmitted hchallenge hclaims hout₁).1
  have hrun₂ := (served_of_gather hadmitted' hchallenge hclaims hout₂).1
  have hgates : ∀ claim, gates admitted readings claim = true →
      gates { admitted with exts := fewer } readings claim = true := by
    intro claim hclaim
    exact passesGates_iff.mpr fun ext hext ↦ passesGates_iff.mp hclaim ext (hsubset hext)
  have hsublist := (List.monotone_filter_right claims hgates).map Claim.spiffeId
  rw [← hfilter₁, ← hfilter₂, List.map_map, List.map_map] at hsublist
  rw [Outcome.roots, Outcome.roots, hrun₁, hrun₂]
  exact hsublist

/-- A request one of whose audiences does not parse is refused with a status and serves nothing. -/
theorem refused_of_parse_error (service : WorkloadApiService L W) (peer : Option ConsumerIdentity)
    {req : JwtsvidRequest} (readings : Readings) (w : W) {raw : Str} {e : AudienceParseError}
    (hraw : raw ∈ req.audience) (herror : AudienceExtensions.parse raw = .error e) :
    (service.fetchJwtsvid C peer req readings w).served = [] ∧
      ∃ status, (service.fetchJwtsvid C peer req readings w).reply = .error (.error status) := by
  unfold fetchJwtsvid
  cases hadmitted : acceptRequest peer req with
  | error status => exact ⟨rfl, status, rfl⟩
  | ok admitted =>
    obtain ⟨-, -, hexts, -⟩ := acceptRequest_eq_ok_iff.mp hadmitted
    obtain ⟨ext, -, hparse⟩ := exists_parsed hexts hraw
    cases herror.symm.trans hparse

/-- Every SVID of a reply satisfies the policy of every audience it names, and names the parsed
audiences in request order. -/
theorem served_satisfies {service : WorkloadApiService L W} {peer : Option ConsumerIdentity}
    {req : JwtsvidRequest} {readings : Readings} {w : W} {claim : Claim} {svid : Jwtsvid L}
    (hserved : (claim, svid) ∈ (service.fetchJwtsvid C peer req readings w).served) :
    ∃ exts, List.Forall₂ (fun raw ext ↦ AudienceExtensions.parse raw = .ok ext) req.audience exts ∧
      (∀ ext ∈ exts, SatisfiesPolicy ext readings.now claim) ∧
      ∃ secs hireExt, L.encode (service.signer.svidHeader C)
        (SvidSigner.svidClaims secs svid.spiffeId (exts.map (·.audience)) hireExt).toValue
          service.signer.encodingKey = .ok svid.svid := by
  obtain ⟨admitted, -, -, j, hadmitted, -, -, -, hissue⟩ := issued_of_mem_served hserved
  obtain ⟨hgates, hsign, hid, -⟩ := issue_eq_ok_iff.mp hissue
  obtain ⟨sinceEpoch, -, hencode⟩ := (SvidSigner.signJwtSvid_eq_ok_iff C).mp hsign
  exact ⟨admitted.exts, (acceptRequest_eq_ok_iff.mp hadmitted).2.2.1, passesGates_iff.mp hgates, _,
    _, hid ▸ hencode⟩

/-- The strictest policy wins, whatever the audiences. If an audience does not parse, nothing is
issued. Every SVID of a reply satisfies the policy of every audience it names, and its audiences
are the parsed ones in request order. A further audience, at any position, adds no identity. The
order of the audiences does not change which identities are served. -/
theorem strictest_policy_wins (C : Crypto) (service : WorkloadApiService L W)
    (peer : Option ConsumerIdentity) (req : JwtsvidRequest) (readings : Readings) (w : W) :
    (∀ raw ∈ req.audience, ∀ e, AudienceExtensions.parse raw = .error e →
      (service.fetchJwtsvid C peer req readings w).served = [] ∧
        ∃ status, (service.fetchJwtsvid C peer req readings w).reply = .error (.error status)) ∧
    (∀ svids, (service.fetchJwtsvid C peer req readings w).reply = .ok svids →
      ∃ exts,
        List.Forall₂ (fun raw ext ↦ AudienceExtensions.parse raw = .ok ext) req.audience exts ∧
        ∀ svid ∈ svids, ∃ claim,
          (claim, svid) ∈ (service.fetchJwtsvid C peer req readings w).served ∧
          (∀ ext ∈ exts, ext.requirePresence ≤ presenceAt claim readings.now ∧
            ∀ bound, ext.maxAge = some bound →
              ∃ age, claim.ageAt readings.now = some age ∧ age < bound) ∧
          ∃ secs hireExt, L.encode (service.signer.svidHeader C)
            (SvidSigner.svidClaims secs svid.spiffeId (exts.map (·.audience)) hireExt).toValue
              service.signer.encodingKey = .ok svid.svid) ∧
    (service.SigningSucceeds C readings → req.audience ≠ [] →
      ∀ before after extra, req.audience = before ++ after →
      ∀ root ∈ (service.fetchJwtsvid C peer { req with audience := before ++ extra :: after }
          readings w).roots,
        root ∈ (service.fetchJwtsvid C peer req readings w).roots) ∧
    (service.SigningSucceeds C readings → ∀ audience, audience.Perm req.audience →
      (service.fetchJwtsvid C peer { req with audience } readings w).roots =
        (service.fetchJwtsvid C peer req readings w).roots) := by
  refine ⟨fun raw hraw e herror ↦ refused_of_parse_error service peer readings w hraw herror,
    fun svids hreply ↦ ?_, fun hsign hne before after extra hsplit root hroot ↦ ?_,
    fun hsign audience hperm ↦ ?_⟩
  · obtain ⟨rfl, hserved⟩ := served_of_reply hreply
    obtain ⟨⟨claim₀, svid₀⟩, hmem₀⟩ := List.exists_mem_of_ne_nil _ hserved
    obtain ⟨exts, hexts, -, -⟩ := served_satisfies hmem₀
    refine ⟨exts, hexts, fun svid hsvid ↦ ?_⟩
    obtain ⟨⟨claim, svid'⟩, hmem, rfl⟩ := List.mem_map.mp hsvid
    obtain ⟨exts', hexts', hpolicy, htoken⟩ := served_satisfies hmem
    obtain rfl : exts' = exts :=
      Except.ok.inj ((parseAudiences_eq_ok_iff.mpr hexts').symm.trans
        (parseAudiences_eq_ok_iff.mpr hexts))
    exact ⟨claim, hmem, hpolicy, htoken⟩
  · have hfewer : req.audience.Sublist (before ++ extra :: after) := by
      rw [hsplit]
      exact (List.sublist_cons_self extra after).append_left before
    have hsublist := roots_sublist hsign peer { req with audience := before ++ extra :: after } w
      req.audience (fun _ ↦ hne) fun exts hexts ↦ by
        obtain ⟨kept, hkept, hsub⟩ := parsed_of_sublist hfewer hexts
        exact ⟨kept, hkept, hsub.subset⟩
    exact hsublist.subset hroot
  · have hsublist : ∀ (first second : List Str), second.Perm first →
        (service.fetchJwtsvid C peer { req with audience := first } readings w).roots.Sublist
          (service.fetchJwtsvid C peer { req with audience := second } readings w).roots := by
      intro first second hperm
      refine roots_sublist hsign peer { req with audience := first } w second ?_
        fun exts hexts ↦ ?_
      · intro hne hnil
        exact hne (hnil ▸ hperm).symm.eq_nil
      · obtain ⟨fewer, hfewer, hsame⟩ := List.perm_comp_forall₂ hperm hexts
        exact ⟨fewer, hfewer, hsame.subset⟩
    exact (hsublist audience req.audience hperm.symm).antisymm
      (hsublist req.audience audience hperm)

/-- The kernel proves one identity, which it has observed just now. -/
def kernelSources : List (Attestor Unit) :=
  [.constant (str "kernel")
    [(Candidate.new (str "kernel") .sshLocal (str "user/alice")
      (str "Alice")).withProofCost .silent]
    [.platformAssertion ⟨str "user/alice", second 100⟩]]

/-- Where an audience with an age bound and a plain one are asked for, the identity is served, so it
is served for the plain one alone, and in the other order too. -/
theorem strictest_policy_wins_two_audiences :
    let roots (audience : List Str) := ((transparent kernelSources).fetchJwtsvid .transparent
      (some someBinary) ⟨audience, []⟩ (readingsAt (second 101)) ()).roots
    let bounded := str "https://rp.example?hire_max_age=60"
    let plain := str "https://peer.example"
    let alice : SpiffeId := ⟨.sshLocal, str "user/alice"⟩
    alice ∈ roots [bounded, plain] ∧ alice ∈ roots [plain] ∧
      roots [plain, bounded] = roots [bounded, plain] := by
  intro roots bounded plain alice
  have hsign := transparent_signingSucceeds .transparent (transparent kernelSources)
    (show 0 ≤ second 101 by decide)
  have hserved : alice ∈ roots [bounded, plain] := by with_unfolding_all decide
  obtain ⟨-, -, hfurther, -⟩ := strictest_policy_wins .transparent (transparent kernelSources)
    (some someBinary) ⟨[plain], []⟩ (readingsAt (second 101)) ()
  obtain ⟨-, -, -, hperm⟩ := strictest_policy_wins .transparent (transparent kernelSources)
    (some someBinary) ⟨[bounded, plain], []⟩ (readingsAt (second 101)) ()
  exact ⟨hserved, hfurther hsign (by decide) [] [plain] bounded rfl alice hserved,
    hperm hsign [plain, bounded] (List.Perm.swap ..)⟩

end WorkloadApiService

end Hire.Grpc
