import Hire.Grpc.Service

/-!
# Proving an identity to a peer

`hire prove` of `hire/src/main.rs`. The command puts the challenge of a peer behind an audience as
`?challenge=`, asks the daemon for that audience and prints the first token. It builds the string by
concatenation, and the daemon cuts it at the first question mark and at every `&`, takes the policy
out and puts the ordinary parameters back together (`AudienceExtensions.parse`).

What the two make of each other is said piece by piece. The challenge up to its first `&` ends up in
one parameter with the end of the audience (`audienceParams_audienceWithChallenge`), so an audience
whose query ends in a policy spoils that policy, and the rest of the challenge is read as parameters
of its own. `prove_binds_challenge_iff` says when the policy of the audience is kept and when two
challenges are told apart by what is signed.

The command is modelled here up to the token it prints, on a service. The printing is part of the
command line (`Command.prove`), and `run_prove_over` connects the two.
-/

set_option autoImplicit false
set_option relaxedAutoImplicit false

namespace Hire.Cli

open Hire.Library Hire.Core Hire.Grpc

/-! ### The command -/

/-- Why the command exits without a token. -/
inductive ProveError
  | unknownFlag (flag : Str)
  | missingAudience
  | missingChallenge
  | refused (status : Status)
  | noSvids
  deriving DecidableEq

/-- What the command prints on its way out. -/
def ProveError.lines : ProveError → List Str
  | .unknownFlag flag => [str "unknown flag: " ++ flag]
  | .missingAudience => [str "error: --audience is required",
      str "usage: hire prove --audience <url> --challenge <nonce>"]
  | .missingChallenge => [str "error: --challenge is required",
      str "usage: hire prove --audience <url> --challenge <nonce>"]
  | .refused status => [str "error: hired: " ++ status.message]
  | .noSvids => [str "error: no SVIDs returned"]

/-- Read the flags; a flag that appears again replaces what it said before, and one with nothing
behind it says nothing. -/
def proveArgs (audience challenge : Option Str) : List Str → Except ProveError (Str × Str)
  | [] =>
    match audience, challenge with
    | none, _ => .error .missingAudience
    | some _, none => .error .missingChallenge
    | some audience, some challenge => .ok (audience, challenge)
  | [flag] =>
    if flag = str "--audience" then proveArgs none challenge []
    else if flag = str "--challenge" then proveArgs audience none []
    else .error (.unknownFlag flag)
  | flag :: value :: rest =>
    if flag = str "--audience" then proveArgs (some value) challenge rest
    else if flag = str "--challenge" then proveArgs audience (some value) rest
    else .error (.unknownFlag flag)

/-- The audience the command submits. -/
def audienceWithChallenge (audience challenge : Str) : Str :=
  audience ++ str "?challenge=" ++ challenge

/-- Prove an identity to a peer: the token the command prints. A daemon that panics is seen through
the transport, which makes a status of it. -/
def prove {L : TokenLib} {W : Type} (C : Crypto) (panicStatus : Str → Status)
    (service : WorkloadApiService L W) (peer : Option ConsumerIdentity) (args : List Str)
    (readings : Readings) (w : W) : Except ProveError L.Token :=
  match proveArgs none none args with
  | .error e => .error e
  | .ok (audience, challenge) =>
    let response :=
      service.fetchJwtsvid C peer ⟨[audienceWithChallenge audience challenge], []⟩ readings w
    match response.reply with
    | .error (.error status) => .error (.refused status)
    | .error (.panic message) => .error (.refused (panicStatus message))
    | .ok [] => .error .noSvids
    | .ok (svid :: _) => .ok svid.svid

/-! ### The string that is submitted -/

/-- The query of an audience up to its last `&`, without the empty pieces. -/
def frontParams (audience : Str) : List Str :=
  match splitOnce '?' audience with
  | some (_, query) => (query.splitOn '&').dropLast.filter (· ≠ [])
  | none => []

/-- The query of an audience behind its last `&`; empty where there is no query. -/
def lastPiece (audience : Str) : Str :=
  match splitOnce '?' audience with
  | some (_, query) => (query.splitOn '&').getLastD []
  | none => []

/-- A challenge up to its first `&`. -/
def firstPiece (challenge : Str) : Str := (challenge.splitOn '&').headD []

/-- The parameters a challenge carries behind its first `&`. -/
def laterParams (challenge : Str) : List Str := (challenge.splitOn '&').tail.filter (· ≠ [])

/-- The parameter that the end of an audience and the start of a challenge make. -/
def challengeParam (audience challenge : Str) : Str :=
  match splitOnce '?' audience with
  | some _ => lastPiece audience ++ (str "?challenge=" ++ firstPiece challenge)
  | none => str "challenge=" ++ firstPiece challenge

/-- The parameters of an audience are those in front and the last piece, where it is not empty. -/
theorem audienceParams_eq (audience : Str) :
    audienceParams audience = frontParams audience ++ [lastPiece audience].filter (· ≠ []) := by
  unfold audienceParams frontParams lastPiece
  cases splitOnce '?' audience with
  | none => simp
  | some parts =>
    have hne := List.splitOn_ne_nil '&' parts.2
    have hlast : (parts.2.splitOn '&').getLastD [] = (parts.2.splitOn '&').getLast hne := by
      rw [List.getLastD_eq_getLast?, List.getLast?_eq_getLast_of_ne_nil hne, Option.getD_some]
    dsimp only
    rw [← List.filter_append, hlast, List.dropLast_concat_getLast hne]

/-- A text without `&` in front of a challenge is in one piece with the start of the challenge. -/
theorem splitOn_append_challenge {text : Str} (htext : '&' ∉ text) (challenge : Str) :
    (text ++ challenge).splitOn '&' =
      (text ++ firstPiece challenge) :: (challenge.splitOn '&').tail := by
  rw [splitOn_append, List.splitOn_eq_singleton htext]
  rfl

/-- The submitted string keeps the base of the audience, and its parameters are those in front, the
parameter with the challenge, and the ones the challenge carries. -/
theorem audienceParams_audienceWithChallenge (audience challenge : Str) :
    audienceBase (audienceWithChallenge audience challenge) = audienceBase audience ∧
      audienceParams (audienceWithChallenge audience challenge) =
        frontParams audience ++ challengeParam audience challenge :: laterParams challenge := by
  cases hcut : splitOnce '?' audience with
  | none =>
    have hsubmitted : splitOnce '?' (audienceWithChallenge audience challenge) =
        some (audience, str "challenge=" ++ challenge) :=
      splitOnce_eq_some_iff.mpr ⟨by simp [audienceWithChallenge], splitOnce_eq_none_iff.mp hcut⟩
    have hpieces := splitOn_append_challenge (by simp : '&' ∉ str "challenge=") challenge
    unfold audienceBase audienceParams frontParams challengeParam laterParams
    rw [hsubmitted, hcut]
    refine ⟨rfl, ?_⟩
    dsimp only
    rw [hpieces, List.nil_append, List.filter_cons_of_pos (by simp)]
  | some parts =>
    obtain ⟨rfl, hbase⟩ := splitOnce_eq_some_iff.mp hcut
    have hsubmitted : splitOnce '?'
        (audienceWithChallenge (parts.1 ++ '?' :: parts.2) challenge) =
        some (parts.1, parts.2 ++ (str "?challenge=" ++ challenge)) :=
      splitOnce_eq_some_iff.mpr ⟨by simp [audienceWithChallenge], hbase⟩
    have hpieces := splitOn_append_challenge (by simp : '&' ∉ str "?challenge=") challenge
    unfold audienceBase audienceParams frontParams challengeParam lastPiece laterParams
    rw [hsubmitted, hcut]
    refine ⟨rfl, ?_⟩
    dsimp only
    rw [splitOn_append, hpieces, List.filter_append, List.headD_cons, List.tail_cons,
      List.filter_cons_of_pos (by simp)]

/-! ### The parameter with the challenge -/

/-- A policy has no question mark in it, so what stands behind one is no policy. -/
theorem isOrdinary_of_accepted {param : Str} (hmark : '?' ∈ param) (h : AcceptedParam param) :
    isOrdinary param = true := by
  rcases h with ⟨level, rfl⟩ | ⟨bound, val, secs, rfl, hsecs, -⟩ | hordinary
  · exfalso
    cases level <;> simp [presenceParam, PresenceLevel.display] at hmark
  · exfalso
    have hval : '?' ∈ val := by simpa using hmark
    rcases mem_of_u64FromStr hsecs hval with hplus | hdigit
    · exact absurd hplus (by decide)
    · exact absurd hdigit (by decide)
  · exact hordinary

/-- A parameter that does not start in the reserved namespace does not do so with a question mark
and more behind it. -/
theorem not_reserved_append {last : Str} (h : ¬str "hire_" <+: last) (more : Str) :
    ¬str "hire_" <+: last ++ '?' :: more := by
  intro hreserved
  rcases prefix_append_cases hreserved with ⟨-, hinside⟩ | ⟨rest, hsplit, hrest⟩
  · exact h hinside
  · cases rest with
    | nil =>
      rw [List.append_nil] at hsplit
      exact h (hsplit ▸ List.prefix_rfl)
    | cons c rest =>
      obtain ⟨rfl, -⟩ := List.cons_prefix_cons.mp hrest
      have hmark : '?' ∈ str "hire_" := hsplit ▸ by simp
      simp at hmark

/-- The parameter of a challenge alone is ordinary. -/
theorem isOrdinary_challenge (first : Str) : isOrdinary (str "challenge=" ++ first) = true := by
  have hname : paramName (str "challenge=" ++ first) = str "challenge" := by
    have hcut : splitOnce '=' (str "challenge=" ++ first) = some (str "challenge", first) :=
      splitOnce_eq_some_iff.mpr (by simp)
    unfold paramName
    rw [hcut]
  rw [AudienceExtensions.isOrdinary_eq_true_iff, hname]
  simp

/-- An ordinary piece, or none, stays ordinary with the challenge behind it: its name stays what it
was, or has a question mark in it. -/
theorem isOrdinary_append_challenge {last : Str} (hlast : last = [] ∨ isOrdinary last = true)
    (first : Str) : isOrdinary (last ++ (str "?challenge=" ++ first)) = true := by
  have hwhole : ¬str "hire_" <+: last ∧ (paramName last ≠ str "require_presence" ∨ last = []) ∧
      (paramName last ≠ str "max_age" ∨ last = []) := by
    rcases hlast with rfl | hlast
    · simp
    · obtain ⟨hreserved, hpresence, hage⟩ := AudienceExtensions.isOrdinary_eq_true_iff.mp hlast
      exact ⟨hreserved, .inl hpresence, .inl hage⟩
  have hnames : ∀ name : Str, '?' ∉ name → paramName last ≠ name ∨ last = [] →
      paramName (last ++ (str "?challenge=" ++ first)) ≠ name := by
    intro name hmark hne
    cases hcut : splitOnce '=' last with
    | some parts =>
      obtain ⟨rfl, hfree⟩ := splitOnce_eq_some_iff.mp hcut
      have hcut' : splitOnce '=' (parts.1 ++ '=' :: parts.2 ++ (str "?challenge=" ++ first)) =
          some (parts.1, parts.2 ++ (str "?challenge=" ++ first)) :=
        splitOnce_eq_some_iff.mpr ⟨by simp, hfree⟩
      unfold paramName at hne ⊢
      rw [hcut] at hne
      rw [hcut']
      exact hne.resolve_right (by simp)
    | none =>
      have hcut' : splitOnce '=' (last ++ (str "?challenge=" ++ first)) =
          some (last ++ str "?challenge", first) :=
        splitOnce_eq_some_iff.mpr ⟨by simp, by simp [splitOnce_eq_none_iff.mp hcut]⟩
      unfold paramName
      rw [hcut']
      rintro rfl
      simp at hmark
  rw [AudienceExtensions.isOrdinary_eq_true_iff]
  refine ⟨?_, hnames _ (by simp) hwhole.2.1, hnames _ (by simp) hwhole.2.2⟩
  simpa using not_reserved_append hwhole.1 (str "challenge=" ++ first)

/-- The parameter with the challenge is an ordinary one whenever it is accepted. -/
theorem isOrdinary_challengeParam_of_accepted {audience challenge : Str}
    (h : AcceptedParam (challengeParam audience challenge)) :
    isOrdinary (challengeParam audience challenge) = true := by
  unfold challengeParam at h ⊢
  cases hcut : splitOnce '?' audience with
  | none => exact isOrdinary_challenge _
  | some parts =>
    rw [hcut] at h
    exact isOrdinary_of_accepted (by simp) h

/-- The last piece of an accepted audience is empty, a policy, or ordinary. -/
theorem lastPiece_cases {audience : Str}
    (haudience : ∀ param ∈ audienceParams audience, AcceptedParam param) :
    lastPiece audience = [] ∨ AcceptedParam (lastPiece audience) := by
  by_cases hempty : lastPiece audience = []
  · exact .inl hempty
  · refine .inr (haudience _ ?_)
    rw [audienceParams_eq]
    simp [hempty]

/-- An accepted parameter that is not in the reserved namespace is ordinary. -/
theorem isOrdinary_of_not_reserved {param : Str} (h : AcceptedParam param)
    (hreserved : ¬str "hire_" <+: param) : isOrdinary param = true := by
  rcases h with ⟨level, rfl⟩ | ⟨bound, val, secs, rfl, -, -⟩ | hordinary
  · exact absurd (by simp [presenceParam]) hreserved
  · exact absurd (by simp) hreserved
  · exact hordinary

/-- The parameter with the challenge is accepted exactly when the query of the audience does not end
in the reserved namespace. Assumes: the audience is accepted. -/
theorem accepted_challengeParam_iff {audience : Str} (challenge : Str)
    (haudience : ∀ param ∈ audienceParams audience, AcceptedParam param) :
    AcceptedParam (challengeParam audience challenge) ↔ ¬str "hire_" <+: lastPiece audience := by
  constructor
  · intro haccepted hreserved
    have hordinary := isOrdinary_challengeParam_of_accepted haccepted
    -- The parameter starts with the last piece, so it would be in the reserved namespace.
    have hstart : lastPiece audience <+: challengeParam audience challenge := by
      unfold challengeParam
      cases hcut : splitOnce '?' audience with
      | none => simp [lastPiece, hcut]
      | some parts => exact List.prefix_append _ _
    exact (AudienceExtensions.isOrdinary_eq_true_iff.mp hordinary).1 (hreserved.trans hstart)
  · intro hreserved
    refine .inr (.inr ?_)
    unfold challengeParam
    cases splitOnce '?' audience with
    | none => exact isOrdinary_challenge _
    | some parts =>
      exact isOrdinary_append_challenge ((lastPiece_cases haudience).imp_right
        fun haccepted ↦ isOrdinary_of_not_reserved haccepted hreserved) _

/-! ### The policy of the audience is kept -/

/-- Two accepted strings with the same policies require the same. -/
theorem policy_eq_of_subset {raw raw' : Str} {ext ext' : AudienceExtensions}
    (h : AudienceExtensions.parse raw = .ok ext) (h' : AudienceExtensions.parse raw' = .ok ext')
    (hsubset : ∀ param, isOrdinary param = false →
      (param ∈ audienceParams raw ↔ param ∈ audienceParams raw')) :
    ext'.requirePresence = ext.requirePresence ∧ ext'.maxAge = ext.maxAge := by
  obtain ⟨hlevel, hbound⟩ := AudienceExtensions.stricter_of_subset h h'
    fun param hparam hpolicy ↦ (hsubset param hpolicy).mp hparam
  obtain ⟨hlevel', hbound'⟩ := AudienceExtensions.stricter_of_subset h' h
    fun param hparam hpolicy ↦ (hsubset param hpolicy).mpr hparam
  refine ⟨le_antisymm hlevel' hlevel, ?_⟩
  cases hage : ext.maxAge with
  | some bound =>
    obtain ⟨bound', hle, hage'⟩ := hbound bound hage
    obtain ⟨bound'', hle', hage''⟩ := hbound' bound' hage'
    obtain rfl : bound = bound'' := Option.some.inj (hage.symm.trans hage'')
    rw [hage', le_antisymm hle hle']
  | none =>
    cases hage' : ext'.maxAge with
    | none => rfl
    | some bound' =>
      obtain ⟨bound'', -, hage''⟩ := hbound' bound' hage'
      cases hage.symm.trans hage''

/-- In an accepted submission the parameter with the challenge is accepted. -/
theorem accepted_challengeParam_of_parse {audience challenge : Str} {ext : AudienceExtensions}
    (h : AudienceExtensions.parse (audienceWithChallenge audience challenge) = .ok ext) :
    AcceptedParam (challengeParam audience challenge) := by
  refine AudienceExtensions.exists_parse_iff.mp ⟨ext, h⟩ _ ?_
  rw [(audienceParams_audienceWithChallenge audience challenge).2]
  simp

/-- With a challenge that is one piece, an accepted audience is accepted with its own policy exactly
when its query does not end in the reserved namespace. -/
theorem policy_kept_iff {audience challenge : Str} {ext : AudienceExtensions}
    (h : AudienceExtensions.parse audience = .ok ext) (hchallenge : '&' ∉ challenge) :
    (∃ ext', AudienceExtensions.parse (audienceWithChallenge audience challenge) = .ok ext' ∧
      ext'.requirePresence = ext.requirePresence ∧ ext'.maxAge = ext.maxAge) ↔
        ¬str "hire_" <+: lastPiece audience := by
  have haudience := AudienceExtensions.exists_parse_iff.mp ⟨ext, h⟩
  have hparams : audienceParams (audienceWithChallenge audience challenge) =
      frontParams audience ++ [challengeParam audience challenge] := by
    have hlater : laterParams challenge = [] := by
      unfold laterParams
      rw [List.splitOn_eq_singleton hchallenge]
      rfl
    rw [(audienceParams_audienceWithChallenge audience challenge).2, hlater]
  rw [← accepted_challengeParam_iff challenge haudience]
  constructor
  · rintro ⟨ext', h', -, -⟩
    exact accepted_challengeParam_of_parse h'
  · intro haccepted
    have hordinary := isOrdinary_challengeParam_of_accepted haccepted
    have hlast : isOrdinary (lastPiece audience) = true ∨ lastPiece audience = [] := by
      refine (lastPiece_cases haudience).symm.imp_left fun hpiece ↦ ?_
      exact isOrdinary_of_not_reserved hpiece
        ((accepted_challengeParam_iff challenge haudience).mp haccepted)
    obtain ⟨ext', h'⟩ : ∃ ext',
        AudienceExtensions.parse (audienceWithChallenge audience challenge) = .ok ext' := by
      rw [AudienceExtensions.exists_parse_iff, hparams]
      intro param hparam
      rcases List.mem_append.mp hparam with hfront | hchallengeParam
      · refine haudience param ?_
        rw [audienceParams_eq]
        exact List.mem_append_left _ hfront
      · rw [List.mem_singleton.mp hchallengeParam]
        exact haccepted
    refine ⟨ext', h', policy_eq_of_subset h h' fun param hpolicy ↦ ?_⟩
    -- Neither the last piece of the audience nor the parameter with the challenge is a policy.
    have hne : ∀ other, isOrdinary other = true → param ≠ other := by
      rintro other hother rfl
      rw [hother] at hpolicy
      cases hpolicy
    rw [audienceParams_eq, hparams, List.mem_append, List.mem_append, List.mem_singleton,
      or_iff_left (hne _ hordinary), or_iff_left]
    intro hmem
    obtain ⟨hparam, hnonempty⟩ := List.mem_filter.mp hmem
    rw [List.mem_singleton] at hparam
    rcases hlast with hlast | hlast
    · exact hne _ hlast hparam
    · simp [hparam, hlast] at hnonempty

/-! ### Two challenges -/

/-- What a signed audience says of a challenge: the challenge up to its first `&`, and the ordinary
ones of the parameters it carries behind. -/
def boundPart (challenge : Str) : List Str :=
  firstPiece challenge :: (laterParams challenge).filter isOrdinary

/-- The ordinary parameters of an accepted submission. -/
theorem filter_isOrdinary_params {audience challenge : Str} {ext : AudienceExtensions}
    (h : AudienceExtensions.parse (audienceWithChallenge audience challenge) = .ok ext) :
    (audienceParams (audienceWithChallenge audience challenge)).filter isOrdinary =
      (frontParams audience).filter isOrdinary ++
        challengeParam audience challenge :: (laterParams challenge).filter isOrdinary := by
  have hordinary := isOrdinary_challengeParam_of_accepted (accepted_challengeParam_of_parse h)
  rw [(audienceParams_audienceWithChallenge audience challenge).2, List.filter_append,
    List.filter_cons_of_pos hordinary]

/-- The signed audience of a submission has the base of the audience and the ordinary parameters of
the submission. -/
theorem audience_reads_back {audience challenge : Str} {ext : AudienceExtensions}
    (h : AudienceExtensions.parse (audienceWithChallenge audience challenge) = .ok ext) :
    ext.audience = AudienceExtensions.rejoin (audienceBase audience)
        ((audienceParams (audienceWithChallenge audience challenge)).filter isOrdinary) ∧
      audienceParams ext.audience =
        (audienceParams (audienceWithChallenge audience challenge)).filter isOrdinary := by
  have hsigned := (AudienceExtensions.policy_of_parse h).2.2.2
  rw [(audienceParams_audienceWithChallenge audience challenge).1] at hsigned
  refine ⟨hsigned, ?_⟩
  rw [hsigned]
  exact (AudienceExtensions.rejoin_reads_back _ (AudienceExtensions.notMem_audienceBase audience)
    fun param hparam ↦ AudienceExtensions.of_mem_audienceParams (List.mem_filter.mp hparam).1).2

/-- The parameter with the challenge determines the first piece of the challenge. -/
theorem challengeParam_eq_iff {audience challenge challenge' : Str} :
    challengeParam audience challenge = challengeParam audience challenge' ↔
      firstPiece challenge = firstPiece challenge' := by
  unfold challengeParam
  cases splitOnce '?' audience with
  | none => exact List.append_right_inj _
  | some parts => exact (List.append_right_inj _).trans (List.append_right_inj _)

/-- Two challenges for one audience are told apart by what is signed exactly when they differ up to
the first `&` or in the ordinary parameters behind it. -/
theorem audience_ne_iff {audience challenge challenge' : Str} {ext ext' : AudienceExtensions}
    (h : AudienceExtensions.parse (audienceWithChallenge audience challenge) = .ok ext)
    (h' : AudienceExtensions.parse (audienceWithChallenge audience challenge') = .ok ext') :
    ext.audience ≠ ext'.audience ↔ boundPart challenge ≠ boundPart challenge' := by
  obtain ⟨hsigned, hread⟩ := audience_reads_back h
  obtain ⟨hsigned', hread'⟩ := audience_reads_back h'
  rw [filter_isOrdinary_params h] at hsigned hread
  rw [filter_isOrdinary_params h'] at hsigned' hread'
  refine not_congr ⟨fun heq ↦ ?_, fun heq ↦ ?_⟩
  · have hkept := hread.symm.trans ((congrArg audienceParams heq).trans hread')
    obtain ⟨hfirst, hlater⟩ := List.cons.inj (List.append_cancel_left hkept)
    unfold boundPart
    rw [challengeParam_eq_iff.mp hfirst, hlater]
  · obtain ⟨hfirst, hlater⟩ := List.cons.inj heq
    rw [hsigned, hsigned', challengeParam_eq_iff.mpr hfirst, hlater]

/-! ### What is signed -/

/-- A token the command prints is signed for one audience: the parsed form of what was submitted. -/
theorem signed_of_prove {L : TokenLib} {W : Type} {C : Crypto} {panicStatus : Str → Status}
    {service : WorkloadApiService L W} {peer : Option ConsumerIdentity} {args : List Str}
    {readings : Readings} {w : W} {token : L.Token}
    (h : prove C panicStatus service peer args readings w = .ok token) :
    ∃ audience challenge ext, proveArgs none none args = .ok (audience, challenge) ∧
      AudienceExtensions.parse (audienceWithChallenge audience challenge) = .ok ext ∧
      ∃ signedAt spiffeId hireExt,
        service.signer.signJwtSvid C signedAt spiffeId [ext.audience] hireExt = .ok token := by
  unfold prove at h
  split at h
  · cases h
  · rename_i audience challenge hargs
    dsimp only at h
    split at h
    · cases h
    · cases h
    · cases h
    · rename_i svid others hreply
      cases h
      -- The first SVID of the reply is one the issue loop served.
      have hfirst := (WorkloadApiService.served_of_reply hreply).1 ▸ List.mem_cons_self
      obtain ⟨⟨claim, svid'⟩, hmem, rfl⟩ := List.mem_map.mp hfirst
      obtain ⟨admitted, -, -, j, hadmitted, -, -, -, hissue⟩ :=
        WorkloadApiService.issued_of_mem_served hmem
      obtain ⟨-, -, hexts, -⟩ := acceptRequest_eq_ok_iff.mp hadmitted
      obtain ⟨ext, tail, hext, htail, hexts⟩ := List.forall₂_cons_left_iff.mp hexts
      cases htail
      obtain ⟨-, hsign, -, -⟩ := issue_eq_ok_iff.mp hissue
      rw [hexts] at hsign
      exact ⟨audience, challenge, ext, hargs, hext, _, _, _, hsign⟩

/-- When `hire prove` binds its challenge. With a challenge that is one piece, as every alphanumeric
one is, an accepted audience is accepted with its own presence requirement and age bound exactly
when the last piece of its query does not start in the reserved namespace. Two challenges that are
accepted for one audience are told apart by the audience that is signed exactly when they differ up
to their first `&` or in the ordinary parameters behind it. And the tokens the command prints are
signed for that audience alone. -/
theorem prove_binds_challenge_iff {L : TokenLib} {W : Type} (C : Crypto)
    (panicStatus : Str → Status) (service : WorkloadApiService L W) :
    (∀ (audience challenge : Str) (ext : AudienceExtensions),
      AudienceExtensions.parse audience = .ok ext → '&' ∉ challenge →
        ((∃ ext', AudienceExtensions.parse (audienceWithChallenge audience challenge) = .ok ext' ∧
          ext'.requirePresence = ext.requirePresence ∧ ext'.maxAge = ext.maxAge) ↔
            ¬str "hire_" <+: lastPiece audience)) ∧
    (∀ (audience challenge challenge' : Str) (ext ext' : AudienceExtensions),
      AudienceExtensions.parse (audienceWithChallenge audience challenge) = .ok ext →
      AudienceExtensions.parse (audienceWithChallenge audience challenge') = .ok ext' →
        (ext.audience ≠ ext'.audience ↔ boundPart challenge ≠ boundPart challenge')) ∧
    ∀ (peer : Option ConsumerIdentity) (args : List Str) (readings : Readings) (w : W)
      (token : L.Token), prove C panicStatus service peer args readings w = .ok token →
        ∃ audience challenge ext, proveArgs none none args = .ok (audience, challenge) ∧
          AudienceExtensions.parse (audienceWithChallenge audience challenge) = .ok ext ∧
          ∃ signedAt spiffeId hireExt,
            service.signer.signJwtSvid C signedAt spiffeId [ext.audience] hireExt = .ok token := by
  refine ⟨fun audience challenge ext h hchallenge ↦ ?_,
    fun audience challenge challenge' ext ext' h h' ↦ ?_, fun peer args readings w token h ↦ ?_⟩
  · exact policy_kept_iff h hchallenge
  · exact audience_ne_iff h h'
  · exact signed_of_prove h

/-- An audience whose query ends in an ordinary parameter keeps its age bound with a challenge
behind it, and two challenges for it are signed as two audiences. -/
theorem prove_binds_challenge_iff_nonces :
    let audience := str "https://x?hire_max_age=60&v=1"
    (∃ ext, AudienceExtensions.parse (audienceWithChallenge audience (str "abc")) = .ok ext ∧
      ext.requirePresence = .none ∧ ext.maxAge = some (Duration.fromSecs 60)) ∧
    str "https://x?v=1?challenge=abc" ≠ str "https://x?v=1?challenge=abd" := by
  intro audience
  have hplain : AudienceExtensions.parse audience =
      .ok ⟨str "https://x?v=1", .none, some (Duration.fromSecs 60)⟩ := by
    with_unfolding_all decide
  have hfirst : AudienceExtensions.parse (audienceWithChallenge audience (str "abc")) =
      .ok ⟨str "https://x?v=1?challenge=abc", .none, some (Duration.fromSecs 60)⟩ := by
    with_unfolding_all decide
  have hsecond : AudienceExtensions.parse (audienceWithChallenge audience (str "abd")) =
      .ok ⟨str "https://x?v=1?challenge=abd", .none, some (Duration.fromSecs 60)⟩ := by
    with_unfolding_all decide
  obtain ⟨hkept, hdiffer, -⟩ := prove_binds_challenge_iff .transparent
    (fun _ ↦ ⟨.internal, []⟩) (WorkloadApiService.transparent [])
  refine ⟨(hkept audience (str "abc") _ hplain (by with_unfolding_all decide)).mpr ?_, ?_⟩
  · with_unfolding_all decide
  · exact (hdiffer audience (str "abc") (str "abd") _ _ hfirst hsecond).mpr
      (by with_unfolding_all decide)

/-- An audience that ends in an age bound is refused with any challenge behind it, and a challenge
that carries a policy, or no more than a separator, is signed as one that does not. -/
theorem prove_loses_challenge :
    (AudienceExtensions.parse (str "https://x?hire_max_age=60") =
        .ok ⟨str "https://x", .none, some (Duration.fromSecs 60)⟩ ∧
      AudienceExtensions.parse
          (audienceWithChallenge (str "https://x?hire_max_age=60") (str "abc")) =
        .error (.invalidMaxAge (str "60?challenge=abc"))) ∧
    (AudienceExtensions.parse (audienceWithChallenge (str "https://x") (str "abc")) =
        .ok ⟨str "https://x?challenge=abc", .none, none⟩ ∧
      AudienceExtensions.parse (audienceWithChallenge (str "https://x") (str "abc&")) =
        .ok ⟨str "https://x?challenge=abc", .none, none⟩) ∧
    (¬∀ (audience challenge : Str) (ext : AudienceExtensions),
      AudienceExtensions.parse audience = .ok ext → challenge ≠ [] →
      (∀ c ∈ challenge, c.isAlphanum = true) →
        ∃ ext', AudienceExtensions.parse (audienceWithChallenge audience challenge) = .ok ext' ∧
          ext'.requirePresence = ext.requirePresence ∧ ext'.maxAge = ext.maxAge) ∧
    ¬∀ (audience challenge challenge' : Str) (accepted ext ext' : AudienceExtensions),
      AudienceExtensions.parse audience = .ok accepted → challenge ≠ challenge' →
      AudienceExtensions.parse (audienceWithChallenge audience challenge) = .ok ext →
      AudienceExtensions.parse (audienceWithChallenge audience challenge') = .ok ext' →
        ext.audience ≠ ext'.audience := by
  have hbound : AudienceExtensions.parse (str "https://x?hire_max_age=60") =
      .ok ⟨str "https://x", .none, some (Duration.fromSecs 60)⟩ := by
    with_unfolding_all decide
  have hrefused : AudienceExtensions.parse
      (audienceWithChallenge (str "https://x?hire_max_age=60") (str "abc")) =
        .error (.invalidMaxAge (str "60?challenge=abc")) := by
    with_unfolding_all decide
  have hshort : AudienceExtensions.parse (audienceWithChallenge (str "https://x") (str "abc")) =
      .ok ⟨str "https://x?challenge=abc", .none, none⟩ := by
    with_unfolding_all decide
  have hlong : AudienceExtensions.parse (audienceWithChallenge (str "https://x") (str "abc&")) =
      .ok ⟨str "https://x?challenge=abc", .none, none⟩ := by
    with_unfolding_all decide
  have hbare : AudienceExtensions.parse (str "https://x") = .ok ⟨str "https://x", .none, none⟩ := by
    with_unfolding_all decide
  have halphanumeric : ((str "abc").all Char.isAlphanum) = true := by
    with_unfolding_all decide
  refine ⟨⟨hbound, hrefused⟩, ⟨hshort, hlong⟩, fun hkept ↦ ?_, fun hdiffer ↦ ?_⟩
  · obtain ⟨ext', hparse, -, -⟩ :=
      hkept _ _ _ hbound (by simp) (List.all_eq_true.mp halphanumeric)
    cases hrefused.symm.trans hparse
  · exact hdiffer _ _ _ _ _ _ hbare (by simp) hshort hlong rfl

end Hire.Cli
