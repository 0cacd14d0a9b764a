import Hire.Attestors.GpgKeyring

/-!
# What a colon listing says

`GpgKeyring.parseGpgColons` carries four pieces of state from line to line and closes a key at the
next `sec` record and at the end. Here the listing is read record by record instead: `segments` cuts
it at the `sec` lines, and `segmentCandidate` looks at one of the segments and at nothing else. The
two agree (`parseGpgColons_eq_segments`), so nothing is carried from one key to another.

The invariant of the loop is what the key that is being read will become: `closeKey` is its
candidate once the lines that are left of its segment are read, and a line that is not a `sec`
record moves from the lines that are left into the state (`closeKey_colonStep`).
-/

set_option autoImplicit false
set_option relaxedAutoImplicit false

namespace Hire.Attestors.GpgKeyring

open Hire.Library Hire.Core

/-! ### Records -/

/-- A colon field of a line, the first one with number zero. -/
def field (line : Str) (n : ℕ) : Option Str := (line.splitOn ':')[n]?

/-- Whether the first field of a line is a record type. -/
def isRecord (kind line : Str) : Bool := field line 0 = some kind

/-- Whether a line opens a key. -/
def isSec (line : Str) : Bool := isRecord (str "sec") line

/-- Whether a line carries a fingerprint. -/
def isFpr (line : Str) : Bool := isRecord (str "fpr") line

/-- The user ID of a line: the tenth field of a `uid` record that is not revoked. -/
def liveUid (line : Str) : Option Str :=
  if isRecord (str "uid") line && !isRevoked (field line 1) then field line 9 else none

/-- Whether a `sec` record is of a key that is held and not revoked: it has a fifteenth field other
than `#`, and its second field is not `r`. -/
def isEnrollable (sec : Str) : Bool :=
  (field sec 14).any (· ≠ str "#") && !isRevoked (field sec 1)

/-- The candidate of one segment of a listing: of a `sec` record and the lines up to the next. -/
def segmentCandidate (U : Unicode) (segment : Str × List Str) : Option Candidate :=
  if isEnrollable segment.1 then do
    let fpr ← segment.2.find? isFpr
    let fingerprint ← field fpr 9
    let uid ← segment.2.findSome? liveUid
    pure (makeCandidate U fingerprint uid)
  else none

/-- One line of the listing, by its record type. -/
theorem colonStep_eq (U : Unicode) (s : ColonState) (line : Str) :
    colonStep U s line =
      if isSec line then
        ⟨s.candidates ++ flushKey U s.currentFp s.currentUid s.enrollable, none, none,
          isEnrollable line, true⟩
      else if isFpr line ∧ s.wantPrimaryFpr then
        { s with currentFp := field line 9, wantPrimaryFpr := false }
      else if s.currentUid = none then { s with currentUid := liveUid line }
      else s := by
  have hhead : (line.splitOn ':').head? = field line 0 := List.head?_eq_getElem?
  unfold colonStep
  simp only [hhead, isSec, isFpr, isRecord, decide_eq_true_eq]
  by_cases hsec : field line 0 = some (str "sec")
  · rw [if_pos hsec, if_pos hsec]
    rfl
  by_cases hfpr : field line 0 = some (str "fpr") ∧ s.wantPrimaryFpr = true
  · rw [if_neg hsec, if_neg hsec, if_pos hfpr, if_pos hfpr]
    rfl
  rw [if_neg hsec, if_neg hsec, if_neg hfpr, if_neg hfpr]
  -- A line that names no live user ID leaves a user ID that is not there as it is.
  by_cases hnone : s.currentUid = none
  · rw [if_pos hnone]
    by_cases hlive : field line 0 = some (str "uid") ∧ isRevoked (field line 1) = false
    · have huid : liveUid line = field line 9 := by
        simp [liveUid, isRecord, hlive]
      rw [if_pos ⟨hlive.1, hnone, hlive.2⟩, huid]
      rfl
    · have huid : liveUid line = none := by
        unfold liveUid isRecord
        rw [if_neg]
        rwa [Bool.and_eq_true, decide_eq_true_eq, Bool.not_eq_true']
      rw [if_neg fun h ↦ hlive ⟨h.1, h.2.2⟩, huid, ← hnone]
  · rw [if_neg hnone, if_neg fun h ↦ hnone h.2.1]

/-! ### The key that is being read -/

/-- The fingerprint of the key that is being read, once lines of its segment are read. -/
def fingerprintAfter (s : ColonState) (body : List Str) : Option Str :=
  match s.wantPrimaryFpr, body.find? isFpr with
  | true, some fpr => field fpr 9
  | _, _ => s.currentFp

/-- The user ID of the key that is being read, once lines of its segment are read. -/
def uidAfter (s : ColonState) (body : List Str) : Option Str :=
  s.currentUid.or (body.findSome? liveUid)

/-- The candidate of the key that is being read, once lines of its segment are read. -/
def closeKey (U : Unicode) (s : ColonState) (body : List Str) : List Candidate :=
  flushKey U (fingerprintAfter s body) (uidAfter s body) s.enrollable

theorem closeKey_nil (U : Unicode) (s : ColonState) :
    closeKey U s [] = flushKey U s.currentFp s.currentUid s.enrollable := by
  simp [closeKey, fingerprintAfter, uidAfter]

/-- Lines before the first `sec` record name nothing. -/
theorem closeKey_of_not_enrollable {U : Unicode} {s : ColonState} {body : List Str}
    (h : s.enrollable = false) : closeKey U s body = [] := by
  unfold closeKey
  rw [h]
  rfl

/-- A fingerprint is no user ID. -/
theorem liveUid_of_isFpr {line : Str} (h : isFpr line = true) : liveUid line = none := by
  have hkind : field line 0 = some (str "fpr") := of_decide_eq_true h
  unfold liveUid isRecord
  rw [hkind]
  simp

/-- A line that is not a `sec` record moves from the lines that are left into the state. -/
theorem closeKey_colonStep (U : Unicode) (s : ColonState) {line : Str} (body : List Str)
    (hsec : isSec line = false) :
    (colonStep U s line).candidates = s.candidates ∧
      closeKey U (colonStep U s line) body = closeKey U s (line :: body) := by
  rw [colonStep_eq, hsec, if_neg Bool.false_ne_true]
  by_cases hfpr : isFpr line = true ∧ s.wantPrimaryFpr = true
  · rw [if_pos hfpr]
    refine ⟨rfl, ?_⟩
    simp [closeKey, fingerprintAfter, uidAfter, hfpr, liveUid_of_isFpr hfpr.1]
  · rw [if_neg hfpr]
    -- The line is not the fingerprint that is waited for.
    have hfind : fingerprintAfter s (line :: body) = fingerprintAfter s body := by
      unfold fingerprintAfter
      cases hwant : s.wantPrimaryFpr with
      | true => rw [List.find?_cons_of_neg fun h ↦ hfpr ⟨h, hwant⟩]
      | false => rfl
    cases huid : s.currentUid with
    | none =>
      rw [if_pos rfl]
      refine ⟨rfl, ?_⟩
      have hlive : (liveUid line).or (body.findSome? liveUid) =
          (line :: body).findSome? liveUid := by
        rw [List.findSome?_cons]
        cases liveUid line <;> rfl
      unfold closeKey
      rw [hfind]
      simp only [uidAfter, huid, Option.none_or, hlive]
      rfl
    | some uid =>
      rw [if_neg (Option.some_ne_none uid)]
      refine ⟨rfl, ?_⟩
      unfold closeKey
      rw [hfind]
      simp only [uidAfter, huid, Option.some_or]

/-- The key that a `sec` record opens becomes the candidate of its segment. -/
theorem closeKey_sec (U : Unicode) (s : ColonState) {sec : Str} (body : List Str)
    (hsec : isSec sec = true) :
    (colonStep U s sec).candidates = s.candidates ++ closeKey U s [] ∧
      closeKey U (colonStep U s sec) body = (segmentCandidate U (sec, body)).toList := by
  rw [colonStep_eq, hsec, if_pos rfl]
  constructor
  · rw [closeKey_nil]
  · simp only [closeKey, fingerprintAfter, uidAfter, Option.none_or, segmentCandidate]
    cases isEnrollable sec with
    | false => rfl
    | true =>
      cases body.find? isFpr with
      | none => rfl
      | some fpr => cases hfingerprint : field fpr 9 <;> cases body.findSome? liveUid <;>
          simp [flushKey, hfingerprint]

/-- Reading lines gives what was there, the key being read, and the segments of the lines. -/
theorem foldl_colonStep (U : Unicode) (text : List Str) (s : ColonState) :
    (text.foldl (colonStep U) s).candidates ++ closeKey U (text.foldl (colonStep U) s) [] =
      s.candidates ++ closeKey U s (text.takeWhile fun line ↦ !isSec line) ++
        (segments isSec text).filterMap (segmentCandidate U) := by
  induction text generalizing s with
  | nil => simp [segments]
  | cons line rest ih =>
    rw [List.foldl_cons, ih, segments]
    cases hsec : isSec line with
    | true =>
      obtain ⟨hcandidates, hopen⟩ := closeKey_sec U s (rest.takeWhile fun line ↦ !isSec line) hsec
      rw [hcandidates, hopen, if_pos rfl, List.filterMap_cons,
        List.takeWhile_cons_of_neg (by simp [hsec])]
      cases segmentCandidate U (line, rest.takeWhile fun line ↦ !isSec line) <;> simp
    | false =>
      obtain ⟨hcandidates, hopen⟩ :=
        closeKey_colonStep U s (rest.takeWhile fun line ↦ !isSec line) hsec
      rw [hcandidates, hopen]
      simp [hsec]

/-! ### What the listing says -/

/-- A line is a `uid` record that is not revoked and carries a user ID. -/
def IsLiveUid (line uid : Str) : Prop :=
  field line 0 = some (str "uid") ∧ field line 1 ≠ some (str "r") ∧ field line 9 = some uid

theorem liveUid_eq_some_iff {line uid : Str} : liveUid line = some uid ↔ IsLiveUid line uid := by
  unfold liveUid IsLiveUid isRecord isRevoked
  rw [Option.ite_none_right_eq_some, Bool.and_eq_true, decide_eq_true_eq, Bool.not_eq_true',
    decide_eq_false_iff_not, and_assoc]

theorem liveUid_eq_none_iff {line : Str} : liveUid line = none ↔ ∀ uid, ¬IsLiveUid line uid := by
  simp only [← liveUid_eq_some_iff, Option.eq_none_iff_forall_ne_some]

theorem isEnrollable_eq_true_iff {sec : Str} :
    isEnrollable sec = true ↔
      (∃ held, field sec 14 = some held ∧ held ≠ str "#") ∧ field sec 1 ≠ some (str "r") := by
  unfold isEnrollable isRevoked
  rw [Bool.and_eq_true, Option.any_eq_true, Bool.not_eq_true', decide_eq_false_iff_not]
  simp only [decide_eq_true_eq]

/-- What a segment says when it has a candidate: its `sec` record has a fifteenth field other than
`#` and a second field other than `r`, its first `fpr` record has a tenth field, it has a live `uid`
record, and the candidate is that of the fingerprint and of the first live user ID. -/
def SegmentNames (U : Unicode) (sec : Str) (body : List Str) (candidate : Candidate) : Prop :=
  (∃ held, field sec 14 = some held ∧ held ≠ str "#") ∧ field sec 1 ≠ some (str "r") ∧
  ∃ fingerprint uid,
    (∃ before fpr after, body = before ++ fpr :: after ∧ field fpr 0 = some (str "fpr") ∧
      field fpr 9 = some fingerprint ∧ ∀ line ∈ before, field line 0 ≠ some (str "fpr")) ∧
    (∃ before line after, body = before ++ line :: after ∧ IsLiveUid line uid ∧
      ∀ earlier ∈ before, ∀ other, ¬IsLiveUid earlier other) ∧
    candidate = makeCandidate U fingerprint uid

theorem find?_isFpr_eq_some_iff {body : List Str} {fpr : Str} :
    body.find? isFpr = some fpr ↔ ∃ before after, body = before ++ fpr :: after ∧
      field fpr 0 = some (str "fpr") ∧ ∀ line ∈ before, field line 0 ≠ some (str "fpr") := by
  rw [List.find?_eq_some_iff_append]
  simp only [isFpr, isRecord, decide_eq_true_eq, Bool.not_eq_true', decide_eq_false_iff_not]
  constructor
  · rintro ⟨hfpr, before, after, hbody, hbefore⟩
    exact ⟨before, after, hbody, hfpr, hbefore⟩
  · rintro ⟨before, after, hbody, hfpr, hbefore⟩
    exact ⟨hfpr, before, after, hbody, hbefore⟩

theorem findSome?_liveUid_eq_some_iff {body : List Str} {uid : Str} :
    body.findSome? liveUid = some uid ↔ ∃ before line after, body = before ++ line :: after ∧
      IsLiveUid line uid ∧ ∀ earlier ∈ before, ∀ other, ¬IsLiveUid earlier other := by
  simp only [List.findSome?_eq_some_iff, liveUid_eq_some_iff, liveUid_eq_none_iff]

/-- A segment has the candidate that it names. -/
theorem segmentCandidate_eq_some_iff {U : Unicode} {sec : Str} {body : List Str}
    {candidate : Candidate} :
    segmentCandidate U (sec, body) = some candidate ↔ SegmentNames U sec body candidate := by
  unfold segmentCandidate SegmentNames
  rw [Option.ite_none_right_eq_some, isEnrollable_eq_true_iff, and_assoc]
  simp only [Option.bind_eq_bind, Option.bind_eq_some_iff, Option.pure_def, Option.some.injEq,
    find?_isFpr_eq_some_iff, findSome?_liveUid_eq_some_iff]
  refine and_congr_right fun _ ↦ and_congr_right fun _ ↦ ?_
  constructor
  · rintro ⟨fpr, ⟨before, after, hbody, hfpr, hbefore⟩, fingerprint, hfingerprint, uid, huid, rfl⟩
    exact ⟨fingerprint, uid, ⟨before, fpr, after, hbody, hfpr, hfingerprint, hbefore⟩, huid, rfl⟩
  · rintro ⟨fingerprint, uid, ⟨before, fpr, after, hbody, hfpr, hfingerprint, hbefore⟩, huid, rfl⟩
    exact ⟨fpr, ⟨before, after, hbody, hfpr, hbefore⟩, fingerprint, hfingerprint, uid, huid, rfl⟩

/-- What a listing says: its candidates are, in order, those of its segments at the `sec` records. A
segment has at most one, exactly when its own lines name it (`SegmentNames`): the fingerprint in
lower case is then the path, under `gpg/`, and the user ID is the display name. -/
theorem parseGpgColons_eq_segments (U : Unicode) (output : Str) :
    parseGpgColons U output = (segments isSec (lines output)).filterMap (segmentCandidate U) ∧
    (∀ line : Str, isSec line = true ↔ (line.splitOn ':').head? = some (str "sec")) ∧
    (∀ (sec : Str) (body : List Str) (candidate : Candidate),
      segmentCandidate U (sec, body) = some candidate ↔ SegmentNames U sec body candidate) ∧
    ∀ fingerprint uid : Str,
      (makeCandidate U fingerprint uid).path = str "gpg/" ++ U.toLowercase fingerprint ∧
      (makeCandidate U fingerprint uid).displayName = uid := by
  refine ⟨?_, fun line ↦ ?_, fun sec body candidate ↦ segmentCandidate_eq_some_iff,
    fun fingerprint uid ↦ ⟨rfl, rfl⟩⟩
  · have hrun := foldl_colonStep U (lines output) ⟨[], none, none, false, false⟩
    rw [closeKey_nil, closeKey_of_not_enrollable rfl, List.append_nil, List.nil_append] at hrun
    exact hrun
  · rw [List.head?_eq_getElem?]
    exact decide_eq_true_iff

end Hire.Attestors.GpgKeyring
