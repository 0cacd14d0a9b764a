import Hire.Cli.Output

/-!
# Tokens in their parts

`hire fetch-jwt --decode` of `hire/src/main.rs` prints what is in a token instead of the token: it
cuts the token at its first two dots, and reads the base64 and then the JSON of the first two
pieces.

`Decodes` says the same from the side of the token: it is the encoding of two JSON texts, with dots,
and with anything or nothing behind them. `decoded_iff` is the round trip between the two: the
command ends with exit code zero exactly on the tokens that were written so, and then it has printed
the JSON they were written from.
-/

set_option autoImplicit false
set_option relaxedAutoImplicit false

namespace Hire.Cli

open Hire.Library Hire.Core Hire.Attestors Hire.Grpc
open Hire.Nmh (Svid)

variable {W : Type}

namespace Command

/-! ### The parts of a token -/

/-- The parts of a token are its pieces before the second dot. -/
theorem jwtParts_eq_some_iff {jwt header claims : Str} :
    jwtParts jwt = some (header, claims) ↔ '.' ∉ header ∧ '.' ∉ claims ∧
      (jwt = header ++ '.' :: claims ∨ ∃ rest, jwt = header ++ '.' :: (claims ++ '.' :: rest)) := by
  unfold jwtParts
  constructor
  · intro h
    split at h
    · cases h
    next front rest hcut =>
      obtain ⟨rfl, hfront⟩ := splitOnce_eq_some_iff.mp hcut
      split at h
      next hsecond =>
        cases h
        exact ⟨hfront, splitOnce_eq_none_iff.mp hsecond, .inl rfl⟩
      next middle last hsecond =>
        obtain ⟨rfl, hmiddle⟩ := splitOnce_eq_some_iff.mp hsecond
        cases h
        exact ⟨hfront, hmiddle, .inr ⟨last, rfl⟩⟩
  · rintro ⟨hheader, hclaims, rfl | ⟨rest, rfl⟩⟩
    · rw [splitOnce_eq_some_iff.mpr ⟨rfl, hheader⟩]
      dsimp only
      rw [splitOnce_eq_none_iff.mpr hclaims]
    · rw [splitOnce_eq_some_iff.mpr ⟨rfl, hheader⟩]
      dsimp only
      rw [splitOnce_eq_some_iff.mpr ⟨rfl, hclaims⟩]

/-- No part of a token has a dot. -/
theorem dot_not_mem_base64Encode (bytes : Bytes) : '.' ∉ base64Encode base64Url bytes := fun hdot ↦
  absurd (mem_base64Url_of_mem_encode hdot) (by with_unfolding_all decide)

/-- What a part of a token says. -/
def readPart (T : Tool W) (part : Str) : Option Json :=
  (base64Decode base64Url part).bind fun decoded ↦ (T.parseJson decoded).toOption

theorem readPart_eq_some_iff {T : Tool W} {part : Str} {json : Json} : readPart T part = some json ↔
    ∃ bytes, T.parseJson bytes = .ok json ∧ part = base64Encode base64Url bytes := by
  have hparse : ∀ bytes, (T.parseJson bytes).toOption = some json ↔
      T.parseJson bytes = .ok json := by
    intro bytes
    cases T.parseJson bytes <;> simp [Except.toOption]
  unfold readPart
  rw [Option.bind_eq_some_iff]
  constructor
  · rintro ⟨bytes, hbytes, hjson⟩
    exact ⟨bytes, (hparse bytes).mp hjson, base64Decode_url_eq_some_iff.mp hbytes⟩
  · rintro ⟨bytes, hjson, rfl⟩
    exact ⟨bytes, base64Decode_url bytes, (hparse bytes).mpr hjson⟩

/-- Reading a part gives what it says, or fails, and prints nothing. -/
theorem jwtPart_cases (T : Tool W) (name part : Str) (c : Console W) :
    (∃ json, readPart T part = some json ∧ jwtPart T name part c = (.ok json, c)) ∨
      (readPart T part = none ∧ ∃ chain, jwtPart T name part c = (.error (.failed chain), c)) := by
  unfold jwtPart readPart
  cases base64Decode base64Url part with
  | none => exact .inr ⟨rfl, _, rfl⟩
  | some decoded =>
    have hgo : (Action.ofOption (.failed [str "base64 decode JWT " ++ name]) (some decoded) :
        Command W Bytes) c = (.ok decoded, c) := rfl
    rw [Action.bind_of_ok hgo, Option.bind_some]
    cases T.parseJson decoded with
    | error cause => exact .inr ⟨rfl, _, rfl⟩
    | ok json => exact .inl ⟨json, rfl, rfl⟩

/-! ### Decoding -/

/-- A token in the compact form whose first two parts are a header and claims. -/
def Decodes (T : Tool W) (jwt : Str) (header claims : Json) : Prop :=
  ∃ headerBytes claimsBytes, T.parseJson headerBytes = .ok header ∧
    T.parseJson claimsBytes = .ok claims ∧
    (jwt = base64Encode base64Url headerBytes ++ '.' :: base64Encode base64Url claimsBytes ∨
      ∃ rest, jwt = base64Encode base64Url headerBytes ++
        '.' :: (base64Encode base64Url claimsBytes ++ '.' :: rest))

/-- A token decodes as it is read part by part. -/
theorem decodes_iff {T : Tool W} {jwt : Str} {header claims : Json} :
    Decodes T jwt header claims ↔ ∃ headerPart claimsPart,
      jwtParts jwt = some (headerPart, claimsPart) ∧ readPart T headerPart = some header ∧
      readPart T claimsPart = some claims := by
  constructor
  · rintro ⟨headerBytes, claimsBytes, hheader, hclaims, hjwt⟩
    refine ⟨_, _, jwtParts_eq_some_iff.mpr ⟨dot_not_mem_base64Encode headerBytes,
      dot_not_mem_base64Encode claimsBytes, hjwt⟩, ?_, ?_⟩
    · exact readPart_eq_some_iff.mpr ⟨headerBytes, hheader, rfl⟩
    · exact readPart_eq_some_iff.mpr ⟨claimsBytes, hclaims, rfl⟩
  · rintro ⟨headerPart, claimsPart, hparts, hheader, hclaims⟩
    obtain ⟨headerBytes, hheaderJson, rfl⟩ := readPart_eq_some_iff.mp hheader
    obtain ⟨claimsBytes, hclaimsJson, rfl⟩ := readPart_eq_some_iff.mp hclaims
    exact ⟨headerBytes, claimsBytes, hheaderJson, hclaimsJson,
      (jwtParts_eq_some_iff.mp hparts).2.2⟩

/-- A line on stderr and exit code one, unless stderr does not take the line. -/
theorem bail_line_cases (line : Str) (c : Console W) :
    ∃ stop c', (bail 1 [line] : Command W Unit) c = (.error stop, c') ∧ c'.stdout = c.stdout ∧
      (stop.seen = .code 1 ∨ stop = .panicked ∧ c'.stderr.Full) := by
  cases hfits : c.stderr.fits (utf8 (line ++ ['\n'])) with
  | true =>
    have hwarn : (eprintln line : Command W Unit) c = _ := Console.putError_of_fits hfits
    exact ⟨.exit 1, _, Action.bind_of_ok (Action.bind_of_ok hwarn), rfl, .inl rfl⟩
  | false =>
    have hwarn : (eprintln line : Command W Unit) c = _ := Console.putError_of_not_fits hfits
    exact ⟨.panicked, _, Action.bind_of_error (Action.bind_of_error hwarn), rfl,
      .inr ⟨rfl, Stream.full_write hfits⟩⟩

/-- What a token that decodes is printed as. -/
def decodedText (T : Tool W) (header claims : Json) : Bytes :=
  utf8 (Console.lines
    [str "header: " ++ T.prettyJson header, str "claims: " ++ T.prettyJson claims])

/-- A token that decodes is printed in its parts, and any other is an error. -/
theorem sayDecoded_cases (T : Tool W) (jwt : Str) (c : Console W) :
    (∃ header claims, Decodes T jwt header claims ∧
      sayDecoded T jwt c = Console.put .panicked (decodedText T header claims) c) ∨
    (∀ header claims, ¬ Decodes T jwt header claims) ∧ ∃ stop c',
      sayDecoded T jwt c = (.error stop, c') ∧ c'.stdout = c.stdout ∧
        (stop.seen = .code 1 ∨ stop = .panicked ∧ c'.stderr.Full) := by
  unfold sayDecoded
  simp only [decodes_iff]
  cases hparts : jwtParts jwt with
  | none =>
    refine .inr ⟨?_, ?_⟩
    · rintro header claims ⟨_, _, h, -⟩
      cases h
    · exact bail_line_cases (str "error: malformed JWT") c
  | some parts =>
    obtain ⟨headerPart, claimsPart⟩ := parts
    dsimp only
    rcases jwtPart_cases T (str "header") headerPart c with
      ⟨header, hheader, hstep⟩ | ⟨hheader, chain, hstep⟩
    · rcases jwtPart_cases T (str "claims") claimsPart c with
        ⟨claims, hclaims, hnext⟩ | ⟨hclaims, chain, hnext⟩
      · refine .inl ⟨header, claims, ⟨_, _, rfl, hheader, hclaims⟩, ?_⟩
        rw [Action.bind_of_ok hstep, Action.bind_of_ok hnext]
        rw [decodedText, Console.lines_cons, Console.lines_singleton, utf8_append,
          Console.put_append]
        rfl
      · refine .inr ⟨?_, .failed chain, c, ?_, rfl, .inl rfl⟩
        · rintro header' claims ⟨_, _, h, -, hread⟩
          cases h
          cases hclaims.symm.trans hread
        · rw [Action.bind_of_ok hstep, Action.bind_of_error hnext]
    · refine .inr ⟨?_, .failed chain, c, ?_, rfl, .inl rfl⟩
      · rintro header claims ⟨_, _, h, hread, -⟩
        cases h
        cases hheader.symm.trans hread
      · rw [Action.bind_of_error hstep]

end Command

/-- Decoding a token is exact. Where the daemon answers a request with a token, `--decode` prints
the header and the claims if the token is the encoding of two such JSON texts, with anything or
nothing behind them, and ends with exit code zero if stdout takes all of it, and otherwise with a
panic. For any other token it fails with exit code one, or with a panic if stderr does not take what
is wrong, and prints nothing. Assumes: flags that name an audience and ask to decode, and a daemon
that answers. -/
theorem decoded_iff (T : Tool W) (args : List Str) (c : Console W) {audience spiffeId : Str}
    {svid : Svid} {rest : List Svid} {w : W}
    (hargs : Command.fetchArgs ⟨none, [], false⟩ args = .ok ⟨some audience, spiffeId, true⟩)
    (hanswer : fetchSvids T ⟨[audience], spiffeId⟩ c.world = (.ok (.ok (svid :: rest)), w)) :
    let outcome := run T (Command.fetchJwt T args) c
    (∃ header claims, Command.Decodes T svid.svid header claims ∧
      let text := Command.decodedText T header claims
      (c.stdout.fits text = true → outcome = (.code 0, ⟨w, c.stdout.write text, c.stderr⟩)) ∧
      (c.stdout.fits text = false →
        outcome.1 = .code 101 ∧ outcome.2.stdout = c.stdout.write text)) ∨
    (∀ header claims, ¬ Command.Decodes T svid.svid header claims) ∧
      (outcome.1 = .code 1 ∨ outcome.1 = .code 101 ∧ outcome.2.stderr.Full) ∧
      outcome.2.stdout = c.stdout := by
  intro outcome
  have hasked : Console.onWorld (fetchSvids T ⟨[audience], spiffeId⟩) c =
      (.ok (.ok (svid :: rest)), { c with world := w }) := Action.zoom_eq hanswer
  have hfetch : Command.fetchJwt T args c =
      Command.sayDecoded T svid.svid { c with world := w } := by
    unfold Command.fetchJwt Command.withFirst
    rw [hargs]
    dsimp only
    rw [Action.bind_of_ok hasked]
    rfl
  rcases Command.sayDecoded_cases T svid.svid { c with world := w } with
    ⟨header, claims, hdecodes, hsay⟩ | ⟨hnone, stop, c', hstop, hstdout, hseen⟩
  · rw [← hfetch] at hsay
    refine .inl ⟨header, claims, hdecodes, fun hfits ↦ ?_, fun hcut ↦ ?_⟩
    · exact run_of_ok (hsay.trans (Console.put_of_fits hfits))
    · have hpanics := run_of_error (T := T) (hsay.trans (Console.put_of_not_fits hcut))
      exact ⟨congrArg Prod.fst hpanics, congrArg (fun outcome ↦ outcome.2.stdout) hpanics⟩
  · have hfails := run_of_error (T := T) (hfetch.trans hstop)
    have hcode : outcome.1 = stop.seen := congrArg Prod.fst hfails
    refine .inr ⟨hnone, hseen.imp hcode.trans ?_, ?_⟩
    · rintro ⟨rfl, hfull⟩
      refine ⟨hcode, ?_⟩
      rw [show outcome.2.stderr = _ from congrArg (fun outcome ↦ outcome.2.stderr) hfails]
      exact hfull.write _
    · exact (congrArg (fun outcome ↦ outcome.2.stdout) hfails).trans hstdout

/-- A tool whose daemon answers with a token of two empty objects. -/
def decodingTool : Tool Unit where
  __ := breakingTool
  fetchJwtsvid _ := pure [⟨str "e30.e30.c2ln", str "spiffe://ssh.local/unix/1000"⟩]
  parseJson bytes :=
    if bytes = utf8 (str "\x7b\x7d") then .ok (.object []) else .error (str "expected value")
  prettyJson _ := str "\x7b\x7d"

/-- The arguments of `hire fetch-jwt --audience rp --decode` behind the command. -/
def decodeFlags : List Str := [str "--audience", str "rp", str "--decode"]

/-- A token of two empty objects is printed as two empty objects. -/
theorem decoded_iff_empty : (run decodingTool (Command.fetchJwt decodingTool decodeFlags)
    (.endless () [] [])).2.stdout.taken = utf8 (str "header: \x7b\x7d\nclaims: \x7b\x7d\n") := by
  have hdecodes : Command.Decodes decodingTool (str "e30.e30.c2ln") (.object []) (.object []) :=
    ⟨utf8 (str "\x7b\x7d"), utf8 (str "\x7b\x7d"), if_pos rfl, if_pos rfl,
      .inr ⟨str "c2ln", by with_unfolding_all decide⟩⟩
  have hargs : Command.fetchArgs ⟨none, [], false⟩ decodeFlags =
      .ok ⟨some (str "rp"), [], true⟩ := by
    with_unfolding_all rfl
  rcases decoded_iff decodingTool decodeFlags (.endless () [] []) hargs rfl with
    ⟨_, _, -, hprinted, -⟩ | ⟨hnone, -⟩
  · rw [hprinted rfl]
    with_unfolding_all rfl
  · exact absurd hdecodes (hnone _ _)

end Hire.Cli
