import Hire.Grpc.Connections
import Hire.Grpc.Signing
import Hire.Hired.Wiring
import Hire.Nmh.Session

/-!
# A browser session and the daemon behind it

`hire-nmh/src/main.rs` and `hire-grpc/src/service.rs` together: the client of the host is a request
to the daemon, which knows the host by the executable of the host and not by the page or the
extension that asks (`Browser.over`). The host passes the audiences of the extension on and never
names an identity.

`Discreet` is what a response says: a token that the daemon served to the host, under a pseudonym,
or one of a few texts, none of which carries what the daemon or the machine said.
`session_is_discreet` is the result over whole sessions: every frame that was written holds a
discreet response, and the machine of the daemon was asked for no signature, whatever the browser
sent. Stdout takes what is written to it.
-/

set_option autoImplicit false
set_option relaxedAutoImplicit false

namespace Hire.Nmh

open Hire.Library Hire.Core Hire.Attestors Hire.Grpc

variable {L : TokenLib} {R O W : Type}

/-! ### The host and the daemon -/

/-- A browser whose requests for tokens are answered by a service on a recorded machine. Each is
run with what the clock and the random number generator say at the time, and the text of a token is
what the transport carries. -/
def Browser.over (B : Browser W) (C : Crypto) (service : WorkloadApiService L (Recorded W Op))
    (peer : Option ConsumerIdentity) (text : L.Token → Str) (readings : W → Readings × W) :
    Browser (Recorded W Op) where
  fromSlice := B.fromSlice
  toVec := B.toVec
  version := B.version
  socketExists recorded :=
    ((B.socketExists recorded.world).1,
      { recorded with world := (B.socketExists recorded.world).2 })
  connect := B.connect.zoom Recorded.world fun world recorded ↦ { recorded with world := world }
  fetchJwtsvid req := fun recorded ↦
    let answer := readings recorded.world
    let outcome := service.fetchJwtsvid C peer req answer.1 { recorded with world := answer.2 }
    (match outcome.reply with
      | .error (.error status) => .error status.message
      | .error (.panic message) => .error message
      | .ok svids => .ok (svids.map fun svid ↦ ⟨text svid.svid, svid.spiffeId⟩),
      outcome.world)

/-- What a response to the browser says: a token is one that was served, under a pseudonym of its
root for the consumer that the host is, and an error is one of the texts of the host. -/
def Discreet (C : Crypto) (service : WorkloadApiService L (Recorded W Op))
    (peer : Option ConsumerIdentity) (text : L.Token → Str) : BrowserResponse → Prop
  | .status _ _ => True
  | .error message => str "invalid request: " <+: message ∨ message = str "connect to hired" ∨
      message = str "FetchJWTSVID failed" ∨ message = str "no SVIDs returned"
  | .jwt svid spiffeId => ∃ consumer audience readings world served, peer = some consumer ∧
      served ∈ (service.fetchJwtsvid C peer ⟨audience, []⟩ readings world).served ∧
      svid = text served.2.svid ∧
      spiffeId = (service.signer.pseudonymousId C served.1.spiffeId consumer).uri

/-! ### One answer -/

section Client

variable (B : Browser W) {C : Crypto} {service : WorkloadApiService L (Recorded W Op)}
  {peer : Option ConsumerIdentity} (text : L.Token → Str) {readings : W → Readings × W}
  {req : JwtsvidRequest} (recorded : Recorded W Op) {run : Outcome L (Recorded W Op)}

/-- A request that is served comes back as the tokens that were served. -/
theorem fetchJwtsvid_over_of_ok
    (hrun : service.fetchJwtsvid C peer req (readings recorded.world).1
      ⟨(readings recorded.world).2, recorded.log⟩ = run) {svids : List (Jwtsvid L)}
    (hreply : run.reply = .ok svids) :
    (B.over C service peer text readings).fetchJwtsvid req recorded =
      (.ok (svids.map fun svid ↦ ⟨text svid.svid, svid.spiffeId⟩), run.world) := by
  simp only [Browser.over, hrun, hreply]

/-- A request that is refused comes back as an error. -/
theorem fetchJwtsvid_over_of_error
    (hrun : service.fetchJwtsvid C peer req (readings recorded.world).1
      ⟨(readings recorded.world).2, recorded.log⟩ = run) {fault : Fault Status}
    (hreply : run.reply = .error fault) :
    ∃ e, (B.over C service peer text readings).fetchJwtsvid req recorded =
      (.error e, run.world) := by
  cases fault with
  | error status => exact ⟨_, by simp only [Browser.over, hrun, hreply]; rfl⟩
  | panic message => exact ⟨_, by simp only [Browser.over, hrun, hreply]; rfl⟩

end Client

/-- The first token of a reply is one that was served, under a pseudonym. -/
theorem discreet_of_reply {C : Crypto} {service : WorkloadApiService L (Recorded W Op)}
    {peer : Option ConsumerIdentity} {audience : List Str} {readings : Readings}
    {world : Recorded W Op} {svid : Jwtsvid L} {rest : List (Jwtsvid L)}
    (hreply : (service.fetchJwtsvid C peer ⟨audience, []⟩ readings world).reply =
      .ok (svid :: rest))
    (text : L.Token → Str) :
    Discreet C service peer text (.jwt (text svid.svid) svid.spiffeId) := by
  obtain ⟨hserved, -⟩ := WorkloadApiService.served_of_reply hreply
  have hmem : svid ∈ (service.fetchJwtsvid C peer ⟨audience, []⟩ readings world).served.map
      Prod.snd := hserved ▸ List.mem_cons_self
  obtain ⟨served, hpair, rfl⟩ := List.mem_map.mp hmem
  cases peer with
  | none => cases hpair
  | some consumer =>
    exact ⟨consumer, audience, readings, world, served, rfl, hpair, rfl,
      spiffeId_of_mem_served hpair⟩

section Answer

variable {C : Crypto} {service : WorkloadApiService L (Recorded W Op)}
  (plain : WorkloadApiService L W) (hsigner : service.signer = plain.signer)
  (hattestors : List.Forall₂ (Attestor.Footprint C) service.attestors plain.attestors)
include hsigner hattestors

variable (B : Browser W) (peer : Option ConsumerIdentity) (text : L.Token → Str)
  (readings : W → Readings × W)

/-- What the host learns of a request for a token: one that was served, or a text of its own.
Nothing is signed for it. -/
theorem fetchJwt_over (audience : List Str) {recorded : Recorded W Op}
    (hquiet : NothingSigned recorded) :
    ∃ result recorded', fetchJwt (B.over C service peer text readings) audience recorded =
        (result, recorded') ∧ NothingSigned recorded' ∧
      Discreet C service peer text
        (match result with
          | .ok (svid, spiffeId) => .jwt svid spiffeId
          | .error e => .error e) := by
  rcases hconnect : B.connect recorded.world with ⟨result, world⟩
  have hover : (B.over C service peer text readings).connect recorded =
      (result, { recorded with world := world }) := by
    simp only [Browser.over, Action.zoom, hconnect]
  unfold fetchJwt
  cases result with
  | error e =>
    rw [Action.bind_of_error (Action.mapError_of_error hover)]
    exact ⟨_, _, rfl, hquiet, .inr (.inl rfl)⟩
  | ok _ =>
    rw [Action.bind_of_ok (Action.mapError_of_ok hover)]
    have hstart : NothingSigned (⟨(readings world).2, recorded.log⟩ : Recorded W Op) := hquiet
    have hafter :=
      WorkloadApiService.nothingSigned_fetchJwtsvid service plain hsigner hattestors peer audience
        (readings world).1 hstart
    generalize hrun : service.fetchJwtsvid C peer ⟨audience, []⟩ (readings world).1
      ⟨(readings world).2, recorded.log⟩ = run at hafter
    cases hreply : run.reply with
    | error fault =>
      obtain ⟨e, hclient⟩ :=
        fetchJwtsvid_over_of_error B text ⟨world, recorded.log⟩ hrun hreply
      rw [Action.bind_of_error (Action.mapError_of_error hclient)]
      exact ⟨_, _, rfl, hafter, .inr (.inr (.inl rfl))⟩
    | ok svids =>
      have hclient := fetchJwtsvid_over_of_ok B text ⟨world, recorded.log⟩ hrun hreply
      rw [Action.bind_of_ok (Action.mapError_of_ok hclient)]
      cases svids with
      | nil => exact ⟨_, _, rfl, hafter, .inr (.inr (.inr rfl))⟩
      | cons svid rest =>
        refine ⟨_, _, rfl, hafter, ?_⟩
        rw [← hrun] at hreply
        exact discreet_of_reply hreply text

/-- An answer to the browser is discreet, and has nothing signed. -/
theorem answer_over {msg : Bytes} {recorded recorded' : Recorded W Op}
    {response : BrowserResponse} (hquiet : NothingSigned recorded)
    (h : answer (B.over C service peer text readings) msg recorded = (.ok response, recorded')) :
    NothingSigned recorded' ∧ Discreet C service peer text response := by
  unfold answer at h
  cases hparse : (B.over C service peer text readings).fromSlice msg with
  | error e =>
    rw [hparse] at h
    cases h
    exact ⟨hquiet, .inl (List.prefix_append _ _)⟩
  | ok request =>
    rw [hparse] at h
    cases request with
    | status =>
      cases h
      exact ⟨hquiet, True.intro⟩
    | fetchJwt audience =>
      obtain ⟨result, after, hfetch, hafter, hdiscreet⟩ :=
        fetchJwt_over plain hsigner hattestors B peer text readings audience hquiet
      dsimp only at h
      rw [handleRequest, Action.bind_of_ok (Action.attempt_eq hfetch)] at h
      cases result with
      | error e =>
        cases h
        exact ⟨hafter, hdiscreet⟩
      | ok svid =>
        cases h
        exact ⟨hafter, hdiscreet⟩

end Answer

/-! ### Whole sessions -/

section Session

variable [Read R] [ByteSink O]

open ByteSink (written)

/-- Over a whole session, whatever the browser sends and however the host stops, every frame that
was written holds a discreet response, and the machine of the daemon was asked for no signature.
Assumes: a session that ended, behind a daemon whose sources were probed on a machine, and a stdout
that takes what is written to it. -/
theorem session_is_discreet (B : Browser W) (C : Crypto) (M : Machine W) (features : Features)
    (probes : Probes) (signer : SvidSigner L) (bundles : TrustBundleStore)
    (peer : Option ConsumerIdentity) (text : L.Token → Str) (readings : W → Readings × W)
    (rounds : ℕ) (input : R) (output : O) (w : W) (result : Except Error Unit)
    (host' : Host R O (Recorded W Op))
    (h : mainLoop (B.over C ⟨signer, bundles, registryOf C M.recorded features probes⟩ peer text
      readings) rounds ⟨input, output, ⟨w, []⟩⟩ = some (result, host')) :
    (∀ op ∈ host'.world.log, op.Quiet) ∧ ∃ sent : List (BrowserResponse × Bytes),
      (∀ said ∈ sent,
        Discreet C ⟨signer, bundles, registryOf C M.recorded features probes⟩ peer text said.1 ∧
        B.toVec said.1 = .ok said.2 ∧ said.2.length ≤ maxResponse) ∧
      written host'.output = written output ++ sent.flatMap fun said ↦ frame said.2 := by
  have hstart : NothingSigned (⟨w, []⟩ : Recorded W Op) := fun op hop ↦ absurd hop List.not_mem_nil
  have hfootprint := registryOf_footprint C M features probes
  obtain ⟨hquiet, sent, part, hsent, hdelivered, hend⟩ := mainLoop_invariant (I := NothingSigned)
    (fun msg world response world' hquiet hanswer ↦
      answer_over ⟨signer, bundles, registryOf C M features probes⟩ rfl hfootprint B peer text
        readings hquiet hanswer) hstart rfl h
  rw [unfinished_sink hend, List.append_nil] at hdelivered
  exact ⟨hquiet, sent, hsent, hdelivered⟩

/-- A request for a token for one site. -/
def fetchText : Bytes :=
  utf8 (str "\x7b\"type\":\"fetch_jwt\",\"audience\":[\"https://rp.example\"]\x7d")

/-- A browser that asks for a token for that site. -/
def fetchingBrowser : Browser Unit where
  fromSlice msg :=
    if msg = fetchText then .ok (.fetchJwt [str "https://rp.example"])
    else .error (str "expected value at line 1 column 1")
  toVec := askingBrowser.toVec
  version := str "0.1.0"
  socketExists w := (true, w)
  connect := pure ()
  fetchJwtsvid _ := Action.fail (str "transport error")

/-- How the answer with a token begins. -/
def tokenText : Bytes :=
  utf8 (str "\x7b\"type\":\"jwt\",\"svid\":\"token\",\"spiffe_id\":\"spiffe://")

/-- The daemon of an account, on a recorded machine. -/
def accountDaemon : WorkloadApiService TokenLib.transparent (Recorded Unit Op) :=
  ⟨Hired.aliceSigner, .new, registryOf .transparent (Hired.aliceMachine false).recorded
    ⟨false, false⟩ ⟨false, false, false, false, false, false, false, 1000, str "alice"⟩⟩

/-- A session of the host with that daemon. -/
def accountSession (rounds : ℕ) (input : Bytes) :
    Option (Except Error Unit × Host Bytes Bytes (Recorded Unit Op)) :=
  mainLoop (fetchingBrowser.over .transparent accountDaemon (some WorkloadApiService.someBinary)
    (fun _ ↦ str "token") fun w ↦
      (WorkloadApiService.readingsAt (WorkloadApiService.second 101), w)) rounds
    ⟨input, [], ⟨(), []⟩⟩

/-- The request is answered with a token and a pseudonym, and nothing is signed. -/
theorem session_is_discreet_account :
    ∃ result host', accountSession 2 (frame fetchText) = some (result, host') ∧
      tokenText <+: host'.output.drop 4 ∧ ∀ op ∈ host'.world.log, op.Quiet := by
  have hany : ((accountSession 2 (frame fetchText)).any fun session ↦
      tokenText.isPrefixOf (session.2.output.drop 4)) = true := by decide +kernel
  obtain ⟨⟨result, host'⟩, hloop, hbegins⟩ := (Option.any_eq_true _ _).mp hany
  exact ⟨result, host', hloop, List.isPrefixOf_iff_prefix.mp hbegins, (session_is_discreet
    fetchingBrowser .transparent (Hired.aliceMachine false) ⟨false, false⟩
    ⟨false, false, false, false, false, false, false, 1000, str "alice"⟩ Hired.aliceSigner .new
    (some WorkloadApiService.someBinary) (fun _ ↦ str "token") _ 2 (frame fetchText) [] () result
    host' hloop).1⟩

end Session

end Hire.Nmh
