import Hire.Cli.Output
import Hire.Nmh.Daemon

/-!
# A command and the daemon behind it

`hire/src/main.rs` and `hire-grpc/src/service.rs` together: the client of the tool is a request to
the daemon (`Tool.over`).

A flag of one command is the only way to name an identity, and so to consent to a proof that asks
for a signature. `unnamed_command_never_signs` says so over whole runs: no other command makes the
daemon or the tool itself ask for one, whatever the machine holds and answers, and however long a
watch goes on. It is what a recorded machine keeps (`Tool.over_keepsFor`), and a command is orderly.
-/

set_option autoImplicit false
set_option relaxedAutoImplicit false

namespace Hire.Cli

open Hire.Library Hire.Core Hire.Attestors Hire.Grpc
open Hire.Library.Action (Keeps)
open Hire.Nmh (Svid)

variable {L : TokenLib} {W : Type}

/-- Arguments that name no identity: `--spiffe-id` of `fetch-jwt` is absent, or empty. -/
def Unnamed (args : List Str) : Prop :=
  args[1]? = some (str "fetch-jwt") → ∀ flags,
    Command.fetchArgs ⟨none, [], false⟩ (args.drop 2) = .ok flags → flags.spiffeId = []

/-! ### The daemon behind a tool -/

/-- An action on a recorded world that is not recorded. -/
def unrecorded {ε α : Type} (m : Action ε W α) : Action ε (Recorded W Op) α :=
  m.zoom Recorded.world fun world recorded ↦ { recorded with world := world }

/-- A question to a recorded world that is not recorded. -/
def unrecordedAsk {α : Type} (question : W → α × W) (recorded : Recorded W Op) :
    α × Recorded W Op :=
  ((question recorded.world).1, { recorded with world := (question recorded.world).2 })

/-- A tool whose requests for tokens are answered by a service on a recorded machine. Each is run
with what the clock and the random number generator say at the time, the text of a token is what the
transport carries, and a daemon that panics is seen through the transport, which makes a status of
it. -/
def Tool.over (T : Tool W) (C : Crypto) (service : WorkloadApiService L (Recorded W Op))
    (peer : Option ConsumerIdentity) (text : L.Token → Str) (panicStatus : Str → Status)
    (readings : W → Readings × W) : Tool (Recorded W Op) where
  socketPath := T.socketPath
  socketExists := unrecordedAsk T.socketExists
  connect := unrecorded T.connect
  fetchJwtsvid req := fun recorded ↦
    let answer := readings recorded.world
    let outcome := service.fetchJwtsvid C peer req answer.1 { recorded with world := answer.2 }
    (match outcome.reply with
      | .error (.error status) => .error status
      | .error (.panic message) => .error (panicStatus message)
      | .ok svids => .ok (svids.map fun svid ↦ ⟨text svid.svid, svid.spiffeId⟩),
      outcome.world)
  fetchJwtBundles := unrecorded T.fetchJwtBundles
  parseJson := T.parseJson
  prettyJson := T.prettyJson
  clock := unrecordedAsk T.clock
  env name := unrecorded (T.env name)
  isDir path := unrecordedAsk (T.isDir path)
  createDirAll path := unrecorded (T.createDirAll path)
  write path contents := unrecorded (T.write path contents)
  reportError := T.reportError
  reportPanic := T.reportPanic
  macos := T.macos
  launchdPlist := T.launchdPlist
  systemdUnit := T.systemdUnit

/-- What is not recorded keeps a record as it is. -/
theorem unrecorded_keeps {ε α : Type} (m : Action ε W α) : Keeps NothingSigned (unrecorded m) :=
  fun _ h ↦ h

/-- As long as no identity is named, the questions of a tool have the daemon sign nothing. -/
theorem Tool.over_keepsFor (T : Tool W) {C : Crypto}
    {service : WorkloadApiService L (Recorded W Op)} (plain : WorkloadApiService L W)
    (hsigner : service.signer = plain.signer)
    (hattestors : List.Forall₂ (Attestor.Footprint C) service.attestors plain.attestors)
    (peer : Option ConsumerIdentity) (text : L.Token → Str) (panicStatus : Str → Status)
    (readings : W → Readings × W) :
    (T.over C service peer text panicStatus readings).KeepsFor NothingSigned (· = []) where
  unnamed := rfl
  socketExists _ h := h
  connect := unrecorded_keeps _
  fetchJwtsvid audience spiffeId hname recorded h := by
    subst hname
    have hstart : NothingSigned (⟨(readings recorded.world).2, recorded.log⟩ : Recorded W Op) := h
    exact WorkloadApiService.nothingSigned_fetchJwtsvid service plain hsigner hattestors peer
      audience (readings recorded.world).1 hstart
  fetchJwtBundles := unrecorded_keeps _
  clock _ h := h
  env _ := unrecorded_keeps _
  isDir _ _ h := h
  createDirAll _ := unrecorded_keeps _
  write _ _ := unrecorded_keeps _

section Prove

variable {T : Tool W} (C : Crypto) (service : WorkloadApiService L (Recorded W Op))
  (peer : Option ConsumerIdentity) (text : L.Token → Str) (panicStatus : Str → Status)
  (readings : W → Readings × W) {recorded : Recorded W Op} {w₁ w₂ : W}

/-- A request of a tool whose daemon is there is a request to the daemon. -/
theorem fetchSvids_over (hsocket : T.socketExists recorded.world = (true, w₁))
    (hconnect : T.connect w₁ = (.ok (), w₂)) (req : JwtsvidRequest) :
    fetchSvids (T.over C service peer text panicStatus readings) req recorded =
      (Action.attempt ((T.over C service peer text panicStatus readings).fetchJwtsvid req) :
        Action Stop (Recorded W Op) _) ⟨w₂, recorded.log⟩ := by
  have hfound : (Action.ask (T.over C service peer text panicStatus readings).socketExists :
      Action Stop _ _) recorded = (.ok true, ⟨w₁, recorded.log⟩) := by
    simp only [Action.ask, Tool.over, unrecordedAsk, hsocket]
  have hconnected : (T.over C service peer text panicStatus readings).connect ⟨w₁, recorded.log⟩ =
      (.ok (), ⟨w₂, recorded.log⟩) := by
    simp only [Tool.over, unrecorded, Action.zoom, hconnect]
  have hready : connectToDaemon (T.over C service peer text panicStatus readings) recorded =
      (.ok (), ⟨w₂, recorded.log⟩) := by
    unfold connectToDaemon
    rw [Action.bind_of_ok hfound, if_pos rfl]
    exact Action.mapError_of_ok hconnected
  unfold fetchSvids
  rw [Action.bind_of_ok hready]

/-- The command of the tool prints what proving an identity through the daemon comes to: its token
on stdout, or on stderr why there is none. -/
theorem run_prove_over (hsocket : T.socketExists recorded.world = (true, w₁))
    (hconnect : T.connect w₁ = (.ok (), w₂)) (args : List Str) (out err : Bytes) :
    let tool := T.over C service peer text panicStatus readings
    ∃ world, run tool (Command.prove tool args) (.endless recorded out err) =
      match prove C panicStatus service peer args (readings w₂).1
        ⟨(readings w₂).2, recorded.log⟩ with
      | .ok token => (.code 0, .printed world out err [text token] [])
      | .error e => (.code 1, .printed world out err [] e.lines) := by
  intro tool
  unfold Command.prove prove
  cases proveArgs none none args with
  | error e => exact ⟨_, run_of_exit (bail_endless 1 e.lines recorded out err)⟩
  | ok flags =>
    obtain ⟨audience, challenge⟩ := flags
    dsimp only
    rcases hfetch : tool.fetchJwtsvid ⟨[audienceWithChallenge audience challenge], []⟩
      ⟨w₂, recorded.log⟩ with ⟨answer, world⟩
    have hanswer := congrArg Prod.fst hfetch
    have hasked : Console.onWorld (fetchSvids tool
        ⟨[audienceWithChallenge audience challenge], []⟩) (.endless recorded out err) =
          (.ok answer, .endless world out err) := by
      refine Console.onWorld_endless ?_ out err
      rw [fetchSvids_over C service peer text panicStatus readings hsocket hconnect]
      exact Action.attempt_eq hfetch
    refine ⟨world, ?_⟩
    unfold Command.withFirst
    simp only [tool, Tool.over] at hanswer
    rcases hreply : (service.fetchJwtsvid C peer
      ⟨[audienceWithChallenge audience challenge], []⟩ (readings w₂).1
      ⟨(readings w₂).2, recorded.log⟩).reply with (status | message) | (_ | ⟨svid, rest⟩)
    all_goals
      rw [hreply] at hanswer
      subst hanswer
      dsimp only
    · exact run_of_exit ((Action.bind_of_ok hasked).trans (bail_endless 1 _ world out err))
    · exact run_of_exit ((Action.bind_of_ok hasked).trans (bail_endless 1 _ world out err))
    · exact run_of_exit ((Action.bind_of_ok hasked).trans (bail_endless 1 _ world out err))
    · exact run_of_ok ((Action.bind_of_ok hasked).trans (Console.say_endless _ world out err))

end Prove

/-- A command whose arguments name no identity never has anything signed, over its whole run:
neither the sources of the tool nor those of the daemon are asked for a signature, whatever the
machine holds and answers, and however often a watch is woken. Assumes: arguments without
`--spiffe-id`, or with an empty one. -/
theorem unnamed_command_never_signs (C : Crypto) (M N : Machine W)
    (features daemonFeatures : Features) (probes : Probes) (signer : SvidSigner L)
    (bundles : TrustBundleStore)
    (peer : Option ConsumerIdentity) (T : Tool W) (text : L.Token → Str)
    (panicStatus : Str → Status) (readings : W → Readings × W) {args : List Str}
    (hargs : Unnamed args) (wakes : List Command.Wake) (w : W) (stdout stderr : Stream) :
    let service : WorkloadApiService L (Recorded W Op) :=
      ⟨signer, bundles, registryOf C N.recorded daemonFeatures probes⟩
    let tool := T.over C service peer text panicStatus readings
    ∀ op ∈ (run tool (dispatch C M.recorded features tool args wakes)
      ⟨⟨w, []⟩, stdout, stderr⟩).2.world.log, op.Quiet := by
  intro service tool
  have hplain := registryOf_footprint C N daemonFeatures probes
  have hT : tool.KeepsFor NothingSigned (· = []) :=
    T.over_keepsFor ⟨signer, bundles, registryOf C N daemonFeatures probes⟩ rfl hplain peer text
      panicStatus readings
  have hstart : NothingSigned (⟨w, []⟩ : Recorded W Op) := fun op hop ↦ absurd hop List.not_mem_nil
  have horderly := dispatch_orderly hT (probeSources_keeps M C features)
    (probeSources_yields_quiet M C features) hargs wakes
  have hafter := horderly.keeps ⟨⟨w, []⟩, stdout, stderr⟩ hstart
  rcases hstep : dispatch C M.recorded features tool args wakes ⟨⟨w, []⟩, stdout, stderr⟩ with
    ⟨result, c⟩
  rw [hstep] at hafter
  cases result with
  | ok _ =>
    rw [run_of_ok hstep]
    exact hafter
  | error stop =>
    rw [run_of_error hstep]
    exact hafter

/-- A tool whose daemon is that of an account. -/
def accountTool : Tool (Recorded Unit Op) :=
  breakingTool.over .transparent Nmh.accountDaemon (some WorkloadApiService.someBinary)
    (fun _ ↦ str "token") (fun _ ↦ ⟨.internal, []⟩) fun w ↦
      (WorkloadApiService.readingsAt (WorkloadApiService.second 101), w)

/-- Two ticks, with a Ctrl-C while the second is served and one after it. -/
def disturbedWakes : List Command.Wake := [.tick false none, .tick true (some 0), .ctrlC]

/-- A watch of two ticks asks the machine for something, and never for a signature. -/
theorem unnamed_command_never_signs_watch :
    let watched := run accountTool (dispatch .transparent (Hired.aliceMachine false).recorded
      ⟨false, false⟩ accountTool [str "hire", str "watch"] disturbedWakes)
      ⟨⟨(), []⟩, ⟨[], none⟩, ⟨[], none⟩⟩
    watched.1 = .code 0 ∧ watched.2.world.log ≠ [] ∧ ∀ op ∈ watched.2.world.log, op.Quiet := by
  have hargs : Unnamed [str "hire", str "watch"] := by
    intro h
    exact absurd h (by with_unfolding_all decide)
  refine ⟨by with_unfolding_all decide +kernel, by with_unfolding_all decide +kernel, ?_⟩
  exact unnamed_command_never_signs .transparent (Hired.aliceMachine false)
    (Hired.aliceMachine false) ⟨false, false⟩ ⟨false, false⟩
    ⟨false, false, false, false, false, false, false, 1000, str "alice"⟩ Hired.aliceSigner .new
    (some WorkloadApiService.someBinary) breakingTool (fun _ ↦ str "token")
    (fun _ ↦ ⟨.internal, []⟩) _ hargs disturbedWakes () ⟨[], none⟩ ⟨[], none⟩

end Hire.Cli
