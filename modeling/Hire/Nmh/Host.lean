import Hire.Grpc.Service
import Hire.Library.ByteStream
import Hire.Library.Positional

/-!
# The native messaging host

`hire-nmh/src/main.rs`. The browser starts the host and talks to it over stdin and stdout in frames:
a length of four bytes, the least significant first, and as many bytes of JSON. `readMessage` and
`writeMessage` are the two ends of the framing, generic in the reader and the writer as in the
source, with a limit each. `mainLoop` reads a frame, answers it and goes on until the browser closes
stdin or something fails; one pass of it is `turn`.

The JSON library, the daemon's client and the check for its socket are what a `Browser` answers.
`readMessages` is the loop with the answers left out: the messages that are read, and how the
reading ends.
-/

set_option autoImplicit false
set_option relaxedAutoImplicit false

namespace Hire.Nmh

open Hire.Library Hire.Core Hire.Grpc

variable {R O W : Type}

/-! ### Messages -/

/-- A request from the browser extension. -/
inductive BrowserRequest
  | fetchJwt (audience : List Str)
  | status
  deriving DecidableEq, Repr

/-- A response to the browser extension. -/
inductive BrowserResponse
  | jwt (svid spiffeId : Str)
  | status (running : Bool) (version : Str)
  | error (message : Str)
  deriving DecidableEq, Repr

/-- Why the host stops: an error of its input or output, or one with a text of its own. -/
inductive Error
  | io (e : IoError)
  | message (text : Str)
  deriving DecidableEq, Repr

/-! ### Frames -/

/-- The largest frame accepted from the browser. -/
def maxRequest : ℕ := 64 * 1024

/-- The largest frame sent to the browser. -/
def maxResponse : ℕ := 1024 * 1024

/-- The refusal of a frame from the browser, by its length alone. -/
def requestTooLarge (len : ℕ) : Error :=
  .message (str "request frame of " ++ Nat.toDigits 10 len ++ str " bytes exceeds the " ++
    Nat.toDigits 10 maxRequest ++ str "-byte limit")

/-- The refusal of a frame to the browser. -/
def responseTooLarge (len : ℕ) : Error :=
  .message (str "response frame of " ++ Nat.toDigits 10 len ++ str " bytes exceeds the " ++
    Nat.toDigits 10 maxResponse ++ str "-byte limit the browser accepts")

/-- Read one frame, or nothing once the length of a frame cannot be read to its end. -/
def readMessage [Read R] : Action Error R (Option Bytes) := do
  match ← Action.attempt (Read.readExact 4) with
  | .error e => if e.kind = .unexpectedEof then pure none else Action.fail (.io e)
  | .ok lenBuf =>
    let len := leValue lenBuf.1
    if len > maxRequest then Action.fail (requestTooLarge len)
    else
      let buf ← (Read.readExact len).mapError .io
      pure (some buf.1)

/-- Write one frame. The length is cast to four bytes, after the check that it fits. -/
def writeMessage [Write O] (msg : Bytes) : Action Error O Unit := do
  if msg.length > maxResponse then Action.fail (responseTooLarge msg.length)
  else
    (Write.writeAll (leBytes 4 msg.length)).mapError .io
    (Write.writeAll msg).mapError .io
    Write.flush.mapError .io

/-- Write frames one after the other. -/
def writeMessages [Write O] : List Bytes → Action Error O Unit
  | [] => pure ()
  | msg :: rest => do
    writeMessage msg
    writeMessages rest

/-- Read frames until there is none or reading fails, with a bound on the rounds: the messages, and
whether the reading ended as the end of the stream or with an error. There is no result when the
rounds run out. -/
def readMessages [Read R] : ℕ → R → Option (List Bytes × Except Error Unit)
  | 0, _ => none
  | rounds + 1, input =>
    match readMessage input with
    | (.error e, _) => some ([], .error e)
    | (.ok none, _) => some ([], .ok ())
    | (.ok (some msg), input) =>
      (readMessages rounds input).map fun run ↦ (msg :: run.1, run.2)

/-! ### The host -/

/-- A token of the daemon's reply. -/
structure Svid where
  svid : Str
  spiffeId : Str
  deriving DecidableEq, Repr

/-- What the host asks of others: the JSON library, whose errors are texts, the version it was built
as, whether the daemon's socket exists, and the client of the daemon. -/
structure Browser (W : Type) where
  fromSlice : Bytes → Except Str BrowserRequest
  toVec : BrowserResponse → Except Str Bytes
  version : Str
  socketExists : W → Bool × W
  connect : Action Str W Unit
  fetchJwtsvid : JwtsvidRequest → Action Str W (List Svid)

/-- Ask the daemon for a token for audiences; the text of an error is its outermost context. -/
def fetchJwt (B : Browser W) (audience : List Str) : Action Str W (Str × Str) := do
  B.connect.mapError fun _ ↦ str "connect to hired"
  let svids ← (B.fetchJwtsvid ⟨audience, []⟩).mapError fun _ ↦ str "FetchJWTSVID failed"
  let svid ← Action.ofOption (str "no SVIDs returned") svids.head?
  pure (svid.svid, svid.spiffeId)

/-- Answer a request. -/
def handleRequest (B : Browser W) (req : BrowserRequest) : Action Error W BrowserResponse := do
  match req with
  | .status =>
    let running ← Action.ask B.socketExists
    pure (.status running B.version)
  | .fetchJwt audience =>
    match ← Action.attempt (fetchJwt B audience) with
    | .ok (svid, spiffeId) => pure (.jwt svid spiffeId)
    | .error e => pure (.error e)

/-- Send a response. -/
def sendResponse [Write O] (B : Browser W) (resp : BrowserResponse) : Action Error O Unit := do
  let json ← Action.ofExcept ((B.toVec resp).mapError Error.message)
  writeMessage json

/-- The host as it runs: its stdin, its stdout, and the world in which the daemon is. -/
structure Host (R O W : Type) where
  input : R
  output : O
  world : W

namespace Host

variable {α : Type}

/-- An action on stdin. -/
def onInput (m : Action Error R α) : Action Error (Host R O W) α :=
  m.zoom Host.input fun input host ↦ { host with input := input }

/-- An action on stdout. -/
def onOutput (m : Action Error O α) : Action Error (Host R O W) α :=
  m.zoom Host.output fun output host ↦ { host with output := output }

/-- An action on the world. -/
def onWorld (m : Action Error W α) : Action Error (Host R O W) α :=
  m.zoom Host.world fun world host ↦ { host with world := world }

end Host

/-- One pass of the loop: read a frame and answer it, and say whether to go on. -/
def turn [Read R] [Write O] (B : Browser W) : Action Error (Host R O W) Bool := do
  match ← Host.onInput readMessage with
  | none => pure false
  | some msg =>
    match B.fromSlice msg with
    | .error e =>
      Host.onOutput (sendResponse B (.error (str "invalid request: " ++ e)))
      pure true
    | .ok request =>
      let response ← Host.onWorld (handleRequest B request)
      Host.onOutput (sendResponse B response)
      pure true

/-- The loop of the host, with a bound on the rounds. There is no result when they run out. -/
def mainLoop [Read R] [Write O] (B : Browser W) :
    ℕ → Host R O W → Option (Except Error Unit × Host R O W)
  | 0, _ => none
  | rounds + 1, host =>
    match turn B host with
    | (.error e, host) => some (.error e, host)
    | (.ok false, host) => some (.ok (), host)
    | (.ok true, host) => mainLoop B rounds host

end Hire.Nmh
