import Hire.Attestors.Registry
import Hire.Cli.Prove
import Hire.Library.Console
import Hire.Nmh.Host

/-!
# The command line

`hire/src/main.rs`. Every command is an action on a console, and `Tool` is what the commands ask of
others. A command stops early with an exit code, with an error that `main` reports, with a panic, or
because a signal ends it (`Stop`), and `run` is what the shell sees of that. A stream that does not
take what is printed on it is a panic (`println`, `eprintln`). `dispatch` reads the command off the
arguments.

A watch goes on until something ends it, and is run over what wakes it (`Wake`). Ctrl-C is listened
for between the ticks only, and the first tick may be served before there was any listening.
-/

set_option autoImplicit false
set_option relaxedAutoImplicit false

namespace Hire.Cli

open Hire.Library Hire.Core Hire.Attestors Hire.Grpc
open Hire.Nmh (Svid)

variable {W : Type}

/-! ### What the commands ask of others -/

/-- How a command stops early: with an exit code, with an error and what caused it, with a panic, or
killed by a signal. A command that waits for what never comes does not stop at all (`waiting`). -/
inductive Stop
  | exit (code : ℕ)
  | failed (chain : List Str)
  | panicked
  | killed
  | waiting
  deriving DecidableEq, Repr

/-- What the shell sees of a command: that it ended with an exit code, that a signal killed it, or
that it is still running. -/
inductive Exit
  | code (code : ℕ)
  | killed
  | running
  deriving DecidableEq, Repr

/-- What the shell sees of a command that stops early. -/
def Stop.seen : Stop → Exit
  | .exit code => .code code
  | .failed _ => .code 1
  | .panicked => .code 101
  | .killed => .killed
  | .waiting => .running

/-- The outermost text of an error. -/
def Stop.message : Stop → Str
  | .failed (message :: _) => message
  | _ => []

/-- A command. -/
abbrev Command (W α : Type) := Action Stop (Console W) α

/-- What the commands ask of others: the socket and the client of the daemon, the JSON library, the
clock, the environment, the file system, and how a failure is reported. The errors of others are
texts, and a bundle is the bytes of a JWK set. -/
structure Tool (W : Type) where
  socketPath : Str
  socketExists : W → Bool × W
  connect : Action Str W Unit
  fetchJwtsvid : JwtsvidRequest → Action Status W (List Svid)
  fetchJwtBundles : Action Str W (List (Except Str (List (Str × Bytes))))
  parseJson : Bytes → Except Str Json
  prettyJson : Json → Str
  clock : W → SystemTime × W
  env : Str → Action Str W Str
  isDir : Str → W → Bool × W
  createDirAll : Str → Action Str W Unit
  write : Str → Str → Action Str W Unit
  reportError : List Str → Str
  reportPanic : Str
  macos : Bool
  launchdPlist : Str
  systemdUnit : Str

/-- Print a text on stdout; a stdout that does not take it is a panic. -/
def print (text : Str) : Command W Unit := Console.put .panicked (utf8 text)

/-- Print a line on stdout. -/
def println (line : Str) : Command W Unit := Console.say .panicked line

/-- Print a line on stderr; a stderr that does not take it is a panic. -/
def eprintln (line : Str) : Command W Unit := Console.warn .panicked line

/-- Print lines on stdout. -/
def printlns (lines : List Str) : Command W Unit := Console.sayAll .panicked lines

/-- Print lines on stderr. -/
def eprintlns (lines : List Str) : Command W Unit := Console.warnAll .panicked lines

/-- Report an error on stderr and exit with a code. -/
def bail {α : Type} (code : ℕ) (lines : List Str) : Command W α := do
  eprintlns lines
  Action.fail (.exit code)

/-- Connect to the daemon, or fail. -/
def connectToDaemon (T : Tool W) : Action Stop W Unit := do
  if ← Action.ask T.socketExists then
    T.connect.mapError fun cause ↦
      .failed [str "cannot connect to hired at " ++ T.socketPath, cause]
  else
    Action.fail (.failed [str "hired socket not found at " ++ T.socketPath ++
      str "\nIs hired running? Try: systemctl --user start hired"])

/-- Connect to the daemon and ask it for tokens. -/
def fetchSvids (T : Tool W) (req : JwtsvidRequest) : Action Stop W (Except Status (List Svid)) := do
  connectToDaemon T
  Action.attempt (T.fetchJwtsvid req)

/-! ### Asking who one is -/

/-- The first bytes of a text, if they end between two characters. -/
def sliceTo : ℕ → Str → Option Str
  | 0, _ => some []
  | _ + 1, [] => some []
  | n + 1, c :: rest =>
    if c.utf8Size ≤ n + 1 then (sliceTo (n + 1 - c.utf8Size) rest).map (c :: ·) else none

namespace Command

/-- Print the identities and the beginnings of their tokens. A slice that would cut a character in
two panics. -/
def sayIdentities : List Svid → Command W Unit
  | [] => pure ()
  | svid :: rest => do
    println (str "spiffe_id: " ++ svid.spiffeId)
    match sliceTo 40 svid.svid with
    | none => Action.fail .panicked
    | some front =>
      println (str "token:     " ++ front ++ str " (truncated)")
      sayIdentities rest

/-- Print the identities the daemon reports for this caller. -/
def whoami (T : Tool W) : Command W Unit := do
  match ← Console.onWorld (fetchSvids T ⟨[str "hire:whoami"], []⟩) with
  | .error status => bail 1 [str "hired: " ++ status.message]
  | .ok [] => bail 1 [str "error: no identity"]
  | .ok svids => sayIdentities svids

/-! ### Listing the sources -/

/-- The count line of the listing. -/
def enumerateSummary (sources candidates : ℕ) : Str :=
  Nat.toDigits 10 sources ++ str " identity " ++
    (if sources = 1 then str "source" else str "sources") ++ str " active, " ++
    Nat.toDigits 10 candidates ++ str " " ++
    (if candidates = 1 then str "candidate" else str "candidates") ++ str " found"

/-- The line of a candidate. -/
def candidateLine (candidate : Candidate) : Str :=
  candidate.source ++ str " | " ++ candidate.spiffeId.uri ++ str " | " ++ candidate.displayName

/-- Print what every source sees, and return how many candidates there were. -/
def listSources : List (Attestor W) → Command W ℕ
  | [] => pure 0
  | attestor :: rest => do
    match ← Action.attempt (Console.onWorld attestor.enumerate) with
    | .ok found =>
      printlns (found.map candidateLine)
      let more ← listSources rest
      pure (found.length + more)
    | .error e =>
      eprintln (str "warning: " ++ attestor.name ++ str " enumerate failed: " ++ e.display)
      listSources rest

/-- What the listing cannot report. -/
def enumerateNotes : List Str :=
  [str "This list is what this shell can see. hired probes its own environment,",
    str "which this command does not read and cannot report: the daemon can hold",
    str "identities missing from this list and miss ones this list shows. Ask hired",
    str "directly with 'hire whoami'."]

/-- List the candidates that the sources of this process see. -/
def enumerate (C : Crypto) (M : Machine W) (features : Features) : Command W Unit := do
  let sources ← Console.onWorld ((probeSources C M features).mapError fun _ ↦ .panicked)
  let candidates ← listSources sources
  eprintlns (enumerateSummary sources.length candidates :: enumerateNotes)

/-! ### Fetching tokens -/

/-- What the flags of `fetch-jwt` say. -/
structure FetchArgs where
  audience : Option Str
  spiffeId : Str
  decode : Bool
  deriving DecidableEq, Repr

/-- Read the flags of `fetch-jwt`; a flag that appears again replaces what it said before, and one
with nothing behind it says nothing. -/
def fetchArgs (acc : FetchArgs) : List Str → Except Str FetchArgs
  | [] => .ok acc
  | [flag] =>
    if flag = str "--audience" then .ok { acc with audience := none }
    else if flag = str "--spiffe-id" then .ok { acc with spiffeId := [] }
    else if flag = str "--decode" then .ok { acc with decode := true }
    else .error flag
  | flag :: value :: rest =>
    if flag = str "--audience" then fetchArgs { acc with audience := some value } rest
    else if flag = str "--spiffe-id" then fetchArgs { acc with spiffeId := value } rest
    else if flag = str "--decode" then fetchArgs { acc with decode := true } (value :: rest)
    else .error flag

/-- The first two parts of a token between its dots. -/
def jwtParts (jwt : Str) : Option (Str × Str) :=
  match splitOnce '.' jwt with
  | none => none
  | some (header, rest) =>
    match splitOnce '.' rest with
    | none => some (header, rest)
    | some (claims, _) => some (header, claims)

/-- The JSON in a part of a token. -/
def jwtPart (T : Tool W) (name part : Str) : Command W Json := do
  let decoded ← Action.ofOption (.failed [str "base64 decode JWT " ++ name])
    (base64Decode base64Url part)
  Action.ofExcept ((T.parseJson decoded).mapError fun cause ↦
    .failed [str "parse JWT " ++ name, cause])

/-- Print the header and the claims of a token. -/
def sayDecoded (T : Tool W) (jwt : Str) : Command W Unit := do
  match jwtParts jwt with
  | none => bail 1 [str "error: malformed JWT"]
  | some (headerPart, claimsPart) =>
    let header ← jwtPart T (str "header") headerPart
    let claims ← jwtPart T (str "claims") claimsPart
    println (str "header: " ++ T.prettyJson header)
    println (str "claims: " ++ T.prettyJson claims)

/-- Fetch tokens for a request, and go on with the first. -/
def withFirst (T : Tool W) (req : JwtsvidRequest) (next : Svid → Command W Unit) :
    Command W Unit := do
  match ← Console.onWorld (fetchSvids T req) with
  | .error status => bail 1 [str "error: hired: " ++ status.message]
  | .ok [] => bail 1 [str "error: no SVIDs returned"]
  | .ok (svid :: _) => next svid

/-- Fetch a token from the daemon and print it, or what is in it. -/
def fetchJwt (T : Tool W) (args : List Str) : Command W Unit :=
  match fetchArgs ⟨none, [], false⟩ args with
  | .error flag => bail 1 [str "unknown flag: " ++ flag]
  | .ok ⟨none, _, _⟩ =>
    bail 1 [str "error: --audience is required",
      str "usage: hire fetch-jwt --audience <url> [--spiffe-id <id>] [--decode]"]
  | .ok ⟨some audience, spiffeId, decode⟩ =>
    withFirst T ⟨[audience], spiffeId⟩ fun svid ↦
      if decode then sayDecoded T svid.svid else println svid.svid

/-- Fetch a token that carries the challenge of a peer, and print it. What becomes of the challenge
is in `Cli.prove`, to which `run_prove_over` connects the two. -/
def prove (T : Tool W) (args : List Str) : Command W Unit :=
  match proveArgs none none args with
  | .error e => bail 1 e.lines
  | .ok (audience, challenge) =>
    withFirst T ⟨[audienceWithChallenge audience challenge], []⟩ fun svid ↦ println svid.svid

/-- Refuse to fetch an X.509-SVID. -/
def fetchX509 : Command W Unit :=
  bail 1 [str "error: X.509-SVID issuance not yet implemented (hire-4qm)"]

/-- Refuse to enroll. -/
def enroll (args : List Str) : Command W Unit :=
  let subcmd := args.head?.getD (str "--help")
  if subcmd = str "app" ∨ subcmd = str "origin" then
    bail 1 [str "error: enroll " ++ subcmd ++ str " is not implemented",
      str "There is no enrollment store. The CLI records nothing and hired keeps",
      str "no enrollment state, so this command grants no origin or application any",
      str "scope, and un-enrolled callers are not denied anything."]
  else if subcmd = str "--help" ∨ subcmd = str "-h" then do
    println (str "usage: hire enroll app | origin <url>")
    Action.fail (.exit 0)
  else
    bail 1 [str "unknown enroll subcommand: " ++ subcmd,
      str "usage: hire enroll app | origin <url>"]

/-! ### Trust bundles -/

/-- The line of a bundle. -/
def bundleLine (bundle : Str × Bytes) : Str :=
  str "  domain: " ++ bundle.1 ++ str "  (jwks: " ++ Nat.toDigits 10 bundle.2.length ++
    str " bytes)"

/-- Print the bundles of a stream until it ends or breaks. -/
def sayBundles : List (Except Str (List (Str × Bytes))) → Command W Unit
  | [] => pure ()
  | .error cause :: _ => Action.fail (.failed [str "stream error", cause])
  | .ok bundles :: rest => do
    printlns (bundles.map bundleLine)
    sayBundles rest

/-- List the trust bundles of the daemon, or refuse to change them. -/
def trustBundle (T : Tool W) (args : List Str) : Command W Unit :=
  let subcmd := args.head?.getD (str "--help")
  if subcmd = str "list" then do
    Console.onWorld (connectToDaemon T)
    let responses ← Console.onWorld (T.fetchJwtBundles.mapError fun cause ↦
      .failed [str "fetch_jwt_bundles", cause])
    sayBundles responses
  else if subcmd = str "add" then
    bail 1 [str "error: trust-bundle add is not implemented (requires hired support)",
      str "No trust anchor was added. hired was not contacted."]
  else if subcmd = str "remove" then
    bail 1 [str "error: trust-bundle remove is not implemented",
      str "No trust anchor was removed. hired was not contacted, so any anchor",
      str "for that domain is still live and tokens from it still validate."]
  else if subcmd = str "--help" ∨ subcmd = str "-h" then do
    println (str "usage: hire trust-bundle <list|add <url>|remove <domain>>")
    Action.fail (.exit 0)
  else
    bail 1 [str "unknown trust-bundle subcommand: " ++ subcmd,
      str "usage: hire trust-bundle <list|add <url>|remove <domain>>"]

/-! ### Watching -/

/-- What wakes the watch: its ticker, or the Ctrl-C it listens for. The two are looked at in no
fixed order, so a tick that is ready at once may be served before Ctrl-C was listened for
(`listening`). While a tick is served nothing listens, and Ctrl-C may come then, when some bytes of
what the tick prints are out (`interrupt`). Listening is taken to succeed. -/
inductive Wake
  | tick (listening : Bool) (interrupt : Option ℕ)
  | ctrlC
  deriving DecidableEq, Repr

/-- The beginning of a line of the watch. -/
def stamp (now : ℕ) : Str := str "[" ++ Nat.toDigits 10 now ++ str "] "

/-- The whole seconds since the epoch, and zero on a clock behind it. -/
def unixTimestamp (T : Tool W) : Action Stop W ℕ := do
  let now ← Action.ask T.clock
  pure ((durationSince now unixEpoch).getD 0).asSecs

/-- One tick: the identities of this moment on stdout, or what went wrong on stderr. -/
def tick (T : Tool W) : Command W Unit := do
  let now ← Console.onWorld (unixTimestamp T)
  match ← Action.attempt (Console.onWorld (fetchSvids T ⟨[str "hire:watch"], []⟩)) with
  | .error e => eprintln (stamp now ++ str "error: " ++ e.message)
  | .ok (.error status) => eprintln (stamp now ++ str "error: " ++ status.message)
  | .ok (.ok svids) =>
    printlns (svids.map fun svid ↦ stamp now ++ svid.spiffeId)
    if svids = [] then println (stamp now ++ str "no identity")

/-- What a tick learns, the console left out: its time, and the identities of the daemon or the text
of an error. -/
def look (T : Tool W) (w : W) : (ℕ × Except Str (List Svid)) × W :=
  let now := T.clock w
  let answer := fetchSvids T ⟨[str "hire:watch"], []⟩ now.2
  ((((durationSince now.1 unixEpoch).getD 0).asSecs,
    match answer.1 with
    | .error stop => .error stop.message
    | .ok (.error status) => .error status.message
    | .ok (.ok svids) => .ok svids), answer.2)

/-- The lines of a tick for stdout: its identities, or that there is none. -/
def identityLines : ℕ × Except Str (List Svid) → List Str
  | (_, .error _) => []
  | (now, .ok []) => [stamp now ++ str "no identity"]
  | (now, .ok svids) => svids.map fun svid ↦ stamp now ++ svid.spiffeId

/-- The lines of a tick for stderr: what went wrong. -/
def errorLines : ℕ × Except Str (List Svid) → List Str
  | (now, .error e) => [stamp now ++ str "error: " ++ e]
  | (_, .ok _) => []

/-- A tick in which a signal kills the process: only so many bytes of what it prints are out. -/
def killedTick (T : Tool W) (printed : ℕ) : Command W Unit := do
  let learnt ← Console.onWorld (Action.ask (look T))
  Console.put .panicked ((utf8 (Console.lines (identityLines learnt))).take printed)
  Console.putError .panicked ((utf8 (Console.lines (errorLines learnt))).take printed)
  Action.fail .killed

/-- The watch, over what wakes it. Once Ctrl-C was listened for it no longer kills the process, and
one that comes while a tick is served is lost. -/
def watch (T : Tool W) (listened : Bool) : List Wake → Command W Unit
  | [] => Action.fail .waiting
  | .ctrlC :: _ => pure ()
  | .tick listening none :: rest => do
    tick T
    watch T (listened || listening) rest
  | .tick listening (some printed) :: rest =>
    if listened || listening then do
      tick T
      watch T true rest
    else killedTick T printed

/-! ### The service -/

/-- Whether systemd is the init system of this machine. -/
def systemdIsRunning (T : Tool W) : Command W Bool :=
  Console.onWorld (Action.ask (T.isDir (str "/run/systemd/system")))

/-- Print how to read the log of the daemon. -/
def showLog (T : Tool W) : Command W Unit := do
  println (str "hired writes structured audit events to its stderr.")
  if T.macos then
    printlns [str "launchd routes that to a file; the unified log never sees it.",
      str "To follow it: tail -f ~/Library/Logs/hired.log"]
  else if ← systemdIsRunning T then
    printlns [str "systemd routes that to the journal.",
      str "To follow it: journalctl --user -u hired -f"]
  else
    printlns [str "systemd is not running here, so there is no journal to read.",
      str "Read the stderr of however hired was started."]

/-- Replace a text that is not empty wherever it is found from the left; the number says how many
characters of the last find are still to be left out. -/
def replaceFrom (pattern by' : Str) : ℕ → Str → Str
  | _, [] => []
  | skip + 1, _ :: rest => replaceFrom pattern by' skip rest
  | 0, c :: rest =>
    if pattern.isPrefixOf (c :: rest) then
      by' ++ replaceFrom pattern by' (pattern.length - 1) rest
    else c :: replaceFrom pattern by' 0 rest

/-- A relative path below a directory. -/
def joinPath (dir name : Str) : Str :=
  if dir = [] ∨ dir.getLast? = some '/' then dir ++ name else dir ++ '/' :: name

/-- An action on the files of the machine, which fails as a command with its context. -/
def onFiles {α : Type} (context : List Str) (m : Action Str W α) : Command W α :=
  Console.onWorld (m.mapError fun cause ↦ .failed (context ++ [cause]))

/-- Write the file that starts the daemon. Without systemd the unit is handed over on stdout. -/
def installService (T : Tool W) : Command W Unit := do
  let home ← onFiles [str "HOME not set"] (T.env (str "HOME"))
  if T.macos then
    let dir := joinPath home (str "Library/LaunchAgents")
    onFiles [] (T.createDirAll dir)
    onFiles [] (T.write (joinPath dir (str "hired.plist"))
      (replaceFrom (str "__HOME__") home 0 T.launchdPlist))
    println (str "installed hired.plist")
    onFiles [] (T.createDirAll (joinPath home (str "Library/Logs")))
    printlns [str "logs: ~/Library/Logs/hired.log",
      str "run: launchctl load ~/Library/LaunchAgents/hired.plist"]
  else
    let dir := joinPath home (str ".config/systemd/user")
    if ← systemdIsRunning T then
      onFiles [str "create " ++ dir] (T.createDirAll dir)
      let dest := joinPath dir (str "hired.service")
      onFiles [str "write " ++ dest] (T.write dest T.systemdUnit)
      println (str "installed hired.service, run: systemctl --user enable --now hired")
    else
      eprintlns [str "error: systemd is not running here, so nothing was installed.",
        str "The unit is on stdout. Install it by hand at", dir ++ str "/hired.service"]
      print T.systemdUnit
      Action.fail (.exit 1)

/-! ### The command line itself -/

/-- The usage of the tool. -/
def usage : List Str :=
  [str "usage: hire <command>",
    [],
    str "commands:",
    str "  whoami           print current SPIFFE identity",
    str "  enumerate        list locally-detected identity sources",
    str "  fetch-jwt        fetch a JWT-SVID from the daemon",
    str "  fetch-x509       (not implemented) fetch an X.509-SVID from the daemon",
    str "  prove            prove identity to a peer (JWT with challenge)",
    str "  enroll           (not implemented) enroll an application or origin",
    str "  install-service  write hired service file (systemd or launchd)",
    str "  trust-bundle     list trust bundles (add and remove not implemented)",
    str "  watch            poll for JWT-SVID changes every 30 seconds",
    str "  log              show how to view hired logs"]

/-- Print the usage. -/
def help : Command W Unit := do
  printlns usage
  Action.fail (.exit 0)

end Command

/-- The command that the arguments name. The first argument is the program, and `wakes` is what
wakes a watch. -/
def dispatch (C : Crypto) (M : Machine W) (features : Features) (T : Tool W) (args : List Str)
    (wakes : List Command.Wake) : Command W Unit :=
  let subcmd := args[1]?.getD (str "--help")
  let rest := args.drop 2
  if subcmd = str "whoami" then Command.whoami T
  else if subcmd = str "enumerate" then Command.enumerate C M features
  else if subcmd = str "fetch-jwt" then Command.fetchJwt T rest
  else if subcmd = str "fetch-x509" then Command.fetchX509
  else if subcmd = str "prove" then Command.prove T rest
  else if subcmd = str "enroll" then Command.enroll rest
  else if subcmd = str "install-service" then Command.installService T
  else if subcmd = str "trust-bundle" then Command.trustBundle T rest
  else if subcmd = str "watch" then Command.watch T false wakes
  else if subcmd = str "log" then Command.showLog T
  else if subcmd = str "--help" ∨ subcmd = str "-h" then Command.help
  else bail 1 [str "unknown command: " ++ subcmd, str "run 'hire --help' for usage"]

/-- What is true of every command is true of the one that the arguments name. -/
theorem dispatch_induction {P : Command W Unit → Prop} {C : Crypto} {M : Machine W}
    {features : Features} {T : Tool W} {args : List Str} {wakes : List Command.Wake}
    (whoami : args[1]?.getD (str "--help") = str "whoami" → P (Command.whoami T))
    (enumerate : P (Command.enumerate C M features))
    (fetchJwt : args[1]?.getD (str "--help") = str "fetch-jwt" →
      P (Command.fetchJwt T (args.drop 2)))
    (fetchX509 : P Command.fetchX509) (prove : P (Command.prove T (args.drop 2)))
    (enroll : P (Command.enroll (args.drop 2)))
    (installService : args[1]?.getD (str "--help") = str "install-service" →
      P (Command.installService T))
    (trustBundle : args[1]?.getD (str "--help") = str "trust-bundle" →
      P (Command.trustBundle T (args.drop 2)))
    (watch : P (Command.watch T false wakes)) (showLog : P (Command.showLog T))
    (help : P Command.help)
    (unknown : ∀ lines, P (bail 1 lines)) : P (dispatch C M features T args wakes) := by
  unfold dispatch
  dsimp only
  by_cases h : args[1]?.getD (str "--help") = str "whoami"
  · rw [if_pos h]
    exact whoami h
  rw [if_neg h]
  by_cases h : args[1]?.getD (str "--help") = str "enumerate"
  · rw [if_pos h]
    exact enumerate
  rw [if_neg h]
  by_cases h : args[1]?.getD (str "--help") = str "fetch-jwt"
  · rw [if_pos h]
    exact fetchJwt h
  rw [if_neg h]
  by_cases h : args[1]?.getD (str "--help") = str "fetch-x509"
  · rw [if_pos h]
    exact fetchX509
  rw [if_neg h]
  by_cases h : args[1]?.getD (str "--help") = str "prove"
  · rw [if_pos h]
    exact prove
  rw [if_neg h]
  by_cases h : args[1]?.getD (str "--help") = str "enroll"
  · rw [if_pos h]
    exact enroll
  rw [if_neg h]
  by_cases h : args[1]?.getD (str "--help") = str "install-service"
  · rw [if_pos h]
    exact installService h
  rw [if_neg h]
  by_cases h : args[1]?.getD (str "--help") = str "trust-bundle"
  · rw [if_pos h]
    exact trustBundle h
  rw [if_neg h]
  by_cases h : args[1]?.getD (str "--help") = str "watch"
  · rw [if_pos h]
    exact watch
  rw [if_neg h]
  by_cases h : args[1]?.getD (str "--help") = str "log"
  · rw [if_pos h]
    exact showLog
  rw [if_neg h]
  by_cases h : args[1]?.getD (str "--help") = str "--help" ∨
      args[1]?.getD (str "--help") = str "-h"
  · rw [if_pos h]
    exact help
  · rw [if_neg h]
    exact unknown _

/-- What is reported of a command that stops early. -/
def Tool.report (T : Tool W) : Stop → Str
  | .failed chain => T.reportError chain
  | .panicked => T.reportPanic
  | .exit _ => []
  | .killed => []
  | .waiting => []

/-- What the shell sees of a command, and what it printed. A report is put on stderr as far as it
fits. -/
def run (T : Tool W) (m : Command W Unit) (c : Console W) : Exit × Console W :=
  match m c with
  | (.ok (), c) => (.code 0, c)
  | (.error stop, c) => (stop.seen, { c with stderr := c.stderr.write (utf8 (T.report stop)) })

end Hire.Cli
