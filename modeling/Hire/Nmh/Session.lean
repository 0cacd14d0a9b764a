import Hire.Nmh.Frames

/-!
# A session with the browser

The loop of `hire-nmh/src/main.rs` over a whole run. What one pass does is decided by its read
(`turn_of_error`, `turn_of_none`, `turn_of_message`), and a message that is read always has a
response (`exists_answer`). Whatever the browser sends and however reading fails, what the host has
delivered is a sequence of whole frames that the browser accepts (`mainLoop_sends_frames`): a
response that cannot be encoded or is too large stops the host before any of it is written. Only a
write that fails leaves a part of a frame behind them (`Unfinished`), and stops the host too.

While every response can be sent, to a stdout that takes what is written, the whole frames of the
browser are answered with one frame each, in order, and the host then stops as the rest of the
stream says (`mainLoop_answers`). Behind a part of a length it stops as if the browser had closed
the stream.
-/

set_option autoImplicit false
set_option relaxedAutoImplicit false

namespace Hire.Nmh

open Hire.Library Hire.Core

variable {R O W : Type}

/-! ### One pass -/

/-- The response to a message. -/
def answer (B : Browser W) (msg : Bytes) : Action Error W BrowserResponse :=
  match B.fromSlice msg with
  | .error e => pure (.error (str "invalid request: " ++ e))
  | .ok request => handleRequest B request

/-- Every message has a response. -/
theorem exists_answer (B : Browser W) (msg : Bytes) (world : W) :
    ∃ response world', answer B msg world = (.ok response, world') := by
  unfold answer
  cases B.fromSlice msg with
  | error e => exact ⟨_, _, rfl⟩
  | ok request =>
    cases request with
    | status => exact ⟨_, _, rfl⟩
    | fetchJwt audience =>
      have hattempt : (Action.attempt (fetchJwt B audience) : Action Error W _) world =
          (.ok (fetchJwt B audience world).1, (fetchJwt B audience world).2) := rfl
      dsimp only
      rw [handleRequest, Action.bind_of_ok hattempt]
      cases (fetchJwt B audience world).1 with
      | error e => exact ⟨_, _, rfl⟩
      | ok svid => exact ⟨_, _, rfl⟩

/-- To send a response is to write its JSON. -/
theorem sendResponse_eq [Write O] {B : Browser W} {response : BrowserResponse} {json : Bytes}
    (hjson : B.toVec response = .ok json) :
    (sendResponse B response : Action Error O Unit) = writeMessage json := by
  funext output
  rw [sendResponse, hjson]
  rfl

/-- A response is sent, and the loop goes on. -/
theorem send_and_go_on [Write O] (B : Browser W) (response : BrowserResponse) (host : Host R O W) :
    (do
      Host.onOutput (sendResponse B response)
      pure true : Action Error (Host R O W) Bool) host =
      ((sendResponse B response host.output).1.map fun _ ↦ true,
        { host with output := (sendResponse B response host.output).2 }) := by
  have houtput : Host.onOutput (sendResponse B response) host =
      ((sendResponse B response host.output).1,
        { host with output := (sendResponse B response host.output).2 }) := rfl
  generalize sendResponse B response host.output = sent at houtput
  obtain ⟨result, output⟩ := sent
  cases result with
  | error e => exact Action.bind_of_error houtput
  | ok _ => exact Action.bind_of_ok houtput

section Turn

variable [Read R] {host : Host R O W} {input : R}

theorem onInput_readMessage {result : Except Error (Option Bytes)}
    (hread : readMessage host.input = (result, input)) :
    Host.onInput readMessage host = (result, { host with input := input }) :=
  Action.zoom_eq hread

variable [Write O]

/-- A pass ends with the error of its read. -/
theorem turn_of_error (B : Browser W) {e : Error}
    (hread : readMessage host.input = (.error e, input)) :
    turn B host = (.error e, { host with input := input }) :=
  Action.bind_of_error (onInput_readMessage hread)

/-- At the end of the stream the loop does not go on. -/
theorem turn_of_none (B : Browser W) (hread : readMessage host.input = (.ok none, input)) :
    turn B host = (.ok false, { host with input := input }) :=
  Action.bind_of_ok (onInput_readMessage hread)

/-- A message is answered, and the loop goes on if the response is sent. -/
theorem turn_of_message {B : Browser W} {msg : Bytes} {response : BrowserResponse} {world : W}
    (hread : readMessage host.input = (.ok (some msg), input))
    (hanswer : answer B msg host.world = (.ok response, world)) :
    turn B host = ((sendResponse B response host.output).1.map fun _ ↦ true,
      ⟨input, (sendResponse B response host.output).2, world⟩) := by
  rw [turn, Action.bind_of_ok (onInput_readMessage hread)]
  unfold answer at hanswer
  dsimp only
  cases hrequest : B.fromSlice msg with
  | error e =>
    rw [hrequest] at hanswer
    obtain ⟨hresponse, rfl⟩ := Prod.mk.inj hanswer
    obtain rfl := Except.ok.inj hresponse
    exact send_and_go_on B _ { host with input := input }
  | ok request =>
    rw [hrequest] at hanswer
    have hworld : Host.onWorld (handleRequest B request) { host with input := input } =
        (.ok response, { host with input := input, world := world }) := Action.zoom_eq hanswer
    dsimp only
    rw [Action.bind_of_ok hworld]
    exact send_and_go_on B response { host with input := input, world := world }

end Turn

/-! ### What is sent -/

/-- A response that some message has in some world. -/
def Answers (B : Browser W) (response : BrowserResponse) : Prop :=
  ∃ msg world world', answer B msg world = (.ok response, world')

section Outlet

variable [Outlet O]

open Outlet (progress)

/-- What is behind the last whole frame once the host has stopped with a result and left its stdout:
nothing, or, after a write that failed and stopped it, the part of a frame that was delivered, with
the part that is held back. -/
inductive Unfinished (B : Browser W) (P : BrowserResponse → Prop) :
    Except Error Unit → Bytes → O → Prop
  | nothing (result : Except Error Unit) {output : O} (hheld : (progress output).held = []) :
      Unfinished B P result [] output
  | torn {response : BrowserResponse} {json part : Bytes} {e : IoError} {output output' : O}
      (hresponse : P response) (hjson : B.toVec response = .ok json)
      (hsmall : json.length ≤ maxResponse)
      (hfailed : writeMessage json output = (.error (.io e), output'))
      (hpart : part ++ (progress output').held <+: frame json) :
      Unfinished B P (.error (.io e)) part output'

/-- A response is taken as one whole frame, or it is refused and nothing is written, or a write
inside its frame fails. -/
theorem sendResponse_cases (B : Browser W) (response : BrowserResponse) (output : O) :
    (∃ json output', B.toVec response = .ok json ∧ json.length ≤ maxResponse ∧
      sendResponse B response output = (.ok (), output') ∧
      (progress output).Takes (frame json) (progress output') ∧ (progress output').held = []) ∨
    (∃ e, sendResponse B response output = (.error e, output)) ∨
    ∃ json e output', B.toVec response = .ok json ∧ json.length ≤ maxResponse ∧
      sendResponse B response output = (.error (.io e), output') ∧
      writeMessage json output = (.error (.io e), output') ∧
      (progress output).Tears (frame json) (progress output') := by
  cases hjson : B.toVec response with
  | error e =>
    have hvec : (Action.ofExcept ((B.toVec response).mapError Error.message) :
        Action Error O Bytes) output = (.error (.message e), output) := by
      rw [hjson]
      rfl
    exact .inr (.inl ⟨_, Action.bind_of_error hvec⟩)
  | ok json =>
    rw [sendResponse_eq hjson]
    by_cases hsmall : json.length ≤ maxResponse
    · rcases writeMessage_cases hsmall output with
        ⟨output', hwrite, htakes, hheld⟩ | ⟨e, output', hwrite, htears⟩
      · exact .inl ⟨json, output', rfl, hsmall, hwrite, htakes, hheld⟩
      · exact .inr (.inr ⟨json, e, output', rfl, hsmall, hwrite, hwrite, htears⟩)
    · exact .inr (.inl ⟨_, writeMessage_refused (Nat.lt_of_not_le hsmall) output⟩)

/-- A property of the world that answering keeps holds of the world at the end of the loop, whatever
is read and however the host stops. What was delivered is whole frames that the browser accepts,
each with the JSON of a response that an answer can be from such a world, and what a failed write
left of one more. -/
theorem mainLoop_invariant [Read R] {B : Browser W} {I : W → Prop} {P : BrowserResponse → Prop}
    (hkeep : ∀ msg world response world', I world →
      answer B msg world = (.ok response, world') → I world' ∧ P response) {rounds : ℕ}
    {host host' : Host R O W} {result : Except Error Unit} (hworld : I host.world)
    (hheld : (progress host.output).held = []) (h : mainLoop B rounds host = some (result, host')) :
    I host'.world ∧ ∃ (sent : List (BrowserResponse × Bytes)) (part : Bytes),
      (∀ said ∈ sent, P said.1 ∧ B.toVec said.1 = .ok said.2 ∧ said.2.length ≤ maxResponse) ∧
      (progress host'.output).delivered =
        (progress host.output).delivered ++ (sent.flatMap fun said ↦ frame said.2) ++ part ∧
      Unfinished B P result part host'.output := by
  induction rounds generalizing host with
  | zero => cases h
  | succ rounds ih =>
    have hnothing : ∃ (sent : List (BrowserResponse × Bytes)) (part : Bytes),
        (∀ said ∈ sent, P said.1 ∧ B.toVec said.1 = .ok said.2 ∧ said.2.length ≤ maxResponse) ∧
        (progress host.output).delivered =
          (progress host.output).delivered ++ (sent.flatMap fun said ↦ frame said.2) ++ part ∧
        Unfinished B P result part host.output :=
      ⟨[], [], fun _ hsaid ↦ absurd hsaid List.not_mem_nil, by simp, .nothing result hheld⟩
    rw [mainLoop] at h
    rcases hread : readMessage host.input with ⟨found, input⟩
    match found with
    | .error e =>
      rw [turn_of_error B hread] at h
      obtain ⟨-, rfl⟩ := Prod.mk.inj (Option.some.inj h)
      exact ⟨hworld, hnothing⟩
    | .ok none =>
      rw [turn_of_none B hread] at h
      obtain ⟨-, rfl⟩ := Prod.mk.inj (Option.some.inj h)
      exact ⟨hworld, hnothing⟩
    | .ok (some msg) =>
      obtain ⟨response, world, hanswer⟩ := exists_answer B msg host.world
      obtain ⟨hafter, hresponse⟩ := hkeep msg host.world response world hworld hanswer
      rw [turn_of_message hread hanswer] at h
      rcases sendResponse_cases B response host.output with
        ⟨json, output, hjson, hsmall, hsend, htakes, hnext⟩ | ⟨e, hsend⟩ |
        ⟨json, e, output, hjson, hsmall, hsend, hfailed, htears⟩
      · rw [hsend] at h
        obtain ⟨hlast, sent, part, hsent, hlater, hend⟩ := ih hafter hnext h
        refine ⟨hlast, (response, json) :: sent, part,
          List.forall_mem_cons.mpr ⟨⟨hresponse, hjson, hsmall⟩, hsent⟩, ?_, hend⟩
        rw [hlater, htakes.delivered_eq hheld hnext, List.flatMap_cons, List.append_assoc _ _ part,
          List.append_assoc, List.append_assoc, List.append_assoc]
      · rw [hsend] at h
        obtain ⟨-, rfl⟩ := Prod.mk.inj (Option.some.inj h)
        exact ⟨hafter, hnothing⟩
      · rw [hsend] at h
        obtain ⟨rfl, rfl⟩ := Prod.mk.inj (Option.some.inj h)
        obtain ⟨part, hdelivered, hpart⟩ := htears.exists_part hheld
        refine ⟨hafter, [], part, fun _ hsaid ↦ absurd hsaid List.not_mem_nil, ?_,
          .torn hresponse hjson hsmall hfailed hpart⟩
        rw [hdelivered, List.flatMap_nil, List.append_nil]

/-- Whatever is read, however the requests are answered and however the host stops, it has delivered
whole frames, each with the JSON of an answer and none larger than the browser accepts. Only after a
write that failed, which stops the host, is there a part of one more such frame behind them.
Assumes: stdout held nothing back when the host started. -/
theorem mainLoop_sends_frames [Read R] (B : Browser W) {rounds : ℕ} {host host' : Host R O W}
    {result : Except Error Unit} (hheld : (progress host.output).held = [])
    (h : mainLoop B rounds host = some (result, host')) :
    ∃ (sent : List (BrowserResponse × Bytes)) (part : Bytes),
      (∀ said ∈ sent,
        Answers B said.1 ∧ B.toVec said.1 = .ok said.2 ∧ said.2.length ≤ maxResponse) ∧
      (progress host'.output).delivered =
        (progress host.output).delivered ++ (sent.flatMap fun said ↦ frame said.2) ++ part ∧
      Unfinished B (Answers B) result part host'.output := by
  have hkeep : ∀ msg world response world', True →
      answer B msg world = (.ok response, world') → True ∧ Answers B response :=
    fun msg world _ world' _ hanswer ↦ ⟨trivial, msg, world, world', hanswer⟩
  exact (mainLoop_invariant (I := fun _ ↦ True) hkeep trivial hheld h).2

end Outlet

/-- The question whether the daemon is running. -/
def statusText : Bytes := utf8 (str "\x7b\"type\":\"status\"\x7d")

/-- An answer to the question. -/
def runningText (running : Bool) : Bytes :=
  utf8 (str "\x7b\"type\":\"status\",\"running\":" ++
    (if running then str "true" else str "false") ++ str ",\"version\":\"0.1.0\"\x7d")

/-- A browser that asks whether the daemon is running. The socket is there from the second time on
that one looks. -/
def askingBrowser : Browser ℕ where
  fromSlice msg :=
    if msg = statusText then .ok .status else .error (str "expected value at line 1 column 1")
  toVec
    | .status running _ => .ok (runningText running)
    | .error message =>
      .ok (utf8 (str "\x7b\"type\":\"error\",\"message\":\"" ++ message ++ str "\"\x7d"))
    | .jwt svid spiffeId =>
      .ok (utf8 (str "\x7b\"type\":\"jwt\",\"svid\":\"" ++ svid ++ str "\",\"spiffe_id\":\"" ++
        spiffeId ++ str "\"\x7d"))
  version := str "0.1.0"
  socketExists looked := (decide (0 < looked), looked + 1)
  connect := pure ()
  fetchJwtsvid _ := Action.fail (str "transport error")

/-- Two questions, and a pipe whose reader is gone seven bytes into the second answer: one whole
frame was delivered, and the host stopped with the error of its write. -/
theorem mainLoop_sends_frames_torn :
    ∃ (sent : List (BrowserResponse × Bytes)) (part : Bytes),
      (∀ said ∈ sent, Answers askingBrowser said.1 ∧
        askingBrowser.toVec said.1 = .ok said.2 ∧ said.2.length ≤ maxResponse) ∧
      frame (runningText false) ++ (frame (runningText true)).take 7 =
        ([] : Bytes) ++ (sent.flatMap fun said ↦ frame said.2) ++ part ∧
      Unfinished askingBrowser (Answers askingBrowser) (.error (.io brokenPipe)) part
        (⟨frame (runningText false) ++ (frame (runningText true)).take 7,
          (frame (runningText true)).drop 7, 0⟩ : BufferedPipe) := by
  have hloop : mainLoop askingBrowser 2 (⟨frame statusText ++ frame statusText, ⟨[], [], 62⟩, 0⟩ :
      Host Bytes BufferedPipe ℕ) = some (.error (.io brokenPipe), ⟨[],
        ⟨frame (runningText false) ++ (frame (runningText true)).take 7,
          (frame (runningText true)).drop 7, 0⟩, 2⟩) := by
    with_unfolding_all rfl
  exact mainLoop_sends_frames askingBrowser rfl hloop

section Writer

variable [ByteSink O]

open ByteSink (written)

/-- A response whose JSON is small enough is sent as its frame. -/
theorem sendResponse_ok {B : Browser W} {response : BrowserResponse} {json : Bytes}
    (hjson : B.toVec response = .ok json) (hsmall : json.length ≤ maxResponse) (output : O) :
    ∃ output' : O, sendResponse B response output = (.ok (), output') ∧
      written output' = written output ++ frame json := by
  rw [sendResponse_eq hjson]
  exact writeMessage_ok hsmall output

/-- To a stdout that takes everything no frame is left unfinished. -/
theorem unfinished_sink {B : Browser W} {P : BrowserResponse → Prop} {result : Except Error Unit}
    {part : Bytes} {output : O} (h : Unfinished B P result part output) : part = [] := by
  cases h with
  | nothing result hheld => rfl
  | torn hresponse hjson hsmall hfailed hpart =>
    rename_i before
    obtain ⟨after, hwrite, -⟩ := writeMessage_ok hsmall before
    cases (Prod.mk.inj (hfailed.symm.trans hwrite)).1

/-- Messages and the JSON of their responses, one for each, while the world goes from one to
another and every response can be sent. -/
inductive Answered (B : Browser W) : List Bytes → W → List Bytes → W → Prop
  | nil (world : W) : Answered B [] world [] world
  | cons {msg json : Bytes} {messages sent : List Bytes} {world next last : W}
      {response : BrowserResponse} (hanswer : answer B msg world = (.ok response, next))
      (hjson : B.toVec response = .ok json) (hsmall : json.length ≤ maxResponse)
      (hlater : Answered B messages next sent last) :
      Answered B (msg :: messages) world (json :: sent) last

/-- The whole frames of the browser are answered with one frame each, in order, and then the host
stops as the rest of the stream says.
Assumes: each response can be sent, and stdout takes what is written to it. -/
theorem mainLoop_answers [ByteStream R] (B : Browser W) {messages sent : List Bytes}
    {rest : Bytes} {input : R} (output : O) {world last : W}
    (hframes : Frames (ByteStream.bytes input) messages rest) (hrest : readFrame rest = none)
    (hanswered : Answered B messages world sent last) {rounds : ℕ}
    (hrounds : messages.length < rounds) :
    ∃ host', mainLoop B rounds ⟨input, output, world⟩ = some (ending rest, host') ∧
      host'.world = last ∧ written host'.output = written output ++ sent.flatMap frame := by
  induction hanswered generalizing input output rounds with
  | nil world =>
    obtain ⟨rounds, rfl⟩ := Nat.exists_eq_add_of_le' (Nat.one_le_of_lt hrounds)
    obtain rfl : ByteStream.bytes input = rest := hframes.buf_eq
    obtain ⟨input', hread⟩ := readMessage_of_rest hrest
    refine ⟨⟨input', output, world⟩, ?_, rfl, (List.append_nil _).symm⟩
    rw [mainLoop]
    cases hend : ending (ByteStream.bytes input) with
    | error e =>
      rw [hend] at hread
      have hturn : turn B (⟨input, output, world⟩ : Host R O W) = _ := turn_of_error B hread
      rw [hturn]
    | ok _ =>
      rw [hend] at hread
      have hturn : turn B (⟨input, output, world⟩ : Host R O W) = _ := turn_of_none B hread
      rw [hturn]
  | cons hanswer hjson hsmall hlater ih =>
    rename_i msg json messages sent world next last response
    obtain ⟨rounds, rfl⟩ := Nat.exists_eq_add_of_le' (Nat.one_le_of_lt hrounds)
    obtain ⟨hmsg, hmessages⟩ := List.forall_mem_cons.mp hframes.valid
    have hbytes := hframes.buf_eq
    rw [List.flatMap_cons, List.append_assoc] at hbytes
    obtain ⟨input', hread, hbehind⟩ := readMessage_of_frame hmsg hbytes
    obtain ⟨output', hsend, hwritten⟩ := sendResponse_ok hjson hsmall output
    obtain ⟨host', hloop, hworld, hoverall⟩ :=
      ih output' ⟨hbehind, hmessages⟩ (Nat.lt_of_succ_lt_succ hrounds)
    refine ⟨host', ?_, hworld, ?_⟩
    · have hturn : turn B (⟨input, output, world⟩ : Host R O W) = _ :=
        turn_of_message hread hanswer
      rw [mainLoop, hturn]
      dsimp only
      rw [hsend]
      exact hloop
    · rw [hoverall, hwritten, List.flatMap_cons, List.append_assoc]

/-- Two questions, between which the daemon comes up, and a part of a length: both are answered, and
the host stops as if the browser had closed the stream behind them. -/
theorem mainLoop_answers_questions :
    ∃ host', mainLoop askingBrowser 3 (⟨frame statusText ++ (frame statusText ++ [1, 0]),
        ([] : Bytes), 0⟩ : Host Bytes Bytes ℕ) = some (.ok (), host') ∧ host'.world = 2 ∧
      host'.output = frame (runningText false) ++ frame (runningText true) := by
  have hsmall : Accepted statusText := by
    change statusText.length ≤ maxRequest
    with_unfolding_all decide
  have hframes : Frames
      (ByteStream.bytes (frame statusText ++ (frame statusText ++ [1, 0]) : Bytes))
      [statusText, statusText] [1, 0] :=
    ⟨by simp [ByteStream.bytes],
      List.forall_mem_cons.mpr ⟨hsmall, List.forall_mem_singleton.mpr hsmall⟩⟩
  have hfirst : answer askingBrowser statusText 0 = (.ok (.status false (str "0.1.0")), 1) := by
    with_unfolding_all rfl
  have hsecond : answer askingBrowser statusText 1 = (.ok (.status true (str "0.1.0")), 2) := by
    with_unfolding_all rfl
  have hanswered : Answered askingBrowser [statusText, statusText] 0
      [runningText false, runningText true] 2 :=
    .cons hfirst rfl (by with_unfolding_all decide)
      (.cons hsecond rfl (by with_unfolding_all decide) (.nil 2))
  obtain ⟨host', hloop, hworld, hwritten⟩ :=
    mainLoop_answers askingBrowser ([] : Bytes) hframes rfl hanswered (by decide : 2 < 3)
  exact ⟨host', hloop, hworld, by simpa [ByteSink.written] using hwritten⟩

end Writer

end Hire.Nmh
