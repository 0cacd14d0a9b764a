import Hire.Nmh.Host

/-!
# Frames on a stream

What `read_message` and `write_message` of `hire-nmh/src/main.rs` make of a whole stream. `frame` is
a message behind its length, and `readFrame` finds a frame in front of a sequence of bytes; the two
are exact for messages of at most `maxRequest` bytes (`exact_readFrame`). Every stream is therefore
a run of such frames and a rest without one in front, and the rest is nothing or one of three cuts
(`Cut`): inside the length of a frame, inside its body, or before a length that is not accepted.

`readMessage` takes a frame off any `ByteStream` (`readMessage_of_frame`), so `readMessages` returns
the frames of a stream in order and then ends as the rest decides (`readMessages_of_run`). Written
frames are read back, `frames_survive_concatenation`. A stream that is cut off ends in an error
except when it ends inside the length of a frame, where the read of the length takes the end of the
stream for the end of the conversation: `cutOffIsError_iff`.
-/

set_option autoImplicit false
set_option relaxedAutoImplicit false

namespace Hire.Nmh

open Hire.Library

variable {R O : Type}

/-! ### Frames and cuts -/

/-- A message behind its length. -/
def frame (msg : Bytes) : Bytes := leBytes 4 msg.length ++ msg

/-- The messages the host accepts from the browser. -/
def Accepted (msg : Bytes) : Prop := msg.length ≤ maxRequest

/-- A stream is frames that the host accepts, and a rest. -/
abbrev Frames (stream : Bytes) (messages : List Bytes) (rest : Bytes) : Prop :=
  Run Accepted frame stream messages rest

/-- What a stream can end with behind its last whole frame, other than nothing: a part of a length,
a length that is accepted and a part of the bytes it announces, or a length that is not accepted. -/
inductive Cut : Bytes → Prop
  | inPrefix {part : Bytes} (hne : part ≠ []) (hshort : part.length < 4) : Cut part
  | inBody (lenBuf : ByteArr 4) {part : Bytes} (hfits : leValue lenBuf.1 ≤ maxRequest)
      (hshort : part.length < leValue lenBuf.1) : Cut (lenBuf.1 ++ part)
  | oversized (lenBuf : ByteArr 4) (rest : Bytes) (hlarge : maxRequest < leValue lenBuf.1) :
      Cut (lenBuf.1 ++ rest)

/-- The length of a frame, if it is accepted. -/
def readLength (buf : Bytes) : Option (ℕ × Bytes) :=
  match cutAt 4 buf with
  | none => none
  | some (lenBuf, rest) =>
    if maxRequest < leValue lenBuf then none else some (leValue lenBuf, rest)

/-- The frame in front of a sequence of bytes, if there is a whole one that is accepted. -/
def readFrame (buf : Bytes) : Option (Bytes × Bytes) := readCounted readLength buf

theorem maxRequest_lt : maxRequest < 256 ^ 4 := by decide

theorem leValue_length {n : ℕ} (hn : n ≤ maxRequest) : leValue (leBytes 4 n) = n :=
  leValue_leBytes (lt_of_le_of_lt hn maxRequest_lt)

theorem exact_readLength : Exact (· ≤ maxRequest) (leBytes 4) readLength := by
  intro buf n rest
  unfold readLength
  constructor
  · intro hread
    split at hread
    · cases hread
    · rename_i lenBuf behind hcut
      obtain ⟨rfl, hlength⟩ := cutAt_eq_some_iff.mp hcut
      split_ifs at hread with hlarge
      obtain ⟨rfl, rfl⟩ := Prod.mk.inj (Option.some.inj hread)
      have hbytes := leBytes_leValue lenBuf
      rw [hlength] at hbytes
      exact ⟨by rw [hbytes], Nat.le_of_not_lt hlarge⟩
  · rintro ⟨rfl, hn⟩
    rw [cutAt_eq_some_iff.mpr ⟨rfl, length_leBytes 4 n⟩]
    dsimp only
    rw [leValue_length hn, if_neg (Nat.not_lt_of_le hn)]

/-- A frame is found precisely where one that is accepted was written. -/
theorem exact_readFrame : Exact Accepted frame readFrame := exact_readLength.counted

theorem length_frame (msg : Bytes) : (frame msg).length = 4 + msg.length := by
  rw [frame, List.length_append, length_leBytes]

theorem Cut.ne_nil {rest : Bytes} (h : Cut rest) : rest ≠ [] := by
  have hlong : ∀ (lenBuf : ByteArr 4) (behind : Bytes), lenBuf.1 ++ behind ≠ [] := by
    intro lenBuf behind hnil
    have hlength := congrArg List.length (List.append_eq_nil_iff.mp hnil).1
    rw [lenBuf.2] at hlength
    cases hlength
  cases h with
  | inPrefix hne hshort => exact hne
  | inBody lenBuf hfits hshort => exact hlong _ _
  | oversized lenBuf rest hlarge => exact hlong _ _

/-- A rest has no whole frame in front exactly when it is nothing or a cut. -/
theorem readFrame_eq_none_iff {rest : Bytes} : readFrame rest = none ↔ rest = [] ∨ Cut rest := by
  unfold readFrame readCounted readLength
  constructor
  · intro h
    by_cases hne : rest = []
    · exact .inl hne
    right
    cases hcut : cutAt 4 rest with
    | none => exact .inPrefix hne (cutAt_eq_none_iff.mp hcut)
    | some parts =>
      obtain ⟨lenBuf, body⟩ := parts
      obtain ⟨rfl, hlength⟩ := cutAt_eq_some_iff.mp hcut
      by_cases hlarge : maxRequest < leValue lenBuf
      · exact .oversized ⟨lenBuf, hlength⟩ body hlarge
      · rw [hcut] at h
        dsimp only at h
        rw [if_neg hlarge] at h
        exact .inBody ⟨lenBuf, hlength⟩ (Nat.le_of_not_lt hlarge) (cutAt_eq_none_iff.mp h)
  · rintro (rfl | hcut)
    · rfl
    · cases hcut with
      | inPrefix hne hshort => rw [cutAt_eq_none_iff.mpr hshort]
      | inBody lenBuf hfits hshort =>
        rw [cutAt_eq_some_iff.mpr ⟨rfl, lenBuf.2⟩]
        dsimp only
        rw [if_neg (Nat.not_lt_of_le hfits)]
        exact cutAt_eq_none_iff.mpr hshort
      | oversized lenBuf rest hlarge =>
        rw [cutAt_eq_some_iff.mpr ⟨rfl, lenBuf.2⟩]
        dsimp only
        rw [if_pos hlarge]

/-- Every stream is whole frames, and nothing or a cut. -/
theorem exists_frames (stream : Bytes) :
    ∃ messages rest, Frames stream messages rest ∧ (rest = [] ∨ Cut rest) := by
  have hwidth : ∀ msg, 1 ≤ (frame msg).length := by
    intro msg
    rw [length_frame]
    omega
  obtain ⟨messages, rest, hframes, hnone⟩ := exact_readFrame.exists_run hwidth stream
  exact ⟨messages, rest, hframes, readFrame_eq_none_iff.mp hnone⟩

/-- How the reading ends behind the last whole frame: with the end of the stream when not even a
length is there, and with an error otherwise. -/
def ending (rest : Bytes) : Except Error Unit :=
  match cutAt 4 rest with
  | none => .ok ()
  | some (lenBuf, _) =>
    if maxRequest < leValue lenBuf then .error (requestTooLarge (leValue lenBuf))
    else .error (.io readExactEof)

theorem ending_eq_ok_iff {rest : Bytes} : ending rest = .ok () ↔ rest.length < 4 := by
  rw [← cutAt_eq_none_iff, ending]
  cases cutAt 4 rest with
  | none => simp
  | some parts =>
    dsimp only
    split_ifs <;> simp

/-! ### Reading -/

section Reader

variable [ByteStream R]

open ByteStream (bytes)

/-- A read once the length of a frame is there. -/
theorem readMessage_of_length {input : R} (lenBuf : ByteArr 4) {behind : Bytes}
    (h : bytes input = lenBuf.1 ++ behind) : ∃ input' : R, bytes input' = behind ∧
      readMessage input =
        (if leValue lenBuf.1 > maxRequest then Action.fail (requestTooLarge (leValue lenBuf.1))
          else (do
            let buf ← (Read.readExact (leValue lenBuf.1)).mapError Error.io
            pure (some buf.1) : Action Error R (Option Bytes))) input' := by
  obtain ⟨input', hread, hbehind⟩ := ByteStream.readExact_of_append input lenBuf behind h
  exact ⟨input', hbehind, by rw [readMessage, Action.bind_of_ok (Action.attempt_eq hread)]⟩

/-- A frame that is accepted is taken off the front. -/
theorem readMessage_of_frame {input : R} {msg rest : Bytes} (hmsg : Accepted msg)
    (h : bytes input = frame msg ++ rest) :
    ∃ input' : R, readMessage input = (.ok (some msg), input') ∧ bytes input' = rest := by
  rw [frame, List.append_assoc] at h
  obtain ⟨behind, hbehind, hread⟩ :=
    readMessage_of_length ⟨leBytes 4 msg.length, length_leBytes 4 _⟩ h
  have hlength : leValue (leBytes 4 msg.length) = msg.length := leValue_length hmsg
  obtain ⟨input', hbody, hrest⟩ := ByteStream.readExact_of_append behind
    (n := leValue (leBytes 4 msg.length)) ⟨msg, hlength.symm⟩ rest hbehind
  refine ⟨input', ?_, hrest⟩
  rw [hread, if_neg (Nat.not_lt_of_le (hlength.symm ▸ hmsg)),
    Action.bind_of_ok (Action.mapError_of_ok hbody)]
  rfl

/-- Without a frame in front, the read ends the reading. -/
theorem readMessage_of_rest {input : R} (h : readFrame (bytes input) = none) :
    ∃ input' : R, readMessage input = ((ending (bytes input)).map fun _ ↦ none, input') := by
  cases hcut : cutAt 4 (bytes input) with
  | none =>
    obtain ⟨input', hread⟩ := ByteStream.readExact_of_lt input (cutAt_eq_none_iff.mp hcut)
    refine ⟨input', ?_⟩
    rw [readMessage, Action.bind_of_ok (Action.attempt_eq hread), ending, hcut]
    rfl
  | some parts =>
    obtain ⟨lenBuf, body⟩ := parts
    obtain ⟨hbytes, hlength⟩ := cutAt_eq_some_iff.mp hcut
    obtain ⟨behind, hbehind, hread⟩ := readMessage_of_length ⟨lenBuf, hlength⟩ hbytes
    rw [readFrame, readCounted, readLength, hcut] at h
    rw [hread, ending, hcut]
    dsimp only at h ⊢
    by_cases hlarge : maxRequest < leValue lenBuf
    · rw [if_pos hlarge, if_pos hlarge]
      exact ⟨behind, rfl⟩
    · rw [if_neg hlarge] at h
      have hshort : (bytes behind).length < leValue lenBuf := by
        rw [hbehind]
        exact cutAt_eq_none_iff.mp h
      obtain ⟨input', hbody⟩ := ByteStream.readExact_of_lt behind hshort
      rw [if_neg hlarge, if_neg hlarge,
        Action.bind_of_error (Action.mapError_of_error hbody)]
      exact ⟨input', rfl⟩

/-- The frames of a stream are read in order, and then the reading ends as the rest says. -/
theorem readMessages_of_frames {input : R} {messages : List Bytes} {rest : Bytes}
    (hframes : Frames (bytes input) messages rest) (hrest : readFrame rest = none) {rounds : ℕ}
    (hrounds : messages.length < rounds) :
    readMessages rounds input = some (messages, ending rest) := by
  induction messages generalizing input rounds with
  | nil =>
    obtain ⟨rounds, rfl⟩ := Nat.exists_eq_add_of_le' (Nat.one_le_of_lt hrounds)
    obtain rfl : bytes input = rest := hframes.buf_eq
    obtain ⟨input', hread⟩ := readMessage_of_rest hrest
    rw [readMessages, hread]
    cases ending (bytes input) <;> rfl
  | cons msg messages ih =>
    obtain ⟨rounds, rfl⟩ := Nat.exists_eq_add_of_le' (Nat.one_le_of_lt hrounds)
    obtain ⟨hmsg, hmessages⟩ := List.forall_mem_cons.mp hframes.valid
    have hbytes := hframes.buf_eq
    rw [List.flatMap_cons, List.append_assoc] at hbytes
    obtain ⟨input', hread, hbehind⟩ := readMessage_of_frame hmsg hbytes
    rw [readMessages, hread]
    dsimp only
    rw [ih ⟨hbehind, hmessages⟩ (Nat.lt_of_succ_lt_succ hrounds)]
    rfl

end Reader

/-- More rounds change nothing once the reading ended. -/
theorem readMessages_add [Read R] {rounds : ℕ} {input : R} {run : List Bytes × Except Error Unit}
    (h : readMessages rounds input = some run) (more : ℕ) :
    readMessages (rounds + more) input = some run := by
  induction rounds generalizing input run with
  | zero => cases h
  | succ rounds ih =>
    rw [Nat.add_right_comm, readMessages]
    rw [readMessages] at h
    split at h
    · exact h
    · exact h
    · obtain ⟨later, hlater, rfl⟩ := Option.map_eq_some_iff.mp h
      rw [ih hlater]
      rfl

/-! ### Writing -/

/-- A message that is too large is refused before anything is written, whatever the writer. -/
theorem writeMessage_refused [Write O] {msg : Bytes} (hlarge : maxResponse < msg.length)
    (output : O) : writeMessage msg output = (.error (responseTooLarge msg.length), output) := by
  rw [writeMessage, if_pos hlarge]
  rfl

section Outlet

variable [Outlet O]

open Outlet (progress)

/-- A message that is not too large is taken as its frame, or a write fails and a part of the frame
was taken. -/
theorem writeMessage_cases {msg : Bytes} (hsmall : msg.length ≤ maxResponse) (output : O) :
    (∃ output', writeMessage msg output = (.ok (), output') ∧
      (progress output).Takes (frame msg) (progress output') ∧ (progress output').held = []) ∨
    ∃ e output', writeMessage msg output = (.error (.io e), output') ∧
      (progress output).Tears (frame msg) (progress output') := by
  rw [writeMessage, if_neg (Nat.not_lt_of_le hsmall)]
  rcases hlength : Write.writeAll (leBytes 4 msg.length) output with ⟨lengthResult, first⟩
  cases lengthResult with
  | error e =>
    refine .inr ⟨e, first, Action.bind_of_error (Action.mapError_of_error hlength), ?_⟩
    exact (Outlet.writeAll_error hlength).append msg
  | ok _ =>
    rw [Action.bind_of_ok (Action.mapError_of_ok hlength)]
    rcases hbody : Write.writeAll msg first with ⟨bodyResult, second⟩
    have hfirst := Outlet.writeAll_ok hlength
    cases bodyResult with
    | error e =>
      refine .inr ⟨e, second, Action.bind_of_error (Action.mapError_of_error hbody), ?_⟩
      exact hfirst.tears (Outlet.writeAll_error hbody)
    | ok _ =>
      rw [Action.bind_of_ok (Action.mapError_of_ok hbody)]
      rcases hflush : Write.flush second with ⟨flushResult, third⟩
      have hsecond := hfirst.trans (Outlet.writeAll_ok hbody)
      cases flushResult with
      | error e =>
        refine .inr ⟨e, third, Action.mapError_of_error hflush, ?_⟩
        simpa only [frame, List.append_nil] using hsecond.tears (Outlet.flush_error hflush)
      | ok _ =>
        obtain ⟨hthird, hheld⟩ := Outlet.flush_ok hflush
        refine .inl ⟨third, Action.mapError_of_ok hflush, ?_, hheld⟩
        simpa only [frame, List.append_nil] using hsecond.trans hthird

end Outlet

section Writer

variable [ByteSink O]

open ByteSink (written)

/-- A message is written as its frame. -/
theorem writeMessage_ok {msg : Bytes} (hsmall : msg.length ≤ maxResponse) (output : O) :
    ∃ output' : O, writeMessage msg output = (.ok (), output') ∧
      written output' = written output ++ frame msg := by
  obtain ⟨first, hlength, hfirst⟩ := ByteSink.writeAll_ok output (leBytes 4 msg.length)
  obtain ⟨second, hbody, hsecond⟩ := ByteSink.writeAll_ok first msg
  obtain ⟨third, hflush, hthird⟩ := ByteSink.flush_ok second
  refine ⟨third, ?_, ?_⟩
  · rw [writeMessage, if_neg (Nat.not_lt_of_le hsmall),
      Action.bind_of_ok (Action.mapError_of_ok hlength),
      Action.bind_of_ok (Action.mapError_of_ok hbody), Action.mapError_of_ok hflush]
  · rw [hthird, hsecond, hfirst, List.append_assoc, frame]

/-- Messages are written as their frames, one behind the other. -/
theorem writeMessages_ok {messages : List Bytes} (hsmall : ∀ msg ∈ messages,
    msg.length ≤ maxResponse) (output : O) :
    ∃ output' : O, writeMessages messages output = (.ok (), output') ∧
      written output' = written output ++ messages.flatMap frame := by
  induction messages generalizing output with
  | nil => exact ⟨output, rfl, (List.append_nil _).symm⟩
  | cons msg messages ih =>
    obtain ⟨hmsg, hmessages⟩ := List.forall_mem_cons.mp hsmall
    obtain ⟨next, hwrite, hnext⟩ := writeMessage_ok hmsg output
    obtain ⟨output', hlater, hwritten⟩ := ih hmessages next
    refine ⟨output', ?_, ?_⟩
    · rw [writeMessages, Action.bind_of_ok hwrite, hlater]
    · rw [hwritten, hnext, List.flatMap_cons, List.append_assoc]

end Writer

/-! ### Streams -/

/-- Frames survive concatenation. Messages of at most 64 KiB, written in order to any writer that
takes everything, put bytes on the stream from which any reader of those bytes reads the same
messages in order and then the end; and a message that is too large to send is refused with the
writer as it was, whatever the writer. -/
theorem frames_survive_concatenation {R O : Type} [ByteStream R] [ByteSink O] :
    (∀ (messages : List Bytes) (output : O), (∀ msg ∈ messages, msg.length ≤ 64 * 1024) →
      ∃ output' sent, writeMessages messages output = (.ok (), output') ∧
        ByteSink.written output' = ByteSink.written output ++ sent ∧
        ∀ input : R, ByteStream.bytes input = sent → ∀ rounds, messages.length < rounds →
          readMessages rounds input = some (messages, .ok ())) ∧
    ∀ {O' : Type} [Write O'] (msg : Bytes) (output : O'), maxResponse < msg.length →
      writeMessage msg output = (.error (responseTooLarge msg.length), output) := by
  refine ⟨fun messages output hsmall ↦ ?_, fun msg output hlarge ↦ writeMessage_refused hlarge _⟩
  have hfits : maxRequest ≤ maxResponse := by decide
  obtain ⟨output', hwrite, hwritten⟩ :=
    writeMessages_ok (fun msg hmsg ↦ (hsmall msg hmsg).trans hfits) output
  refine ⟨output', messages.flatMap frame, hwrite, hwritten, fun input hinput rounds hrounds ↦ ?_⟩
  have hframes : Frames (ByteStream.bytes input) messages [] :=
    ⟨by rw [hinput, List.append_nil], hsmall⟩
  exact readMessages_of_frames hframes rfl hrounds

-- A frame that arrives in pieces, with a signal between two of them.
example : readMessages 2
    (⟨[.ready 2 [0], .interrupted, .ready 0 [0, 0x7b], .ready 0x7d []]⟩ : Pipe) =
      some ([[0x7b, 0x7d]], .ok ()) := rfl

/-- A stream that is cut off is an error: the reading ends as the end of the stream only on the
boundary of a frame, and a stream with a cut behind its whole frames ends in an error after all of
them were returned. -/
structure CutOffIsError [ByteStream R] (input : R) : Prop where
  closed : ∀ rounds messages, readMessages rounds input = some (messages, .ok ()) →
    Frames (ByteStream.bytes input) messages []
  cut : ∀ messages rest, Frames (ByteStream.bytes input) messages rest → Cut rest →
    ∀ rounds, messages.length < rounds →
      ∃ e, readMessages rounds input = some (messages, .error e)

/-- A cut-off stream is an error exactly when it does not end inside the length of a frame: when
there are not one, two or three bytes behind its last whole frame. -/
theorem cutOffIsError_iff [ByteStream R] (input : R) :
    CutOffIsError input ↔ ¬∃ messages part, Frames (ByteStream.bytes input) messages part ∧
      part ≠ [] ∧ part.length < 4 := by
  constructor
  · rintro h ⟨messages, part, hframes, hne, hshort⟩
    have hcut : Cut part := .inPrefix hne hshort
    obtain ⟨e, herror⟩ := h.cut messages part hframes hcut _ (Nat.lt_succ_self _)
    rw [readMessages_of_frames hframes (readFrame_eq_none_iff.mpr (.inr hcut))
      (Nat.lt_succ_self _), ending_eq_ok_iff.mpr hshort] at herror
    cases herror
  · intro hwhole
    constructor
    · intro rounds messages hread
      obtain ⟨messages', rest, hframes, hrest⟩ := exists_frames (ByteStream.bytes input)
      have hrounds : messages'.length < rounds + (messages'.length + 1) := by omega
      have hend := readMessages_of_frames hframes (readFrame_eq_none_iff.mpr hrest) hrounds
      rw [readMessages_add hread] at hend
      obtain ⟨rfl, hok⟩ := Prod.mk.inj (Option.some.inj hend)
      by_cases hnil : rest = []
      · rwa [hnil] at hframes
      · exact absurd ⟨messages, rest, hframes, hnil, ending_eq_ok_iff.mp hok.symm⟩ hwhole
    · intro messages rest hframes hcut rounds hrounds
      have hread := readMessages_of_frames hframes (readFrame_eq_none_iff.mpr (.inr hcut)) hrounds
      cases hend : ending rest with
      | error e => exact ⟨e, by rw [hread, hend]⟩
      | ok _ =>
        exact absurd ⟨messages, rest, hframes, hcut.ne_nil, ending_eq_ok_iff.mp hend⟩ hwhole

/-- A whole frame and two bytes of the next length: the reading ends as if the browser had closed
the stream behind the frame. -/
theorem cut_prefix_closes :
    readMessages 2 ([2, 0, 0, 0, 0x7b, 0x7d, 0x37, 0] : Bytes) = some ([[0x7b, 0x7d]], .ok ()) ∧
      ¬CutOffIsError ([2, 0, 0, 0, 0x7b, 0x7d, 0x37, 0] : Bytes) := by
  have hread : readMessages 2 ([2, 0, 0, 0, 0x7b, 0x7d, 0x37, 0] : Bytes) =
      some ([[0x7b, 0x7d]], .ok ()) := rfl
  refine ⟨hread, fun h ↦ ?_⟩
  have hlength := congrArg List.length (h.closed _ _ hread).buf_eq
  revert hlength
  decide

end Hire.Nmh
