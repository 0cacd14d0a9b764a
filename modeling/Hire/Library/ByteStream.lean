import Hire.Library.Action
import Hire.Library.Framing
import Hire.Library.Text

/-!
# Readers and writers of byte streams

The parts of `std::io::Read` and `std::io::Write` that fill a whole buffer and write one. A
`ByteStream` is a reader whose bytes are fixed beforehand: `read_exact` takes the bytes it is asked
for off the front, and fails with `UnexpectedEof` when there are too few.

A slice is such a reader. So is a pipe whose bytes arrive in pieces of any length, with signals
between them: `Pipe.readExact` is the loop of the standard library over single calls of `read`, and
its instance says that neither the pieces nor the signals can be seen through `read_exact`.

An `Outlet` is a writer that may hold bytes back and may fail. Its bytes leave it in the order in
which they were written, and a call that fails leaves a part of what it held and was given
(`Progress.Tears`). A `ByteSink` is a writer that takes everything, such as a vector.

Nothing here names a particular program.
-/

set_option autoImplicit false
set_option relaxedAutoImplicit false

namespace Hire.Library

/-- The kinds of an input or output error: the end of the input inside a buffer, and the others. -/
inductive ErrorKind
  | unexpectedEof
  | other
  deriving DecidableEq, Repr

/-- An input or output error: its kind and its text. -/
structure IoError where
  kind : ErrorKind
  text : Str
  deriving DecidableEq, Repr

/-- The error of a buffer that the input does not fill. -/
def readExactEof : IoError := ⟨.unexpectedEof, str "failed to fill whole buffer"⟩

/-! ### Readers -/

/-- A reader, through `read_exact`: the bytes that fill a buffer of a length, or an error. -/
class Read (R : Type) where
  readExact : (n : ℕ) → Action IoError R (ByteArr n)

/-- A reader of bytes that are fixed beforehand. -/
class ByteStream (R : Type) extends Read R where
  bytes : R → Bytes
  readExact_of_append : ∀ (input : R) {n : ℕ} (front : ByteArr n) (back : Bytes),
    bytes input = front.1 ++ back →
      ∃ input', readExact n input = (.ok front, input') ∧ bytes input' = back
  readExact_of_lt : ∀ (input : R) {n : ℕ}, (bytes input).length < n →
    ∃ input', readExact n input = (.error readExactEof, input')

/-- A slice is read from its front. -/
instance : ByteStream Bytes where
  readExact n := fun input ↦
    if h : n ≤ input.length then (.ok ⟨input.take n, List.length_take_of_le h⟩, input.drop n)
    else (.error readExactEof, [])
  bytes input := input
  readExact_of_append input n front back hinput := by
    obtain ⟨front, rfl⟩ := front
    subst hinput
    refine ⟨back, ?_, rfl⟩
    rw [dif_pos (by simp)]
    simp
  readExact_of_lt input n hlt := ⟨[], dif_neg (Nat.not_le_of_lt hlt)⟩

/-! ### A pipe -/

/-- What a call of `read` on a pipe can meet: bytes that are ready, at least one, or a signal. -/
inductive Delivery
  | ready (first : UInt8) (more : Bytes)
  | interrupted
  deriving DecidableEq, Repr

/-- A pipe, as what the calls on it meet until it is closed. -/
structure Pipe where
  deliveries : List Delivery

namespace Pipe

/-- The bytes a delivery brings. -/
def bytesOf : Delivery → Bytes
  | .ready first more => first :: more
  | .interrupted => []

/-- Bytes that were ready and not taken are ready for the next call. -/
def putBack : Bytes → List Delivery → List Delivery
  | [], later => later
  | first :: more, later => .ready first more :: later

/-- Fill a buffer from a pipe: read what is ready, pass over signals, and fail when the pipe closes
before the buffer is full. -/
def readExact : (n : ℕ) → List Delivery → Except IoError (ByteArr n) × List Delivery
  | 0, deliveries => (.ok ⟨[], rfl⟩, deliveries)
  | _ + 1, [] => (.error readExactEof, [])
  | n + 1, .interrupted :: later => readExact (n + 1) later
  | n + 1, .ready first more :: later =>
    if h : n ≤ more.length then
      (.ok ⟨first :: more.take n, by simp [h]⟩, putBack (more.drop n) later)
    else
      match readExact (n - more.length) later with
      | (.error e, later) => (.error e, later)
      | (.ok back, later) =>
        (.ok ⟨first :: (more ++ back.1), by simp [back.2]; omega⟩, later)

theorem flatMap_putBack (left : Bytes) (later : List Delivery) :
    (putBack left later).flatMap bytesOf = left ++ later.flatMap bytesOf := by
  cases left with
  | nil => rfl
  | cons first more => rfl

/-- A buffer is filled with the bytes in front, however they arrive. -/
theorem readExact_of_append {n : ℕ} (deliveries : List Delivery) (front : ByteArr n) (back : Bytes)
    (h : deliveries.flatMap bytesOf = front.1 ++ back) :
    ∃ later, readExact n deliveries = (.ok front, later) ∧ later.flatMap bytesOf = back := by
  induction deliveries generalizing n with
  | nil =>
    obtain ⟨front, rfl⟩ := front
    obtain ⟨rfl, rfl⟩ := List.append_eq_nil_iff.mp h.symm
    exact ⟨[], rfl, rfl⟩
  | cons delivery later ih =>
    obtain ⟨front, hlength⟩ := front
    cases front with
    | nil =>
      subst hlength
      exact ⟨delivery :: later, rfl, h⟩
    | cons byte front =>
      subst hlength
      cases delivery with
      | interrupted => exact ih ⟨byte :: front, rfl⟩ h
      | ready first more =>
        obtain ⟨rfl, hrest⟩ := List.cons_eq_cons.mp h
        rcases List.append_eq_append_iff.mp hrest with ⟨behind, rfl, hlater⟩ | ⟨left, rfl, rfl⟩
        · -- What is ready ends inside the buffer.
          by_cases hfull : behind = []
          · subst hfull
            refine ⟨later, ?_, hlater⟩
            simp [readExact, putBack]
          · have hlong : ¬(more ++ behind).length ≤ more.length := by
              have hpos := List.length_pos_iff.mpr hfull
              rw [List.length_append]
              omega
            obtain ⟨later', hread, hback⟩ := ih (n := (more ++ behind).length - more.length)
              ⟨behind, by simp⟩ hlater
            refine ⟨later', ?_, hback⟩
            simp only [List.length_cons, readExact]
            rw [dif_neg hlong, hread]
        · -- The buffer ends inside what is ready.
          refine ⟨putBack left later, ?_, flatMap_putBack left later⟩
          simp [readExact]

/-- A pipe that closes too early does not fill a buffer. -/
theorem readExact_of_lt {n : ℕ} (deliveries : List Delivery)
    (h : (deliveries.flatMap bytesOf).length < n) :
    ∃ later, readExact n deliveries = (.error readExactEof, later) := by
  induction deliveries generalizing n with
  | nil =>
    obtain ⟨n, rfl⟩ := Nat.exists_eq_add_of_le' (Nat.one_le_of_lt h)
    exact ⟨[], rfl⟩
  | cons delivery later ih =>
    obtain ⟨n, rfl⟩ := Nat.exists_eq_add_of_le' (Nat.one_le_of_lt h)
    cases delivery with
    | interrupted => exact ih h
    | ready first more =>
      rw [List.flatMap_cons, bytesOf, List.length_append, List.length_cons] at h
      obtain ⟨later', hread⟩ := ih (n := n - more.length) (by omega)
      refine ⟨later', ?_⟩
      rw [readExact, dif_neg (by omega), hread]

end Pipe

/-- A pipe is a stream of the bytes that come through it. -/
instance : ByteStream Pipe where
  readExact n := fun pipe ↦
    ((Pipe.readExact n pipe.deliveries).1, ⟨(Pipe.readExact n pipe.deliveries).2⟩)
  bytes pipe := pipe.deliveries.flatMap Pipe.bytesOf
  readExact_of_append pipe _ front back h := by
    obtain ⟨later, hread, hback⟩ := Pipe.readExact_of_append pipe.deliveries front back h
    exact ⟨⟨later⟩, by rw [hread], hback⟩
  readExact_of_lt pipe _ h := by
    obtain ⟨later, hread⟩ := Pipe.readExact_of_lt pipe.deliveries h
    exact ⟨⟨later⟩, by rw [hread]⟩

/-! ### Writers -/

/-- A writer, through `write_all` and `flush`. -/
class Write (O : Type) where
  writeAll : Bytes → Action IoError O Unit
  flush : Action IoError O Unit

/-- How far a writer has come: the bytes it delivered, and those it holds back. -/
structure Progress where
  delivered : Bytes
  held : Bytes

namespace Progress

variable {before after last : Progress} {buf more : Bytes}

/-- Bytes were taken: each was delivered or is held behind those before it. -/
structure Takes (buf : Bytes) (before after : Progress) : Prop where
  grows : before.delivered <+: after.delivered
  all : after.delivered ++ after.held = before.delivered ++ before.held ++ buf

/-- Bytes were offered, and a part of them was taken. -/
structure Tears (buf : Bytes) (before after : Progress) : Prop where
  grows : before.delivered <+: after.delivered
  within : after.delivered ++ after.held <+: before.delivered ++ before.held ++ buf

theorem Takes.trans (hfirst : Takes buf before after) (hsecond : Takes more after last) :
    Takes (buf ++ more) before last where
  grows := hfirst.grows.trans hsecond.grows
  all := by rw [hsecond.all, hfirst.all, List.append_assoc]

theorem Takes.tears (hfirst : Takes buf before after) (hsecond : Tears more after last) :
    Tears (buf ++ more) before last where
  grows := hfirst.grows.trans hsecond.grows
  within := by
    have hwithin := hsecond.within
    rwa [hfirst.all, List.append_assoc] at hwithin

/-- A part of the first bytes offered is a part of all of them. -/
theorem Tears.append (h : Tears buf before after) (more : Bytes) :
    Tears (buf ++ more) before after where
  grows := h.grows
  within := by
    rw [← List.append_assoc]
    exact h.within.trans (List.prefix_append _ _)

/-- Where nothing was held and nothing is, what was taken is delivered. -/
theorem Takes.delivered_eq (h : Takes buf before after) (hbefore : before.held = [])
    (hafter : after.held = []) : after.delivered = before.delivered ++ buf := by
  have hall := h.all
  rwa [hafter, hbefore, List.append_nil, List.append_nil] at hall

/-- Where nothing was held, a part of what was offered is delivered or held. -/
theorem Tears.exists_part (h : Tears buf before after) (hbefore : before.held = []) :
    ∃ part, after.delivered = before.delivered ++ part ∧ part ++ after.held <+: buf := by
  obtain ⟨part, hpart⟩ := h.grows
  refine ⟨part, hpart.symm, ?_⟩
  have hwithin := h.within
  rwa [← hpart, hbefore, List.append_nil, List.append_assoc, List.prefix_append_right_inj]
    at hwithin

end Progress

/-- A writer that delivers in order what is written to it, and may fail in between. -/
class Outlet (O : Type) extends Write O where
  progress : O → Progress
  writeAll_ok : ∀ {buf : Bytes} {output output' : O}, writeAll buf output = (.ok (), output') →
    (progress output).Takes buf (progress output')
  writeAll_error : ∀ {buf : Bytes} {output output' : O} {e : IoError},
    writeAll buf output = (.error e, output') → (progress output).Tears buf (progress output')
  flush_ok : ∀ {output output' : O}, flush output = (.ok (), output') →
    (progress output).Takes [] (progress output') ∧ (progress output').held = []
  flush_error : ∀ {output output' : O} {e : IoError}, flush output = (.error e, output') →
    (progress output).Tears [] (progress output')

/-- A pipe behind a buffer: what is written waits until it is flushed, and the pipe takes so many
more bytes before its reader is gone. -/
structure BufferedPipe where
  taken : Bytes
  buffer : Bytes
  room : ℕ

/-- The error of a pipe without a reader. -/
def brokenPipe : IoError := ⟨.other, str "Broken pipe (os error 32)"⟩

instance : Outlet BufferedPipe where
  writeAll buf := fun pipe ↦ (.ok (), { pipe with buffer := pipe.buffer ++ buf })
  flush := fun pipe ↦
    (if pipe.buffer.length ≤ pipe.room then .ok () else .error brokenPipe,
      ⟨pipe.taken ++ pipe.buffer.take pipe.room, pipe.buffer.drop pipe.room,
        pipe.room - pipe.buffer.length⟩)
  progress pipe := ⟨pipe.taken, pipe.buffer⟩
  writeAll_ok h := by
    obtain ⟨-, rfl⟩ := Prod.mk.inj h
    exact ⟨List.prefix_rfl, (List.append_assoc _ _ _).symm⟩
  writeAll_error h := nomatch (Prod.mk.inj h).1
  flush_ok h := by
    obtain ⟨hok, rfl⟩ := Prod.mk.inj h
    refine ⟨⟨List.prefix_append _ _, ?_⟩, ?_⟩
    · rw [List.append_assoc, List.take_append_drop, List.append_nil]
    · split_ifs at hok with hroom
      exact List.drop_eq_nil_of_le hroom
  flush_error h := by
    obtain ⟨-, rfl⟩ := Prod.mk.inj h
    refine ⟨List.prefix_append _ _, ?_⟩
    rw [List.append_assoc, List.take_append_drop, List.append_nil]

/-- A writer that takes everything. -/
class ByteSink (O : Type) extends Write O where
  written : O → Bytes
  writeAll_ok : ∀ (output : O) (buf : Bytes),
    ∃ output', writeAll buf output = (.ok (), output') ∧ written output' = written output ++ buf
  flush_ok : ∀ output : O,
    ∃ output', flush output = (.ok (), output') ∧ written output' = written output

/-- A writer that takes everything holds nothing back and does not fail. -/
instance {O : Type} [ByteSink O] : Outlet O where
  progress output := ⟨ByteSink.written output, []⟩
  writeAll_ok {buf output output'} h := by
    obtain ⟨next, hnext, hwritten⟩ := ByteSink.writeAll_ok output buf
    obtain ⟨-, rfl⟩ := Prod.mk.inj (h.symm.trans hnext)
    exact ⟨⟨buf, hwritten.symm⟩, by rw [List.append_nil, List.append_nil, hwritten]⟩
  writeAll_error {buf output output' e} h := by
    obtain ⟨next, hnext, -⟩ := ByteSink.writeAll_ok output buf
    cases (Prod.mk.inj (h.symm.trans hnext)).1
  flush_ok {output output'} h := by
    obtain ⟨next, hnext, hwritten⟩ := ByteSink.flush_ok output
    obtain ⟨-, rfl⟩ := Prod.mk.inj (h.symm.trans hnext)
    refine ⟨⟨?_, ?_⟩, rfl⟩
    · rw [hwritten]
    · rw [hwritten, List.append_nil, List.append_nil]
  flush_error {output output' e} h := by
    obtain ⟨next, hnext, -⟩ := ByteSink.flush_ok output
    cases (Prod.mk.inj (h.symm.trans hnext)).1

/-- A vector grows by what is written. -/
instance : ByteSink Bytes where
  writeAll buf := fun output ↦ (.ok (), output ++ buf)
  flush := fun output ↦ (.ok (), output)
  written output := output
  writeAll_ok output buf := ⟨output ++ buf, rfl, rfl⟩
  flush_ok output := ⟨output, rfl, rfl⟩

end Hire.Library
