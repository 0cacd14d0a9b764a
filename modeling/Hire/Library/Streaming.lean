import Hire.Library.Action
import Hire.Library.Text

/-!
# Streaming

A computation that is fed a long input in pieces: `Streaming hash` is a state that pieces are put
into one after another, and what it says at the end is what `hash` says of the pieces joined
together. `feed` is the loop that reads pieces and feeds them until a read brings nothing; it may go
on for ever, so it is given a number of rounds.

`Pieces read w pieces w'` are the pieces that the reads bring between two worlds.
`feed_eq_ok_iff` says that the loop ends well exactly when there are such pieces, and with them what
state it ends in. What is said of that state is `hash` of the pieces joined together
(`Streaming.finalize_foldl`), so how the input was cut up cannot be seen in it.

Nothing here names a particular program.
-/

set_option autoImplicit false
set_option relaxedAutoImplicit false

namespace Hire.Library

variable {ε W σ D : Type}

/-- A computation of `hash` that is fed its input in pieces. -/
structure Streaming (hash : Bytes → D) where
  State : Type
  new : State
  update : State → Bytes → State
  finalize : State → D
  finalize_foldl : ∀ pieces : List Bytes, finalize (pieces.foldl update new) = hash pieces.flatten

/-- The computation that keeps all of its input. -/
def Streaming.buffered (hash : Bytes → D) : Streaming hash where
  State := Bytes
  new := []
  update kept piece := kept ++ piece
  finalize := hash
  finalize_foldl pieces := by
    have hjoin : ∀ kept : Bytes, pieces.foldl (· ++ ·) kept = kept ++ pieces.flatten := by
      induction pieces with
      | nil => exact fun kept ↦ (List.append_nil kept).symm
      | cons piece pieces ih =>
        intro kept
        rw [List.foldl_cons, ih, List.flatten_cons, List.append_assoc]
    exact congrArg hash (hjoin [])

/-- Read pieces and feed them until a read brings nothing or fails, in a number of rounds. -/
def feed (read : Action ε W Bytes) (update : σ → Bytes → σ) :
    ℕ → σ → W → Option (Except ε σ × W)
  | 0, _, _ => none
  | rounds + 1, s, w =>
    match read w with
    | (.error e, w) => some (.error e, w)
    | (.ok [], w) => some (.ok s, w)
    | (.ok piece, w) => feed read update rounds (update s piece) w

/-- The pieces that reads bring, none of them empty, before one that brings nothing. -/
inductive Pieces (read : Action ε W Bytes) : W → List Bytes → W → Prop
  | done {w w' : W} (hread : read w = (.ok [], w')) : Pieces read w [] w'
  | more {w next w' : W} {piece : Bytes} {pieces : List Bytes} (hread : read w = (.ok piece, next))
      (hpiece : piece ≠ []) (hlater : Pieces read next pieces w') :
      Pieces read w (piece :: pieces) w'

section Feed

variable {read : Action ε W Bytes} {update : σ → Bytes → σ}

theorem feed_of_nil {rounds : ℕ} {s : σ} {w w' : W} (hread : read w = (.ok [], w')) :
    feed read update (rounds + 1) s w = some (.ok s, w') := by
  rw [feed, hread]

theorem feed_of_piece {rounds : ℕ} {s : σ} {w w' : W} {piece : Bytes}
    (hread : read w = (.ok piece, w')) (hpiece : piece ≠ []) :
    feed read update (rounds + 1) s w = feed read update rounds (update s piece) w' := by
  rw [feed, hread]
  cases piece with
  | nil => exact absurd rfl hpiece
  | cons byte piece => rfl

theorem feed_of_error {rounds : ℕ} {s : σ} {w w' : W} {e : ε} (hread : read w = (.error e, w')) :
    feed read update (rounds + 1) s w = some (.error e, w') := by
  rw [feed, hread]

/-- The loop ends well exactly when the reads bring pieces and then nothing, fewer of them than
there are rounds, and it ends in the state that was fed these pieces. -/
theorem feed_eq_ok_iff {rounds : ℕ} {s s' : σ} {w w' : W} :
    feed read update rounds s w = some (.ok s', w') ↔
      ∃ pieces, Pieces read w pieces w' ∧ pieces.length < rounds ∧
        pieces.foldl update s = s' := by
  induction rounds generalizing s w with
  | zero => simp [feed]
  | succ rounds ih =>
    rcases hread : read w with ⟨answer, next⟩
    match answer with
    | .error e =>
      rw [feed_of_error hread]
      refine ⟨fun h ↦ (by cases h), ?_⟩
      rintro ⟨pieces, hpieces, -, -⟩
      cases hpieces with
      | done hdone => cases hread.symm.trans hdone
      | more hmore _ _ => cases hread.symm.trans hmore
    | .ok [] =>
      rw [feed_of_nil hread]
      constructor
      · intro h
        cases h
        exact ⟨[], .done hread, Nat.succ_pos rounds, rfl⟩
      · rintro ⟨pieces, hpieces, -, rfl⟩
        cases hpieces with
        | done hdone =>
          cases hread.symm.trans hdone
          rfl
        | more hmore hpiece _ =>
          cases hread.symm.trans hmore
          exact absurd rfl hpiece
    | .ok (byte :: piece) =>
      rw [feed_of_piece hread (List.cons_ne_nil byte piece), ih]
      constructor
      · rintro ⟨pieces, hpieces, hrounds, hstate⟩
        exact ⟨(byte :: piece) :: pieces, .more hread (List.cons_ne_nil byte piece) hpieces,
          Nat.succ_lt_succ hrounds, hstate⟩
      · rintro ⟨pieces, hpieces, hrounds, hstate⟩
        cases hpieces with
        | done hdone => cases hread.symm.trans hdone
        | more hmore _ hlater =>
          cases hread.symm.trans hmore
          exact ⟨_, hlater, Nat.lt_of_succ_lt_succ hrounds, hstate⟩

end Feed

end Hire.Library
