import Hire.Library.Action
import Hire.Library.Text

/-!
# Commands and what they print

A command is an action on a world and on two streams, and it can stop early. A stream takes what is
printed on it, or only so many more bytes: a print that does not fit fails with an error of the
program's choice, and the bytes that fit are out. `put` and `say` print on the first stream, and
`warn` on the second.

What a command prints on its first stream is often its result, and then it matters what is there
when it stops early. `Action.Prints m w R` says that a command started in a world adds a text to a
first stream that takes everything, and that `R` relates what it answers, and the world at the end,
to that text. The rules follow the construction of a command, as in `Action.Prints.bind`, where the
texts of the two halves follow one another.

`Action.Orderly` is what is true of a command however it is built from prints and from actions on
its world: it keeps what these keep, and streams that take less only cut it short. The run is then
the same up to a print that fails (`Action.Orderly.cuts`).

Nothing here names a particular program.
-/

set_option autoImplicit false
set_option relaxedAutoImplicit false

namespace Hire.Library

variable {ε W α β : Type}

theorem utf8_nil : utf8 [] = [] := rfl

theorem utf8_append (front back : Str) : utf8 (front ++ back) = utf8 front ++ utf8 back :=
  List.flatMap_append

/-! ### Streams -/

/-- A stream that is printed on: the bytes it took, and how many more it takes if that is limited.
-/
structure Stream where
  taken : Bytes
  room : Option ℕ
  deriving DecidableEq, Repr

namespace Stream

variable {refused : ε} {s : Stream} {buf : Bytes}

/-- Whether a stream takes all of some bytes. -/
def fits (s : Stream) (buf : Bytes) : Bool := s.room.all fun room ↦ decide (buf.length ≤ room)

/-- A stream after bytes were printed on it, those that do not fit left out. -/
def write (s : Stream) (buf : Bytes) : Stream where
  taken := s.taken ++ (s.room.elim buf fun room ↦ buf.take room)
  room := s.room.map (· - buf.length)

/-- Print bytes on a stream. -/
def print (refused : ε) (buf : Bytes) : Action ε Stream Unit := fun s ↦
  (if s.fits buf then .ok () else .error refused, s.write buf)

/-- A stream that takes nothing more. -/
def Full (s : Stream) : Prop := s.room = some 0

theorem print_of_fits (h : s.fits buf = true) :
    print refused buf s = (.ok (), s.write buf) := by
  rw [print, if_pos h]

theorem print_of_not_fits (h : s.fits buf = false) :
    print refused buf s = (.error refused, s.write buf) := by
  rw [print, if_neg (Bool.eq_false_iff.mp h)]

/-- Bytes that fit are taken. -/
theorem taken_write_of_fits (h : s.fits buf = true) : (s.write buf).taken = s.taken ++ buf := by
  obtain ⟨taken, room⟩ := s
  cases room with
  | none => rfl
  | some room => exact congrArg (taken ++ ·) (List.take_of_length_le (of_decide_eq_true h))

/-- A stream that bytes do not fit on is full behind them. -/
theorem full_write (h : s.fits buf = false) : (s.write buf).Full := by
  obtain ⟨taken, room⟩ := s
  cases room with
  | none => cases h
  | some room =>
    have hlong : room < buf.length := Nat.lt_of_not_le (of_decide_eq_false h)
    exact congrArg some (Nat.sub_eq_zero_of_le hlong.le)

theorem Full.write (h : s.Full) (buf : Bytes) : (s.write buf).Full := by
  unfold Full at h
  rw [Full, Stream.write, h, Option.map_some, Nat.zero_sub]

theorem prefix_write (s : Stream) (buf : Bytes) : s.taken <+: (s.write buf).taken :=
  List.prefix_append _ _

/-- What is taken is a part of what is printed. -/
theorem write_prefix (s : Stream) (buf : Bytes) : (s.write buf).taken <+: s.taken ++ buf := by
  obtain ⟨taken, room⟩ := s
  refine (List.prefix_append_right_inj taken).mpr ?_
  cases room with
  | none => exact List.prefix_rfl
  | some room => exact List.take_prefix room buf

theorem write_nil (s : Stream) : s.write [] = s := by
  obtain ⟨taken, room⟩ := s
  cases room <;> simp [write]

/-- To print nothing is to do nothing. -/
theorem print_nil (refused : ε) : print refused [] = (pure () : Action ε Stream Unit) := by
  funext s
  have hfits : s.fits [] = true := by
    obtain ⟨taken, room⟩ := s
    cases room <;> rfl
  rw [print_of_fits hfits, write_nil]
  rfl

/-- Two texts printed one after the other are one text. -/
theorem print_append (refused : ε) (front back : Bytes) :
    print refused (front ++ back) = (do
      print refused front
      print refused back : Action ε Stream Unit) := by
  funext s
  by_cases hfront : s.fits front = true
  · rw [Action.bind_of_ok (print_of_fits hfront)]
    obtain ⟨taken, room⟩ := s
    cases room with
    | none => simp [print, fits, write]
    | some room =>
      have hroom : front.length ≤ room := of_decide_eq_true hfront
      have hsame : front.length + back.length ≤ room ↔ back.length ≤ room - front.length := by omega
      simp [print, fits, write, List.take_append, List.take_of_length_le hroom, hsame, Nat.sub_sub]
  · have hcut : s.fits front = false := Bool.eq_false_iff.mpr hfront
    rw [Action.bind_of_error (print_of_not_fits hcut)]
    obtain ⟨taken, room⟩ := s
    cases room with
    | none => cases hcut
    | some room =>
      have hroom : room < front.length := Nat.lt_of_not_le (of_decide_eq_false hcut)
      have hlong : ¬ front.length + back.length ≤ room := by omega
      have hnone : room - (front.length + back.length) = room - front.length := by omega
      simp [print, fits, write, List.take_append_of_le_length hroom.le, hlong, hnone]

end Stream

/-! ### Consoles -/

/-- A world, and the two streams. -/
structure Console (W : Type) where
  world : W
  stdout : Stream
  stderr : Stream

namespace Console

/-- Lines, each with its line feed. -/
def lines (texts : List Str) : Str := texts.flatMap (· ++ ['\n'])

theorem lines_nil : lines [] = [] := rfl

theorem lines_singleton (text : Str) : lines [text] = text ++ ['\n'] := List.flatMap_singleton ..

theorem lines_cons (text : Str) (texts : List Str) :
    lines (text :: texts) = text ++ ['\n'] ++ lines texts := List.flatMap_cons

theorem utf8_lines_append (texts more : List Str) :
    utf8 (lines (texts ++ more)) = utf8 (lines texts) ++ utf8 (lines more) := by
  rw [lines, List.flatMap_append, utf8_append, lines, lines]

/-- A console whose streams take everything. -/
def endless (world : W) (out err : Bytes) : Console W := ⟨world, ⟨out, none⟩, ⟨err, none⟩⟩

/-- The same console, whose streams take everything from now on. -/
def opened (c : Console W) : Console W := endless c.world c.stdout.taken c.stderr.taken

/-- A console whose streams take everything, with more lines on each of them. -/
def printed (world : W) (out err : Bytes) (said warned : List Str) : Console W :=
  endless world (out ++ utf8 (lines said)) (err ++ utf8 (lines warned))

/-- One of the streams takes nothing more. -/
def Full (c : Console W) : Prop := c.stdout.Full ∨ c.stderr.Full

/-- Print bytes on the first stream. -/
def put (refused : ε) (buf : Bytes) : Action ε (Console W) Unit :=
  (Stream.print refused buf).zoom Console.stdout fun stdout c ↦ { c with stdout := stdout }

/-- Print bytes on the second stream. -/
def putError (refused : ε) (buf : Bytes) : Action ε (Console W) Unit :=
  (Stream.print refused buf).zoom Console.stderr fun stderr c ↦ { c with stderr := stderr }

/-- Print a line on the first stream. -/
def say (refused : ε) (line : Str) : Action ε (Console W) Unit :=
  put refused (utf8 (line ++ ['\n']))

/-- Print a line on the second stream. -/
def warn (refused : ε) (line : Str) : Action ε (Console W) Unit :=
  putError refused (utf8 (line ++ ['\n']))

/-- Print lines on the first stream. -/
def sayAll (refused : ε) : List Str → Action ε (Console W) Unit
  | [] => pure ()
  | line :: rest => do
    say refused line
    sayAll refused rest

/-- Print lines on the second stream. -/
def warnAll (refused : ε) : List Str → Action ε (Console W) Unit
  | [] => pure ()
  | line :: rest => do
    warn refused line
    warnAll refused rest

/-- An action on the world. -/
def onWorld (m : Action ε W α) : Action ε (Console W) α :=
  m.zoom Console.world fun world c ↦ { c with world := world }

variable {refused : ε}

theorem put_of_fits {c : Console W} {buf : Bytes} (h : c.stdout.fits buf = true) :
    put refused buf c = (.ok (), { c with stdout := c.stdout.write buf }) :=
  Action.zoom_eq (Stream.print_of_fits h)

theorem put_of_not_fits {c : Console W} {buf : Bytes} (h : c.stdout.fits buf = false) :
    put refused buf c = (.error refused, { c with stdout := c.stdout.write buf }) :=
  Action.zoom_eq (Stream.print_of_not_fits h)

theorem putError_of_fits {c : Console W} {buf : Bytes} (h : c.stderr.fits buf = true) :
    putError refused buf c = (.ok (), { c with stderr := c.stderr.write buf }) :=
  Action.zoom_eq (Stream.print_of_fits h)

theorem putError_of_not_fits {c : Console W} {buf : Bytes} (h : c.stderr.fits buf = false) :
    putError refused buf c = (.error refused, { c with stderr := c.stderr.write buf }) :=
  Action.zoom_eq (Stream.print_of_not_fits h)

theorem put_endless (buf : Bytes) (w : W) (out err : Bytes) :
    put refused buf (endless w out err) = (.ok (), endless w (out ++ buf) err) := rfl

theorem putError_endless (buf : Bytes) (w : W) (out err : Bytes) :
    putError refused buf (endless w out err) = (.ok (), endless w out (err ++ buf)) := rfl

theorem onWorld_endless {m : Action ε W α} {w w' : W} {result : Except ε α} (h : m w = (result, w'))
    (out err : Bytes) : onWorld m (endless w out err) = (result, endless w' out err) :=
  Action.zoom_eq h

theorem printed_nil (w : W) (out err : Bytes) : printed w out err [] [] = endless w out err := by
  rw [printed, lines_nil, utf8_nil, List.append_nil, List.append_nil]

/-- Lines behind lines. -/
theorem printed_append (w : W) (out err : Bytes) (said more warned later : List Str) :
    printed w (out ++ utf8 (lines said)) (err ++ utf8 (lines warned)) more later =
      printed w out err (said ++ more) (warned ++ later) := by
  simp only [printed, utf8_lines_append, List.append_assoc]

theorem warn_endless (line : Str) (w : W) (out err : Bytes) :
    warn refused line (endless w out err) = (.ok (), printed w out err [] [line]) := by
  rw [printed, lines_nil, lines_singleton, utf8_nil, List.append_nil]
  rfl

theorem put_nil : (put refused [] : Action ε (Console W) Unit) = pure () := by
  rw [put, Stream.print_nil]
  rfl

/-- Two texts printed one after the other are one text. -/
theorem put_append (front back : Bytes) :
    (put refused (front ++ back) : Action ε (Console W) Unit) = (do
      put refused front
      put refused back) := by
  rw [put, Stream.print_append]
  refine Action.zoom_bind ?_ ?_ _ _ <;> intros <;> rfl

/-- Lines are printed as one text. -/
theorem sayAll_eq (texts : List Str) :
    (sayAll refused texts : Action ε (Console W) Unit) = put refused (utf8 (lines texts)) := by
  induction texts with
  | nil => exact put_nil.symm
  | cons line rest ih => rw [sayAll, ih, lines_cons, utf8_append, put_append, say]

theorem sayAll_endless (texts : List Str) (w : W) (out err : Bytes) :
    sayAll refused texts (endless w out err) = (.ok (), printed w out err texts []) := by
  rw [sayAll_eq, put_endless, printed, lines_nil, utf8_nil, List.append_nil]

theorem say_endless (line : Str) (w : W) (out err : Bytes) :
    say refused line (endless w out err) = (.ok (), printed w out err [line] []) := by
  rw [printed, lines_nil, lines_singleton, utf8_nil, List.append_nil]
  rfl

theorem warnAll_endless (texts : List Str) (w : W) (out err : Bytes) :
    warnAll refused texts (endless w out err) = (.ok (), printed w out err [] texts) := by
  induction texts generalizing out err with
  | nil =>
    rw [printed_nil]
    rfl
  | cons line rest ih =>
    rw [warnAll, Action.bind_of_ok (warn_endless line w out err), printed, ih, printed_append]
    rfl

end Console

namespace Action

/-! ### What a command prints -/

/-- What a command that is started in a world adds to a first stream that takes everything, related
to what it answers and to the world at the end. -/
def Prints (m : Action ε (Console W) α) (w : W) (R : Except ε α → W → Bytes → Prop) : Prop :=
  ∀ out err, ∃ result w' text more,
    m (.endless w out err) = (result, .endless w' (out ++ text) (err ++ more)) ∧ R result w' text

namespace Prints

variable {w : W} {refused : ε} {R R' : Except ε α → W → Bytes → Prop}
  {S : Except ε β → W → Bytes → Prop}

/-- A command that prints nothing on the first stream. -/
theorem of_silent {m : Action ε (Console W) α} {result : Except ε α} {w' : W}
    (h : ∀ out err, ∃ more, m (.endless w out err) = (result, .endless w' out (err ++ more)))
    (hR : R result w' []) : Prints m w R := by
  intro out err
  obtain ⟨more, hmore⟩ := h out err
  refine ⟨result, w', [], more, ?_, hR⟩
  rw [hmore]
  exact congrArg (fun out ↦ (result, Console.endless w' out (err ++ more)))
    (List.append_nil out).symm

theorem weaken {m : Action ε (Console W) α} (hm : Prints m w R)
    (h : ∀ result w' text, R result w' text → R' result w' text) : Prints m w R' := by
  intro out err
  obtain ⟨result, w', text, more, hrun, hR⟩ := hm out err
  exact ⟨result, w', text, more, hrun, h _ _ _ hR⟩

theorem onWorld {m : Action ε W α} (h : R (m w).1 (m w).2 []) : Prints (Console.onWorld m) w R :=
  of_silent (fun out err ↦ ⟨[], by rw [List.append_nil]; rfl⟩) h

theorem pure {a : α} (h : R (.ok a) w []) : Prints (Pure.pure a : Action ε (Console W) α) w R :=
  of_silent (fun out err ↦ ⟨[], by rw [List.append_nil]; rfl⟩) h

theorem fail {e : ε} (h : R (.error e) w []) :
    Prints (Action.fail e : Action ε (Console W) α) w R :=
  of_silent (fun out err ↦ ⟨[], by rw [List.append_nil]; rfl⟩) h

theorem attempt {ε' : Type} {R : Except ε' (Except ε α) → W → Bytes → Prop}
    {m : Action ε (Console W) α} (hm : Prints m w fun result w' text ↦ R (.ok result) w' text) :
    Prints (Action.attempt m) w R := by
  intro out err
  obtain ⟨result, w', text, more, hrun, hR⟩ := hm out err
  exact ⟨.ok result, w', text, more, attempt_eq hrun, hR⟩

/-- What a sequence prints: the text of its first half, and then that of its second. -/
theorem bind {m : Action ε (Console W) α} {f : α → Action ε (Console W) β} (hm : Prints m w R)
    (herror : ∀ e w' text, R (.error e) w' text → S (.error e) w' text)
    (hf : ∀ a w' text, R (.ok a) w' text →
      Prints (f a) w' fun result w'' more ↦ S result w'' (text ++ more)) :
    Prints (m >>= f) w S := by
  intro out err
  obtain ⟨answer, w', text, more, hstep, hR⟩ := hm out err
  cases answer with
  | error e => exact ⟨.error e, w', text, more, bind_of_error hstep, herror e w' text hR⟩
  | ok a =>
    obtain ⟨result, w'', text', more', hrest, hS⟩ := hf a w' text hR (out ++ text) (err ++ more)
    refine ⟨result, w'', text ++ text', more ++ more', ?_, hS⟩
    rw [bind_of_ok hstep, hrest, List.append_assoc, List.append_assoc]

/-- A sequence that starts with an action on the world prints what follows its answer. -/
theorem onWorld_bind {m : Action ε W α} {f : α → Action ε (Console W) β}
    (herror : ∀ e w', m w = (.error e, w') → S (.error e) w' [])
    (hf : ∀ a w', m w = (.ok a, w') → Prints (f a) w' S) : Prints (Console.onWorld m >>= f) w S :=
  bind (R := fun result w' text ↦ m w = (result, w') ∧ text = []) (onWorld ⟨rfl, rfl⟩)
    (fun e w' _ h ↦ h.2 ▸ herror e w' h.1) fun a w' _ h ↦ h.2 ▸ hf a w' h.1

/-- A sequence whose first half changes nothing prints what its second half does. -/
theorem silent_bind {m : Action ε (Console W) α} {f : α → Action ε (Console W) β}
    (hm : Prints m w fun _ w' text ↦ w' = w ∧ text = []) (herror : ∀ e, S (.error e) w [])
    (hf : ∀ a, Prints (f a) w S) : Prints (m >>= f) w S := by
  refine bind hm (fun e w' text h ↦ ?_) fun a w' text h ↦ ?_
  · obtain ⟨rfl, rfl⟩ := h
    exact herror e
  · obtain ⟨rfl, rfl⟩ := h
    exact hf a

variable {T : Except ε Unit → W → Bytes → Prop}

theorem put {buf : Bytes} (h : T (.ok ()) w buf) :
    Prints (Console.put refused buf : Action ε (Console W) Unit) w T :=
  fun out err ↦ ⟨.ok (), w, buf, [], by rw [List.append_nil]; rfl, h⟩

theorem say {line : Str} (h : T (.ok ()) w (utf8 (Console.lines [line]))) :
    Prints (Console.say refused line : Action ε (Console W) Unit) w T := by
  rw [Console.lines_singleton] at h
  exact put h

/-- Printing lines prints them in order. -/
theorem sayAll {texts : List Str} (h : T (.ok ()) w (utf8 (Console.lines texts))) :
    Prints (Console.sayAll refused texts : Action ε (Console W) Unit) w T := by
  rw [Console.sayAll_eq]
  exact put h

theorem putError {buf : Bytes} (h : T (.ok ()) w []) :
    Prints (Console.putError refused buf : Action ε (Console W) Unit) w T :=
  of_silent (fun _ _ ↦ ⟨buf, rfl⟩) h

theorem warnAll {texts : List Str} (h : T (.ok ()) w []) :
    Prints (Console.warnAll refused texts : Action ε (Console W) Unit) w T := by
  induction texts with
  | nil => exact pure h
  | cons line rest ih =>
    refine bind (R := fun result w' text ↦ result = .ok () ∧ w' = w ∧ text = [])
      (putError ⟨rfl, rfl, rfl⟩) (by simp) fun _ w' text hfirst ↦ ?_
    obtain ⟨-, rfl, rfl⟩ := hfirst
    exact ih

end Prints

/-! ### What is true of every command -/

/-- A command keeps a property of the world, does not limit its streams, and only adds to the first.
On streams that take less it is the same run, or fails as a print did that found a stream full. -/
structure Orderly (refused : ε) (I : W → Prop) (m : Action ε (Console W) α) : Prop where
  keeps : Keeps (fun c : Console W ↦ I c.world) m
  stays : ∀ c : Console W, (m c.opened).2.opened = (m c.opened).2
  adds : ∀ c : Console W, c.stdout.taken <+: (m c).2.stdout.taken
  cuts : ∀ c : Console W, m c.opened = ((m c).1, (m c).2.opened) ∨
    (m c).1 = .error refused ∧ (m c).2.Full ∧
      (m c).2.stdout.taken <+: (m c.opened).2.stdout.taken

namespace Orderly

variable {refused : ε} {I : W → Prop} {m : Action ε (Console W) α}

/-- An action on the world sees nothing of the streams. -/
theorem onWorld {m : Action ε W α} (hm : Keeps I m) : Orderly refused I (Console.onWorld m) where
  keeps := .zoom hm fun _ _ ↦ rfl
  stays _ := rfl
  adds _ := List.prefix_rfl
  cuts _ := .inl rfl

theorem pure (a : α) : Orderly refused I (Pure.pure a : Action ε (Console W) α) where
  keeps := .pure a
  stays _ := rfl
  adds _ := List.prefix_rfl
  cuts _ := .inl rfl

theorem fail (e : ε) : Orderly refused I (Action.fail e : Action ε (Console W) α) where
  keeps := .fail e
  stays _ := rfl
  adds _ := List.prefix_rfl
  cuts _ := .inl rfl

theorem put (buf : Bytes) :
    Orderly refused I (Console.put refused buf : Action ε (Console W) Unit) where
  keeps _ h := h
  stays _ := rfl
  adds c := c.stdout.prefix_write buf
  cuts c := by
    cases hfits : c.stdout.fits buf with
    | true =>
      rw [Console.put_of_fits hfits]
      refine .inl ?_
      rw [Console.opened, Console.put_endless, Console.opened, Stream.taken_write_of_fits hfits]
    | false =>
      rw [Console.put_of_not_fits hfits]
      exact .inr ⟨rfl, .inl (Stream.full_write hfits), c.stdout.write_prefix buf⟩

theorem putError (buf : Bytes) :
    Orderly refused I (Console.putError refused buf : Action ε (Console W) Unit) where
  keeps _ h := h
  stays _ := rfl
  adds _ := List.prefix_rfl
  cuts c := by
    cases hfits : c.stderr.fits buf with
    | true =>
      rw [Console.putError_of_fits hfits]
      refine .inl ?_
      rw [Console.opened, Console.putError_endless, Console.opened,
        Stream.taken_write_of_fits hfits]
    | false =>
      rw [Console.putError_of_not_fits hfits]
      exact .inr ⟨rfl, .inr (Stream.full_write hfits), List.prefix_rfl⟩

/-- A sequence of orderly commands, the second after what the first can return. -/
theorem bind {P : α → Prop} {f : α → Action ε (Console W) β} (hm : Orderly refused I m)
    (hP : m.Yields P) (hf : ∀ a, P a → Orderly refused I (f a)) :
    Orderly refused I (m >>= f) where
  keeps := hm.keeps.bind hP fun a ha ↦ (hf a ha).keeps
  stays c := by
    have hstays := hm.stays c
    rcases hstep : m c.opened with ⟨answer, c'⟩
    rw [hstep] at hstays
    cases answer with
    | error e =>
      rw [bind_of_error hstep]
      exact hstays
    | ok a =>
      have hrest := (hf a (hP _ a (by rw [hstep]))).stays c'
      rw [bind_of_ok hstep]
      rwa [show c'.opened = c' from hstays] at hrest
  adds c := by
    have hadds := hm.adds c
    rcases hstep : m c with ⟨answer, c'⟩
    rw [hstep] at hadds
    cases answer with
    | error e =>
      rw [bind_of_error hstep]
      exact hadds
    | ok a =>
      rw [bind_of_ok hstep]
      exact hadds.trans ((hf a (hP _ a (by rw [hstep]))).adds c')
  cuts c := by
    rcases hstep : m c with ⟨answer, c'⟩
    have hcuts := hm.cuts c
    rw [hstep] at hcuts
    rcases hcuts with hsame | ⟨hrefused, hfull, hprefix⟩
    · cases answer with
      | error e =>
        rw [bind_of_error hstep, bind_of_error hsame]
        exact .inl rfl
      | ok a =>
        rw [bind_of_ok hstep, bind_of_ok hsame]
        exact (hf a (hP _ a (by rw [hstep]))).cuts c'
    · -- A print in the first half found its stream full; with room for it the run goes on.
      obtain rfl : answer = .error refused := hrefused
      rw [bind_of_error hstep]
      refine .inr ⟨rfl, hfull, hprefix.trans ?_⟩
      rcases hopened : m c.opened with ⟨answer, c''⟩
      cases answer with
      | error e => rw [bind_of_error hopened]
      | ok a =>
        rw [bind_of_ok hopened]
        exact (hf a (hP _ a (by rw [hopened]))).adds c''

/-- A sequence whose first answer does not matter. -/
theorem seq {f : α → Action ε (Console W) β} (hm : Orderly refused I m)
    (hf : ∀ a, Orderly refused I (f a)) : Orderly refused I (m >>= f) :=
  hm.bind (.trivial m) fun a _ ↦ hf a

theorem say (line : Str) :
    Orderly refused I (Console.say refused line : Action ε (Console W) Unit) := put _

theorem warn (line : Str) :
    Orderly refused I (Console.warn refused line : Action ε (Console W) Unit) := putError _

theorem sayAll (texts : List Str) :
    Orderly refused I (Console.sayAll refused texts : Action ε (Console W) Unit) := by
  rw [Console.sayAll_eq]
  exact put _

theorem warnAll (texts : List Str) :
    Orderly refused I (Console.warnAll refused texts : Action ε (Console W) Unit) := by
  induction texts with
  | nil => exact pure ()
  | cons line rest ih => exact seq (warn line) fun _ ↦ ih

end Orderly

end Action

end Hire.Library
