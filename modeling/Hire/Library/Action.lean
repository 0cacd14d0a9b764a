import Mathlib.Data.List.Basic

/-!
# Actions on a world

An action asks the world outside the program for something: it may fail, and it may change the
world either way. Actions compose as in an exception monad over a state, where an error keeps the
changes made before it.

`Action.Yields m P` says that every value the action can return, from any world, has `P`. The
rules `Action.Yields.pure`, `Action.Yields.fail`, `Action.Yields.bind` and `Action.Yields.seq`
follow the construction of an action, so a property of everything a program can return is proved
along its own text, with nothing assumed about the world. `Action.bind_of_ok` and
`Action.bind_of_error` follow one run of a sequence, and `Action.bind_eq_ok` takes one apart.

`Action.Keeps I m` says that an action keeps a property of the world, whether it returns or fails,
with rules of the same shape.

Nothing here names a particular program.
-/

set_option autoImplicit false
set_option relaxedAutoImplicit false

namespace Hire.Library

variable {ε W α β : Type}

/-- An action on a world that returns a value or an error. -/
def Action (ε W α : Type) : Type := W → Except ε α × W

namespace Action

/-- An action that only reads its answer off the world, possibly changing it. -/
def ask (question : W → α × W) : Action ε W α := fun w ↦ (.ok (question w).1, (question w).2)

/-- The action that fails. -/
def fail (e : ε) : Action ε W α := fun w ↦ (.error e, w)

instance : Monad (Action ε W) where
  pure a := fun w ↦ (.ok a, w)
  bind m f := fun w ↦
    match m w with
    | (.error e, w') => (.error e, w')
    | (.ok a, w') => f a w'

/-- The value of a partial computation, or an error. -/
def ofOption (e : ε) : Option α → Action ε W α
  | some a => pure a
  | none => fail e

/-- The outcome of a computation that may fail. -/
def ofExcept : Except ε α → Action ε W α
  | .ok a => pure a
  | .error e => fail e

/-- The same action with its error in another form. -/
def mapError {ε' : Type} (f : ε' → ε) (m : Action ε' W α) : Action ε W α := fun w ↦
  match m w with
  | (.error e, w') => (.error (f e), w')
  | (.ok a, w') => (.ok a, w')

/-- The outcome of an action, error or not, as a value. -/
def attempt {ε' : Type} (m : Action ε W α) : Action ε' W (Except ε α) := fun w ↦
  (.ok (m w).1, (m w).2)

/-- An action on a part of a world. -/
def zoom {S : Type} (get : S → W) (set : W → S → S) (m : Action ε W α) : Action ε S α := fun s ↦
  ((m (get s)).1, set (m (get s)).2 s)

/-- What a sequence does after its first action returned. -/
theorem bind_of_ok {m : Action ε W α} {f : α → Action ε W β} {w w' : W} {a : α}
    (h : m w = (.ok a, w')) : (m >>= f) w = f a w' := by
  change (match m w with
    | (.error e, w') => (Except.error e, w')
    | (.ok a, w') => f a w') = f a w'
  rw [h]

/-- A sequence ends with the error of its first action. -/
theorem bind_of_error {m : Action ε W α} {f : α → Action ε W β} {w w' : W} {e : ε}
    (h : m w = (.error e, w')) : (m >>= f) w = (.error e, w') := by
  change (match m w with
    | (.error e, w') => (Except.error e, w')
    | (.ok a, w') => f a w') = (.error e, w')
  rw [h]

theorem attempt_eq {ε' : Type} {m : Action ε W α} {w w' : W} {result : Except ε α}
    (h : m w = (result, w')) : (attempt m : Action ε' W _) w = (.ok result, w') := by
  rw [attempt, h]

theorem zoom_eq {S : Type} {get : S → W} {set : W → S → S} {m : Action ε W α} {s : S} {w' : W}
    {result : Except ε α} (h : m (get s) = (result, w')) :
    zoom get set m s = (result, set w' s) := by
  rw [zoom, h]

/-- A sequence on a part of a world is the sequence of its actions on the part. -/
theorem zoom_bind {S : Type} {get : S → W} {set : W → S → S} (hget : ∀ w s, get (set w s) = w)
    (hset : ∀ w w' s, set w' (set w s) = set w' s) (m : Action ε W α) (f : α → Action ε W β) :
    zoom get set (m >>= f) = zoom get set m >>= fun a ↦ zoom get set (f a) := by
  funext s
  rcases hstep : m (get s) with ⟨answer, w'⟩
  cases answer with
  | error e => rw [zoom_eq (bind_of_error hstep), bind_of_error (zoom_eq hstep)]
  | ok a =>
    rw [bind_of_ok (zoom_eq hstep), zoom, zoom, bind_of_ok hstep, hget, hset]

theorem mapError_of_ok {ε' : Type} {f : ε' → ε} {m : Action ε' W α} {w w' : W} {a : α}
    (h : m w = (.ok a, w')) : m.mapError f w = (.ok a, w') := by
  rw [mapError, h]

theorem mapError_of_error {ε' : Type} {f : ε' → ε} {m : Action ε' W α} {w w' : W} {e : ε'}
    (h : m w = (.error e, w')) : m.mapError f w = (.error (f e), w') := by
  rw [mapError, h]

theorem of_mapError_ok {ε' : Type} {f : ε' → ε} {m : Action ε' W α} {w w' : W} {a : α}
    (h : m.mapError f w = (.ok a, w')) : m w = (.ok a, w') := by
  rcases hstep : m w with ⟨answer, w''⟩
  cases answer with
  | error e => cases (mapError_of_error hstep).symm.trans h
  | ok b =>
    obtain ⟨hok, rfl⟩ := Prod.mk.inj ((mapError_of_ok hstep).symm.trans h)
    obtain rfl := Except.ok.inj hok
    rfl

theorem of_mapError_error {ε' : Type} {f : ε' → ε} {m : Action ε' W α} {w w' : W} {e : ε}
    (h : m.mapError f w = (.error e, w')) : ∃ cause, e = f cause ∧ m w = (.error cause, w') := by
  rcases hstep : m w with ⟨answer, w''⟩
  cases answer with
  | error cause =>
    obtain ⟨herror, rfl⟩ := Prod.mk.inj ((mapError_of_error hstep).symm.trans h)
    exact ⟨cause, (Except.error.inj herror).symm, rfl⟩
  | ok b => cases (mapError_of_ok hstep).symm.trans h

/-- A sequence that returns a value ran through both of its actions. -/
theorem bind_eq_ok {m : Action ε W α} {f : α → Action ε W β} {w : W} {b : β}
    (h : ((m >>= f) w).1 = .ok b) : ∃ a w', m w = (.ok a, w') ∧ (f a w').1 = .ok b := by
  cases hstep : m w with
  | mk answer w' =>
    cases answer with
    | error e =>
      rw [bind_of_error hstep] at h
      cases h
    | ok a =>
      rw [bind_of_ok hstep] at h
      exact ⟨a, w', rfl, h⟩

/-- A partial computation that has a value leaves the world as it was. -/
theorem ofOption_eq_ok {e : ε} {o : Option α} {w w' : W} {a : α}
    (h : (ofOption e o : Action ε W α) w = (.ok a, w')) : o = some a ∧ w = w' := by
  cases o with
  | none => cases h
  | some b =>
    obtain ⟨hok, rfl⟩ := Prod.mk.inj h
    obtain rfl : b = a := Except.ok.inj hok
    exact ⟨rfl, rfl⟩

/-- A computation that does not fail leaves the world as it was. -/
theorem ofExcept_eq_ok {x : Except ε α} {w w' : W} {a : α}
    (h : (ofExcept x : Action ε W α) w = (.ok a, w')) : x = .ok a ∧ w = w' := by
  cases x with
  | error e => cases h
  | ok b =>
    obtain ⟨hok, rfl⟩ := Prod.mk.inj h
    obtain rfl : b = a := Except.ok.inj hok
    exact ⟨rfl, rfl⟩

/-- Every value an action can return, from any world, has a property. -/
def Yields (m : Action ε W α) (P : α → Prop) : Prop := ∀ w a, (m w).1 = .ok a → P a

namespace Yields

variable {P : α → Prop} {Q : β → Prop} {e : ε}

theorem pure {a : α} (h : P a) : Yields (Pure.pure a : Action ε W α) P := by
  intro w b hb
  obtain rfl : a = b := Except.ok.inj hb
  exact h

theorem fail : Yields (Action.fail e : Action ε W α) P := by
  intro w a ha
  cases ha

/-- Everything an action returns satisfies the trivial property. -/
theorem trivial (m : Action ε W α) : Yields m fun _ ↦ True := fun _ _ _ ↦ True.intro

/-- A sequence returns what its second action returns, started after a value of the first. -/
theorem bind {m : Action ε W α} {f : α → Action ε W β} (hm : Yields m P)
    (hf : ∀ a, P a → Yields (f a) Q) : Yields (m >>= f) Q := by
  intro w b hb
  obtain ⟨a, w', hfirst, hsecond⟩ := bind_eq_ok hb
  exact hf a (hm w a (by rw [hfirst])) w' b hsecond

/-- A sequence whose first answer does not matter. -/
theorem seq {m : Action ε W α} {f : α → Action ε W β} (hf : ∀ a, Yields (f a) Q) :
    Yields (m >>= f) Q :=
  bind (trivial m) fun a _ ↦ hf a

/-- Everything an action returns is its answer in some world. -/
theorem answer (m : Action ε W α) : Yields m fun a ↦ ∃ w, (m w).1 = .ok a := fun w _ ha ↦ ⟨w, ha⟩

theorem ofOption {o : Option α} :
    Yields (Action.ofOption e o : Action ε W α) fun a ↦ o = some a := by
  cases o with
  | none => exact fail
  | some a => exact pure rfl

theorem ofExcept {x : Except ε α} :
    Yields (Action.ofExcept x : Action ε W α) fun a ↦ x = .ok a := by
  cases x with
  | error e => exact fail
  | ok a => exact pure rfl

theorem mapError {ε' : Type} {f : ε → ε'} {m : Action ε W α} (hm : Yields m P) :
    Yields (m.mapError f) P := by
  intro w a ha
  rcases hstep : m w with ⟨answer, w'⟩
  cases answer with
  | error e =>
    rw [mapError_of_error hstep] at ha
    cases ha
  | ok b =>
    rw [mapError_of_ok hstep] at ha
    obtain rfl : b = a := Except.ok.inj ha
    exact hm w b (by rw [hstep])

theorem zoom {S : Type} {get : S → W} {set : W → S → S} {m : Action ε W α} (hm : Yields m P) :
    Yields (m.zoom get set) P := fun s ↦ hm (get s)

/-- A sequence that starts by asking returns what follows the answer of its own world. -/
theorem of_ask {question : W → α × W} {f : α → Action ε W β} {P : α → β → Prop}
    (hf : ∀ a, Yields (f a) (P a)) {w : W} {b : β}
    (h : ((Action.ask question >>= f) w).1 = .ok b) : P (question w).1 b :=
  hf _ _ b h

end Yields

/-- A property of the world that an action keeps, however it ends. -/
def Keeps (I : W → Prop) (m : Action ε W α) : Prop := ∀ w, I w → I (m w).2

namespace Keeps

variable {I : W → Prop} {m : Action ε W α}

theorem pure (a : α) : Keeps I (Pure.pure a : Action ε W α) := fun _ h ↦ h

theorem fail (e : ε) : Keeps I (Action.fail e : Action ε W α) := fun _ h ↦ h

theorem ask {question : W → α × W} (h : ∀ w, I w → I (question w).2) :
    Keeps I (Action.ask question : Action ε W α) := h

theorem attempt {ε' : Type} (hm : Keeps I m) : Keeps I (Action.attempt m : Action ε' W _) := hm

theorem mapError {ε' : Type} {f : ε → ε'} (hm : Keeps I m) : Keeps I (m.mapError f) := by
  intro w h
  have hafter := hm w h
  rcases hstep : m w with ⟨answer, w'⟩
  rw [hstep] at hafter
  cases answer with
  | error e =>
    rw [mapError_of_error hstep]
    exact hafter
  | ok a =>
    rw [mapError_of_ok hstep]
    exact hafter

/-- An action on a part of a world keeps what it keeps of the part. -/
theorem zoom {S : Type} {get : S → W} {set : W → S → S} (hm : Keeps I m)
    (hset : ∀ w s, get (set w s) = w) : Keeps (fun s ↦ I (get s)) (m.zoom get set) := by
  intro s h
  change I (get (set (m (get s)).2 s))
  rw [hset]
  exact hm (get s) h

/-- A sequence keeps what its first action keeps, and what its second keeps after it. -/
theorem bind {P : α → Prop} {f : α → Action ε W β} (hm : Keeps I m) (hP : m.Yields P)
    (hf : ∀ a, P a → Keeps I (f a)) : Keeps I (m >>= f) := by
  intro w h
  have hafter := hm w h
  rcases hstep : m w with ⟨answer, w'⟩
  rw [hstep] at hafter
  cases answer with
  | error e =>
    rw [bind_of_error hstep]
    exact hafter
  | ok a =>
    rw [bind_of_ok hstep]
    exact hf a (hP w a (by rw [hstep])) w' hafter

/-- A sequence whose first answer does not matter. -/
theorem seq {f : α → Action ε W β} (hm : Keeps I m) (hf : ∀ a, Keeps I (f a)) :
    Keeps I (m >>= f) :=
  bind hm (.trivial m) fun a _ ↦ hf a

end Keeps

end Action

end Hire.Library
