import Hire.Library.Transition
import Mathlib.Logic.Relation

/-!
# Programs under interference

A program makes calls one after the other and may return or fail. Between two of its calls, before
the first and after the last, others may do to the state whatever an interference relation lets
them; a run is any interleaving of the two. What the outside decides about a call besides the state
is an oracle of that call.

`Program.wp` is the weakest precondition of a postcondition on what a program returns, under every
interleaving in which each call is made in a state that meets a guard. A condition the others keep
(`Kernel.Stable`) is carried to the next call (`Program.wp_call`), and parts of a program are put
together by `Program.wp_bind`. `Program.wp_run` is the adequacy of the rule: in every run that meets
the guard, the postcondition holds in every state reached after the program returned.

Nothing here names a particular program.
-/

set_option autoImplicit false
set_option relaxedAutoImplicit false

namespace Hire.Library

/-- A program: it returns a value, fails, or makes a call and goes on with the answer. -/
inductive Program {Call : Type} (Answer : Call → Type) (ε α : Type)
  | ret (a : α)
  | fail (e : ε)
  | call (c : Call) (next : Answer c → Program Answer ε α)

/-- What a call answers and does to the state, given an oracle, and what others may do to the
state. -/
structure Kernel {Call : Type} (Answer : Call → Type) (σ ω ι : Type) where
  serve : (c : Call) → ω → σ → Answer c × σ
  interfere : ι → σ → Option σ

/-- A move of a run: the next call of the program, or an operation of the others. -/
inductive Move (ω ι : Type)
  | own (oracle : ω)
  | other (op : ι)

/-- A state, and what is left of the program. -/
structure Config {Call : Type} (Answer : Call → Type) (ε α σ : Type) where
  state : σ
  program : Program Answer ε α

variable {Call : Type} {Answer : Call → Type} {ε α β σ ω ι : Type}

namespace Program

/-- Run a program and go on with what it returns. -/
def bind : Program Answer ε α → (α → Program Answer ε β) → Program Answer ε β
  | .ret a, f => f a
  | .fail e, _ => .fail e
  | .call c next, f => .call c fun answer ↦ (next answer).bind f

instance : Monad (Program Answer ε) where
  pure := .ret
  bind := bind

/-- The program that makes one call and returns its answer. -/
def perform (c : Call) : Program Answer ε (Answer c) := .call c .ret

/-- What a program has returned, if it has. -/
def returned : Program Answer ε α → Option α
  | .ret a => some a
  | _ => none

theorem eq_ret_of_returned {p : Program Answer ε α} {a : α} (h : p.returned = some a) :
    p = .ret a := by
  cases p with
  | ret b =>
    obtain rfl := Option.some.inj h
    rfl
  | fail e => exact absurd h (by simp [returned])
  | call c next => exact absurd h (by simp [returned])

end Program

namespace Kernel

variable (K : Kernel Answer σ ω ι)

/-- One move. A program that has ended makes no further move of its own. -/
def step (cfg : Config Answer ε α σ) : Move ω ι → Option (Config Answer ε α σ)
  | .other op => (K.interfere op cfg.state).map fun s ↦ { cfg with state := s }
  | .own oracle =>
    match cfg.program with
    | .call c next =>
      some ⟨(K.serve c oracle cfg.state).2, next (K.serve c oracle cfg.state).1⟩
    | _ => none

/-- The next call of a program, if a move makes it, is made in a state that meets a guard. -/
def Guarded (guard : Call → σ → Prop) (cfg : Config Answer ε α σ) : Move ω ι → Prop
  | .other _ => True
  | .own _ =>
    match cfg.program with
    | .call c _ => guard c cfg.state
    | _ => True

instance {guard : Call → σ → Prop} [∀ c s, Decidable (guard c s)] (cfg : Config Answer ε α σ) :
    ∀ move : Move ω ι, Decidable (Guarded guard cfg move)
  | .other _ => isTrue trivial
  | .own _ =>
    match cfg with
    | ⟨s, .call c _⟩ => inferInstanceAs (Decidable (guard c s))
    | ⟨_, .ret _⟩ => isTrue trivial
    | ⟨_, .fail _⟩ => isTrue trivial

/-- The others can bring one state to another. -/
def Reaches : σ → σ → Prop := Relation.ReflTransGen fun s s' ↦ ∃ op, K.interfere op s = some s'

/-- A condition that the others keep. -/
def Stable (P : σ → Prop) : Prop := ∀ s op s', P s → K.interfere op s = some s' → P s'

variable {K}

/-- A condition that one operation keeps is kept by any number of them. -/
theorem Stable.of_reaches {P : σ → Prop} (hP : K.Stable P) {s s' : σ} (hs : P s)
    (h : K.Reaches s s') : P s' := by
  induction h with
  | refl => exact hs
  | tail _ hop ih =>
    obtain ⟨op, hop⟩ := hop
    exact hP _ op _ ih hop

end Kernel

namespace Program

variable (K : Kernel Answer σ ω ι) (guard : Call → σ → Prop)

/-- The weakest precondition of a postcondition on what a program returns, whatever the others do
before each call and after the last, as long as each call meets the guard. -/
def wp (Q : α → σ → Prop) : Program Answer ε α → σ → Prop
  | .ret a, s => ∀ s', K.Reaches s s' → Q a s'
  | .fail _, _ => True
  | .call c next, s => ∀ s', K.Reaches s s' → guard c s' → ∀ oracle,
      wp Q (next (K.serve c oracle s').1) (K.serve c oracle s').2

variable {K guard} {Q : α → σ → Prop}

/-- What the others do does not spoil a precondition. -/
theorem wp_of_reaches {p : Program Answer ε α} {s s' : σ} (hs : wp K guard Q p s)
    (h : K.Reaches s s') : wp K guard Q p s' := by
  cases p with
  | ret a => exact fun s'' h' ↦ hs s'' (h.trans h')
  | fail e => trivial
  | call c next => exact fun s'' h' ↦ hs s'' (h.trans h')

/-- A program that has returned meets what a stable condition implies. -/
theorem wp_ret {P : σ → Prop} (hP : K.Stable P) {a : α} {s : σ} (hs : P s)
    (hQ : ∀ s, P s → Q a s) : wp K guard Q (.ret a : Program Answer ε α) s :=
  fun s' h ↦ hQ s' (hP.of_reaches hs h)

/-- A stable condition holds when the next call is made. -/
theorem wp_call {P : σ → Prop} (hP : K.Stable P) {c : Call} {next : Answer c → Program Answer ε α}
    {s : σ} (hs : P s)
    (hnext : ∀ s, P s → guard c s → ∀ oracle,
      wp K guard Q (next (K.serve c oracle s).1) (K.serve c oracle s).2) :
    wp K guard Q (.call c next) s :=
  fun s' h ↦ hnext s' (hP.of_reaches hs h)

/-- A stable condition holds when a call is made, and what follows goes on with the answer. -/
theorem wp_perform {P : σ → Prop} (hP : K.Stable P) {c : Call}
    {f : Answer c → Program Answer ε α} {s : σ} (hs : P s)
    (hnext : ∀ s, P s → guard c s → ∀ oracle,
      wp K guard Q (f (K.serve c oracle s).1) (K.serve c oracle s).2) :
    wp K guard Q (perform c >>= f) s :=
  wp_call hP hs hnext

/-- One program after another. -/
theorem wp_bind {R : β → σ → Prop} {p : Program Answer ε α} {f : α → Program Answer ε β} {s : σ}
    (hp : wp K guard Q p s) (hf : ∀ a s, Q a s → wp K guard R (f a) s) :
    wp K guard R (p >>= f) s := by
  show wp K guard R (p.bind f) s
  induction p generalizing s with
  | ret a => exact hf a s (hp s .refl)
  | fail e => trivial
  | call c next ih => exact fun s' h hguard oracle ↦ ih _ (hp s' h hguard oracle)

/-- In every run whose calls meet the guard, the postcondition holds in every state that is reached
after the program returned. -/
theorem wp_run {p : Program Answer ε α} {s : σ} (hp : wp K guard Q p s)
    {moves : List (Move ω ι)} {transitions : List (Transition (Config Answer ε α σ) (Move ω ι))}
    (hrun : run K.step ⟨s, p⟩ moves = some transitions)
    (hguard : ∀ t ∈ transitions, Kernel.Guarded guard t.source t.label) :
    ∀ cfg ∈ visited ⟨s, p⟩ transitions, ∀ a, cfg.program = .ret a → Q a cfg.state := by
  have hkeep : ∀ (cfg : Config Answer ε α σ) move cfg', wp K guard Q cfg.program cfg.state →
      Kernel.Guarded guard cfg move → K.step cfg move = some cfg' →
      wp K guard Q cfg'.program cfg'.state := by
    intro cfg move cfg' hcfg hmeets hstep
    cases move with
    | other op =>
      obtain ⟨s', hop, rfl⟩ := Option.map_eq_some_iff.mp hstep
      exact wp_of_reaches hcfg (.single ⟨op, hop⟩)
    | own oracle =>
      obtain ⟨state, program⟩ := cfg
      cases program with
      | ret a => exact absurd hstep (by simp [Kernel.step])
      | fail e => exact absurd hstep (by simp [Kernel.step])
      | call c next =>
        obtain rfl := Option.some.inj hstep
        exact hcfg state .refl hmeets oracle
  have hall := run_invariant hkeep hp hrun hguard
  have hend : ∀ cfg ∈ visited ⟨s, p⟩ transitions, wp K guard Q cfg.program cfg.state :=
    forall_visited_iff.mpr ⟨hp, fun t ht ↦ (hall t ht).2⟩
  intro cfg hcfg a ha
  have hlast := hend cfg hcfg
  rw [ha] at hlast
  exact hlast cfg.state .refl

end Program

end Hire.Library
