import Hire.Library.Action
import Mathlib.Computability.Language
import Mathlib.Order.CompletePartialOrder

/-!
# Recorded actions

A recorded world is a world with the list of what was asked of it. `Action.Records m' m L` says that
one action on the recorded world does what another does on the world itself, with the same result
and the same world behind it, and that it adds a word of the language `L` to the record. So what is
proved of the words is proved of the run of the plain action, and the recording changes nothing.

The rules follow the construction of an action. Most of a program adds words over a set of harmless
letters (`words`), and what matters is one stretch between them (`around`); `Records.seq` goes on
behind a harmless part, `Records.cons` behind one letter of a fixed sequence that may be cut off by
an error (`prefixes`), and `Records.behind` with a harmless part behind a stretch.

Nothing here names a particular program.
-/

set_option autoImplicit false
set_option relaxedAutoImplicit false

namespace Hire.Library

variable {ε W ω α β : Type}

/-! ### Languages of records -/

/-- The words whose letters have a property. -/
def words (p : ω → Prop) : Language ω := {word | ∀ letter ∈ word, p letter}

/-- The words that a sequence starts with. -/
def prefixes (sequence : List ω) : Language ω := {word | word <+: sequence}

/-- A stretch between words whose letters have a property. -/
def around (p : ω → Prop) (stretch : Language ω) : Language ω := words p * stretch * words p

/-- A language absorbs the words whose letters have a property in front of its own. -/
structure Absorbs (p : ω → Prop) (L : Language ω) : Prop where
  words_le : words p ≤ L
  mul_le : words p * L ≤ L

variable {p : ω → Prop} {L : Language ω}

theorem nil_mem_words : [] ∈ words p := by
  intro letter hletter
  cases hletter

theorem append_mem_words {left right : List ω} (hleft : left ∈ words p) (hright : right ∈ words p) :
    left ++ right ∈ words p := by
  intro letter hletter
  rcases List.mem_append.mp hletter with h | h
  · exact hleft letter h
  · exact hright letter h

theorem singleton_mem_words {letter : ω} (h : p letter) : [letter] ∈ words p := by
  intro other hother
  rw [List.mem_singleton.mp hother]
  exact h

theorem nil_mem_prefixes (sequence : List ω) : [] ∈ prefixes sequence := List.nil_prefix

/-- Words over a property absorb themselves. -/
theorem absorbs_words : Absorbs p (words p) where
  words_le := le_rfl
  mul_le := by
    intro word hword
    obtain ⟨left, hleft, right, hright, rfl⟩ := Language.mem_mul.mp hword
    exact append_mem_words hleft hright

/-- Membership in a stretch between words. -/
theorem mem_around {stretch : Language ω} {word : List ω} :
    word ∈ around p stretch ↔ ∃ before ∈ words p, ∃ middle ∈ stretch, ∃ after ∈ words p,
      word = before ++ middle ++ after := by
  unfold around
  constructor
  · intro hword
    obtain ⟨front, hfront, after, hafter, rfl⟩ := Language.mem_mul.mp hword
    obtain ⟨before, hbefore, middle, hmiddle, rfl⟩ := Language.mem_mul.mp hfront
    exact ⟨before, hbefore, middle, hmiddle, after, hafter, rfl⟩
  · rintro ⟨before, hbefore, middle, hmiddle, after, hafter, rfl⟩
    exact Language.append_mem_mul (Language.append_mem_mul hbefore hmiddle) hafter

/-- A stretch that may be empty, between words, absorbs words in front of it. -/
theorem absorbs_around {stretch : Language ω} (hstretch : [] ∈ stretch) :
    Absorbs p (around p stretch) where
  words_le := by
    intro word hword
    exact mem_around.mpr ⟨word, hword, [], hstretch, [], nil_mem_words, by simp⟩
  mul_le := by
    intro word hword
    obtain ⟨front, hfront, rest, hrest, rfl⟩ := Language.mem_mul.mp hword
    obtain ⟨before, hbefore, middle, hmiddle, after, hafter, rfl⟩ := mem_around.mp hrest
    exact mem_around.mpr ⟨front ++ before, append_mem_words hfront hbefore, middle, hmiddle, after,
      hafter, by simp⟩

/-- A stretch with words behind it is one between words. -/
theorem mul_words_le_around {stretch : Language ω} : stretch * words p ≤ around p stretch := by
  intro word hword
  obtain ⟨middle, hmiddle, after, hafter, rfl⟩ := Language.mem_mul.mp hword
  exact mem_around.mpr ⟨[], nil_mem_words, middle, hmiddle, after, hafter, rfl⟩

/-! ### Recording -/

/-- A world with the record of what was asked of it. -/
structure Recorded (W ω : Type) where
  world : W
  log : List ω

namespace Action

/-- A question that is recorded under a letter. -/
def recordAsk (letter : ω) (question : W → α × W) (r : Recorded W ω) : α × Recorded W ω :=
  ((question r.world).1, ⟨(question r.world).2, r.log ++ [letter]⟩)

/-- An action that is recorded under a letter. -/
def record (letter : ω) (m : Action ε W α) : Action ε (Recorded W ω) α := fun r ↦
  ((m r.world).1, ⟨(m r.world).2, r.log ++ [letter]⟩)

/-- One action on a recorded world does what another does on the world, and adds a word of a
language to the record. -/
def Records (m' : Action ε (Recorded W ω) α) (m : Action ε W α) (L : Language ω) : Prop :=
  ∀ w log, ∃ word ∈ L, m' ⟨w, log⟩ = ((m w).1, ⟨(m w).2, log ++ word⟩)

namespace Records

variable {m' : Action ε (Recorded W ω) α} {m : Action ε W α}
  {f' : α → Action ε (Recorded W ω) β} {f : α → Action ε W β}

theorem mono {L' : Language ω} (hm : Records m' m L) (hle : L ≤ L') : Records m' m L' := by
  intro w log
  obtain ⟨word, hword, heq⟩ := hm w log
  exact ⟨word, hle hword, heq⟩

theorem pure {a : α} (hnil : [] ∈ L) :
    Records (Pure.pure a : Action ε (Recorded W ω) α) (Pure.pure a : Action ε W α) L := by
  intro w log
  refine ⟨[], hnil, ?_⟩
  rw [List.append_nil]
  rfl

theorem fail {e : ε} (hnil : [] ∈ L) :
    Records (Action.fail e : Action ε (Recorded W ω) α) (Action.fail e : Action ε W α) L := by
  intro w log
  refine ⟨[], hnil, ?_⟩
  rw [List.append_nil]
  rfl

theorem ask {letter : ω} {question : W → α × W} (hletter : [letter] ∈ L) :
    Records (Action.ask (recordAsk letter question) : Action ε (Recorded W ω) α)
      (Action.ask question : Action ε W α) L :=
  fun _ _ ↦ ⟨[letter], hletter, rfl⟩

theorem record {letter : ω} (hletter : [letter] ∈ L) : Records (m.record letter) m L :=
  fun _ _ ↦ ⟨[letter], hletter, rfl⟩

theorem mapError {ε' : Type} {m' : Action ε' (Recorded W ω) α} {m : Action ε' W α} {g : ε' → ε}
    (hm : Records m' m L) : Records (m'.mapError g) (m.mapError g) L := by
  intro w log
  obtain ⟨word, hword, heq⟩ := hm w log
  refine ⟨word, hword, ?_⟩
  cases hplain : m w with
  | mk result w' =>
    rw [hplain] at heq
    cases result with
    | ok a => rw [mapError_of_ok heq, mapError_of_ok hplain]
    | error e => rw [mapError_of_error heq, mapError_of_error hplain]

/-- A sequence records a word of its first part, and where that returns, a word of its second part
behind it. -/
theorem bind {P Q : Language ω} (hm : Records m' m P) (hf : ∀ a, Records (f' a) (f a) Q)
    (hstop : P ≤ L) (hgo : P * Q ≤ L) : Records (m' >>= f') (m >>= f) L := by
  intro w log
  obtain ⟨word, hword, heq⟩ := hm w log
  cases hplain : m w with
  | mk result w' =>
    rw [hplain] at heq
    cases result with
    | error e =>
      refine ⟨word, hstop hword, ?_⟩
      rw [bind_of_error heq, bind_of_error hplain]
    | ok a =>
      obtain ⟨later, hlater, heq'⟩ := hf a w' (log ++ word)
      refine ⟨word ++ later, hgo (Language.append_mem_mul hword hlater), ?_⟩
      rw [bind_of_ok heq, bind_of_ok hplain, heq', List.append_assoc]

/-- A sequence whose first part records harmless words only. -/
theorem seq (hL : Absorbs p L) (hm : Records m' m (words p)) (hf : ∀ a, Records (f' a) (f a) L) :
    Records (m' >>= f') (m >>= f) L :=
  bind hm hf hL.words_le hL.mul_le

/-- A sequence that starts with one letter of a fixed sequence. -/
theorem cons {letter : ω} {sequence : List ω} (hm : Records m' m {[letter]})
    (hf : ∀ a, Records (f' a) (f a) (prefixes sequence * L)) (hnil : [] ∈ L) :
    Records (m' >>= f') (m >>= f) (prefixes (letter :: sequence) * L) := by
  refine bind hm hf ?_ ?_
  · rintro word rfl
    have hstart : [letter] ∈ prefixes (letter :: sequence) := ⟨sequence, rfl⟩
    have hmem := Language.append_mem_mul hstart hnil
    rwa [List.append_nil] at hmem
  · intro word hword
    obtain ⟨first, rfl, rest, hrest, rfl⟩ := Language.mem_mul.mp hword
    obtain ⟨front, hfront, back, hback, rfl⟩ := Language.mem_mul.mp hrest
    have hlonger : letter :: front ∈ prefixes (letter :: sequence) :=
      List.cons_prefix_cons.mpr ⟨rfl, hfront⟩
    have hmem := Language.append_mem_mul hlonger hback
    rwa [List.cons_append] at hmem

/-- A sequence whose first part records a stretch and harmless words, and whose second part records
harmless words only. -/
theorem behind {S : Language ω} (hm : Records m' m (S * words p))
    (hf : ∀ a, Records (f' a) (f a) (words p)) : Records (m' >>= f') (m >>= f) (S * words p) := by
  refine bind hm hf le_rfl ?_
  intro word hword
  rw [mul_assoc] at hword
  obtain ⟨middle, hmiddle, after, hafter, rfl⟩ := Language.mem_mul.mp hword
  exact Language.append_mem_mul hmiddle (absorbs_words.mul_le hafter)

/-- A sequence that starts from a partial computation goes on with its value. -/
theorem ofOption_bind {e : ε} {o : Option α} (hnil : [] ∈ L)
    (hf : ∀ a, o = some a → Records (f' a) (f a) L) :
    Records (Action.ofOption e o >>= f') (Action.ofOption e o >>= f) L := by
  cases o with
  | none => exact fail hnil
  | some a => exact hf a rfl

/-- A sequence that starts from a computation that may fail goes on with its value. -/
theorem ofExcept_bind {x : Except ε α} (hnil : [] ∈ L)
    (hf : ∀ a, x = .ok a → Records (f' a) (f a) L) :
    Records (Action.ofExcept x >>= f') (Action.ofExcept x >>= f) L := by
  cases x with
  | error e => exact fail hnil
  | ok a => exact hf a rfl

/-- A computation that may fail records nothing. -/
theorem ofExcept {x : Except ε α} (hnil : [] ∈ L) :
    Records (Action.ofExcept x : Action ε (Recorded W ω) α) (Action.ofExcept x : Action ε W α)
      L := by
  cases x with
  | error e => exact fail hnil
  | ok a => exact pure hnil

/-- An action that records harmless letters keeps a record harmless. -/
theorem keeps (hm : Records m' m (words p)) :
    Keeps (fun r : Recorded W ω ↦ ∀ letter ∈ r.log, p letter) m' := by
  rintro ⟨w, log⟩ hlog
  obtain ⟨word, hword, heq⟩ := hm w log
  rw [heq]
  exact append_mem_words hlog hword

end Records

end Action

end Hire.Library
