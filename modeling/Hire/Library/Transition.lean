import Mathlib.Data.List.Basic

/-!
# Runs of a transition system

A transition system is a partial step function on states and labels. A run is what a list of labels
does from a state: its transitions in order, or nothing when a label is not enabled. `visited` lists
the states of a run, the first one included.

`run_invariant` is the induction over runs, once for every system: a property that holds at the
start and is kept by the steps a guard allows holds before and after every transition of a run whose
steps all pass the guard. `run_history` is the same for a property that also speaks of the
transitions so far.

Nothing here names a particular program.
-/

set_option autoImplicit false
set_option relaxedAutoImplicit false

namespace Hire.Library

/-- One transition of a run. -/
structure Transition (σ ℓ : Type) where
  source : σ
  label : ℓ
  target : σ

variable {σ ℓ : Type} {step : σ → ℓ → Option σ}

/-- The transitions that a list of labels makes from a state, if every label is enabled. -/
def run (step : σ → ℓ → Option σ) : σ → List ℓ → Option (List (Transition σ ℓ))
  | _, [] => some []
  | s, label :: rest =>
    match step s label with
    | none => none
    | some s' => (run step s' rest).map (⟨s, label, s'⟩ :: ·)

/-- The states of a run, the first one included. -/
def visited (s : σ) (transitions : List (Transition σ ℓ)) : List σ :=
  s :: transitions.map Transition.target

/-- A run that starts with a label made a step and went on from there. -/
theorem run_cons_eq_some {s : σ} {label : ℓ} {rest : List ℓ} {transitions : List (Transition σ ℓ)}
    (h : run step s (label :: rest) = some transitions) :
    ∃ s' later, step s label = some s' ∧ run step s' rest = some later ∧
      transitions = ⟨s, label, s'⟩ :: later := by
  unfold run at h
  cases hstep : step s label with
  | none =>
    rw [hstep] at h
    cases h
  | some s' =>
    rw [hstep] at h
    obtain ⟨later, hlater, rfl⟩ := Option.map_eq_some_iff.mp h
    exact ⟨s', later, rfl, hlater, rfl⟩

/-- Every transition of a run is a step. -/
theorem step_of_mem_run {s : σ} {labels : List ℓ} {transitions : List (Transition σ ℓ)}
    (hrun : run step s labels = some transitions) :
    ∀ t ∈ transitions, step t.source t.label = some t.target := by
  induction labels generalizing s transitions with
  | nil =>
    cases hrun
    intro t ht
    cases ht
  | cons label rest ih =>
    obtain ⟨s', later, hstep, hlater, rfl⟩ := run_cons_eq_some hrun
    intro t ht
    rcases List.mem_cons.mp ht with rfl | ht
    · exact hstep
    · exact ih hlater t ht

/-- A property that holds at the start and is kept by every step that passes a guard holds on both
sides of every transition of a run whose steps all pass it. -/
theorem run_invariant {P : σ → Prop} {G : σ → ℓ → Prop}
    (hkeep : ∀ s label s', P s → G s label → step s label = some s' → P s') {s : σ}
    {labels : List ℓ} {transitions : List (Transition σ ℓ)} (hs : P s)
    (hrun : run step s labels = some transitions)
    (hguard : ∀ t ∈ transitions, G t.source t.label) :
    ∀ t ∈ transitions, P t.source ∧ P t.target := by
  induction labels generalizing s transitions with
  | nil =>
    cases hrun
    intro t ht
    cases ht
  | cons label rest ih =>
    obtain ⟨s', later, hstep, hlater, rfl⟩ := run_cons_eq_some hrun
    have hs' := hkeep s label s' hs (hguard _ List.mem_cons_self) hstep
    intro t ht
    rcases List.mem_cons.mp ht with rfl | ht
    · exact ⟨hs, hs'⟩
    · exact ih hs' hlater (fun t' ht' ↦ hguard t' (List.mem_cons_of_mem _ ht')) t ht

/-- A property of the transitions so far and the state they end in, which every step keeps, holds
before every transition of a run. -/
theorem run_history {P : List (Transition σ ℓ) → σ → Prop}
    (hkeep : ∀ past s label s', P past s → step s label = some s' →
      P (past ++ [⟨s, label, s'⟩]) s') (past : List (Transition σ ℓ)) {s : σ} {labels : List ℓ}
    {transitions before after : List (Transition σ ℓ)} {t : Transition σ ℓ} (hs : P past s)
    (hrun : run step s labels = some transitions) (hsplit : transitions = before ++ t :: after) :
    P (past ++ before) t.source := by
  induction labels generalizing past s transitions before with
  | nil =>
    cases hrun
    cases before <;> cases hsplit
  | cons label rest ih =>
    obtain ⟨s', later, hstep, hlater, rfl⟩ := run_cons_eq_some hrun
    cases before with
    | nil =>
      cases hsplit
      rwa [List.append_nil]
    | cons first before =>
      obtain ⟨rfl, hrest⟩ := List.cons_eq_cons.mp hsplit
      have hthere := ih _ (hkeep past s label s' hs hstep) hlater hrest
      rwa [List.append_assoc] at hthere

/-- A property of the first state and of every state a transition ends in is one of every state
visited. -/
theorem forall_visited_iff {P : σ → Prop} {s : σ} {transitions : List (Transition σ ℓ)} :
    (∀ t ∈ visited s transitions, P t) ↔ P s ∧ ∀ t ∈ transitions, P t.target := by
  simp [visited]

end Hire.Library
