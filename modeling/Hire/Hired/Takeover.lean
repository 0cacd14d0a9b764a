import Hire.Hired.Lifecycle

/-!
# One daemon at a time, and the next

What the lock of `acquire_lock` in `hire-grpc/src/server.rs` is for, over whole runs of any number
of daemons on one socket path. While one of them holds it, no other gets through a step of
`bind_listener`, which takes the lock, unlinks what the path names and binds the path; the only step
of another that still changes what the path names is the removal at the end of the cleanup in
`hired/src/main.rs`, which asks for no lock (`one_daemon_at_a_time`). And the lock never stands in
the way of a restart: once its holder has died, if there is one, a daemon that starts then gets the
lock and serves from its own socket, exactly when the path does not name a directory
(`restart_after_crash`).

What `prepare_socket_dir` does before is not part of these runs: where it refuses, `bind_listener`
returns with an error, which is the step `fail` of a process that has yet to start.
-/

set_option autoImplicit false
set_option relaxedAutoImplicit false

namespace Hire.Hired

open Hire.Library

/-- What a daemon does to serve. -/
def startUp (p : Pid) : List (Pid × Act) :=
  [(p, .acquireLock), (p, .unlinkStale), (p, .bind), (p, .setPermissions)]

/-! ### One at a time -/

/-- Every state of a run has its lock in order. -/
theorem lockHeld_of_run {s : System} (hs : Initial s) {labels : List (Pid × Act)}
    {transitions : List (Transition System (Pid × Act))}
    (hrun : run step s labels = some transitions) :
    ∀ state ∈ visited s transitions, LockHeld state := by
  rw [forall_visited_iff]
  have hboth := run_invariant (P := LockHeld) (G := fun _ _ ↦ True)
    (fun state label state' hstate _ hstep ↦ lockHeld_step hstate hstep) (lockHeld_of_initial hs)
    hrun fun _ _ ↦ True.intro
  exact ⟨lockHeld_of_initial hs, fun t ht ↦ (hboth t ht).2⟩

/-- Two processes that hold the lock are one. -/
theorem LockHeld.unique {s : System} (hs : LockHeld s) {p q : Pid}
    (hp : (s.phase p).holdsLock = true) (hq : (s.phase q).holdsLock = true) : p = q :=
  Option.some.inj (((hs p).mp hp).symm.trans ((hs q).mp hq))

/-- The steps of `bind_listener`, from taking the lock on. -/
def Act.Binds : Act → Prop
  | .acquireLock | .unlinkStale | .bind | .setPermissions => True
  | _ => False

section Exclusion

variable {s : System} (hs : LockHeld s) {p q : Pid} (hp : (s.phase p).holdsLock = true)
  (hne : q ≠ p) {act : Act}
include hs hp hne

/-- While one process holds the lock, no other gets through a step of `bind_listener`. -/
theorem LockHeld.excludes (hact : act.Binds) : step s (q, act) = none := by
  have hlock := (hs p).mp hp
  have hidle : (s.phase q).holdsLock ≠ true := fun hq ↦ hne (hs.unique hq hp)
  cases act with
  | acquireLock => exact if_neg fun hguard ↦ by rw [hlock] at hguard; cases hguard.2
  | unlinkStale => exact if_neg fun hguard ↦ hidle (by rw [hguard.1]; rfl)
  | bind => exact if_neg fun hguard ↦ hidle (by rw [hguard.1]; rfl)
  | setPermissions => exact if_neg fun hphase ↦ hidle (by rw [hphase]; rfl)
  | _ => exact absurd hact id

/-- While one process holds the lock, another leaves the path alone, unless it removes what it finds
there at the end of its cleanup. -/
theorem LockHeld.path_of_other {s' : System} (h : step s (q, act) = some s') :
    s'.path = s.path ∨ act = .removeFile ∧ s.phase q = .removing ∧ s'.path = none := by
  have hidle : (s.phase q).holdsLock ≠ true := fun hq ↦ hne (hs.unique hq hp)
  cases effect_of_step h with
  | takes hfree hlock hphase =>
    rw [(hs p).mp hp] at hfree
    cases hfree
  | holds hbefore hafter hlock hbound => exact absurd hbefore hidle
  | releases hafter hlock hpath => exact .inl hpath
  | lockless hbefore hafter hlock hpath =>
    rcases hpath with hpath | ⟨rfl, hpath⟩
    · exact .inl hpath
    · refine .inr ⟨rfl, ?_, hpath⟩
      by_contra hphase
      have hnone : step s (q, .removeFile) = none := if_neg fun hguard ↦ hphase hguard.1
      cases hnone.symm.trans h

end Exclusion

/-- In every state of a run, at most one process holds the lock, and a process that serves does.
While it does, no other gets through a step of `bind_listener`, so none takes the lock, unlinks what
the path names or binds the path; and whatever another does, the path names what it named before,
unless that other one is at the end of its cleanup and removes it. Assumes: the run starts before
any of the processes has, and every step of it is one a process can take. -/
theorem one_daemon_at_a_time (s : System) (hs : Initial s) (labels : List (Pid × Act))
    (transitions : List (Transition System (Pid × Act)))
    (hrun : run step s labels = some transitions) (state : System)
    (hstate : state ∈ visited s transitions) :
    (∀ p q, (state.phase p).holdsLock = true → (state.phase q).holdsLock = true → p = q) ∧
      ∀ p, state.phase p = .serving → state.lock = some p ∧
        ∀ q ≠ p, ∀ act : Act, (act.Binds → step state (q, act) = none) ∧
          ∀ state', step state (q, act) = some state' → state'.path = state.path ∨
            act = .removeFile ∧ state.phase q = .removing ∧ state'.path = none := by
  have hlock := lockHeld_of_run hs hrun state hstate
  refine ⟨fun p q ↦ hlock.unique, fun p hserving ↦ ?_⟩
  have hholds : (state.phase p).holdsLock = true := by rw [hserving]; rfl
  refine ⟨(hlock p).mp hholds, fun q hne act ↦ ⟨fun hact ↦ ?_, fun state' hstep ↦ ?_⟩⟩
  · exact hlock.excludes hholds hne hact
  · exact hlock.path_of_other hholds hne hstep

/-- One daemon has started, and a second has not. -/
theorem exists_started :
    ∃ transitions, run step beforeStart (startUp 0) = some transitions ∧
      ∃ state ∈ visited beforeStart transitions, state.phase 0 = .serving ∧
        state.phase 1 = .starting ∧ state.path ≠ some .directory := by
  have hany : ((run step beforeStart (startUp 0)).any fun transitions ↦
      (visited beforeStart transitions).any fun state ↦
        decide (state.phase 0 = .serving ∧ state.phase 1 = .starting ∧
          state.path ≠ some .directory)) = true := by decide
  obtain ⟨transitions, hrun, hsome⟩ := (Option.any_eq_true _ _).mp hany
  obtain ⟨state, hstate, hcheck⟩ := List.any_eq_true.mp hsome
  exact ⟨transitions, hrun, state, hstate, of_decide_eq_true hcheck⟩

/-- While the first of two daemons serves, the second cannot take the lock. -/
theorem one_daemon_at_a_time_second :
    ∃ state : System, state.phase 0 = .serving ∧ step state (1, .acquireLock) = none := by
  obtain ⟨transitions, hrun, state, hstate, hserving, -⟩ := exists_started
  have hboth := one_daemon_at_a_time beforeStart initial_beforeStart _ transitions hrun state hstate
  exact ⟨state, hserving, ((hboth.2 0 hserving).2 1 (by decide) .acquireLock).1 True.intro⟩

/-! ### The next one -/

/-- A run ends in a state. -/
def EndsIn (s : System) (labels : List (Pid × Act)) (last : System) : Prop :=
  ∃ transitions, run step s labels = some transitions ∧ (visited s transitions).getLast? = some last

theorem EndsIn.nil (s : System) : EndsIn s [] s := ⟨[], rfl, rfl⟩

/-- A step in front of a run. -/
theorem EndsIn.cons {s s' last : System} {label : Pid × Act} {labels : List (Pid × Act)}
    (hstep : step s label = some s') (h : EndsIn s' labels last) :
    EndsIn s (label :: labels) last := by
  obtain ⟨transitions, hrun, hlast⟩ := h
  refine ⟨⟨s, label, s'⟩ :: transitions, ?_, ?_⟩
  · rw [run, hstep]
    dsimp only
    rw [hrun]
    rfl
  · rw [visited, List.map_cons, List.getLast?_cons_cons]
    exact hlast

/-- A process serves: it holds the lock, and the path names its socket. -/
def Serves (s : System) (p : Pid) : Prop :=
  s.phase p = .serving ∧ s.lock = some p ∧ s.path = some (.socket p)

/-- A daemon that starts while the lock is free serves when the path names no directory. -/
theorem startUp_of_free {s : System} {p : Pid} (hphase : s.phase p = .starting)
    (hfree : s.lock = none) (hpath : s.path ≠ some .directory) :
    ∃ last, EndsIn s (startUp p) last ∧ Serves last p := by
  let locked : System := { s.goto p .locked with lock := some p }
  let unlinked : System := { locked.goto p .unlinked with path := none }
  let bound : System := { unlinked.goto p .bound with path := some (.socket p) }
  have hlocked : step s (p, .acquireLock) = some locked := if_pos ⟨hphase, hfree⟩
  have hunlinked : step locked (p, .unlinkStale) = some unlinked :=
    if_pos ⟨s.goto_phase_self p .locked, hpath⟩
  have hbound : step unlinked (p, .bind) = some bound :=
    if_pos ⟨locked.goto_phase_self p .unlinked, rfl⟩
  have hserving : step bound (p, .setPermissions) = some (bound.goto p .serving) :=
    if_pos (unlinked.goto_phase_self p .bound)
  refine ⟨bound.goto p .serving, ?_, bound.goto_phase_self p .serving, rfl, rfl⟩
  exact .cons hlocked (.cons hunlinked (.cons hbound (.cons hserving (.nil _))))

/-- The first step of a run that ends somewhere can be taken. -/
theorem EndsIn.of_cons {s last : System} {label : Pid × Act} {labels : List (Pid × Act)}
    (h : EndsIn s (label :: labels) last) :
    ∃ s', step s label = some s' ∧ ∃ last', EndsIn s' labels last' := by
  obtain ⟨transitions, hrun, -⟩ := h
  cases hstep : step s label with
  | none =>
    rw [run, hstep] at hrun
    cases hrun
  | some s' =>
    rw [run, hstep] at hrun
    obtain ⟨later, hlater, -⟩ := Option.map_eq_some_iff.mp hrun
    have hlast := List.getLast?_eq_getLast_of_ne_nil
      (show visited s' later ≠ [] from List.cons_ne_nil s' _)
    exact ⟨s', rfl, _, later, hlater, hlast⟩

/-- No daemon gets through its start-up where the path names a directory. -/
theorem path_of_startUp {s last : System} {p : Pid} (h : EndsIn s (startUp p) last) :
    s.path ≠ some .directory := by
  obtain ⟨locked, hlocked, last, hrest⟩ := h.of_cons
  obtain ⟨unlinked, hunlinked, -⟩ := hrest.of_cons
  have hpath : locked.path = s.path := by
    simp only [step] at hlocked
    split at hlocked
    · cases hlocked
      rfl
    · cases hlocked
  simp only [step] at hunlinked
  split at hunlinked
  · rename_i hguard
    exact hpath ▸ hguard.2
  · cases hunlinked

/-- The deaths that free the lock for a process. -/
def deaths (s : System) : List (Pid × Act) := s.lock.toList.map (·, .die)

/-- From every state of a run, a daemon that has yet to start serves from its own socket once the
holder of the lock has died, if there is one, exactly when the path names no directory: no socket or
file that is left, no dangling link and no lock file stands in its way. Assumes: the run starts
before any of the processes has, and every step of it is one a process can take. -/
theorem restart_after_crash (s : System) (hs : Initial s) (labels : List (Pid × Act))
    (transitions : List (Transition System (Pid × Act)))
    (hrun : run step s labels = some transitions) (state : System)
    (hstate : state ∈ visited s transitions) (p : Pid) (hphase : state.phase p = .starting) :
    (∃ last, EndsIn state (deaths state ++ startUp p) last ∧ Serves last p) ↔
      state.path ≠ some .directory := by
  have hlock := lockHeld_of_run hs hrun state hstate
  unfold deaths
  cases hholder : state.lock with
  | none => exact ⟨fun ⟨_, hends, _⟩ ↦ path_of_startUp hends, startUp_of_free hphase hholder⟩
  | some q =>
    have hne : p ≠ q := by
      rintro rfl
      have hholds := (hlock p).mpr hholder
      rw [hphase] at hholds
      cases hholds
    have hdies : step state (q, .die) = some ((state.goto q .exited).unlock q) := rfl
    constructor
    · rintro ⟨last, hends, -⟩
      obtain ⟨dead, hdead, last', hrest⟩ := hends.of_cons
      obtain rfl := Option.some.inj (hdies.symm.trans hdead)
      exact path_of_startUp (s := (state.goto q .exited).unlock q) (p := p) hrest
    · intro hpath
      have hfree : ((state.goto q .exited).unlock q).lock = none := if_pos hholder
      obtain ⟨last, hends, hserves⟩ := startUp_of_free (s := (state.goto q .exited).unlock q)
        ((state.goto_phase_of_ne .exited hne).trans hphase) hfree hpath
      exact ⟨last, .cons hdies hends, hserves⟩

/-- The second daemon serves once the first has died. -/
theorem restart_after_crash_second :
    ∃ state last : System, state.phase 0 = .serving ∧
      EndsIn state (deaths state ++ startUp 1) last ∧ Serves last 1 := by
  obtain ⟨transitions, hrun, state, hstate, hserving, hphase, hpath⟩ := exists_started
  obtain ⟨last, hends, hserves⟩ := (restart_after_crash beforeStart initial_beforeStart _
    transitions hrun state hstate 1 hphase).mpr hpath
  exact ⟨state, last, hserving, hends, hserves⟩

end Hire.Hired
