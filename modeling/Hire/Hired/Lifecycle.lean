import Hire.Library.Transition
import Mathlib.Logic.Function.Basic

/-!
# Daemons that share a socket path

`bind_listener` and `acquire_lock` of `hire-grpc/src/server.rs`, and the shutdown of
`hired/src/main.rs`. Any number of processes share one socket path and the lock file beside it, and
their steps interleave freely. Binding is a sequence of system calls under the lock; a signal is
seen before the server is first polled or while it serves; dropping the server closes the listener
and then the lock; and the cleanup that follows looks at the path and removes what it finds there,
with no lock held.

`LockHeld` is the invariant of the lock, which every step keeps. `Owned` is what the lock is for: a
process that has bound its listener and still holds the lock finds its own socket under the path.
Every step keeps that too, except one: the removal at the end of the cleanup, taken while another
process serves. `socket_kept_iff` states this for whole runs, and `socket_taken` is a restart that
loses its socket to the daemon it replaces.
-/

set_option autoImplicit false
set_option relaxedAutoImplicit false

namespace Hire.Hired

open Hire.Library

/-! ### Processes and the file system -/

/-- A process. -/
abbrev Pid := ℕ

/-- What the socket path names: the socket a process bound, some other file, a directory, which
`remove_file` does not remove, or a symbolic link to nothing. -/
inductive Entry
  | socket (owner : Pid)
  | file
  | directory
  | danglingLink
  deriving DecidableEq, Repr

/-- Where a process is. The flag of `dropping` and `releasing` says whether `main` goes on to the
cleanup afterwards, and the first flag of `releasing` whether the process had bound its listener. -/
inductive Phase
  | starting
  | locked
  | unlinked
  | bound
  | serving
  | dropping (cleanup : Bool)
  | releasing (wasBound cleanup : Bool)
  | cleaning
  | removing
  | exited
  deriving DecidableEq, Repr

/-- Whether a process in a phase has the lock file open and locked. -/
def Phase.holdsLock : Phase → Bool
  | locked | unlinked | bound | serving | dropping _ | releasing _ _ => true
  | _ => false

/-- Whether a process in a phase has bound its listener, and has not let the lock go since. -/
def Phase.hasBound : Phase → Bool
  | bound | serving | dropping _ | releasing true _ => true
  | _ => false

/-- The processes, the holder of the lock, and what the socket path names. -/
structure System where
  phase : Pid → Phase
  lock : Option Pid
  path : Option Entry

/-- Move one process to a phase. -/
def System.goto (s : System) (p : Pid) (phase : Phase) : System :=
  { s with phase := Function.update s.phase p phase }

/-- Close the lock file of one process, which frees the lock if the process held it. -/
def System.unlock (s : System) (p : Pid) : System :=
  { s with lock := if s.lock = some p then none else s.lock }

@[simp] theorem System.goto_phase_self (s : System) (p : Pid) (phase : Phase) :
    (s.goto p phase).phase p = phase := by
  simp [System.goto]

theorem System.goto_phase_of_ne (s : System) {p q : Pid} (phase : Phase) (hne : q ≠ p) :
    (s.goto p phase).phase q = s.phase q := by
  simp [System.goto, hne]

/-! ### The steps of a process -/

/-- A step of a process. `fail` is an error return of `bind_listener` at the call that comes next,
and `die` is the end of a process that runs no more of its own code. -/
inductive Act
  | acquireLock
  | unlinkStale
  | bind
  | setPermissions
  | fail
  | signal
  | serverStops (ok : Bool)
  | dropListener
  | dropLock
  | checkExists
  | removeFile
  | removeFails
  | die
  deriving DecidableEq, Repr

/-- One step of one process. -/
def step (s : System) : Pid × Act → Option System
  | (p, .acquireLock) =>
    if s.phase p = .starting ∧ s.lock = none then some { s.goto p .locked with lock := some p }
    else none
  | (p, .unlinkStale) =>
    if s.phase p = .locked ∧ s.path ≠ some .directory then
      some { s.goto p .unlinked with path := none }
    else none
  | (p, .bind) =>
    if s.phase p = .unlinked ∧ s.path = none then
      some { s.goto p .bound with path := some (.socket p) }
    else none
  | (p, .setPermissions) => if s.phase p = .bound then some (s.goto p .serving) else none
  | (p, .fail) =>
    match s.phase p with
    | .starting => some (s.goto p .exited)
    | .locked | .unlinked => some (s.goto p (.releasing false false))
    | .bound => some (s.goto p (.dropping false))
    | _ => none
  | (p, .signal) =>
    match s.phase p with
    | .starting => some (s.goto p .cleaning)
    | .serving => some (s.goto p (.dropping true))
    | _ => none
  | (p, .serverStops ok) =>
    if s.phase p = .serving then some (s.goto p (.dropping ok)) else none
  | (p, .dropListener) =>
    match s.phase p with
    | .dropping cleanup => some (s.goto p (.releasing true cleanup))
    | _ => none
  | (p, .dropLock) =>
    match s.phase p with
    | .releasing _ cleanup =>
      some ((s.goto p (if cleanup then .cleaning else .exited)).unlock p)
    | _ => none
  | (p, .checkExists) =>
    if s.phase p = .cleaning then
      match s.path with
      | some (.socket _) | some .file | some .directory => some (s.goto p .removing)
      | _ => some (s.goto p .exited)
    else none
  | (p, .removeFile) =>
    if s.phase p = .removing ∧ s.path ≠ some .directory then
      some { s.goto p .exited with path := none }
    else none
  | (p, .removeFails) => if s.phase p = .removing then some (s.goto p .exited) else none
  | (p, .die) => some ((s.goto p .exited).unlock p)

/-- Every process has yet to start, nobody holds the lock, and the path names no socket of
theirs. -/
def Initial (s : System) : Prop :=
  (∀ p, s.phase p = .starting) ∧ s.lock = none ∧ ∀ p, s.path ≠ some (.socket p)

/-! ### What a step can do -/

/-- A step of a process leaves every other process where it is. -/
theorem phase_of_ne {s s' : System} {p q : Pid} {act : Act} (h : step s (p, act) = some s')
    (hne : q ≠ p) : s'.phase q = s.phase q := by
  cases act <;> simp only [step] at h <;> (repeat' split at h) <;> cases h <;>
    exact s.goto_phase_of_ne _ hne

/-- Everything a step can do to the lock and the path. A process takes a free lock; or it goes on
under the lock, and then it has bound its listener only if it just bound the path or had bound it
before and left it alone; or it lets the lock go and leaves the path alone; or it never had the lock
and changes nothing, unless it is the removal at the end of the cleanup. -/
inductive Effect (s : System) (p : Pid) (act : Act) (s' : System) : Prop
  | takes (hfree : s.lock = none) (hlock : s'.lock = some p) (hphase : s'.phase p = .locked)
  | holds (hbefore : (s.phase p).holdsLock = true) (hafter : (s'.phase p).holdsLock = true)
      (hlock : s'.lock = s.lock)
      (hbound : (s'.phase p).hasBound = true → s'.path = some (.socket p) ∨
        (s.phase p).hasBound = true ∧ s'.path = s.path)
  | releases (hafter : (s'.phase p).holdsLock = false)
      (hlock : s'.lock = if s.lock = some p then none else s.lock) (hpath : s'.path = s.path)
  | lockless (hbefore : (s.phase p).holdsLock = false) (hafter : (s'.phase p).holdsLock = false)
      (hlock : s'.lock = s.lock) (hpath : s'.path = s.path ∨ act = .removeFile ∧ s'.path = none)

/-- Moving on under the lock, with nothing newly bound. -/
theorem Effect.of_holding {s : System} {p : Pid} {act : Act} {phase : Phase}
    (hbefore : (s.phase p).holdsLock = true) (hafter : phase.holdsLock = true)
    (hbound : phase.hasBound = true → (s.phase p).hasBound = true) :
    Effect s p act (s.goto p phase) :=
  .holds hbefore (by rwa [System.goto_phase_self]) rfl fun h ↦
    Or.inr ⟨hbound (by rwa [System.goto_phase_self] at h), rfl⟩

/-- Moving on without the lock. -/
theorem Effect.of_lockless {s : System} {p : Pid} {act : Act} {phase : Phase}
    (hbefore : (s.phase p).holdsLock = false) (hafter : phase.holdsLock = false) :
    Effect s p act (s.goto p phase) :=
  .lockless hbefore (by rwa [System.goto_phase_self]) rfl (Or.inl rfl)

/-- Every step has one of these effects. -/
theorem effect_of_step {s s' : System} {p : Pid} {act : Act} (h : step s (p, act) = some s') :
    Effect s p act s' := by
  cases act <;> simp only [step] at h
  case acquireLock =>
    split at h
    · rename_i hguard
      cases h
      exact .takes hguard.2 rfl (s.goto_phase_self p _)
    · cases h
  case unlinkStale =>
    split at h
    · rename_i hguard
      cases h
      exact .holds (by rw [hguard.1]; rfl) (by simp [Phase.holdsLock]) rfl
        (by simp [Phase.hasBound])
    · cases h
  case bind =>
    split at h
    · rename_i hguard
      cases h
      exact .holds (by rw [hguard.1]; rfl) (by simp [Phase.holdsLock]) rfl fun _ ↦ Or.inl rfl
    · cases h
  case setPermissions =>
    split at h
    · rename_i hphase
      cases h
      exact .of_holding (by rw [hphase]; rfl) rfl fun _ ↦ by rw [hphase]; rfl
    · cases h
  case fail =>
    split at h
    · rename_i hphase
      cases h
      exact .of_lockless (by rw [hphase]; rfl) rfl
    · rename_i hphase
      cases h
      exact .of_holding (by rw [hphase]; rfl) rfl fun hbound ↦ by cases hbound
    · rename_i hphase
      cases h
      exact .of_holding (by rw [hphase]; rfl) rfl fun hbound ↦ by cases hbound
    · rename_i hphase
      cases h
      exact .of_holding (by rw [hphase]; rfl) rfl fun _ ↦ by rw [hphase]; rfl
    · cases h
  case signal =>
    split at h
    · rename_i hphase
      cases h
      exact .of_lockless (by rw [hphase]; rfl) rfl
    · rename_i hphase
      cases h
      exact .of_holding (by rw [hphase]; rfl) rfl fun _ ↦ by rw [hphase]; rfl
    · cases h
  case serverStops ok =>
    split at h
    · rename_i hphase
      cases h
      exact .of_holding (by rw [hphase]; rfl) rfl fun _ ↦ by rw [hphase]; rfl
    · cases h
  case dropListener =>
    split at h
    · rename_i cleanup hphase
      cases h
      exact .of_holding (by rw [hphase]; rfl) rfl fun _ ↦ by rw [hphase]; rfl
    · cases h
  case dropLock =>
    split at h
    · rename_i wasBound cleanup hphase
      cases h
      exact .releases (by cases cleanup <;> simp [System.unlock, Phase.holdsLock]) rfl rfl
    · cases h
  case checkExists =>
    split at h
    · rename_i hphase
      split at h <;> cases h <;> exact .of_lockless (by rw [hphase]; rfl) rfl
    · cases h
  case removeFile =>
    split at h
    · rename_i hguard
      cases h
      exact .lockless (by rw [hguard.1]; rfl) (by simp [Phase.holdsLock]) rfl (Or.inr ⟨rfl, rfl⟩)
    · cases h
  case removeFails =>
    split at h
    · rename_i hphase
      cases h
      exact .of_lockless (by rw [hphase]; rfl) rfl
    · cases h
  case die =>
    cases h
    exact .releases (by simp [System.unlock, Phase.holdsLock]) rfl rfl

/-! ### The lock -/

/-- The holder of the lock is the process that is in a phase of holding it. -/
def LockHeld (s : System) : Prop := ∀ p, (s.phase p).holdsLock = true ↔ s.lock = some p

/-- A process that has bound its listener holds the lock. -/
theorem Phase.holdsLock_of_hasBound {phase : Phase} (h : phase.hasBound = true) :
    phase.holdsLock = true := by
  cases phase <;> simp_all [Phase.hasBound, Phase.holdsLock]

/-- Every step keeps the lock in order. -/
theorem lockHeld_step {s s' : System} {p : Pid} {act : Act} (hs : LockHeld s)
    (h : step s (p, act) = some s') : LockHeld s' := by
  intro q
  have hother : q ≠ p → ((s'.phase q).holdsLock = true ↔ s.lock = some q) := by
    intro hne
    rw [phase_of_ne h hne]
    exact hs q
  cases effect_of_step h with
  | takes hfree hlock hphase =>
    by_cases hq : q = p
    · subst hq
      simp [hphase, hlock, Phase.holdsLock]
    · rw [hother hq, hfree, hlock]
      simp [Ne.symm hq]
  | holds hbefore hafter hlock hbound =>
    rw [hlock]
    by_cases hq : q = p
    · subst hq
      exact iff_of_true hafter ((hs q).mp hbefore)
    · exact hother hq
  | releases hafter hlock hpath =>
    rw [hlock]
    by_cases hq : q = p
    · subst hq
      rw [hafter]
      split_ifs with hheld
      · simp
      · simp [hheld]
    · rw [hother hq]
      split_ifs with hheld
      · rw [hheld]
        simp [Ne.symm hq]
      · rfl
  | lockless hbefore hafter hlock hpath =>
    rw [hlock]
    by_cases hq : q = p
    · subst hq
      rw [← hs q, hbefore, hafter]
    · exact hother hq

/-! ### The socket -/

/-- A process that has bound its listener and still holds the lock finds its own socket under the
path. -/
def Owned (s : System) : Prop :=
  ∀ p, (s.phase p).hasBound = true → s.lock = some p → s.path = some (.socket p)

/-- A step of a process does not remove the path from under another: if it is the removal at the
end of the cleanup, no other process has bound its listener and still holds the lock. -/
def Spares (s : System) (label : Pid × Act) : Prop :=
  label.2 = .removeFile → ∀ q ≠ label.1, ¬ ((s.phase q).hasBound = true ∧ s.lock = some q)

/-- A process without the lock is none of those that have bound their listener. -/
theorem ne_of_hasBound {s : System} {p q : Pid} (hbound : (s.phase q).hasBound = true)
    (hlockless : (s.phase p).holdsLock = false) : q ≠ p := by
  rintro rfl
  rw [Phase.holdsLock_of_hasBound hbound] at hlockless
  cases hlockless

/-- A step that spares the others keeps the socket of a running daemon in place. -/
theorem owned_step {s s' : System} {label : Pid × Act} (hlock : LockHeld s) (hs : Owned s)
    (hspares : Spares s label) (h : step s label = some s') : Owned s' := by
  obtain ⟨p, act⟩ := label
  intro q hbound hholder
  cases effect_of_step h with
  | takes hfree htaken hphase =>
    obtain rfl : p = q := Option.some.inj (htaken.symm.trans hholder)
    rw [hphase] at hbound
    cases hbound
  | holds hbefore hafter hsame hkept =>
    have hpq : p = q := by
      have hp := (hlock p).mp hbefore
      rw [← hsame, hholder] at hp
      exact (Option.some.inj hp).symm
    subst hpq
    rcases hkept hbound with hnew | ⟨hold, hpath⟩
    · exact hnew
    · rw [hpath]
      exact hs p hold (hsame ▸ hholder)
  | releases hafter hfreed hpath =>
    rw [phase_of_ne h (ne_of_hasBound hbound hafter)] at hbound
    rw [hpath]
    exact hs q hbound ((hlock q).mp (Phase.holdsLock_of_hasBound hbound))
  | lockless hbefore hafter hsame hpath =>
    have hne := ne_of_hasBound hbound hafter
    rw [phase_of_ne h hne] at hbound
    rw [hsame] at hholder
    rcases hpath with hpath | ⟨hremove, -⟩
    · rw [hpath]
      exact hs q hbound hholder
    · exact absurd ⟨hbound, hholder⟩ (hspares hremove q hne)

/-- A step that leaves every running daemon its socket spared the others. -/
theorem spares_of_owned {s s' : System} {label : Pid × Act} (h : step s label = some s')
    (hs' : Owned s') : Spares s label := by
  obtain ⟨p, act⟩ := label
  rintro rfl q hne ⟨hbound, hholder⟩
  simp only [step] at h
  split at h
  · cases h
    have hkept := hs' q (by rw [← hbound]; exact congrArg _ (s.goto_phase_of_ne _ hne)) hholder
    cases hkept
  · cases h

/-- Nobody holds the lock at the start. -/
theorem lockHeld_of_initial {s : System} (hs : Initial s) : LockHeld s := by
  intro p
  rw [hs.1 p, hs.2.1]
  simp [Phase.holdsLock]

/-- Nobody has bound a listener at the start. -/
theorem owned_of_initial {s : System} (hs : Initial s) : Owned s := by
  intro p hbound
  rw [hs.1 p] at hbound
  cases hbound

/-- A running daemon keeps its socket, in every state of a run, exactly when no process of the run
takes the removal of its cleanup while another has bound its listener and still holds the lock.
Assumes: the run starts before any of the processes has, and every step of it is one a process can
take. -/
theorem socket_kept_iff (s : System) (hs : Initial s) (labels : List (Pid × Act))
    (transitions : List (Transition System (Pid × Act)))
    (hrun : run step s labels = some transitions) :
    (∀ state ∈ visited s transitions, Owned state) ↔
      ∀ t ∈ transitions, Spares t.source t.label := by
  rw [forall_visited_iff]
  constructor
  · rintro ⟨-, howned⟩ t ht
    exact spares_of_owned (step_of_mem_run hrun t ht) (howned t ht)
  · intro hspares
    have hboth := run_invariant (P := fun state ↦ LockHeld state ∧ Owned state)
      (fun state label state' hstate hlabel hstep ↦
        ⟨lockHeld_step hstate.1 hstep, owned_step hstate.1 hstate.2 hlabel hstep⟩)
      ⟨lockHeld_of_initial hs, owned_of_initial hs⟩ hrun hspares
    exact ⟨owned_of_initial hs, fun t ht ↦ (hboth t ht).2.2⟩

/-! ### A restart that loses its socket -/

/-- No process has started, and the path names nothing. -/
def beforeStart : System := ⟨fun _ ↦ .starting, none, none⟩

theorem initial_beforeStart : Initial beforeStart := ⟨fun _ ↦ rfl, rfl, fun _ h ↦ by cases h⟩

/-- A daemon that starts, serves, is told to stop and cleans up, while the next one takes the lock
in between and binds after the cleanup. -/
def handover : List (Pid × Act) :=
  [.acquireLock, .unlinkStale, .bind, .setPermissions, .signal, .dropListener, .dropLock].map
      (0, ·) ++
    [(1, .acquireLock), (0, .checkExists), (0, .removeFile)] ++
    [.unlinkStale, .bind, .setPermissions].map (1, ·)

/-- The first daemon cleans up before the second has bound its listener, and every state of the run
is in order. -/
theorem socket_kept_iff_handover :
    Initial beforeStart ∧ ∃ transitions, run step beforeStart handover = some transitions ∧
      transitions.length = 13 ∧ ∀ state ∈ visited beforeStart transitions, Owned state := by
  have hany : ((run step beforeStart handover).any fun transitions ↦
      decide (transitions.length = 13 ∧ ∀ t ∈ transitions, t.label.1 < 2 ∧
        (t.label.2 = .removeFile →
          t.label.1 = 0 ∧ (t.source.phase 1).hasBound = false))) = true := by
    decide
  obtain ⟨transitions, hrun, hcheck⟩ := (Option.any_eq_true _ _).mp hany
  obtain ⟨hlength, htwo⟩ := of_decide_eq_true hcheck
  have hothers := run_invariant (P := fun state ↦ ∀ q ≥ 2, state.phase q = .starting)
    (G := fun _ label ↦ label.1 < 2)
    (fun state label state' hstate hlabel hstep q hq ↦ by
      obtain ⟨p, act⟩ := label
      rw [phase_of_ne hstep (Nat.ne_of_gt (Nat.lt_of_lt_of_le hlabel hq))]
      exact hstate q hq)
    (fun q _ ↦ rfl) hrun fun t ht ↦ (htwo t ht).1
  refine ⟨initial_beforeStart, transitions, hrun, hlength, ?_⟩
  refine (socket_kept_iff beforeStart initial_beforeStart handover transitions hrun).mpr ?_
  intro t ht hremove q hq hbusy
  obtain ⟨hzero, hidle⟩ := (htwo t ht).2 hremove
  rcases Nat.lt_or_ge q 2 with hfew | hmany
  · obtain rfl : q = 1 :=
      Nat.le_antisymm (Nat.le_of_lt_succ hfew) (Nat.one_le_iff_ne_zero.mpr (hzero ▸ hq))
    rw [hidle] at hbusy
    cases hbusy.1
  · rw [(hothers t ht).1 q hmany] at hbusy
    cases hbusy.1

/-- A restart: the first daemon has let the lock go and not yet cleaned up when the second takes the
lock and binds, and then the first removes what it finds. -/
def restart : List (Pid × Act) :=
  [.acquireLock, .unlinkStale, .bind, .setPermissions, .signal, .dropListener, .dropLock].map
      (0, ·) ++
    [.acquireLock, .unlinkStale, .bind, .setPermissions].map (1, ·) ++
    [.checkExists, .removeFile].map (0, ·)

/-- A running daemon can lose its socket: in the last state of the restart the second daemon serves
and holds the lock, and the path names nothing. -/
theorem socket_taken :
    ¬ ∀ (s : System) (labels : List (Pid × Act))
      (transitions : List (Transition System (Pid × Act))), Initial s →
      run step s labels = some transitions → ∀ state ∈ visited s transitions, Owned state := by
  intro h
  have hany : ((run step beforeStart restart).any fun transitions ↦ transitions.any fun t ↦
      decide (t.target.phase 1 = .serving ∧ t.target.lock = some 1 ∧ t.target.path = none)) =
        true := by decide
  obtain ⟨transitions, hrun, hsome⟩ := (Option.any_eq_true _ _).mp hany
  obtain ⟨t, ht, hcheck⟩ := List.any_eq_true.mp hsome
  obtain ⟨hphase, hlock, hpath⟩ := of_decide_eq_true hcheck
  have howned := (forall_visited_iff.mp (h beforeStart restart transitions initial_beforeStart
    hrun)).2 t ht
  have hkept := howned 1 (by rw [hphase]; rfl) hlock
  rw [hpath] at hkept
  cases hkept

end Hire.Hired
