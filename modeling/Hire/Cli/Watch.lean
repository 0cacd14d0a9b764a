import Hire.Cli.Orderly
import Hire.Hired.Wiring

/-!
# The watch

`hire watch` of `hire/src/main.rs` over whole runs. A tick prints what it learns (`tick_eq`), and a
run of ticks what they learn in order (`watch_append`).

What wakes a watch ends in one of three ways (`wakes_cases`): with a Ctrl-C that is listened for,
with one that comes in a tick before there was any listening, or not at all. `watch_ends_with_ctrlC`
says what the shell sees in each: exit code zero in the first way only, behind the ticks that were
outlived, whatever the daemon and the machine answered. A Ctrl-C while a later tick is served is
lost.
-/

set_option autoImplicit false
set_option relaxedAutoImplicit false

namespace Hire.Cli

open Hire.Library Hire.Core Hire.Attestors Hire.Grpc
open Hire.Nmh (Svid)

variable {W : Type}

namespace Command

/-! ### One tick -/

/-- The console behind a tick that printed what it learnt. -/
def afterTick (T : Tool W) (c : Console W) : Console W :=
  .printed (look T c.world).2 c.stdout.taken c.stderr.taken (identityLines (look T c.world).1)
    (errorLines (look T c.world).1)

/-- The console behind a tick that was killed when some bytes of what it prints were out. -/
def afterKilledTick (T : Tool W) (printed : ℕ) (c : Console W) : Console W :=
  .endless (look T c.world).2
    (c.stdout.taken ++ (utf8 (Console.lines (identityLines (look T c.world).1))).take printed)
    (c.stderr.taken ++ (utf8 (Console.lines (errorLines (look T c.world).1))).take printed)

/-- A tick prints what it learns. -/
theorem tick_eq (T : Tool W) (c : Console W) : tick T c.opened = (.ok (), afterTick T c) := by
  obtain ⟨w, ⟨out, -⟩, err, -⟩ := c
  change tick T (.endless w out err) = (.ok (), .printed (look T w).2 out err
    (identityLines (look T w).1) (errorLines (look T w).1))
  have hclock : Console.onWorld (unixTimestamp T) (.endless w out err) =
      (.ok ((durationSince (T.clock w).1 unixEpoch).getD 0).asSecs,
        .endless (T.clock w).2 out err) := rfl
  rcases hfetch : fetchSvids T ⟨[str "hire:watch"], []⟩ (T.clock w).2 with ⟨answer, w'⟩
  have hasked : (Action.attempt (Console.onWorld (fetchSvids T ⟨[str "hire:watch"], []⟩)) :
      Command W _) (.endless (T.clock w).2 out err) = (.ok answer, .endless w' out err) :=
    Action.attempt_eq (Console.onWorld_endless hfetch out err)
  unfold tick look
  rw [Action.bind_of_ok hclock, Action.bind_of_ok hasked]
  simp only [hfetch]
  rcases answer with stop | status | svids
  · exact Console.warn_endless _ w' out err
  · exact Console.warn_endless _ w' out err
  · dsimp only
    rw [printlns, Action.bind_of_ok (Console.sayAll_endless _ w' out err), errorLines]
    cases svids with
    | nil =>
      rw [if_pos rfl, identityLines, List.map_nil, Console.printed_nil]
      exact Console.say_endless _ w' out err
    | cons svid rest =>
      rw [if_neg (List.cons_ne_nil svid rest)]
      rfl

/-- A tick that is killed has printed a part of what it learnt. -/
theorem killedTick_eq (T : Tool W) (printed : ℕ) (c : Console W) :
    killedTick T printed c.opened = (.error .killed, afterKilledTick T printed c) := rfl

/-! ### Runs of ticks -/

/-- What the ticks before the first Ctrl-C learn. -/
def looks (T : Tool W) : List Wake → W → List (ℕ × Except Str (List Svid)) × W
  | [], w => ([], w)
  | .ctrlC :: _, w => ([], w)
  | .tick _ _ :: rest, w =>
    let first := look T w
    let later := looks T rest first.2
    (first.1 :: later.1, later.2)

/-- The console behind ticks that printed what they learnt. -/
def afterTicks (T : Tool W) (ticks : List Wake) (c : Console W) : Console W :=
  .printed (looks T ticks c.world).2 c.stdout.taken c.stderr.taken
    ((looks T ticks c.world).1.flatMap identityLines) ((looks T ticks c.world).1.flatMap errorLines)

/-- Ticks that nothing disturbed, before there was any listening. -/
def Quiet (wakes : List Wake) : Prop := ∀ wake ∈ wakes, wake = .tick false none

/-- Wakes that a watch outlives: ticks only, and no Ctrl-C in one of them before there was any
listening. -/
structure Outlived (wakes : List Wake) : Prop where
  ticks : .ctrlC ∉ wakes
  unkilled : ∀ quiet printed rest, Quiet quiet →
    wakes ≠ quiet ++ .tick false (some printed) :: rest

/-- After a tick that did not listen, the others are outlived as before. -/
theorem Outlived.of_quiet {wakes : List Wake} (h : Outlived (.tick false none :: wakes)) :
    Outlived wakes where
  ticks hmem := h.ticks (List.mem_cons_of_mem _ hmem)
  unkilled quiet printed rest hquiet heq := by
    refine h.unkilled (.tick false none :: quiet) printed rest
      (List.forall_mem_cons.mpr ⟨rfl, hquiet⟩) ?_
    rw [heq, List.cons_append]

/-- A tick in which no Ctrl-C comes, or one that is lost, is served. -/
theorem watch_tick (T : Tool W) {listened listening : Bool} {interrupt : Option ℕ}
    (h : interrupt = none ∨ (listened || listening) = true) (rest : List Wake) (c : Console W) :
    watch T listened (.tick listening interrupt :: rest) c.opened =
      watch T (listened || listening) rest (afterTick T c).opened := by
  cases interrupt with
  | none => exact Action.bind_of_ok (tick_eq T c)
  | some printed =>
    have hheard : (listened || listening) = true := h.resolve_left (Option.some_ne_none printed)
    rw [watch, if_pos hheard, hheard]
    exact Action.bind_of_ok (tick_eq T c)

/-- The console behind a tick and others. -/
theorem afterTicks_cons (T : Tool W) (listening : Bool) (interrupt : Option ℕ) (ticks : List Wake)
    (c : Console W) : afterTicks T (.tick listening interrupt :: ticks) c =
      afterTicks T ticks (afterTick T c) :=
  (Console.printed_append ..).symm

/-- Ticks that are outlived are served in order, and the watch goes on behind them. -/
theorem watch_append (T : Tool W) {listened : Bool} {ticks : List Wake} (hticks : .ctrlC ∉ ticks)
    (hlistened : listened = true ∨ Outlived ticks) (rest : List Wake) (c : Console W) :
    ∃ listened', watch T listened (ticks ++ rest) c.opened =
      watch T listened' rest (afterTicks T ticks c) := by
  induction ticks generalizing listened c with
  | nil =>
    have hnothing : afterTicks T [] c = c.opened := Console.printed_nil ..
    exact ⟨listened, by rw [hnothing, List.nil_append]⟩
  | cons wake ticks ih =>
    have hlater : .ctrlC ∉ ticks := fun hmem ↦ hticks (List.mem_cons_of_mem _ hmem)
    cases wake with
    | ctrlC => exact absurd List.mem_cons_self hticks
    | tick listening interrupt =>
      rw [List.cons_append, afterTicks_cons]
      -- Once Ctrl-C was listened for, here or before, none that comes in a tick matters.
      by_cases hheard : (listened || listening) = true
      · rw [watch_tick T (.inr hheard)]
        exact ih hlater (.inl hheard) _
      · obtain ⟨rfl, rfl⟩ : listened = false ∧ listening = false := by simpa using hheard
        have houtlived := hlistened.resolve_left Bool.false_ne_true
        cases interrupt with
        | none =>
          rw [watch_tick T (.inl rfl)]
          exact ih hlater (.inr houtlived.of_quiet) _
        | some printed =>
          exact absurd rfl (houtlived.unkilled [] printed ticks fun _ h ↦ absurd h List.not_mem_nil)

/-- What ends a watch: a Ctrl-C that is listened for, or one that comes in a tick before there was
any listening, or nothing. -/
theorem wakes_cases (wakes : List Wake) :
    (∃ ticks later, wakes = ticks ++ .ctrlC :: later ∧ Outlived ticks) ∨
      (∃ quiet printed later, wakes = quiet ++ .tick false (some printed) :: later ∧ Quiet quiet) ∨
        Outlived wakes := by
  by_cases hkilled : ∃ quiet printed later,
      wakes = quiet ++ .tick false (some printed) :: later ∧ Quiet quiet
  · exact .inr (.inl hkilled)
  by_cases hctrlC : .ctrlC ∈ wakes
  · obtain ⟨ticks, later, rfl, hfirst⟩ := List.eq_append_cons_of_mem hctrlC
    refine .inl ⟨ticks, later, rfl, hfirst, fun quiet printed rest hquiet heq ↦ hkilled ?_⟩
    exact ⟨quiet, printed, rest ++ .ctrlC :: later, by rw [heq, List.append_assoc]; rfl, hquiet⟩
  · exact .inr (.inr ⟨hctrlC, fun quiet printed rest hquiet heq ↦
      hkilled ⟨quiet, printed, rest, heq, hquiet⟩⟩)

section Runs

variable (T : Tool W) {ticks : List Wake} (c : Console W)

/-- A Ctrl-C that is listened for ends the watch. -/
theorem watch_of_ctrlC (h : Outlived ticks) (later : List Wake) :
    watch T false (ticks ++ .ctrlC :: later) c.opened = (.ok (), afterTicks T ticks c) := by
  obtain ⟨listened, hrun⟩ := watch_append T h.ticks (.inr h) (.ctrlC :: later) c
  exact hrun

/-- Without one, the watch goes on. -/
theorem watch_of_outlived (h : Outlived ticks) :
    watch T false ticks c.opened = (.error .waiting, afterTicks T ticks c) := by
  obtain ⟨listened, hrun⟩ := watch_append T h.ticks (.inr h) [] c
  rwa [List.append_nil] at hrun

/-- A Ctrl-C in a tick kills the watch as long as there was no listening. -/
theorem watch_of_killed (h : Quiet ticks) (printed : ℕ) (later : List Wake) :
    watch T false (ticks ++ .tick false (some printed) :: later) c.opened =
      (.error .killed, afterKilledTick T printed (afterTicks T ticks c)) := by
  induction ticks generalizing c with
  | nil =>
    have hnothing : afterTicks T [] c = c.opened := Console.printed_nil ..
    rw [hnothing]
    exact killedTick_eq T printed c
  | cons wake ticks ih =>
    obtain ⟨rfl, hlater⟩ := List.forall_mem_cons.mp h
    rw [List.cons_append, afterTicks_cons, watch_tick T (.inl rfl)]
    exact ih _ hlater

end Runs

end Command

/-! ### Whole runs -/

/-- The watch over whole runs. On streams that take everything it ends with exit code zero exactly
with the first Ctrl-C that is listened for, whatever the daemon and the machine answered before; a
Ctrl-C while a tick is served is lost, unless there was no listening yet, and then it kills the
process. On stdout are the identities of the ticks before it, in order, and on stderr what went
wrong in them. On other streams it is the same, up to a print that is refused, where it panics. -/
theorem watch_ends_with_ctrlC (C : Crypto) (M : Machine W) (features : Features) (T : Tool W)
    (rest : List Str) (program : Str) (wakes : List Command.Wake) (c : Console W) :
    let watched := run T (dispatch C M features T (program :: str "watch" :: rest) wakes)
    ((watched c.opened).1 = .code 0 ↔
      ∃ ticks later, wakes = ticks ++ .ctrlC :: later ∧ Command.Outlived ticks) ∧
    (∀ ticks later, wakes = ticks ++ .ctrlC :: later → Command.Outlived ticks →
      watched c.opened = (.code 0, Command.afterTicks T ticks c)) ∧
    (∀ quiet printed later, wakes = quiet ++ .tick false (some printed) :: later →
      Command.Quiet quiet → watched c.opened =
        (.killed, Command.afterKilledTick T printed (Command.afterTicks T quiet c))) ∧
    (Command.Outlived wakes → watched c.opened = (.running, Command.afterTicks T wakes c)) ∧
    (((watched c).1 = (watched c.opened).1 ∧
        (watched c).2.stdout.taken = (watched c.opened).2.stdout.taken) ∨
      ((watched c).1 = .code 101 ∧ (watched c).2.Full ∧
        (watched c).2.stdout.taken <+: (watched c.opened).2.stdout.taken)) := by
  intro watched
  have hdispatch : dispatch C M features T (program :: str "watch" :: rest) wakes =
      Command.watch T false wakes := by
    with_unfolding_all rfl
  have horderly := dispatch_orderly_true C M features T (program :: str "watch" :: rest) wakes
  have hwatched : watched = run T (Command.watch T false wakes) := congrArg (run T) hdispatch
  rw [hdispatch] at horderly
  clear_value watched
  subst hwatched
  have hended : ∀ ticks later, wakes = ticks ++ .ctrlC :: later → Command.Outlived ticks →
      run T (Command.watch T false wakes) c.opened = (.code 0, Command.afterTicks T ticks c) := by
    rintro ticks later rfl h
    exact run_of_ok (Command.watch_of_ctrlC T c h later)
  have hkilled : ∀ quiet printed later, wakes = quiet ++ .tick false (some printed) :: later →
      Command.Quiet quiet → run T (Command.watch T false wakes) c.opened =
        (.killed, Command.afterKilledTick T printed (Command.afterTicks T quiet c)) := by
    rintro quiet printed later rfl h
    exact run_of_unreported (Command.watch_of_killed T c h printed later) rfl
  have hrunning : Command.Outlived wakes →
      run T (Command.watch T false wakes) c.opened = (.running, Command.afterTicks T wakes c) :=
    fun h ↦ run_of_unreported (Command.watch_of_outlived T c h) rfl
  refine ⟨⟨fun hzero ↦ ?_, ?_⟩, hended, hkilled, hrunning, run_opened_or_panics horderly T c⟩
  · rcases Command.wakes_cases wakes with h | ⟨quiet, printed, later, hwakes, h⟩ | h
    · exact h
    · rw [hkilled quiet printed later hwakes h] at hzero
      cases hzero
    · rw [hrunning h] at hzero
      cases hzero
  · rintro ⟨ticks, later, hwakes, h⟩
    rw [hended ticks later hwakes h]

/-- A tool on a Linux machine whose daemon is running and whose stream of bundles breaks. -/
def breakingTool : Tool Unit where
  socketPath := str "/run/user/1000/hire/workload.sock"
  socketExists w := (true, w)
  connect := pure ()
  fetchJwtsvid _ := pure []
  fetchJwtBundles := pure [.ok [(str "ssh.local", [123, 125])], .error (str "broken pipe")]
  parseJson _ := .error (str "expected value")
  prettyJson _ := []
  clock w := (0, w)
  env _ := pure (str "/home/alice")
  isDir _ w := (true, w)
  createDirAll _ := pure ()
  write _ _ := pure ()
  reportError chain := str "Error: " ++ chain.flatten
  reportPanic := str "panicked"
  macos := false
  launchdPlist := []
  systemdUnit := []

/-- A watch that is woken in some ways, by a tool whose daemon has no identity. -/
def watchedBy (wakes : List Command.Wake) : Exit × Console Unit :=
  run breakingTool (dispatch .transparent (Hired.aliceMachine false) ⟨false, false⟩ breakingTool
    [str "hire", str "watch"] wakes) (.endless () [] [])

/-- A Ctrl-C in the first tick is lost if there was listening before it, and the next one ends the
watch; without any listening it kills the process. -/
theorem watch_ends_with_ctrlC_first_tick :
    (watchedBy [.tick true (some 0), .ctrlC]).1 = .code 0 ∧
      (watchedBy [.tick false (some 0), .ctrlC]).1 = .killed := by
  have houtlived : Command.Outlived [.tick true (some 0)] := by
    refine ⟨by decide, fun quiet printed rest hquiet heq ↦ ?_⟩
    cases quiet with
    | nil => cases heq
    | cons wake quiet =>
      obtain rfl := hquiet _ List.mem_cons_self
      cases heq
  have hwatch := fun wakes ↦ watch_ends_with_ctrlC .transparent (Hired.aliceMachine false)
    ⟨false, false⟩ breakingTool [] (str "hire") wakes (.endless () [] [])
  obtain ⟨hzero, -⟩ := hwatch [.tick true (some 0), .ctrlC]
  obtain ⟨-, -, hkilled, -⟩ := hwatch [.tick false (some 0), .ctrlC]
  exact ⟨hzero.mpr ⟨_, [], rfl, houtlived⟩,
    congrArg Prod.fst (hkilled [] 0 [.ctrlC] rfl fun _ h ↦ absurd h List.not_mem_nil)⟩

end Hire.Cli
