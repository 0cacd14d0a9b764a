import Hire.Cli.Watch

/-!
# What the commands print

Identities and tokens go to stdout, and diagnostics to stderr. So the stdout of a command that fails
is as it was, but for the cases of `LeftBehind` (`failed_stdout`): a token that is not ASCII may be
cut inside a character, the stream of bundles may break, the unit is handed over on a machine
without systemd, and the directory of the logs may be refused after the file was written. Each case
says what the daemon or the machine answered, and what is on stdout then.

A stream that does not take what is printed on it is one more way to fail, with a panic, and stdout
is then the beginning of what it would have been.
-/

set_option autoImplicit false
set_option relaxedAutoImplicit false

namespace Hire.Cli

open Hire.Library Hire.Core Hire.Attestors Hire.Grpc
open Hire.Library.Action (Prints)
open Hire.Nmh (Svid)

variable {W : Type}

/-! ### What a failure leaves behind -/

/-- The lines of an identity with the beginning of its token. -/
def Command.identityWith (identity : Svid × Str) : List Str :=
  [str "spiffe_id: " ++ identity.1.spiffeId, str "token:     " ++ identity.2 ++ str " (truncated)"]

/-- Identities up to one whose token would be cut inside a character, with the beginnings of the
tokens before it. -/
structure Command.CutAt (svids : List Svid) (whole : List (Svid × Str)) (svid : Svid) : Prop where
  split : ∃ rest, svids = whole.map Prod.fst ++ svid :: rest
  whole : ∀ identity ∈ whole, sliceTo 40 identity.1.svid = some identity.2
  cut : sliceTo 40 svid.svid = none

/-- What a command that was started in a world may have added to stdout when it fails, by its exit
code. -/
inductive LeftBehind (T : Tool W) (subcmd : Str) (w : W) : ℕ → Bytes → Prop
  | nothing (code : ℕ) : LeftBehind T subcmd w code []
  | cut (svids : List Svid) (whole : List (Svid × Str)) (svid : Svid) (w' : W)
      (hsubcmd : subcmd = str "whoami")
      (hanswer : fetchSvids T ⟨[str "hire:whoami"], []⟩ w = (.ok (.ok svids), w'))
      (hcut : Command.CutAt svids whole svid) :
      LeftBehind T subcmd w 101 (utf8 (Console.lines
        (whole.flatMap Command.identityWith ++ [str "spiffe_id: " ++ svid.spiffeId])))
  | broken (front : List (List (Str × Bytes))) (cause : Str)
      (rest : List (Except Str (List (Str × Bytes)))) (w₁ w₂ : W)
      (hsubcmd : subcmd = str "trust-bundle") (hconnect : connectToDaemon T w = (.ok (), w₁))
      (hstream : T.fetchJwtBundles w₁ = (.ok (front.map .ok ++ .error cause :: rest), w₂)) :
      LeftBehind T subcmd w 1 (utf8 (Console.lines (front.flatten.map Command.bundleLine)))
  | unit (home : Str) (w₁ : W) (hsubcmd : subcmd = str "install-service")
      (hplatform : T.macos = false) (hhome : T.env (str "HOME") w = (.ok home, w₁))
      (hsystemd : (T.isDir (str "/run/systemd/system") w₁).1 = false) :
      LeftBehind T subcmd w 1 (utf8 T.systemdUnit)
  | plist (home cause : Str) (w₁ w₂ w₃ w₄ : W) (hsubcmd : subcmd = str "install-service")
      (hplatform : T.macos = true) (hhome : T.env (str "HOME") w = (.ok home, w₁))
      (hdir : T.createDirAll (Command.joinPath home (str "Library/LaunchAgents")) w₁ = (.ok (), w₂))
      (hplist : T.write
        (Command.joinPath (Command.joinPath home (str "Library/LaunchAgents")) (str "hired.plist"))
        (Command.replaceFrom (str "__HOME__") home 0 T.launchdPlist) w₂ = (.ok (), w₃))
      (hlogs : T.createDirAll (Command.joinPath home (str "Library/Logs")) w₃ =
        (.error cause, w₄)) :
      LeftBehind T subcmd w 1 (utf8 (Console.lines [str "installed hired.plist"]))

/-- A failing answer goes with what may be left behind. -/
def Left {α : Type} (T : Tool W) (subcmd : Str) (w : W) (result : Except Stop α) (_ : W)
    (text : Bytes) : Prop :=
  ∀ stop code, result = .error stop → stop.seen = .code code → code ≠ 0 →
    LeftBehind T subcmd w code text

section Left

variable {α : Type} {T : Tool W} {subcmd : Str} {w w' : W}

theorem left_ok (a : α) (text : Bytes) : Left T subcmd w (.ok a) w' text := by
  intro stop code h
  cases h

/-- Exit code zero is no failure. -/
theorem left_exit_zero (text : Bytes) :
    Left T subcmd w (.error (.exit 0) : Except Stop α) w' text := by
  intro stop code hstop hcode hne
  obtain rfl := Except.error.inj hstop
  exact absurd (Exit.code.inj hcode).symm hne

theorem left_nil (result : Except Stop α) : Left T subcmd w result w' [] :=
  fun _ code _ _ _ ↦ .nothing code

/-- What goes with the exit code of every failure is left behind. -/
theorem left_of_seen {result : Except Stop α} {text : Bytes} (h : ∀ stop, result = .error stop →
    ∃ code, stop.seen = .code code ∧ LeftBehind T subcmd w code text) :
    Left T subcmd w result w' text := by
  intro stop code hstop hcode _
  obtain ⟨code', hcode', hleft⟩ := h stop hstop
  obtain rfl := Exit.code.inj (hcode'.symm.trans hcode)
  exact hleft

end Left

/-- A refusal prints nothing on stdout. -/
theorem bail_prints {α : Type} (code : ℕ) (lines : List Str) {w : W}
    {S : Except Stop α → W → Bytes → Prop} (hS : ∀ r, S r w []) :
    Prints (bail code lines : Command W α) w S :=
  .silent_bind (.warnAll ⟨rfl, rfl⟩) (fun e ↦ hS (.error e)) fun _ ↦ .fail (hS _)

/-! ### One command after the other -/

namespace Command

/-- A slice that is refused cuts a character that is not ASCII. -/
theorem sliceTo_eq_none {n : ℕ} {s : Str} (h : sliceTo n s = none) : ∃ c ∈ s, ¬ IsAscii c := by
  induction s generalizing n with
  | nil => cases n <;> cases h
  | cons c rest ih =>
    cases n with
    | zero => cases h
    | succ n =>
      by_cases hascii : IsAscii c
      · have hsize : c.utf8Size = 1 := Char.utf8Size_eq_one_iff.mpr
          (UInt32.le_iff_toNat_le.mpr (Nat.le_of_lt_succ hascii))
        rw [sliceTo, if_pos (by omega), Option.map_eq_none_iff] at h
        obtain ⟨d, hd, hwide⟩ := ih h
        exact ⟨d, List.mem_cons_of_mem _ hd, hwide⟩
      · exact ⟨c, List.mem_cons_self, hascii⟩

/-- So a token that is ASCII is not cut inside a character. -/
theorem CutAt.not_ascii {svids : List Svid} {whole : List (Svid × Str)} {svid : Svid}
    (h : CutAt svids whole svid) : ∃ c ∈ svid.svid, ¬ IsAscii c :=
  sliceTo_eq_none h.cut

/-- Printing identities stops inside a token that would be cut inside a character, if at all. -/
theorem sayIdentities_prints (svids : List Svid) (w : W) :
    Prints (sayIdentities svids : Command W Unit) w fun result _ text ↦
      ∀ stop, result = .error stop → stop = .panicked ∧ ∃ whole svid, CutAt svids whole svid ∧
        text = utf8 (Console.lines
          (whole.flatMap identityWith ++ [str "spiffe_id: " ++ svid.spiffeId])) := by
  induction svids with
  | nil => exact .pure (by simp)
  | cons svid rest ih =>
    refine .bind (R := fun result w' text ↦ result = .ok () ∧ w' = w ∧
      text = utf8 (Console.lines [str "spiffe_id: " ++ svid.spiffeId]))
      (.say ⟨rfl, rfl, rfl⟩) (by simp) fun _ w' text hfirst ↦ ?_
    obtain ⟨-, rfl, rfl⟩ := hfirst
    split
    next hcut =>
      refine .fail fun stop hstop ↦ ⟨(Except.error.inj hstop).symm, [], svid,
        ⟨⟨rest, rfl⟩, fun _ h ↦ absurd h List.not_mem_nil, hcut⟩, ?_⟩
      rw [List.append_nil]
      rfl
    next front hfront =>
      refine .bind (R := fun result w'' text ↦ result = .ok () ∧ w'' = w' ∧
        text = utf8 (Console.lines [str "token:     " ++ front ++ str " (truncated)"]))
        (.say ⟨rfl, rfl, rfl⟩) (by simp) fun _ w'' text hsecond ↦ ?_
      obtain ⟨-, rfl, rfl⟩ := hsecond
      refine ih.weaken fun result _ text hr stop hstop ↦ ?_
      obtain ⟨hpanicked, whole, last, hcut, rfl⟩ := hr stop hstop
      obtain ⟨later, hsplit⟩ := hcut.split
      refine ⟨hpanicked, (svid, front) :: whole, last, ⟨⟨later, by rw [hsplit]; rfl⟩,
        List.forall_mem_cons.mpr ⟨hfront, hcut.whole⟩, hcut.cut⟩, ?_⟩
      rw [← Console.utf8_lines_append, ← Console.utf8_lines_append]
      rfl

theorem whoami_prints (T : Tool W) (w : W) : Prints (whoami T) w (Left T (str "whoami") w) := by
  refine .onWorld_bind (fun e _ _ ↦ left_nil _) fun answer w' hanswer ↦ ?_
  split
  · exact bail_prints 1 _ left_nil
  · exact bail_prints 1 _ left_nil
  next svids _ =>
    refine (sayIdentities_prints svids w').weaken fun result w'' text hr ↦
      left_of_seen fun stop hstop ↦ ?_
    obtain ⟨rfl, whole, svid, hcut, rfl⟩ := hr stop hstop
    exact ⟨101, rfl, .cut svids whole svid w' rfl hanswer hcut⟩

/-- The listing goes through all sources. -/
theorem listSources_prints (sources : List (Attestor W)) (w : W) :
    Prints (listSources sources) w fun result _ _ ↦ ∃ count, result = .ok count := by
  induction sources generalizing w with
  | nil => exact .pure ⟨0, rfl⟩
  | cons attestor rest ih =>
    refine .bind (R := fun result _ _ ↦ ∃ found, result = .ok found)
      (.attempt (.onWorld ⟨_, rfl⟩)) (by simp) fun found w' _ _ ↦ ?_
    split
    next found =>
      refine .bind (R := fun result _ _ ↦ result = .ok ()) (.sayAll rfl) (by simp)
        fun _ w'' _ _ ↦ ?_
      exact .bind (ih w'') (by simp) fun more _ _ _ ↦ .pure ⟨_, rfl⟩
    next e =>
      exact .bind (R := fun result _ _ ↦ result = .ok ()) (.putError rfl) (by simp)
        fun _ w'' _ _ ↦ ih w''

theorem enumerate_prints (C : Crypto) (M : Machine W) (features : Features) (T : Tool W)
    (subcmd : Str) (w : W) : Prints (enumerate C M features) w (Left T subcmd w) := by
  refine .onWorld_bind (fun e _ _ ↦ left_nil _) fun sources w' _ ↦ ?_
  exact .bind (listSources_prints sources w') (by simp) fun _ _ text _ ↦ .warnAll (left_ok () _)

/-- What is done with the first token decides what is printed. -/
theorem withFirst_prints (T : Tool W) (req : JwtsvidRequest) {next : Svid → Command W Unit} {w : W}
    {S : Except Stop Unit → W → Bytes → Prop} (hS : ∀ result w', S result w' [])
    (hnext : ∀ svid w', Prints (next svid) w' S) : Prints (withFirst T req next) w S := by
  refine .onWorld_bind (fun e w' _ ↦ hS _ w') fun answer w' _ ↦ ?_
  split
  · exact bail_prints 1 _ fun result ↦ hS result w'
  · exact bail_prints 1 _ fun result ↦ hS result w'
  · exact hnext _ w'

theorem jwtPart_prints (T : Tool W) (name part : Str) (w : W) :
    Prints (jwtPart T name part : Command W Json) w fun _ w' text ↦ w' = w ∧ text = [] := by
  unfold jwtPart
  cases base64Decode base64Url part with
  | none => exact .fail ⟨rfl, rfl⟩
  | some decoded =>
    refine .silent_bind (.pure ⟨rfl, rfl⟩) (fun _ ↦ ⟨rfl, rfl⟩) fun decoded ↦ ?_
    cases (T.parseJson decoded).mapError fun cause ↦
      Stop.failed [str "parse JWT " ++ name, cause] with
    | error e => exact .fail ⟨rfl, rfl⟩
    | ok json => exact .pure ⟨rfl, rfl⟩

theorem sayDecoded_prints (T : Tool W) (jwt subcmd : Str) (w w₀ : W) :
    Prints (sayDecoded T jwt) w (Left T subcmd w₀) := by
  unfold sayDecoded
  split
  · exact bail_prints 1 _ left_nil
  · refine .silent_bind (jwtPart_prints T _ _ w) (fun _ ↦ left_nil _) fun header ↦ ?_
    refine .silent_bind (jwtPart_prints T _ _ w) (fun _ ↦ left_nil _) fun claims ↦ ?_
    exact .bind (R := fun result _ _ ↦ result = .ok ()) (.say rfl) (by simp)
      fun _ _ _ _ ↦ .say (left_ok () _)

theorem fetchJwt_prints (T : Tool W) (args : List Str) (subcmd : Str) (w : W) :
    Prints (fetchJwt T args) w (Left T subcmd w) := by
  unfold fetchJwt
  split
  · exact bail_prints 1 _ left_nil
  · exact bail_prints 1 _ left_nil
  · refine withFirst_prints T _ (fun result w' ↦ left_nil result) fun svid w' ↦ ?_
    split
    · exact sayDecoded_prints T _ subcmd w' w
    · exact .say (left_ok () _)

theorem prove_prints (T : Tool W) (args : List Str) (subcmd : Str) (w : W) :
    Prints (prove T args) w (Left T subcmd w) := by
  unfold prove
  split
  · exact bail_prints 1 _ left_nil
  · exact withFirst_prints T _ (fun result w' ↦ left_nil result) fun svid w' ↦ .say (left_ok () _)

theorem fetchX509_prints (T : Tool W) (subcmd : Str) (w : W) :
    Prints (fetchX509 : Command W Unit) w (Left T subcmd w) := bail_prints 1 _ left_nil

/-- A help text goes to stdout, and its exit code is zero. -/
theorem say_exit_prints (T : Tool W) (line subcmd : Str) (w : W) :
    Prints (do
      println line
      Action.fail (.exit 0) : Command W Unit) w (Left T subcmd w) :=
  .bind (R := fun result _ _ ↦ result = .ok ()) (.say rfl) (by simp)
    fun _ _ _ _ ↦ .fail (left_exit_zero _)

theorem enroll_prints (T : Tool W) (args : List Str) (subcmd : Str) (w : W) :
    Prints (enroll args : Command W Unit) w (Left T subcmd w) := by
  unfold enroll
  dsimp only
  split
  · exact bail_prints 1 _ left_nil
  · split
    · exact say_exit_prints T _ subcmd w
    · exact bail_prints 1 _ left_nil

/-- Printing bundles stops where the stream breaks, with the bundles before it printed. -/
theorem sayBundles_prints (responses : List (Except Str (List (Str × Bytes)))) (w : W) :
    Prints (sayBundles responses : Command W Unit) w fun result _ text ↦
      ∀ stop, result = .error stop → stop.seen = .code 1 ∧ ∃ front cause rest,
        responses = List.map .ok front ++ .error cause :: rest ∧
        text = utf8 (Console.lines (front.flatten.map bundleLine)) := by
  induction responses generalizing w with
  | nil => exact .pure (by simp)
  | cons response rest ih =>
    cases response with
    | error cause =>
      refine .fail fun stop hstop ↦ ?_
      obtain rfl := Except.error.inj hstop
      exact ⟨rfl, [], cause, rest, rfl, rfl⟩
    | ok bundles =>
      refine .bind (R := fun result w' text ↦ result = .ok () ∧ w' = w ∧
        text = utf8 (Console.lines (bundles.map bundleLine))) (.sayAll ⟨rfl, rfl, rfl⟩) (by simp)
        fun _ w' text htext ↦ ?_
      obtain ⟨-, rfl, rfl⟩ := htext
      refine (ih w').weaken fun result _ more hmore stop hstop ↦ ?_
      obtain ⟨hcode, front, cause, later, rfl, rfl⟩ := hmore stop hstop
      refine ⟨hcode, bundles :: front, cause, later, rfl, ?_⟩
      rw [← Console.utf8_lines_append, List.flatten_cons, List.map_append]

theorem trustBundle_prints (T : Tool W) (args : List Str) (w : W) :
    Prints (trustBundle T args) w (Left T (str "trust-bundle") w) := by
  unfold trustBundle
  dsimp only
  split
  · refine .onWorld_bind (fun _ _ _ ↦ left_nil _) fun _ w₁ hconnect ↦ ?_
    refine .onWorld_bind (fun _ _ _ ↦ left_nil _) fun responses w₂ hasked ↦ ?_
    refine (sayBundles_prints responses w₂).weaken fun result _ text hr ↦
      left_of_seen fun stop hstop ↦ ?_
    obtain ⟨hcode, front, cause, rest, rfl, rfl⟩ := hr stop hstop
    exact ⟨1, hcode, .broken front cause rest w₁ w₂ rfl hconnect (Action.of_mapError_ok hasked)⟩
  · split
    · exact bail_prints 1 _ left_nil
    · split
      · exact bail_prints 1 _ left_nil
      · split
        · exact say_exit_prints T _ _ w
        · exact bail_prints 1 _ left_nil

theorem installService_prints (T : Tool W) (w : W) :
    Prints (installService T) w (Left T (str "install-service") w) := by
  refine .onWorld_bind (fun _ _ _ ↦ left_nil _) fun home w₁ hhome ↦ ?_
  have hhome := Action.of_mapError_ok hhome
  split
  next hmacos =>
    refine .onWorld_bind (fun _ _ _ ↦ left_nil _) fun _ w₂ hdir ↦ ?_
    refine .onWorld_bind (fun _ _ _ ↦ left_nil _) fun _ w₃ hplist ↦ ?_
    refine .bind (R := fun result w' text ↦ result = .ok () ∧ w' = w₃ ∧
      text = utf8 (Console.lines [str "installed hired.plist"])) (.say ⟨rfl, rfl, rfl⟩) (by simp)
      fun _ w' text htext ↦ ?_
    obtain ⟨-, rfl, rfl⟩ := htext
    refine .onWorld_bind (fun e w₄ hfailed ↦ ?_) fun _ _ _ ↦ .sayAll (left_ok () _)
    obtain ⟨cause, rfl, hlogs⟩ := Action.of_mapError_error hfailed
    refine left_of_seen fun stop hstop ↦ ?_
    obtain rfl := Except.error.inj hstop
    rw [List.append_nil]
    exact ⟨1, rfl, .plist home cause w₁ w₂ w' w₄ rfl hmacos hhome (Action.of_mapError_ok hdir)
      (Action.of_mapError_ok hplist) hlogs⟩
  next hmacos =>
    refine .onWorld_bind (fun _ _ _ ↦ left_nil _) fun systemd w₂ hasked ↦ ?_
    split
    · refine .onWorld_bind (fun _ _ _ ↦ left_nil _) fun _ w₃ _ ↦ ?_
      refine .onWorld_bind (fun _ _ _ ↦ left_nil _) fun _ w₄ _ ↦ ?_
      exact .say (left_ok () _)
    next hnone =>
      refine .silent_bind (.warnAll ⟨rfl, rfl⟩) (fun _ ↦ left_nil _) fun _ ↦ ?_
      refine .bind (R := fun result _ text ↦ result = .ok () ∧ text = utf8 T.systemdUnit)
        (.put ⟨rfl, rfl⟩) (by simp) fun _ w' text htext ↦ .fail ?_
      obtain ⟨-, rfl⟩ := htext
      refine left_of_seen fun stop hstop ↦ ?_
      obtain rfl := Except.error.inj hstop
      have hsystemd : (T.isDir (str "/run/systemd/system") w₁).1 = false := by
        obtain ⟨hanswer, -⟩ := Prod.mk.inj hasked
        rw [Except.ok.inj hanswer]
        exact Bool.eq_false_iff.mpr hnone
      rw [List.append_nil]
      exact ⟨1, rfl, .unit home w₁ rfl (Bool.eq_false_iff.mpr hmacos) hhome hsystemd⟩

theorem showLog_prints (T : Tool W) (subcmd : Str) (w : W) :
    Prints (showLog T) w (Left T subcmd w) := by
  refine .bind (R := fun result _ _ ↦ result = .ok ()) (.say rfl) (by simp) fun _ w' text _ ↦ ?_
  split
  · exact .sayAll (left_ok () _)
  · refine .onWorld_bind (fun e w' hasked ↦ by cases hasked) fun systemd w' _ ↦ ?_
    split
    · exact .sayAll (left_ok () _)
    · exact .sayAll (left_ok () _)

theorem help_prints (T : Tool W) (subcmd : Str) (w : W) :
    Prints (help : Command W Unit) w (Left T subcmd w) :=
  .bind (R := fun result _ _ ↦ result = .ok ()) (.sayAll rfl) (by simp)
    fun _ _ _ _ ↦ .fail (left_exit_zero _)

/-- The watch does not fail with an exit code. -/
theorem watch_prints (T : Tool W) (listened : Bool) (wakes : List Wake) (w : W) :
    Prints (watch T listened wakes) w fun result _ _ ↦
      ∀ stop, result = .error stop → ∀ code, stop.seen ≠ .code code := by
  have htick : ∀ w, Prints (tick T) w fun result _ _ ↦ result = .ok () := fun w out err ↦
    ⟨.ok (), _, _, _, tick_eq T (.endless w out err), rfl⟩
  induction wakes generalizing listened w with
  | nil => exact .fail (by simp [Stop.seen])
  | cons wake rest ih =>
    match wake with
    | .ctrlC => exact .pure (by simp)
    | .tick listening none => exact .bind (htick w) (by simp) fun _ w' _ _ ↦ ih _ w'
    | .tick listening (some printed) =>
      rw [watch]
      split
      · exact .bind (htick w) (by simp) fun _ w' _ _ ↦ ih true w'
      · intro out err
        refine ⟨_, _, _, _, killedTick_eq T printed (.endless w out err), fun stop hstop code ↦ ?_⟩
        obtain rfl := Except.error.inj hstop
        exact Exit.noConfusion

end Command

/-! ### The command line -/

/-- Whatever command the arguments name, what it leaves on stdout when it fails is nothing, or one
of the exceptions. -/
theorem dispatch_prints (C : Crypto) (M : Machine W) (features : Features) (T : Tool W)
    (args : List Str) (wakes : List Command.Wake) (w : W) :
    Prints (dispatch C M features T args wakes) w (Left T (args[1]?.getD (str "--help")) w) := by
  have hwatch : Prints (Command.watch T false wakes) w (Left T (args[1]?.getD (str "--help")) w) :=
    (Command.watch_prints T false wakes w).weaken fun result _ text hr stop code hstop hcode _ ↦
      absurd hcode (hr stop hstop code)
  refine dispatch_induction (P := fun m ↦ Prints m w (Left T (args[1]?.getD (str "--help")) w))
    (fun h ↦ ?_) (Command.enumerate_prints C M features T _ w)
    (fun _ ↦ Command.fetchJwt_prints T _ _ w) (Command.fetchX509_prints T _ w)
    (Command.prove_prints T _ _ w) (Command.enroll_prints T _ _ w) (fun h ↦ ?_) (fun h ↦ ?_) hwatch
    (Command.showLog_prints T _ w) (Command.help_prints T _ w)
    fun lines ↦ bail_prints 1 lines left_nil
  · rw [h]
    exact Command.whoami_prints T w
  · rw [h]
    exact Command.installService_prints T w
  · rw [h]
    exact Command.trustBundle_prints T _ w

/-- A command that fails has added nothing to stdout, but for the cases of `LeftBehind`, each after
what the daemon or the machine answered in it, and but for a stream that does not take what is
printed: then the command panics, with the beginning on stdout of what it would have printed. This
is so whatever the arguments, the daemon and the machine are. Assumes: a command that ended with
another exit code than zero. -/
theorem failed_stdout (C : Crypto) (M : Machine W) (features : Features) (T : Tool W)
    (args : List Str) (wakes : List Command.Wake) (c : Console W) {code : ℕ}
    (hcode : (run T (dispatch C M features T args wakes) c).1 = .code code) (hfailed : code ≠ 0) :
    let run := run T (dispatch C M features T args wakes)
    (∃ text, (run c).2.stdout.taken = c.stdout.taken ++ text ∧
      LeftBehind T (args[1]?.getD (str "--help")) c.world code text) ∨
    code = 101 ∧ (run c).2.Full ∧ c.stdout.taken <+: (run c).2.stdout.taken ∧
      (run c).2.stdout.taken <+: (run c.opened).2.stdout.taken := by
  intro run
  have horderly := dispatch_orderly_true C M features T args wakes
  rcases run_opened_or_panics horderly T c with ⟨hcodes, htaken⟩ | ⟨hpanic, hfull, hprefix⟩
  · left
    obtain ⟨result, w', text, more, hrun, hleft⟩ :=
      dispatch_prints C M features T args wakes c.world c.stdout.taken c.stderr.taken
    have hrun : dispatch C M features T args wakes c.opened = (result, _) := hrun
    cases result with
    | ok _ =>
      rw [hcodes, run_of_ok hrun] at hcode
      exact absurd (Exit.code.inj hcode).symm hfailed
    | error stop =>
      rw [run_of_error hrun] at htaken
      rw [hcodes, run_of_error hrun] at hcode
      exact ⟨text, htaken, hleft stop code rfl hcode hfailed⟩
  · exact .inr ⟨Exit.code.inj (hcode.symm.trans hpanic), hfull, prefix_run horderly T c, hprefix⟩

/-- The arguments of `hire trust-bundle list`. -/
def listBundles : List Str := [str "hire", str "trust-bundle", str "list"]

/-- The bundle before the break is on stdout, and the command fails. -/
theorem failed_stdout_breaking :
    ∃ text ≠ [], (run breakingTool (dispatch .transparent (Hired.aliceMachine false) ⟨false, false⟩
      breakingTool listBundles []) (.endless () [] [])).2.stdout.taken = text ∧
      LeftBehind breakingTool (str "trust-bundle") () 1 text := by
  have hcode : (run breakingTool (dispatch .transparent (Hired.aliceMachine false) ⟨false, false⟩
      breakingTool listBundles []) (.endless () [] [])).1 = .code 1 := by
    with_unfolding_all rfl
  have hprinted : (run breakingTool (dispatch .transparent (Hired.aliceMachine false)
      ⟨false, false⟩ breakingTool listBundles []) (.endless () [] [])).2.stdout.taken ≠ [] := by
    with_unfolding_all decide
  rcases failed_stdout .transparent (Hired.aliceMachine false) ⟨false, false⟩ breakingTool
    listBundles [] (.endless () [] []) hcode (by decide) with ⟨text, htaken, hleft⟩ | ⟨hpanic, -⟩
  · exact ⟨text, fun hnone ↦ hprinted (htaken.trans hnone), htaken, hleft⟩
  · cases hpanic

end Hire.Cli
