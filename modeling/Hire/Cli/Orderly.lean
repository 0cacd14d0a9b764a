import Hire.Cli.Commands

/-!
# Every command is orderly

A command of `hire/src/main.rs` is built from prints and from questions to others, so it is orderly
in the sense of `Action.Orderly` (`dispatch_orderly`). It keeps a property of the world that the
questions of its tool keep, and streams that do not take all that is printed only cut it short.

`run_opened_or_panics` is what the shell sees of the second: the command ends as it does on streams
that take everything and has printed the same, or it panics with the beginning of that on stdout.
-/

set_option autoImplicit false
set_option relaxedAutoImplicit false

namespace Hire.Cli

open Hire.Library Hire.Core Hire.Attestors Hire.Grpc
open Hire.Library.Action (Keeps Orderly)
open Hire.Nmh (Svid)

variable {W : Type}

/-- A property of the world that the questions of a tool keep. Requests for tokens need to keep it
for some of the identities they can name, and for none. -/
structure Tool.KeepsFor (T : Tool W) (I : W → Prop) (names : Str → Prop) : Prop where
  unnamed : names []
  socketExists : ∀ w, I w → I (T.socketExists w).2
  connect : Keeps I T.connect
  fetchJwtsvid : ∀ audience spiffeId, names spiffeId → Keeps I (T.fetchJwtsvid ⟨audience, spiffeId⟩)
  fetchJwtBundles : Keeps I T.fetchJwtBundles
  clock : ∀ w, I w → I (T.clock w).2
  env : ∀ name, Keeps I (T.env name)
  isDir : ∀ path w, I w → I (T.isDir path w).2
  createDirAll : ∀ path, Keeps I (T.createDirAll path)
  write : ∀ path text, Keeps I (T.write path text)

/-- Arguments that name none but some identities: `--spiffe-id` of `fetch-jwt` is one of these. -/
def NamesOnly (names : Str → Prop) (args : List Str) : Prop :=
  args[1]? = some (str "fetch-jwt") → ∀ flags,
    Command.fetchArgs ⟨none, [], false⟩ (args.drop 2) = .ok flags → names flags.spiffeId

section Orderly

variable {T : Tool W} {I : W → Prop} {names : Str → Prop} (hT : T.KeepsFor I names)

theorem bail_orderly {α : Type} (code : ℕ) (lines : List Str) :
    Orderly .panicked I (bail code lines : Command W α) :=
  .seq (.warnAll lines) fun _ ↦ .fail _

include hT

theorem connectToDaemon_keeps : Keeps I (connectToDaemon T) := by
  refine .seq (.ask hT.socketExists) fun running ↦ ?_
  split
  · exact .mapError hT.connect
  · exact .fail _

theorem fetchSvids_keeps (audience : List Str) {spiffeId : Str} (hname : names spiffeId) :
    Keeps I (fetchSvids T ⟨audience, spiffeId⟩) :=
  .seq (connectToDaemon_keeps hT) fun _ ↦ .attempt (hT.fetchJwtsvid audience spiffeId hname)

namespace Command

omit hT in
theorem sayIdentities_orderly (svids : List Svid) :
    Orderly .panicked I (sayIdentities svids : Command W Unit) := by
  induction svids with
  | nil => exact .pure ()
  | cons svid rest ih =>
    refine .seq (.say _) fun _ ↦ ?_
    split
    · exact .fail _
    · exact .seq (.say _) fun _ ↦ ih

theorem whoami_orderly : Orderly .panicked I (whoami T) := by
  refine .seq (.onWorld (fetchSvids_keeps hT _ hT.unnamed)) fun answer ↦ ?_
  split
  · exact bail_orderly 1 _
  · exact bail_orderly 1 _
  · exact sayIdentities_orderly _

omit hT in
theorem listSources_orderly {sources : List (Attestor W)}
    (hsources : ∀ attestor ∈ sources, Keeps I attestor.enumerate) :
    Orderly .panicked I (listSources sources) := by
  induction sources with
  | nil => exact .pure 0
  | cons attestor rest ih =>
    have hrest := ih fun other hother ↦ hsources other (List.mem_cons_of_mem _ hother)
    have hasked : Orderly .panicked I
        (Action.attempt (Console.onWorld attestor.enumerate) : Command W _) :=
      .onWorld (.attempt (hsources attestor List.mem_cons_self))
    refine .seq hasked fun found ↦ ?_
    split
    · exact .seq (.sayAll _) fun _ ↦ .seq hrest fun _ ↦ .pure _
    · exact .seq (.warn _) fun _ ↦ hrest

omit hT in
theorem enumerate_orderly {C : Crypto} {M : Machine W} {features : Features}
    (hprobe : Keeps I (probeSources C M features))
    (hsources : (probeSources C M features).Yields fun sources ↦
      ∀ attestor ∈ sources, Keeps I attestor.enumerate) :
    Orderly .panicked I (enumerate C M features) :=
  .bind (.onWorld (.mapError hprobe)) (.zoom (.mapError hsources)) fun _ hall ↦
    .seq (listSources_orderly hall) fun _ ↦ .warnAll _

theorem withFirst_orderly (audience : List Str) {spiffeId : Str} (hname : names spiffeId)
    {next : Svid → Command W Unit} (hnext : ∀ svid, Orderly .panicked I (next svid)) :
    Orderly .panicked I (withFirst T ⟨audience, spiffeId⟩ next) := by
  refine .seq (.onWorld (fetchSvids_keeps hT _ hname)) fun answer ↦ ?_
  split
  · exact bail_orderly 1 _
  · exact bail_orderly 1 _
  · exact hnext _

omit hT in
theorem sayDecoded_orderly (jwt : Str) : Orderly .panicked I (sayDecoded T jwt) := by
  have hpart : ∀ name part, Orderly .panicked I (jwtPart T name part : Command W Json) := by
    intro name part
    unfold jwtPart
    cases base64Decode base64Url part with
    | none => exact .fail _
    | some decoded =>
      refine .seq (.pure decoded) fun decoded ↦ ?_
      cases (T.parseJson decoded).mapError fun cause ↦
        Stop.failed [str "parse JWT " ++ name, cause] with
      | error e => exact .fail e
      | ok json => exact .pure json
  unfold sayDecoded
  split
  · exact bail_orderly 1 _
  · exact .seq (hpart _ _) fun header ↦ .seq (hpart _ _) fun claims ↦
      .seq (.say _) fun _ ↦ .say _

theorem fetchJwt_orderly {args : List Str}
    (hargs : ∀ flags, fetchArgs ⟨none, [], false⟩ args = .ok flags → names flags.spiffeId) :
    Orderly .panicked I (fetchJwt T args) := by
  unfold fetchJwt
  split
  · exact bail_orderly 1 _
  · exact bail_orderly 1 _
  next audience spiffeId decode hflags =>
    refine withFirst_orderly hT _ (hargs _ hflags) fun svid ↦ ?_
    split
    · exact sayDecoded_orderly _
    · exact .say _

theorem prove_orderly (args : List Str) : Orderly .panicked I (prove T args) := by
  unfold prove
  split
  · exact bail_orderly 1 _
  · exact withFirst_orderly hT _ hT.unnamed fun svid ↦ .say _

omit hT in
theorem fetchX509_orderly : Orderly .panicked I (fetchX509 : Command W Unit) := bail_orderly 1 _

omit hT in
theorem help_orderly : Orderly .panicked I (help : Command W Unit) :=
  .seq (.sayAll usage) fun _ ↦ .fail _

omit hT in
theorem enroll_orderly (args : List Str) : Orderly .panicked I (enroll args : Command W Unit) := by
  unfold enroll
  dsimp only
  split
  · exact bail_orderly 1 _
  · split
    · exact .seq (.say _) fun _ ↦ .fail _
    · exact bail_orderly 1 _

omit hT in
theorem sayBundles_orderly (responses : List (Except Str (List (Str × Bytes)))) :
    Orderly .panicked I (sayBundles responses : Command W Unit) := by
  induction responses with
  | nil => exact .pure ()
  | cons response rest ih =>
    cases response with
    | error cause => exact .fail _
    | ok bundles => exact .seq (.sayAll _) fun _ ↦ ih

theorem trustBundle_orderly (args : List Str) : Orderly .panicked I (trustBundle T args) := by
  unfold trustBundle
  dsimp only
  split
  · exact .seq (.onWorld (connectToDaemon_keeps hT)) fun _ ↦
      .seq (.onWorld (.mapError hT.fetchJwtBundles)) fun responses ↦ sayBundles_orderly responses
  · split
    · exact bail_orderly 1 _
    · split
      · exact bail_orderly 1 _
      · split
        · exact .seq (.say _) fun _ ↦ .fail _
        · exact bail_orderly 1 _

theorem systemdIsRunning_orderly : Orderly .panicked I (systemdIsRunning T) :=
  .onWorld (.ask (hT.isDir _))

theorem installService_orderly : Orderly .panicked I (installService T) := by
  have hfiles : ∀ {α : Type} {context : List Str} {m : Action Str W α}, Keeps I m →
      Orderly .panicked I (onFiles context m) := fun hm ↦ .onWorld (.mapError hm)
  refine .seq (hfiles (hT.env _)) fun home ↦ ?_
  split
  · exact .seq (hfiles (hT.createDirAll _)) fun _ ↦ .seq (hfiles (hT.write _ _)) fun _ ↦
      .seq (.say _) fun _ ↦ .seq (hfiles (hT.createDirAll _)) fun _ ↦ .sayAll _
  · refine .seq (systemdIsRunning_orderly hT) fun systemd ↦ ?_
    split
    · exact .seq (hfiles (hT.createDirAll _)) fun _ ↦ .seq (hfiles (hT.write _ _)) fun _ ↦ .say _
    · exact .seq (.warnAll _) fun _ ↦ .seq (.put _) fun _ ↦ .fail _

theorem showLog_orderly : Orderly .panicked I (showLog T) := by
  refine .seq (.say _) fun _ ↦ ?_
  split
  · exact .sayAll _
  · refine .seq (systemdIsRunning_orderly hT) fun systemd ↦ ?_
    split
    · exact .sayAll _
    · exact .sayAll _

theorem tick_orderly : Orderly .panicked I (tick T) := by
  have hasked : Orderly .panicked I (Action.attempt (Console.onWorld
      (fetchSvids T ⟨[str "hire:watch"], []⟩)) : Command W _) :=
    .onWorld (.attempt (fetchSvids_keeps hT _ hT.unnamed))
  refine .seq (.onWorld (.seq (.ask hT.clock) fun now ↦ .pure _)) fun now ↦
    .seq hasked fun answer ↦ ?_
  split
  · exact .warn _
  · exact .warn _
  · refine .seq (.sayAll _) fun _ ↦ ?_
    split
    · exact .say _
    · exact .pure ()

theorem killedTick_orderly (printed : ℕ) : Orderly .panicked I (killedTick T printed) := by
  have hlook : ∀ w, I w → I (look T w).2 := fun w hw ↦
    fetchSvids_keeps hT [str "hire:watch"] hT.unnamed (T.clock w).2 (hT.clock w hw)
  exact .seq (.onWorld (.ask hlook)) fun learnt ↦ .seq (.put _) fun _ ↦ .seq (.putError _) fun _ ↦
    .fail _

/-- However long a watch goes on. -/
theorem watch_orderly (listened : Bool) (wakes : List Wake) :
    Orderly .panicked I (watch T listened wakes) := by
  induction wakes generalizing listened with
  | nil => exact .fail _
  | cons wake rest ih =>
    cases wake with
    | ctrlC => exact .pure ()
    | tick listening interrupt =>
      cases interrupt with
      | none => exact .seq (tick_orderly hT) fun _ ↦ ih _
      | some printed =>
        rw [watch]
        split
        · exact .seq (tick_orderly hT) fun _ ↦ ih true
        · exact killedTick_orderly hT printed

end Command

/-- Every command is orderly. Assumes: what the questions of a tool keep, the listing of the sources
keeps too, and the arguments name none but the identities for which a request keeps it. -/
theorem dispatch_orderly {C : Crypto} {M : Machine W} {features : Features}
    (hprobe : Keeps I (probeSources C M features))
    (hsources : (probeSources C M features).Yields fun sources ↦
      ∀ attestor ∈ sources, Keeps I attestor.enumerate)
    {args : List Str} (hargs : NamesOnly names args) (wakes : List Command.Wake) :
    Orderly .panicked I (dispatch C M features T args wakes) := by
  have hfetch : args[1]?.getD (str "--help") = str "fetch-jwt" →
      Orderly .panicked I (Command.fetchJwt T (args.drop 2)) := by
    intro hsubcmd
    refine Command.fetchJwt_orderly hT (hargs ?_)
    cases hsecond : args[1]? with
    | none =>
      rw [hsecond] at hsubcmd
      exact absurd hsubcmd (by with_unfolding_all decide)
    | some subcmd =>
      rw [hsecond] at hsubcmd
      exact congrArg some hsubcmd
  exact dispatch_induction (P := Orderly .panicked I) (fun _ ↦ Command.whoami_orderly hT)
    (Command.enumerate_orderly hprobe hsources) hfetch Command.fetchX509_orderly
    (Command.prove_orderly hT _) (Command.enroll_orderly _)
    (fun _ ↦ Command.installService_orderly hT) (fun _ ↦ Command.trustBundle_orderly hT _)
    (Command.watch_orderly hT false wakes) (Command.showLog_orderly hT) Command.help_orderly
    fun lines ↦ bail_orderly 1 lines

end Orderly

/-! ### What the shell sees -/

/-- Nothing is asked of a property that is always true. -/
theorem Tool.keepsFor_true (T : Tool W) : T.KeepsFor (fun _ ↦ True) fun _ ↦ True where
  unnamed := trivial
  socketExists _ _ := trivial
  connect _ _ := trivial
  fetchJwtsvid _ _ _ _ _ := trivial
  fetchJwtBundles _ _ := trivial
  clock _ _ := trivial
  env _ _ _ := trivial
  isDir _ _ _ := trivial
  createDirAll _ _ _ := trivial
  write _ _ _ _ := trivial

/-- Every command is orderly, whatever it asks. -/
theorem dispatch_orderly_true (C : Crypto) (M : Machine W) (features : Features) (T : Tool W)
    (args : List Str) (wakes : List Command.Wake) :
    Orderly .panicked (fun _ ↦ True) (dispatch C M features T args wakes) :=
  dispatch_orderly T.keepsFor_true (fun _ _ ↦ trivial) (fun _ _ _ _ _ _ _ ↦ trivial)
    (fun _ _ _ ↦ trivial) wakes

section Run

variable {T : Tool W} {m : Command W Unit} {c : Console W}

theorem run_of_ok {c' : Console W} (h : m c = (.ok (), c')) : run T m c = (.code 0, c') := by
  rw [run, h]

theorem run_of_error {stop : Stop} {c' : Console W} (h : m c = (.error stop, c')) :
    run T m c = (stop.seen, { c' with stderr := c'.stderr.write (utf8 (T.report stop)) }) := by
  rw [run, h]

/-- A stop that is not reported leaves stderr as it is. -/
theorem run_of_unreported {stop : Stop} {c' : Console W} (h : m c = (.error stop, c'))
    (hreport : T.report stop = []) : run T m c = (stop.seen, c') := by
  rw [run_of_error h, hreport, utf8_nil, Stream.write_nil]

theorem run_of_exit {code : ℕ} {c' : Console W} (h : m c = (.error (.exit code), c')) :
    run T m c = (.code code, c') :=
  run_of_unreported h rfl

/-- A refusal on streams that take everything. -/
theorem bail_endless {α : Type} (code : ℕ) (lines : List Str) (w : W) (out err : Bytes) :
    (bail code lines : Command W α) (.endless w out err) =
      (.error (.exit code), .printed w out err [] lines) :=
  Action.bind_of_ok (Console.warnAll_endless lines w out err)

/-- A command keeps stdout as far as it was printed on. -/
theorem prefix_run {I : W → Prop} (hm : Orderly .panicked I m) (T : Tool W) (c : Console W) :
    c.stdout.taken <+: (run T m c).2.stdout.taken := by
  have hadds := hm.adds c
  rcases hstep : m c with ⟨result, c'⟩
  rw [hstep] at hadds
  cases result with
  | ok _ => rwa [run_of_ok hstep]
  | error stop => rwa [run_of_error hstep]

/-- On any streams, a command ends as on streams that take everything, and has printed the same on
stdout, or it panics with a full stream and the beginning of that. -/
theorem run_opened_or_panics {I : W → Prop} (hm : Orderly .panicked I m) (T : Tool W)
    (c : Console W) :
    ((run T m c).1 = (run T m c.opened).1 ∧
        (run T m c).2.stdout.taken = (run T m c.opened).2.stdout.taken) ∨
      ((run T m c).1 = .code 101 ∧ (run T m c).2.Full ∧
        (run T m c).2.stdout.taken <+: (run T m c.opened).2.stdout.taken) := by
  have hcuts := hm.cuts c
  rcases hstep : m c with ⟨result, c'⟩
  rw [hstep] at hcuts
  rcases hcuts with hsame | ⟨hrefused, hfull, hprefix⟩
  · cases result with
    | ok _ =>
      rw [run_of_ok hstep, run_of_ok hsame]
      exact .inl ⟨rfl, rfl⟩
    | error stop =>
      rw [run_of_error hstep, run_of_error hsame]
      exact .inl ⟨rfl, rfl⟩
  · obtain rfl : result = .error .panicked := hrefused
    rw [run_of_error hstep]
    refine .inr ⟨rfl, hfull.imp_right fun h ↦ h.write _, hprefix.trans ?_⟩
    rcases hopened : m c.opened with ⟨result, c''⟩
    cases result with
    | ok _ => rw [run_of_ok hopened]
    | error stop => rw [run_of_error hopened]

end Run

end Hire.Cli
