import Hire.Attestors.Registry
import Hire.Library.Growth
import Hire.Library.Recording

/-!
# The name of an account

`username_for` of `hire-attestors/src/unix.rs`. The lookup hands libc a buffer and doubles it as
long as libc asks for more, up to a limit (`lookup`).

Nothing is assumed about the database to say that the lookup comes to an end, and how much room it
takes until then (`lookup_takes_bounded_room`). What it finds is said of a database that asks for
more room as long as an entry does not fit (`Passwd.Holds`). The source names an account by its
entry when the entry fits in the last buffer, and by its number otherwise (`named_iff_fits`); the
last buffer is the limit where the first one is the limit halved some number of times, as the
default is, and otherwise may be hardly more than half of it.
-/

set_option autoImplicit false
set_option relaxedAutoImplicit false

namespace Hire.Attestors

open Hire.Library Hire.Core

variable {W : Type}

/-! ### The lookup -/

/-- What `getpwuid_r` answers: its return value, and the name in the entry, if there is an entry. -/
structure PasswdReply where
  rc : ℤ
  name : Option Bytes
  deriving DecidableEq

/-- The database of accounts as libc shows it: the size it suggests for a buffer, the lookup of an
account with a buffer of a size, and the text of an error number. -/
structure Passwd (W : Type) where
  suggested : W → ℤ × W
  getpwuidR : ℕ → ℕ → W → PasswdReply × W
  osError : ℤ → Str

namespace Passwd

/-- The largest buffer worth trying. -/
def maxPasswdBuf : ℕ := 1048576

/-- The error numbers that the lookup tells apart. -/
def enoent : ℤ := 2

def esrch : ℤ := 3

def erange : ℤ := 34

/-- The product of two sizes, or the largest size. -/
def saturatingMul (a b : ℕ) : ℕ := min (a * b) u64Max

/-- Look an account up with a buffer of a size, and with larger ones while it does not fit. -/
def lookup (P : Passwd W) (uid cap : ℕ) (hcap : 0 < cap) : Action AttestorError W (Option Str) := do
  let reply ← Action.ask (P.getpwuidR uid cap)
  if reply.rc = erange then
    if _h : saturatingMul cap 2 > maxPasswdBuf then
      Action.fail (.unavailable (str "passwd entry larger than 1 MiB"))
    else lookup P uid (saturatingMul cap 2) (by unfold saturatingMul u64Max; omega)
  else if reply.rc = enoent ∨ reply.rc = esrch then pure none
  else if reply.rc ≠ 0 then Action.fail (.io (P.osError reply.rc))
  else pure (reply.name.map fromUtf8Lossy)
termination_by maxPasswdBuf - cap
decreasing_by
  unfold saturatingMul maxPasswdBuf u64Max at *
  omega

/-- The size of the first buffer. -/
def firstCap (suggested : ℤ) : ℕ := if suggested > 0 then suggested.toNat else 1024

theorem firstCap_pos (suggested : ℤ) : 0 < firstCap suggested := by
  unfold firstCap
  split
  · omega
  · omega

/-- The name of an account, if the database has one. -/
def usernameFor (P : Passwd W) (uid : ℕ) : Action AttestorError W (Option Str) := do
  let suggested ← Action.ask P.suggested
  lookup P uid (firstCap suggested) (firstCap_pos suggested)

/-- The same machine, with a database of accounts. -/
def onMachine (P : Passwd W) (M : Machine W) : Machine W := { M with usernameFor := P.usernameFor }

/-! ### How much room a lookup takes -/

theorem saturatingMul_two_pos {cap : ℕ} (hcap : 0 < cap) : 0 < saturatingMul cap 2 := by
  unfold saturatingMul u64Max
  omega

/-- A buffer is doubled where the double is within the limit. -/
theorem saturatingMul_two {cap : ℕ} (h : 2 * cap ≤ maxPasswdBuf) :
    ¬ saturatingMul cap 2 > maxPasswdBuf ∧ saturatingMul cap 2 = 2 * cap := by
  unfold saturatingMul maxPasswdBuf u64Max at *
  omega

theorem saturatingMul_two_gt {cap : ℕ} (h : ¬ 2 * cap ≤ maxPasswdBuf) :
    saturatingMul cap 2 > maxPasswdBuf := by
  unfold saturatingMul maxPasswdBuf u64Max at *
  omega

/-- The sizes of the buffers, as the lookup doubles them. -/
theorem doublings_maxPasswdBuf {cap : ℕ} (hcap : 0 < cap) :
    doublings maxPasswdBuf cap hcap = cap :: if saturatingMul cap 2 > maxPasswdBuf then [] else
      doublings maxPasswdBuf (saturatingMul cap 2) (saturatingMul_two_pos hcap) := by
  rw [doublings]
  by_cases h : 2 * cap ≤ maxPasswdBuf
  · obtain ⟨hsmall, hdouble⟩ := saturatingMul_two h
    rw [dif_pos h, if_neg hsmall]
    simp only [hdouble]
  · rw [dif_neg h, if_pos (saturatingMul_two_gt h)]

/-- The database with a record of the buffers it was handed. -/
def recorded (P : Passwd W) : Passwd (Recorded W ℕ) where
  suggested r := ((P.suggested r.world).1, { r with world := (P.suggested r.world).2 })
  getpwuidR uid cap := Action.recordAsk cap (P.getpwuidR uid cap)
  osError := P.osError

/-- A lookup hands over buffers that double within the limit, as far as it goes. -/
theorem records_lookup (P : Passwd W) (uid cap : ℕ) (hcap : 0 < cap) :
    Action.Records (P.recorded.lookup uid cap hcap) (P.lookup uid cap hcap)
      (prefixes (doublings maxPasswdBuf cap hcap)) := by
  induction cap, hcap using lookup.induct with
  | case1 cap hcap ih =>
    rw [lookup.eq_def P.recorded uid cap hcap, lookup.eq_def P uid cap hcap,
      doublings_maxPasswdBuf, ← mul_one (prefixes _)]
    refine .cons (.ask rfl) (fun reply ↦ ?_) Language.nil_mem_one
    rw [mul_one]
    split
    · split
      · exact .fail (nil_mem_prefixes _)
      next h => exact ih h
    · split
      · exact .pure (nil_mem_prefixes _)
      · split
        · exact .fail (nil_mem_prefixes _)
        · exact .pure (nil_mem_prefixes _)

/-- Whatever the database answers, a lookup comes to an end, and finds out the same with a record as
without: it hands over twenty-one buffers at most, and together they take less than twice the room
of the limit, or of the first one where that is larger. -/
theorem lookup_takes_bounded_room (P : Passwd W) (uid : ℕ) (w : W) :
    let first := firstCap (P.suggested w).1
    let log := (P.recorded.usernameFor uid ⟨w, []⟩).2.log
    (P.recorded.usernameFor uid ⟨w, []⟩).1 = (P.usernameFor uid w).1 ∧ log.length ≤ 21 ∧
      log.sum < 2 * max first maxPasswdBuf := by
  intro first log
  have hfirst : 0 < first := firstCap_pos _
  obtain ⟨word, hword, heq⟩ := records_lookup P uid first hfirst (P.suggested w).2 []
  have hlog : log = word := congrArg (fun run ↦ run.2.log) heq
  obtain ⟨rest, hrest⟩ := hword
  have hlength := @length_doublings_le maxPasswdBuf first hfirst 20 (by decide)
  have hsum := @sum_doublings maxPasswdBuf first hfirst
  have hlast := @lastDoubling_le_max maxPasswdBuf first hfirst
  rw [← hrest, List.length_append] at hlength
  rw [← hrest, List.sum_append] at hsum
  refine ⟨congrArg Prod.fst heq, ?_, ?_⟩
  · rw [hlog]
    omega
  · rw [hlog]
    omega

/-! ### What a lookup finds -/

/-- A database with an entry for an account, which asks for more room as long as a buffer is smaller
than the entry needs. -/
structure Holds (P : Passwd W) (uid : ℕ) (name : Bytes) (need : ℕ) : Prop where
  reply : ∀ cap w, (P.getpwuidR uid cap w).1 = if cap < need then ⟨erange, none⟩ else ⟨0, some name⟩

section Step

variable {P : Passwd W} {uid cap : ℕ} {hcap : 0 < cap} {w w' : W} {reply : PasswdReply}
  (hreply : P.getpwuidR uid cap w = (reply, w'))
include hreply

theorem ask_getpwuidR :
    (Action.ask (P.getpwuidR uid cap) : Action AttestorError W _) w = (.ok reply, w') := by
  rw [Action.ask, hreply]

/-- No more room is tried where the double is beyond the limit. -/
theorem lookup_of_large (hrange : reply.rc = erange) (hlarge : saturatingMul cap 2 > maxPasswdBuf) :
    P.lookup uid cap hcap w =
      (.error (.unavailable (str "passwd entry larger than 1 MiB")), w') := by
  rw [lookup.eq_def, Action.bind_of_ok (ask_getpwuidR hreply), if_pos hrange, dif_pos hlarge]
  rfl

/-- A buffer that is too small is doubled. -/
theorem lookup_of_small (hrange : reply.rc = erange)
    (hsmall : ¬ saturatingMul cap 2 > maxPasswdBuf) :
    P.lookup uid cap hcap w =
      P.lookup uid (saturatingMul cap 2) (saturatingMul_two_pos hcap) w' := by
  rw [lookup.eq_def, Action.bind_of_ok (ask_getpwuidR hreply), if_pos hrange, dif_neg hsmall]

/-- A lookup that succeeds has the name of the entry. -/
theorem lookup_of_zero (hrc : reply.rc = 0) :
    P.lookup uid cap hcap w = (.ok (reply.name.map fromUtf8Lossy), w') := by
  rw [lookup.eq_def, Action.bind_of_ok (ask_getpwuidR hreply), if_neg (by rw [hrc]; decide),
    if_neg (by rw [hrc]; decide), if_neg (not_not.mpr hrc)]
  rfl

end Step

/-- The last buffer, as the lookup doubles them. -/
theorem lastDoubling_maxPasswdBuf {cap : ℕ} (hcap : 0 < cap) :
    lastDoubling maxPasswdBuf cap hcap = if saturatingMul cap 2 > maxPasswdBuf then cap else
      lastDoubling maxPasswdBuf (saturatingMul cap 2) (saturatingMul_two_pos hcap) := by
  rw [lastDoubling]
  by_cases h : 2 * cap ≤ maxPasswdBuf
  · obtain ⟨hsmall, hdouble⟩ := saturatingMul_two h
    rw [dif_pos h, if_neg hsmall]
    simp only [hdouble]
  · rw [dif_neg h, if_pos (saturatingMul_two_gt h)]

/-- An entry is found when it fits in the last buffer. -/
theorem lookup_of_holds {P : Passwd W} {uid need : ℕ} {name : Bytes} (h : P.Holds uid name need)
    (cap : ℕ) (hcap : 0 < cap) (w : W) : (P.lookup uid cap hcap w).1 =
      if need ≤ lastDoubling maxPasswdBuf cap hcap then .ok (some (fromUtf8Lossy name))
      else .error (.unavailable (str "passwd entry larger than 1 MiB")) := by
  induction cap, hcap using lookup.induct generalizing w with
  | case1 cap hcap ih =>
    rcases hreply : P.getpwuidR uid cap w with ⟨reply, w'⟩
    have hanswer := h.reply cap w
    rw [hreply] at hanswer
    dsimp only at hanswer
    by_cases hfits : need ≤ cap
    · rw [if_neg (by omega)] at hanswer
      have hlast : need ≤ lastDoubling maxPasswdBuf cap hcap := hfits.trans (le_lastDoubling hcap)
      rw [lookup_of_zero hreply (by rw [hanswer]), if_pos hlast, hanswer]
      rfl
    · rw [if_pos (by omega)] at hanswer
      have hrange : reply.rc = erange := by rw [hanswer]
      rw [lastDoubling_maxPasswdBuf]
      by_cases hlarge : saturatingMul cap 2 > maxPasswdBuf
      · rw [lookup_of_large hreply hrange hlarge, if_pos hlarge, if_neg hfits]
      · rw [lookup_of_small hreply hrange hlarge, if_neg hlarge]
        exact ih hlarge w'

end Passwd

/-- The source names an account by its entry exactly when the entry fits in the last buffer, and by
its number otherwise. The last buffer is more than half of the limit, and it is the limit where the
first one is the limit halved some number of times. Assumes: a database with an entry for the
account, which asks for more room as long as that does not fit. -/
theorem Unix.named_iff_fits (P : Passwd W) (M : Machine W) (w : W) {name : Bytes} {need : ℕ}
    (h : P.Holds (M.getuid w).1 name need) :
    let first := Passwd.firstCap (P.suggested (M.getuid w).2).1
    ∃ last, (Unix.new (P.onMachine M) w).1 = .ok (Unix.attestor (P.onMachine M) (M.getuid w).1
        (if need ≤ last then fromUtf8Lossy name
          else str "uid " ++ Nat.toDigits 10 (M.getuid w).1)) ∧
      Passwd.maxPasswdBuf < 2 * last ∧ last ≤ max first Passwd.maxPasswdBuf ∧
      ∀ k, Passwd.maxPasswdBuf = first * 2 ^ k → last = Passwd.maxPasswdBuf := by
  intro first
  have hfirst : 0 < first := Passwd.firstCap_pos _
  refine ⟨lastDoubling Passwd.maxPasswdBuf first hfirst, ?_, lt_two_mul_lastDoubling hfirst,
    lastDoubling_le_max hfirst, fun k hk ↦ lastDoubling_of_two_pow hfirst hk⟩
  have hfound := Passwd.lookup_of_holds h first hfirst (P.suggested (M.getuid w).2).2
  generalize hrun : P.lookup (M.getuid w).1 first hfirst (P.suggested (M.getuid w).2).2 = run
    at hfound
  have hname : (P.onMachine M).usernameFor (M.getuid w).1 (M.getuid w).2 = run := hrun
  have huid : (Action.ask (P.onMachine M).getuid : Action AttestorError W ℕ) w =
      (.ok (M.getuid w).1, (M.getuid w).2) := rfl
  have hask : (Action.ask ((P.onMachine M).usernameFor (M.getuid w).1) :
      Action AttestorError W _) (M.getuid w).2 = (.ok run.1, run.2) := by
    rw [Action.ask, hname]
  rw [Unix.new, Action.bind_of_ok huid, Action.bind_of_ok hask, hfound]
  split_ifs
  · rfl
  · rfl

/-- A machine on which nothing is installed. -/
def bareMachine : Machine Unit where
  whichGpg w := (none, w)
  run _ _ _ := Action.fail (.unavailable (str "gpg exec failed"))
  now w := (0, w)
  unicode := ⟨List.map Char.toLower, List.map Char.toUpper, id⟩
  env _ w := (none, w)
  pathExists _ w := (false, w)
  readToString _ w := (none, w)
  parseJson _ := .error (str "expected value at line 1 column 1")
  connect _ := Action.fail (str "No such file or directory")
  writeAll _ _ := pure ()
  readExact _ _ := Action.fail (str "early eof")
  readToEnd _ := pure []
  output _ _ := Action.fail (str "No such file or directory")
  getuid w := (1000, w)
  usernameFor _ w := (.ok none, w)
  fidokeyDevices w := ([], w)
  join := pure ()

/-- A database that suggests no size and has an entry of three thousand bytes. -/
def aliceDatabase : Passwd Unit where
  suggested w := (-1, w)
  getpwuidR _ cap w :=
    (if cap < 3000 then ⟨Passwd.erange, none⟩ else ⟨0, some (utf8 (str "alice"))⟩, w)
  osError _ := []

/-- The account is named by that entry. -/
theorem Unix.named_iff_fits_alice : (Unix.new (aliceDatabase.onMachine bareMachine) ()).1 =
    .ok (Unix.attestor (aliceDatabase.onMachine bareMachine) 1000 (str "alice")) := by
  have hentry : aliceDatabase.Holds 1000 (utf8 (str "alice")) 3000 := ⟨fun _ _ ↦ rfl⟩
  obtain ⟨last, hnew, -, -, hlast⟩ := Unix.named_iff_fits aliceDatabase bareMachine () hentry
  have hname : fromUtf8Lossy (utf8 (str "alice")) = str "alice" := by with_unfolding_all decide
  rw [hlast 10 (by decide), if_pos (by decide), hname] at hnew
  exact hnew

end Hire.Attestors
