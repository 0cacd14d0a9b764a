import Hire.Library.Interference
import Hire.Library.Tampering

/-!
# The socket

`prepare_socket_dir`, `acquire_lock` and `bind_listener` of `hire-grpc/src/server.rs`, and the path
of `hire-grpc/src/socket.rs`. The functions are programs over system calls, and `posix` says what
the calls do to a file system with which another user tampers between any two of them.
-/

set_option autoImplicit false
set_option relaxedAutoImplicit false

namespace Hire.Grpc

open Hire.Library

/-! ### System calls -/

/-- A system call of the daemon. -/
inductive Syscall
  | metadata (path : List Str)
  | setPermissions (path : List Str) (mode : ℕ)
  | mkdir (path : List Str) (mode : ℕ)
  | isDir (path : List Str)
  | openCreate (path : List Str) (mode : ℕ)
  | flock
  | removeFile (path : List Str)
  | bind (path : List Str)

/-- What a system call answers. -/
abbrev Syscall.Answer : Syscall → Type
  | .metadata _ => Except Errno Attrs
  | .isDir _ => Bool
  | _ => Except Errno Unit

/-- A mode under the file mode creation mask. -/
def masked (umask mode : ℕ) : ℕ := mode &&& (0o7777 ^^^ umask)

/-- What the system calls of a user do, while another user tampers. Whether the lock is free is not
up to the file system, and an oracle answers it. -/
def posix (us them : Cred) (umask : ℕ) : Kernel Syscall.Answer Fs (Except Errno Unit) Tamper where
  serve
    | .metadata path, _, fs => (fs.stat us path, fs)
    | .setPermissions path mode, _, fs => fs.chmod us path mode
    | .mkdir path mode, _, fs => fs.create us path (masked umask mode) .dir .exist
    | .isDir path, _, fs =>
      ((fs.stat us path).toOption.any fun a ↦ decide (a.kind = .dir), fs)
    | .openCreate path mode, _, fs => fs.openCreate us path (masked umask mode)
    | .flock, oracle, fs => (oracle, fs)
    | .removeFile path, _, fs => fs.unlink us path
    | .bind path, _, fs => fs.create us path (masked umask 0o777) .socket .addrInUse
  interfere op fs := fs.tamper them op

/-! ### The program -/

/-- Why the server could not start. -/
inductive ServeError
  | socketDirNotADirectory (path : List Str)
  | socketDirNotOurs (path : List Str) (owner expected : ℕ)
  | socketDir (path : List Str) (source : Errno)
  | staleSocket (path : List Str) (source : Errno)
  | bind (path : List Str) (source : Errno)
  | permissions (path : List Str) (source : Errno)
  | alreadyRunning (path : List Str)
  | lock (path : List Str) (source : Errno)
  deriving DecidableEq

/-- A program of the daemon. -/
abbrev Daemon (α : Type) := Program Syscall.Answer ServeError α

/-- Make a system call. -/
def sys (c : Syscall) : Daemon c.Answer := Program.perform c

/-- Go on if a system call succeeded, and fail with its error otherwise. -/
def orFail (wrap : Errno → ServeError) : Except Errno Unit → Daemon Unit
  | .ok () => .ret ()
  | .error e => .fail (wrap e)

/-- Go on after a failed `mkdir` if the path is a directory by now. -/
def forgive (wrap : Errno → ServeError) (path : List Str) (e : Errno) : Daemon Unit := do
  if ← sys (.isDir path) then pure () else .fail (wrap e)

/-- Create a directory and those above it, as the recursive `DirBuilder` does. The components come
from the last to the first. -/
def createDirAll (wrap : Errno → ServeError) (mode : ℕ) : List Str → Daemon Unit
  | [] => do
    match ← sys (.mkdir [] mode) with
    | .ok () => pure ()
    | .error .noEnt => .fail (wrap .other)
    | .error e => forgive wrap [] e
  | last :: above => do
    let path := (last :: above).reverse
    match ← sys (.mkdir path mode) with
    | .ok () => pure ()
    | .error .noEnt =>
      createDirAll wrap mode above
      match ← sys (.mkdir path mode) with
      | .ok () => pure ()
      | .error e => forgive wrap path e
    | .error e => forgive wrap path e

/-- Whether the socket may be bound in a directory: it is this user's, or a sticky one of root. -/
def acceptsDir (uid : ℕ) (md : Attrs) : Bool :=
  decide (md.owner = uid) || decide (md.owner = 0) && decide (md.mode &&& 0o1000 ≠ 0)

/-- Create the socket's parent directory, or check the one that is there and tighten it. -/
def prepareSocketDir (uid : ℕ) (dir : List Str) : Daemon Unit := do
  match ← sys (.metadata dir) with
  | .ok md =>
    if md.kind ≠ .dir then .fail (.socketDirNotADirectory dir)
    else if md.owner = uid then
      if md.mode &&& 0o077 ≠ 0 then
        orFail (.socketDir dir) (← sys (.setPermissions dir 0o700))
      else pure ()
    else if !(decide (md.owner = 0) && decide (md.mode &&& 0o1000 ≠ 0)) then
      .fail (.socketDirNotOurs dir md.owner uid)
    else pure ()
  | .error .noEnt => createDirAll (.socketDir dir) 0o700 dir.reverse
  | .error e => .fail (.socketDir dir e)

/-- The lock beside a socket. -/
def lockPath (socketPath : List Str) : List Str :=
  socketPath.dropLast ++ (socketPath.getLast?.map (· ++ str ".lock")).toList

/-- Claim the right to serve on a socket path. -/
def acquireLock (socketPath : List Str) : Daemon Unit := do
  orFail (.lock (lockPath socketPath)) (← sys (.openCreate (lockPath socketPath) 0o600))
  match ← sys .flock with
  | .ok () => pure ()
  | .error .wouldBlock => .fail (.alreadyRunning socketPath)
  | .error e => .fail (.lock (lockPath socketPath) e)

/-- Bind the socket, private to this user. -/
def bindListener (uid : ℕ) (socketPath : List Str) : Daemon Unit := do
  if socketPath ≠ [] then prepareSocketDir uid socketPath.dropLast
  acquireLock socketPath
  match ← sys (.removeFile socketPath) with
  | .ok () => pure ()
  | .error .noEnt => pure ()
  | .error e => .fail (.staleSocket socketPath e)
  orFail (.bind socketPath) (← sys (.bind socketPath))
  orFail (.permissions socketPath) (← sys (.setPermissions socketPath 0o600))

/-- The directory of the socket below `/tmp`, by the user it is for. -/
def hireDir (uid : ℕ) : Str := str "hire-" ++ Nat.toDigits 10 uid

/-- The socket path below a runtime directory, or below `/tmp` when there is none. -/
def socketUnder (runtimeDir : Option (List Str)) (uid : ℕ) : List Str :=
  match runtimeDir with
  | some dir => dir ++ [str "hire", str "workload.sock"]
  | none => [str "tmp", hireDir uid, str "workload.sock"]

end Hire.Grpc
