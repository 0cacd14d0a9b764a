import Hire.Core.Pseudonym
import Hire.Library.Streaming

/-!
# Naming the peer of a connection

`hire-grpc/src/consumer_attest.rs`. When a connection is accepted, the daemon asks the kernel who is
at its other end, finds the executable of that process and hashes it. `attestPeer_eq_ok_iff` says
when this names the peer: it runs under the daemon's account, its process id is reported, its
executable is found, and the reads of it come to an end. The name is then the hash of what was read,
however the reads cut it up.

`AttestedStream.accept` keeps the name with the connection, or that there is none.
`ReadsExecutable` is what an accept has read when there is one (`accept_eq_some_attested`).
-/

set_option autoImplicit false
set_option relaxedAutoImplicit false

namespace Hire.Grpc

open Hire.Library Hire.Core

/-! ### What the kernel is asked -/

/-- The systems that `exe_path_for_pid` is compiled for. -/
inductive Platform
  | linux
  | macos
  | unsupported
  deriving DecidableEq, Repr

/-- The credentials of a peer. -/
structure UCred where
  uid : ℕ
  pid : Option ℤ
  deriving DecidableEq, Repr

/-- The answer of `proc_pidpath`: the number it returned and the buffer it was given, which it does
not overrun. -/
structure PidPath where
  n : ℤ
  buf : ByteArr 4096
  inside : n ≤ 4096

/-- What accepting a connection asks of the operating system. Connections are numbered, paths are
bytes, `F` is an open file, and `read` brings at most as many bytes as the buffer takes. -/
structure PeerOs (W F : Type) where
  platform : Platform
  getuid : W → ℕ × W
  peerCred : ℕ → Action Str W UCred
  readLink : Str → Action Str W Bytes
  procPidpath : ℤ → W → PidPath × W
  openFile : Bytes → Action Str W F
  read : F → ℕ → Action Str W Bytes

/-- Why a peer has no name. -/
inductive AttestError
  | wrongUid (peer expected : ℕ)
  | peerCred (source : Str)
  | noPeerPid
  | noExePath
  | unreadable
  | notSupported
  deriving DecidableEq, Repr

/-! ### The program -/

section Attest

variable {W F : Type}

/-- The path of the executable of a process. On Linux it is a link of the kernel's; on macOS it is
what was written up to the first zero byte. -/
def exePathForPid (os : PeerOs W F) (pid : ℤ) : Action AttestError W Bytes :=
  match os.platform with
  | .linux =>
    (os.readLink (str "/proc/" ++ JsonNumber.decimal pid ++ str "/exe")).mapError
      fun _ ↦ .noExePath
  | .macos => do
    let answer ← Action.ask (os.procPidpath pid)
    if answer.n ≤ 0 then Action.fail .noExePath
    else
      let path := (answer.buf.1.take answer.n.toNat).takeWhile (· ≠ 0)
      if path = [] then Action.fail .noExePath else pure path
  | .unsupported => Action.fail .notSupported

/-- The size of the buffer a file is read through. -/
def hashBuffer : ℕ := 64 * 1024

/-- Hash a file through a buffer, in a number of reads. -/
def hashFile {C : Crypto} (os : PeerOs W F) (hasher : Streaming C.sha256) (rounds : ℕ)
    (path : Bytes) (w : W) : Option (Except AttestError (ByteArr 32) × W) :=
  match os.openFile path w with
  | (.error _, w) => some (.error .unreadable, w)
  | (.ok file, w) =>
    match feed (os.read file hashBuffer) hasher.update rounds hasher.new w with
    | none => none
    | some (.error _, w) => some (.error .unreadable, w)
    | some (.ok state, w) => some (.ok (hasher.finalize state), w)

/-- Name a peer by its credentials, in a number of reads of its executable. -/
def attestPeer {C : Crypto} (os : PeerOs W F) (hasher : Streaming C.sha256) (rounds : ℕ)
    (cred : UCred) (w : W) : Option (Except AttestError ConsumerIdentity × W) :=
  let (myUid, w) := os.getuid w
  if cred.uid ≠ myUid then some (.error (.wrongUid cred.uid myUid), w)
  else
    match cred.pid with
    | none => some (.error .noPeerPid, w)
    | some pid =>
      match exePathForPid os pid w with
      | (.error e, w) => some (.error e, w)
      | (.ok path, w) =>
        match hashFile os hasher rounds path w with
        | none => none
        | some (.error e, w) => some (.error e, w)
        | some (.ok hash, w) => some (.ok (.binarySha256 hash), w)

/-- The consumer at the other end of a connection, if it could be named. -/
structure PeerIdentity where
  get : Option ConsumerIdentity
  deriving DecidableEq

/-- A connection whose peer was named, or not, when it was accepted. -/
structure AttestedStream where
  inner : ℕ
  peer : PeerIdentity
  deriving DecidableEq

/-- Name the peer of a connection that was accepted, in a number of reads of its executable. -/
def AttestedStream.accept {C : Crypto} (os : PeerOs W F) (hasher : Streaming C.sha256)
    (rounds : ℕ) (inner : ℕ) (w : W) : Option (AttestedStream × W) :=
  match os.peerCred inner w with
  | (.error _, w) => some (⟨inner, ⟨none⟩⟩, w)
  | (.ok cred, w) =>
    match attestPeer os hasher rounds cred w with
    | none => none
    | some (attested, w) => some (⟨inner, ⟨attested.toOption⟩⟩, w)

/-- What the requests of a connection are told of its peer. -/
def AttestedStream.connectInfo (stream : AttestedStream) : PeerIdentity := stream.peer

/-! ### When a peer is named -/

variable {C : Crypto} {os : PeerOs W F} {hasher : Streaming C.sha256}

/-- A file is hashed when it opens and its reads come to an end, and the hash is that of what they
brought. -/
theorem hashFile_eq_ok_iff {rounds : ℕ} {path : Bytes} {w w' : W} {hash : ByteArr 32} :
    hashFile os hasher rounds path w = some (.ok hash, w') ↔
      ∃ file opened pieces, os.openFile path w = (.ok file, opened) ∧
        Pieces (os.read file hashBuffer) opened pieces w' ∧ pieces.length < rounds ∧
        hash = C.sha256 pieces.flatten := by
  unfold hashFile
  rcases hopen : os.openFile path w with ⟨result, opened⟩
  cases result with
  | error e =>
    refine ⟨fun h ↦ (by cases h), ?_⟩
    rintro ⟨_, _, _, hfile, -⟩
    cases hfile
  | ok file =>
    dsimp only
    constructor
    · intro h
      split at h
      · cases h
      · cases h
      · rename_i state last hfeed
        cases h
        obtain ⟨pieces, hpieces, hrounds, rfl⟩ := feed_eq_ok_iff.mp hfeed
        exact ⟨file, opened, pieces, rfl, hpieces, hrounds, hasher.finalize_foldl pieces⟩
    · rintro ⟨_, _, pieces, hfile, hpieces, hrounds, rfl⟩
      cases hfile
      rw [feed_eq_ok_iff.mpr ⟨pieces, hpieces, hrounds, rfl⟩]
      dsimp only
      rw [hasher.finalize_foldl]

/-- A peer is named when it runs under the daemon's account, its process id is reported, its
executable is found and opens, and the reads of it come to an end; its name is the hash of what they
brought. -/
theorem attestPeer_eq_ok_iff {rounds : ℕ} {cred : UCred} {w w' : W} {consumer : ConsumerIdentity} :
    attestPeer os hasher rounds cred w = some (.ok consumer, w') ↔
      cred.uid = (os.getuid w).1 ∧ ∃ pid path located file opened pieces, cred.pid = some pid ∧
        exePathForPid os pid (os.getuid w).2 = (.ok path, located) ∧
        os.openFile path located = (.ok file, opened) ∧
        Pieces (os.read file hashBuffer) opened pieces w' ∧ pieces.length < rounds ∧
        consumer = .binarySha256 (C.sha256 pieces.flatten) := by
  unfold attestPeer
  dsimp only
  by_cases huid : cred.uid = (os.getuid w).1
  swap
  · rw [if_pos huid]
    exact ⟨fun h ↦ (by cases h), fun h ↦ absurd h.1 huid⟩
  rw [if_neg (not_not.mpr huid)]
  cases hpid : cred.pid with
  | none =>
    refine ⟨fun h ↦ (by cases h), ?_⟩
    rintro ⟨-, _, _, _, _, _, _, hsome, -⟩
    cases hsome
  | some pid =>
    dsimp only
    rcases hpath : exePathForPid os pid (os.getuid w).2 with ⟨result, located⟩
    cases result with
    | error e =>
      refine ⟨fun h ↦ (by cases h), ?_⟩
      rintro ⟨-, _, _, _, _, _, _, hsome, hfound, -⟩
      cases hsome
      cases hpath.symm.trans hfound
    | ok path =>
      dsimp only
      constructor
      · intro h
        split at h
        · cases h
        · cases h
        · rename_i hash last hhash
          cases h
          obtain ⟨file, opened, pieces, hopen, hpieces, hrounds, rfl⟩ :=
            hashFile_eq_ok_iff.mp hhash
          exact ⟨huid, pid, path, located, file, opened, pieces, rfl, hpath, hopen, hpieces,
            hrounds, rfl⟩
      · rintro ⟨-, _, _, _, file, opened, pieces, hsome, hfound, hopen, hpieces, hrounds, rfl⟩
        cases hsome
        cases hpath.symm.trans hfound
        rw [hashFile_eq_ok_iff.mpr ⟨file, opened, pieces, hopen, hpieces, hrounds, rfl⟩]

/-- Accepting a connection in a world reads an executable: the peer runs under the daemon's account,
its process id is reported, and the reads of its executable come to an end and bring the contents.
-/
def ReadsExecutable (os : PeerOs W F) (inner : ℕ) (w : W) (contents : Bytes) : Prop :=
  ∃ cred asked pid path located file opened pieces w', os.peerCred inner w = (.ok cred, asked) ∧
    cred.uid = (os.getuid asked).1 ∧ cred.pid = some pid ∧
    exePathForPid os pid (os.getuid asked).2 = (.ok path, located) ∧
    os.openFile path located = (.ok file, opened) ∧
    Pieces (os.read file hashBuffer) opened pieces w' ∧ contents = pieces.flatten

/-- An accept keeps the connection, and a peer that it names is the hash of the executable it has
read. -/
theorem accept_eq_some_attested {rounds inner : ℕ} {w w' : W} {stream : AttestedStream}
    (h : AttestedStream.accept os hasher rounds inner w = some (stream, w'))
    {consumer : ConsumerIdentity} (hconsumer : stream.peer.get = some consumer) :
    ∃ contents, ReadsExecutable os inner w contents ∧
      consumer = .binarySha256 (C.sha256 contents) := by
  unfold AttestedStream.accept at h
  rcases hcred : os.peerCred inner w with ⟨result, asked⟩
  rw [hcred] at h
  cases result with
  | error e =>
    cases h
    cases hconsumer
  | ok cred =>
    dsimp only at h
    split at h
    · cases h
    · rename_i attested last hattest
      cases h
      cases attested with
      | error e => cases hconsumer
      | ok named =>
        obtain rfl := Option.some.inj hconsumer
        obtain ⟨huid, pid, path, located, file, opened, pieces, hpid, hpath, hopen, hpieces, -,
          rfl⟩ := attestPeer_eq_ok_iff.mp hattest
        exact ⟨_, ⟨cred, asked, pid, path, located, file, opened, pieces, _, hcred, huid, hpid,
          hpath, hopen, hpieces, rfl⟩, rfl⟩

end Attest

end Hire.Grpc
