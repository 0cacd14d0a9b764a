import Hire.Grpc.Consent
import Hire.Grpc.ConsumerAttest
import Hire.Grpc.Pseudonymity
import Hire.Library.Transition

/-!
# Connections

`serve` of `hire-grpc/src/server.rs` over its connections. The peer of a connection is named when
the connection is accepted, and every request of the connection is told that name; between any two
steps of the server everything else on the machine may change, the process at the other end and its
executable included.

`AcceptedAs past inner peer` says that the last accept of a connection gave it that peer. Every step
keeps it for every open connection (`acceptedAs_step`), so a request is answered for the consumer
that was named at its accept and for no other (`served_as_accepted`), and over a whole run a SPIFFE
ID tells one root and one executable from all others (`pseudonym_per_root_and_executable`).
-/

set_option autoImplicit false
set_option relaxedAutoImplicit false

namespace Hire.Grpc

open Hire.Library Hire.Core Hire.Attestors

variable {L : TokenLib} {W F : Type}

/-! ### The server -/

/-- A server: the world around it and its open connections. -/
structure Server (W : Type) where
  world : W
  connections : ℕ → Option AttestedStream

/-- Set what a number names. -/
def Server.set (s : Server W) (inner : ℕ) (stream : Option AttestedStream) : Server W :=
  { s with connections := Function.update s.connections inner stream }

@[simp] theorem Server.set_connections_self (s : Server W) (inner : ℕ)
    (stream : Option AttestedStream) : (s.set inner stream).connections inner = stream :=
  Function.update_self ..

theorem Server.set_connections_of_ne (s : Server W) {inner inner' : ℕ} (hne : inner ≠ inner')
    (stream : Option AttestedStream) :
    (s.set inner' stream).connections inner = s.connections inner :=
  Function.update_of_ne hne ..

/-- What happens to a server: it accepts a connection, answers a request on one, or sees one closed,
or the world changes. -/
inductive Event (W : Type)
  | accept (inner rounds : ℕ)
  | fetch (inner : ℕ) (req : JwtsvidRequest) (readings : Readings)
  | close (inner : ℕ)
  | world (world : W)

/-- The run of a request on an open connection. -/
def Server.answer (C : Crypto) (service : WorkloadApiService L W) (s : Server W) (inner : ℕ)
    (req : JwtsvidRequest) (readings : Readings) : Option (Outcome L W) :=
  (s.connections inner).map fun stream ↦
    service.fetchJwtsvid C stream.connectInfo.get req readings s.world

/-- One step of the server. A number names one connection at a time, and an accept that has not
finished in its rounds is no step. -/
def Server.step {C : Crypto} (os : PeerOs W F) (hasher : Streaming C.sha256)
    (service : WorkloadApiService L W) (s : Server W) : Event W → Option (Server W)
  | .accept inner rounds =>
    match s.connections inner with
    | some _ => none
    | none =>
      (AttestedStream.accept os hasher rounds inner s.world).map fun (stream, world) ↦
        { s.set inner (some stream) with world := world }
  | .fetch inner req readings =>
    (s.answer C service inner req readings).map fun outcome ↦ { s with world := outcome.world }
  | .close inner => some (s.set inner none)
  | .world world => some { s with world := world }

/-- The transitions of a server. -/
abbrev History (W : Type) := List (Transition (Server W) (Event W))

/-! ### The last accept of a connection -/

/-- An event that decides what a connection is. -/
def Event.Decides (inner : ℕ) : Event W → Prop
  | .accept inner' _ | .close inner' => inner' = inner
  | _ => False

/-- The last accept of a connection gave it a peer, and was in a world. -/
def AcceptedAs {C : Crypto} (os : PeerOs W F) (hasher : Streaming C.sha256) (past : History W)
    (inner : ℕ) (w : W) (stream : AttestedStream) : Prop :=
  ∃ front t back rounds w', past = front ++ t :: back ∧ t.label = .accept inner rounds ∧
    t.source.world = w ∧ AttestedStream.accept os hasher rounds inner w = some (stream, w') ∧
    ∀ later ∈ back, ¬later.label.Decides inner

section Accepted

variable {C : Crypto} {os : PeerOs W F} {hasher : Streaming C.sha256}
  {service : WorkloadApiService L W}

/-- What was accepted stays accepted through a step that does not decide its connection. -/
theorem AcceptedAs.later {past : History W} {inner : ℕ} {w : W} {stream : AttestedStream}
    (h : AcceptedAs os hasher past inner w stream) {t : Transition (Server W) (Event W)}
    (ht : ¬t.label.Decides inner) : AcceptedAs os hasher (past ++ [t]) inner w stream := by
  obtain ⟨front, accepted, back, rounds, w', rfl, hlabel, hworld, haccept, hlater⟩ := h
  refine ⟨front, accepted, back ++ [t], rounds, w', by simp, hlabel, hworld, haccept, ?_⟩
  intro later hmem
  rcases List.mem_append.mp hmem with hback | hlast
  · exact hlater later hback
  · rw [List.mem_singleton.mp hlast]
    exact ht

/-- Every step leaves an open connection as it was, or has just accepted it. -/
theorem connection_of_step {s s' : Server W} {label : Event W}
    (h : s.step os hasher service label = some s') {inner : ℕ} {stream : AttestedStream}
    (hopen : s'.connections inner = some stream) :
    (s.connections inner = some stream ∧ ¬label.Decides inner) ∨
      ∃ rounds w', label = .accept inner rounds ∧
        AttestedStream.accept os hasher rounds inner s.world = some (stream, w') := by
  cases label with
  | accept inner' rounds =>
    unfold Server.step at h
    dsimp only at h
    split at h
    · cases h
    · obtain ⟨⟨accepted, world⟩, haccept, rfl⟩ := Option.map_eq_some_iff.mp h
      change (s.set inner' (some accepted)).connections inner = some stream at hopen
      by_cases hsame : inner = inner'
      · subst hsame
        rw [s.set_connections_self] at hopen
        obtain rfl := Option.some.inj hopen
        exact .inr ⟨rounds, world, rfl, haccept⟩
      · rw [s.set_connections_of_ne hsame] at hopen
        exact .inl ⟨hopen, fun hdecides ↦ hsame hdecides.symm⟩
  | fetch inner' req readings =>
    obtain ⟨outcome, -, rfl⟩ := Option.map_eq_some_iff.mp h
    exact .inl ⟨hopen, id⟩
  | close inner' =>
    obtain rfl := Option.some.inj h
    by_cases hsame : inner = inner'
    · subst hsame
      rw [s.set_connections_self] at hopen
      cases hopen
    · rw [s.set_connections_of_ne hsame] at hopen
      exact .inl ⟨hopen, fun hdecides ↦ hsame hdecides.symm⟩
  | world world =>
    obtain rfl := Option.some.inj h
    exact .inl ⟨hopen, id⟩

/-- Every step keeps, for every open connection, that it is as its last accept left it. -/
theorem acceptedAs_step {past : History W} {s s' : Server W} {label : Event W}
    (hs : ∀ inner stream, s.connections inner = some stream →
      ∃ w, AcceptedAs os hasher past inner w stream)
    (h : s.step os hasher service label = some s') :
    ∀ inner stream, s'.connections inner = some stream →
      ∃ w, AcceptedAs os hasher (past ++ [⟨s, label, s'⟩]) inner w stream := by
  intro inner stream hopen
  rcases connection_of_step h hopen with ⟨hbefore, hdecides⟩ | ⟨rounds, w', rfl, haccept⟩
  · obtain ⟨w, haccepted⟩ := hs inner stream hbefore
    exact ⟨w, haccepted.later hdecides⟩
  · exact ⟨s.world, past, _, [], rounds, w', rfl, rfl, rfl, haccept,
      fun later hnone ↦ absurd hnone List.not_mem_nil⟩

/-- In a run that starts without connections, a connection is as its last accept left it. -/
theorem acceptedAs_of_run {s : Server W} (hs : ∀ inner, s.connections inner = none)
    {labels : List (Event W)} {transitions before after : History W}
    {t : Transition (Server W) (Event W)}
    (hrun : run (Server.step os hasher service) s labels = some transitions)
    (hsplit : transitions = before ++ t :: after) {inner : ℕ} {stream : AttestedStream}
    (hopen : t.source.connections inner = some stream) :
    ∃ w, AcceptedAs os hasher before inner w stream := by
  have hkept := run_history (P := fun past s ↦ ∀ inner stream, s.connections inner = some stream →
    ∃ w, AcceptedAs os hasher past inner w stream)
    (fun past s label s' hpast hstep ↦ acceptedAs_step hpast hstep) []
    (fun inner stream hsome ↦ by rw [hs inner] at hsome; cases hsome) hrun hsplit
  exact hkept inner stream hopen

/-- A peer that an accept named is the hash of the executable that was read in its world. -/
theorem AcceptedAs.reads {past : History W} {inner : ℕ} {w : W} {stream : AttestedStream}
    (h : AcceptedAs os hasher past inner w stream) {consumer : ConsumerIdentity}
    (hconsumer : stream.peer.get = some consumer) :
    ∃ contents, ReadsExecutable os inner w contents ∧
      consumer = .binarySha256 (C.sha256 contents) := by
  obtain ⟨-, -, -, rounds, w', -, -, -, haccept, -⟩ := h
  exact accept_eq_some_attested haccept hconsumer

end Accepted

/-! ### A machine with one account -/

/-- An operating system on which the executable of a process holds its own path. Its world is what
is left to read of the file that was opened last. -/
def pathOs : PeerOs Bytes Unit where
  platform := .linux
  getuid w := (1000, w)
  peerCred inner := pure ⟨1000, some inner⟩
  readLink path := pure (utf8 path)
  procPidpath _ w := (⟨0, fill 4096 0, by decide⟩, w)
  openFile path := fun _ ↦ (.ok (), path)
  read _ n := fun w ↦ (.ok (w.take n), w.drop n)

/-- Primitives that show what they are given: the hash is the beginning of its input, and the key
derivation the part of its info that tells consumers apart. -/
def shownCrypto : Crypto :=
  { Crypto.transparent with hkdfSha256 := fun input ↦ pad32 (input.info.drop 32) }

/-- A service with one account to prove. -/
def accountService : WorkloadApiService TokenLib.transparent Bytes where
  signer := .fromSigningKey (fill 65 4) (fill 32 7)
  bundles := .new
  attestors :=
    [⟨str "unix", pure [(Candidate.new (str "unix") .sshLocal (str "user/alice")
        (str "Alice")).withProofCost .silent],
      fun _ _ ↦ pure [.platformAssertion ⟨str "user/alice", WorkloadApiService.second 100⟩]⟩]

/-- A server without connections. -/
def noConnections : Server Bytes := ⟨[], fun _ ↦ none⟩

/-- A process asks for every identity. -/
def fetchEvery (inner : ℕ) : Event Bytes :=
  .fetch inner ⟨[str "https://rp.example"], []⟩
    (WorkloadApiService.readingsAt (WorkloadApiService.second 101))

/-- Steps of a server with that service. -/
abbrev accountStep : Server Bytes → Event Bytes → Option (Server Bytes) :=
  Server.step pathOs (.buffered shownCrypto.sha256) accountService

/-- A connection of that server, with the name its peer has been given. -/
def namedStream (inner : ℕ) : AttestedStream :=
  ⟨inner, ⟨some (.binarySha256 (shownCrypto.sha256
    (utf8 (str "/proc/" ++ JsonNumber.decimal inner ++ str "/exe"))))⟩⟩

/-- The server while process 7 is connected. -/
def oneOpen : Server Bytes := noConnections.set 7 (some (namedStream 7))

/-- The server while processes 7 and 8 are connected. -/
def bothOpen : Server Bytes := oneOpen.set 8 (some (namedStream 8))

/-- Two processes connect, one after the other, and each asks for every identity. -/
theorem run_twoPeers :
    run accountStep noConnections [.accept 7 2, fetchEvery 7, .accept 8 2, fetchEvery 8] =
      some [⟨noConnections, .accept 7 2, oneOpen⟩, ⟨oneOpen, fetchEvery 7, oneOpen⟩,
        ⟨oneOpen, .accept 8 2, bothOpen⟩, ⟨bothOpen, fetchEvery 8, bothOpen⟩] := by
  with_unfolding_all rfl

/-- The pieces of a file, read from its front, are the file. -/
theorem flatten_of_pieces {w w' : Bytes} {pieces : List Bytes}
    (h : Pieces (pathOs.read () hashBuffer) w pieces w') : pieces.flatten = w := by
  induction h with
  | done hread =>
    obtain ⟨hpiece, -⟩ := Prod.mk.inj hread
    rcases List.take_eq_nil_iff.mp (Except.ok.inj hpiece) with hzero | hnil
    · exact absurd hzero (by decide)
    · exact hnil.symm
  | more hread _ _ ih =>
    obtain ⟨hpiece, rfl⟩ := Prod.mk.inj hread
    obtain rfl := Except.ok.inj hpiece
    rw [List.flatten_cons, ih, List.take_append_drop]

/-- The executable of a process holds its path. -/
theorem readsExecutable_pathOs {inner : ℕ} {w contents : Bytes}
    (h : ReadsExecutable pathOs inner w contents) :
    contents = utf8 (str "/proc/" ++ JsonNumber.decimal inner ++ str "/exe") := by
  obtain ⟨cred, asked, pid, path, located, file, opened, pieces, w', hcred, -, hpid, hpath, hopen,
    hpieces, rfl⟩ := h
  cases hcred
  cases hpid
  cases hpath
  cases hopen
  exact flatten_of_pieces hpieces

/-! ### What requests are served -/

section Serve

variable {C : Crypto}

/-- A request of a connection without a named peer calls nothing and is refused. -/
theorem fetchJwtsvid_unattested (service : WorkloadApiService L W) (req : JwtsvidRequest)
    (readings : Readings) (w : W) :
    service.fetchJwtsvid C none req readings w =
      ⟨.error (.error ⟨.unauthenticated, str "consumer could not be attested"⟩), [], [], w⟩ :=
  rfl

/-- Everything a request is served is a pseudonym of its root for its consumer. -/
theorem spiffeId_of_mem_served {service : WorkloadApiService L W} {consumer : ConsumerIdentity}
    {req : JwtsvidRequest} {readings : Readings} {w : W} {served : Claim × Jwtsvid L}
    (h : served ∈ (service.fetchJwtsvid C (some consumer) req readings w).served) :
    served.2.spiffeId =
      (service.signer.pseudonymousId C served.1.spiffeId consumer).uri := by
  obtain ⟨claim, svid⟩ := served
  obtain ⟨admitted, -, -, j, hadmitted, -, -, -, hissue⟩ :=
    WorkloadApiService.issued_of_mem_served h
  obtain ⟨hconsumer, -⟩ := acceptRequest_eq_ok_iff.mp hadmitted
  rw [Option.some.inj hconsumer]
  exact (issue_eq_ok_iff.mp hissue).2.2.1

/-- Something was served on a connection at a transition. -/
def ServedAt (C : Crypto) (service : WorkloadApiService L W) (t : Transition (Server W) (Event W))
    (inner : ℕ) (served : Claim × Jwtsvid L) : Prop :=
  ∃ req readings outcome, t.label = .fetch inner req readings ∧
    t.source.answer C service inner req readings = some outcome ∧ served ∈ outcome.served

/-- What is served on a connection is served for the executable that its last accept has read. -/
theorem ServedAt.executable {os : PeerOs W F} {hasher : Streaming C.sha256}
    {service : WorkloadApiService L W} {s : Server W} (hs : ∀ inner, s.connections inner = none)
    {labels : List (Event W)} {transitions before after : History W}
    {t : Transition (Server W) (Event W)}
    (hrun : run (Server.step os hasher service) s labels = some transitions)
    (hsplit : transitions = before ++ t :: after) {inner : ℕ} {served : Claim × Jwtsvid L}
    (h : ServedAt C service t inner served) :
    ∃ w stream contents, AcceptedAs os hasher before inner w stream ∧
      ReadsExecutable os inner w contents ∧
      stream.peer.get = some (.binarySha256 (C.sha256 contents)) ∧
      served.2.spiffeId = (service.signer.pseudonymousId C served.1.spiffeId
        (.binarySha256 (C.sha256 contents))).uri := by
  obtain ⟨req, readings, outcome, -, hanswer, hmem⟩ := h
  obtain ⟨stream, hopen, rfl⟩ := Option.map_eq_some_iff.mp hanswer
  obtain ⟨w, haccepted⟩ := acceptedAs_of_run hs hrun hsplit hopen
  unfold AttestedStream.connectInfo at hmem
  cases hpeer : stream.peer.get with
  | none =>
    rw [hpeer, fetchJwtsvid_unattested] at hmem
    cases hmem
  | some consumer =>
    rw [hpeer] at hmem
    obtain ⟨contents, hreads, rfl⟩ := haccepted.reads hpeer
    exact ⟨w, stream, contents, haccepted, hreads, hpeer, spiffeId_of_mem_served hmem⟩

/-- A request is answered for the peer its connection was accepted with, whatever happened to that
process since. If it was named, then by the hash of the executable that the accept has read, and
every SVID is a pseudonym for that hash; if it was not, the request is refused with one message,
calls no attestor and leaves the world alone. Assumes: the run starts without connections, and every
event of it is one that can happen. -/
theorem served_as_accepted (C : Crypto) (os : PeerOs W F) (hasher : Streaming C.sha256)
    (service : WorkloadApiService L W) (s : Server W) (hs : ∀ inner, s.connections inner = none)
    (labels : List (Event W)) (before after : History W) (t : Transition (Server W) (Event W))
    (hrun : run (Server.step os hasher service) s labels = some (before ++ t :: after))
    (inner : ℕ) (req : JwtsvidRequest) (readings : Readings)
    (hlabel : t.label = .fetch inner req readings) :
    ∃ outcome w stream, t.source.answer C service inner req readings = some outcome ∧
      AcceptedAs os hasher before inner w stream ∧
      (∀ consumer, stream.peer.get = some consumer → ∃ contents,
        ReadsExecutable os inner w contents ∧ consumer = .binarySha256 (C.sha256 contents) ∧
        ∀ served ∈ outcome.served, served.2.spiffeId =
          (service.signer.pseudonymousId C served.1.spiffeId consumer).uri) ∧
      (stream.peer.get = none → outcome =
        ⟨.error (.error ⟨.unauthenticated, str "consumer could not be attested"⟩), [], [],
          t.source.world⟩) := by
  have hstep := step_of_mem_run hrun t (by simp)
  rw [hlabel] at hstep
  obtain ⟨outcome, hanswer, -⟩ := Option.map_eq_some_iff.mp hstep
  obtain ⟨stream, hopen, rfl⟩ := Option.map_eq_some_iff.mp hanswer
  obtain ⟨w, haccepted⟩ := acceptedAs_of_run hs hrun rfl hopen
  refine ⟨_, w, stream, hanswer, haccepted, fun consumer hconsumer ↦ ?_, fun hnone ↦ ?_⟩
  · obtain ⟨contents, hreads, hhash⟩ := haccepted.reads hconsumer
    refine ⟨contents, hreads, hhash, fun served hserved ↦ ?_⟩
    unfold AttestedStream.connectInfo at hserved
    rw [hconsumer] at hserved
    exact spiffeId_of_mem_served hserved
  · unfold AttestedStream.connectInfo
    rw [hnone, fetchJwtsvid_unattested]

/-- The peer of the second connection is named at its accept, and served. -/
theorem served_as_accepted_second :
    ∃ outcome w stream, bothOpen.answer shownCrypto accountService 8
        ⟨[str "https://rp.example"], []⟩
        (WorkloadApiService.readingsAt (WorkloadApiService.second 101)) = some outcome ∧
      AcceptedAs pathOs (.buffered shownCrypto.sha256)
        [⟨noConnections, .accept 7 2, oneOpen⟩, ⟨oneOpen, fetchEvery 7, oneOpen⟩,
          ⟨oneOpen, .accept 8 2, bothOpen⟩] 8 w stream := by
  obtain ⟨outcome, w, stream, hanswer, haccepted, -⟩ := served_as_accepted shownCrypto pathOs
    (.buffered shownCrypto.sha256) accountService noConnections (fun _ ↦ rfl) _
    [⟨noConnections, .accept 7 2, oneOpen⟩, ⟨oneOpen, fetchEvery 7, oneOpen⟩,
      ⟨oneOpen, .accept 8 2, bothOpen⟩] [] ⟨bothOpen, fetchEvery 8, bothOpen⟩ run_twoPeers 8 _ _ rfl
  exact ⟨outcome, w, stream, hanswer, haccepted⟩

/-- Over a whole run, two SVIDs carry the same SPIFFE ID exactly when they are for the same root
identity and the last accepts of their connections before them have read executables with the same
hash. Assumes: the run starts without connections, every event of it is one that can happen, both
SVIDs were served in it, and HKDF has no collision on a set that holds the two inputs. -/
theorem pseudonym_per_root_and_executable (C : Crypto) (os : PeerOs W F)
    (hasher : Streaming C.sha256) (service : WorkloadApiService L W) (s : Server W)
    (hs : ∀ inner, s.connections inner = none) (labels : List (Event W))
    (transitions : History W)
    (hrun : run (Server.step os hasher service) s labels = some transitions)
    (before before' after after' : History W) (t t' : Transition (Server W) (Event W))
    (hsplit : transitions = before ++ t :: after)
    (hsplit' : transitions = before' ++ t' :: after') (inner inner' : ℕ)
    (served served' : Claim × Jwtsvid L) (hserved : ServedAt C service t inner served)
    (hserved' : ServedAt C service t' inner' served') :
    ∃ w w' stream stream' contents contents',
      AcceptedAs os hasher before inner w stream ∧ ReadsExecutable os inner w contents ∧
      stream.peer.get = some (.binarySha256 (C.sha256 contents)) ∧
      AcceptedAs os hasher before' inner' w' stream' ∧ ReadsExecutable os inner' w' contents' ∧
      stream'.peer.get = some (.binarySha256 (C.sha256 contents')) ∧
      ∀ inputs : Set HkdfInput, Set.InjOn C.hkdfSha256 inputs →
        pseudonymInput service.signer.pseudonymIkm served.1.spiffeId
          (.binarySha256 (C.sha256 contents)) ∈ inputs →
        pseudonymInput service.signer.pseudonymIkm served'.1.spiffeId
          (.binarySha256 (C.sha256 contents')) ∈ inputs →
        (served.2.spiffeId = served'.2.spiffeId ↔ served.1.spiffeId = served'.1.spiffeId ∧
          C.sha256 contents = C.sha256 contents') := by
  obtain ⟨w, stream, contents, haccepted, hreads, hpeer, hid⟩ :=
    hserved.executable hs hrun hsplit
  obtain ⟨w', stream', contents', haccepted', hreads', hpeer', hid'⟩ :=
    hserved'.executable hs hrun hsplit'
  refine ⟨w, w', stream, stream', contents, contents', haccepted, hreads, hpeer, haccepted',
    hreads', hpeer', fun inputs hcollision hinput hinput' ↦ ?_⟩
  rw [hid, hid', ← derivePseudonymousId_inj C service.signer.pseudonymIkm hcollision hinput hinput']
  constructor
  · exact derivePseudonymousId_uri_inj C service.signer.pseudonymIkm
  · intro hsame
    exact congrArg SpiffeId.uri hsame

/-- The account is served on an open connection of that server. -/
theorem exists_servedAt (s : Server Bytes) (inner : ℕ)
    (h : (s.answer shownCrypto accountService inner ⟨[str "https://rp.example"], []⟩
      (WorkloadApiService.readingsAt (WorkloadApiService.second 101))).any
        (fun outcome ↦ outcome.served.any
          fun served ↦ decide (served.1.spiffeId = ⟨.sshLocal, str "user/alice"⟩)) = true) :
    ∃ served, ServedAt shownCrypto accountService ⟨s, fetchEvery inner, s⟩ inner served ∧
      served.1.spiffeId = ⟨.sshLocal, str "user/alice"⟩ := by
  obtain ⟨outcome, hanswer, hany⟩ := (Option.any_eq_true _ _).mp h
  obtain ⟨served, hserved, hroot⟩ := List.any_eq_true.mp hany
  exact ⟨served, ⟨_, _, outcome, rfl, hanswer, hserved⟩, of_decide_eq_true hroot⟩

/-- Two processes with different executables are served under different SPIFFE IDs. -/
theorem pseudonym_per_root_and_executable_twoPeers :
    ∃ served served',
      ServedAt shownCrypto accountService ⟨oneOpen, fetchEvery 7, oneOpen⟩ 7 served ∧
      ServedAt shownCrypto accountService ⟨bothOpen, fetchEvery 8, bothOpen⟩ 8 served' ∧
      served.2.spiffeId ≠ served'.2.spiffeId := by
  obtain ⟨served, hserved, hroot⟩ := exists_servedAt oneOpen 7 (by with_unfolding_all decide)
  obtain ⟨served', hserved', hroot'⟩ := exists_servedAt bothOpen 8 (by with_unfolding_all decide)
  refine ⟨served, served', hserved, hserved', ?_⟩
  obtain ⟨w, w', stream, stream', contents, contents', -, hreads, -, -, hreads', -, hiff⟩ :=
    pseudonym_per_root_and_executable shownCrypto pathOs (.buffered shownCrypto.sha256)
      accountService noConnections (fun _ ↦ rfl) _ _ run_twoPeers
      [⟨noConnections, .accept 7 2, oneOpen⟩]
      [⟨noConnections, .accept 7 2, oneOpen⟩, ⟨oneOpen, fetchEvery 7, oneOpen⟩,
        ⟨oneOpen, .accept 8 2, bothOpen⟩] _ _ _ _ rfl rfl 7 8 served served' hserved hserved'
  obtain rfl := readsExecutable_pathOs hreads
  obtain rfl := readsExecutable_pathOs hreads'
  rw [hroot, hroot'] at hiff
  have hsame := hiff {_, _} ?_ (Or.inl rfl) (Or.inr rfl)
  · intro hid
    exact absurd (hsame.mp hid).2 (by with_unfolding_all decide)
  · rintro input (rfl | rfl) input' (rfl | rfl) h
    · rfl
    · exact absurd h (by with_unfolding_all decide)
    · exact absurd h (by with_unfolding_all decide)
    · rfl

end Serve

end Hire.Grpc
