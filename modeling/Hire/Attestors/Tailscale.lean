import Hire.Attestors.Attestor

/-!
# The Tailscale source

`hire-attestors/src/tailscale.rs`. The source asks tailscaled for its status over a Unix socket:
one HTTP request, a reply that may be chunked (`dechunk`), and a JSON body in which `identityOf`
finds the login and the node. A proof asks again and compares the path. Nothing is signed, so the
evidence is the daemon's word, and the candidate is of the trust domain `tailscale`.

`attestor_enumerate` and `attestor_prove` say all that a run of the source can return: at most one
candidate, which is silent and of the domain `tailscale`, and one daemon assertion of the path that
was asked about. `wholeSegments_identityOf_iff` says which statuses give a path without an empty
segment: `identityOf` falls back from a name that is absent, and takes one that is empty as it is.
-/

set_option autoImplicit false
set_option relaxedAutoImplicit false

namespace Hire.Attestors.Tailscale

open Hire.Library Hire.Core

variable {W : Type}

/-! ### The reply on the wire -/

/-- The end of a line on the wire. -/
def crlf : Bytes := [0x0d, 0x0a]

/-- The end of the header block on the wire. -/
def headerEnd : Bytes := crlf ++ crlf

/-- Whether the headers announce a chunked body. -/
def headerSaysChunked (headers : Bytes) : Bool :=
  (lines (fromUtf8Lossy headers)).any fun l ↦
    (str "transfer-encoding:").isPrefixOf (l.map Char.toLower) &&
      (position (str "chunked") (l.map Char.toLower)).isSome

/-- The value of a hexadecimal digit of either case. -/
def hexValue (c : Char) : Option ℕ :=
  if '0' ≤ c ∧ c ≤ '9' then some (c.toNat - '0'.toNat)
  else if 'a' ≤ c ∧ c ≤ 'f' then some (c.toNat - 'a'.toNat + 10)
  else if 'A' ≤ c ∧ c ≤ 'F' then some (c.toNat - 'A'.toNat + 10)
  else none

/-- A hexadecimal number that fits in sixty-four bits, with an optional plus sign. -/
def fromStrRadix16 (s : Str) : Option ℕ :=
  let digits := if s.head? = some '+' then s.tail else s
  if digits = [] then none
  else
    match digits.mapM hexValue with
    | none => none
    | some values =>
      let value := values.foldl (fun n digit ↦ n * 16 + digit) 0
      if value ≤ u64Max then some value else none

/-- Reassemble a chunked body onto what was read before. -/
def dechunkFrom (U : Unicode) (out body : Bytes) : Except AttestorError Bytes :=
  match _heol : position crlf body with
  | none => .error (.unavailable (str "chunked body: no chunk header"))
  | some eol =>
    let hex := trim ((fromUtf8Lossy (body.take eol)).takeWhile (· ≠ ';'))
    match fromStrRadix16 hex with
    | none => .error (.unavailable (str "chunked body: bad length " ++ U.debug hex))
    | some len =>
      let data := body.drop (eol + 2)
      if len = 0 then .ok out
      else if data.length < len then
        .error (.unavailable (str "chunked body: truncated chunk"))
      else
        let rest := data.drop len
        dechunkFrom U (out ++ data.take len)
          (if crlf.isPrefixOf rest then rest.drop 2 else rest)
termination_by body.length
decreasing_by
  have hinside : eol + crlf.length ≤ body.length := position_add_length_le _heol
  have htwo : crlf.length = 2 := rfl
  split <;> simp only [List.length_drop] <;> omega

/-- Reassemble a chunked body. -/
def dechunk (U : Unicode) (body : Bytes) : Except AttestorError Bytes := dechunkFrom U [] body

/-- The body of a reply. -/
def bodyOf (U : Unicode) (response : Bytes) : Except AttestorError Bytes :=
  match position headerEnd response with
  | none => .error (.unavailable (str "no HTTP body"))
  | some i =>
    if headerSaysChunked (response.take (i + 4)) then dechunk U (response.drop (i + 4))
    else .ok (response.drop (i + 4))

/-- The socket tailscaled listens on. -/
def socketPath : Str := str "/var/run/tailscale/tailscaled.sock"

/-- The request for the status. -/
def statusRequest : Bytes :=
  utf8 (str "GET /localapi/v0/status HTTP/1.1\r\nHost: local-tailscaled.sock\r\n" ++
    str "Connection: close\r\n\r\n")

/-- Ask tailscaled for its status. -/
def fetchStatus (M : Machine W) : Action AttestorError W Json := do
  let stream ← (M.connect socketPath).mapError .unavailable
  (M.writeAll stream statusRequest).mapError .io
  let response ← (M.readToEnd stream).mapError .io
  let body ← Action.ofExcept (bodyOf M.unicode response)
  Action.ofExcept ((M.parseJson body).mapError .unavailable)

/-! ### The identity in a status -/

/-- The member of a value under a key, null where there is none. -/
def index (key : Str) (value : Json) : Json := (value.get key).getD .null

/-- The SPIFFE path and the display name a status gives. -/
def identityOf (status : Json) : Except AttestorError (Str × Str) :=
  let selfNode := index (str "Self") status
  match (index (str "UserID") selfNode).asU64 with
  | none => .error (.unavailable (str "missing Self.UserID"))
  | some userId =>
    let user := index (Nat.toDigits 10 userId) (index (str "User") status)
    match (index (str "LoginName") user).asStr with
    | none => .error (.unavailable (str "no User entry for " ++ Nat.toDigits 10 userId))
    | some loginName =>
      let nodeName := (((index (str "DNSName") selfNode).asStr.map fun d ↦
        d.rdropWhile (· = '.')).or (index (str "HostName") selfNode).asStr).getD (str "unknown")
      let display := (index (str "DisplayName") user).asStr.getD loginName
      .ok (str "user/" ++ loginName ++ str "/node/" ++ nodeName, display)

/-! ### tailscaled as a source -/

/-- Whether the socket is there. -/
def isAvailable (M : Machine W) : Action AttestorError W Bool :=
  Action.ask (M.pathExists socketPath)

/-- The candidate of an identity. -/
def candidateOf (identity : Str × Str) : Candidate :=
  ((Candidate.new (str "tailscale") .tailscale identity.1 identity.2).withAttainable
    .iaa2).withProofCost .silent

/-- The identity tailscaled reports, as a candidate. -/
def enumerate (M : Machine W) : Action AttestorError W (List Candidate) := do
  let available ← isAvailable M
  if !available then pure []
  else
    let status ← fetchStatus M
    let identity ← Action.ofExcept (identityOf status)
    pure [candidateOf identity]

/-- Prove an identity: ask again, and require the same path. -/
def prove (M : Machine W) (candidate : Candidate) (_challenge : Bytes) :
    Action AttestorError W (List Evidence) := do
  let status ← fetchStatus M
  let (path, _) ← Action.ofExcept (identityOf status)
  if path ≠ candidate.path then
    Action.fail (.challengeFailed (str "tailscaled no longer reports " ++ candidate.path))
  else
    let now ← Action.ask M.now
    pure [.daemonAssertion ⟨path, now⟩]

/-- tailscaled as a source. -/
def attestor (M : Machine W) : Attestor W where
  name := str "tailscale"
  enumerate := enumerate M
  prove := prove M

/-- tailscaled shows nothing, or the candidate of one identity. -/
theorem attestor_enumerate (M : Machine W) :
    (attestor M).enumerate.Yields
      fun candidates ↦ candidates = [] ∨ ∃ identity, candidates = [candidateOf identity] := by
  refine .seq fun available ↦ ?_
  split
  · exact .pure (Or.inl rfl)
  · exact .seq fun status ↦ .seq fun identity ↦ .pure (Or.inr ⟨identity, rfl⟩)

/-- A proof by tailscaled is one daemon assertion of the candidate's path. -/
theorem attestor_prove (M : Machine W) (candidate : Candidate) (challenge : Bytes) :
    ((attestor M).prove candidate challenge).Yields
      fun evidence ↦ ∃ askedAt, evidence = [.daemonAssertion ⟨candidate.path, askedAt⟩] := by
  refine .seq fun status ↦ .seq fun identity ↦ ?_
  dsimp only
  split
  · exact .fail
  · rename_i hpath
    refine .seq fun now ↦ .pure ⟨now, ?_⟩
    rw [not_not.mp hpath]

/-- tailscaled is confined to the trust domain `tailscale`. -/
theorem attestor_confined (M : Machine W) : (attestor M).Confined .tailscale where
  enumerate := by
    intro w candidates hcandidates candidate hcandidate
    rcases attestor_enumerate M w candidates hcandidates with rfl | ⟨identity, rfl⟩
    · cases hcandidate
    · rw [List.mem_singleton.mp hcandidate]
      rfl
  prove candidate challenge := by
    intro w evidence hevidence e he
    obtain ⟨askedAt, rfl⟩ := attestor_prove M candidate challenge w evidence hevidence
    rw [List.mem_singleton.mp he]
    rfl

/-! ### The names in a path -/

/-- A text has no empty segment between slashes; in particular it is not empty. -/
def WholeSegments (text : Str) : Prop := [] ∉ text.splitOn '/'

instance : DecidablePred WholeSegments := fun text ↦
  inferInstanceAs (Decidable ([] ∉ text.splitOn '/'))

theorem wholeSegments_append_cons {left right : Str} :
    WholeSegments (left ++ '/' :: right) ↔ WholeSegments left ∧ WholeSegments right := by
  unfold WholeSegments
  rw [List.splitOn_append_cons_self, List.mem_append, not_or]

/-- The names of a status are whole: where it has a user ID and a login for it, the login has no
empty segment, and neither does the name the node goes by, which is the DNS name without its dots at
the end where there is one, and the host name where there is none. -/
def NamesWhole (status : Json) : Prop :=
  ∀ userId loginName,
    (index (str "UserID") (index (str "Self") status)).asU64 = some userId →
    (index (str "LoginName") (index (Nat.toDigits 10 userId) (index (str "User") status))).asStr =
      some loginName →
    WholeSegments loginName ∧
    (∀ dnsName, (index (str "DNSName") (index (str "Self") status)).asStr = some dnsName →
      WholeSegments (dnsName.rdropWhile (· = '.'))) ∧
    ∀ hostName, (index (str "DNSName") (index (str "Self") status)).asStr = none →
      (index (str "HostName") (index (str "Self") status)).asStr = some hostName →
      WholeSegments hostName

/-- The path of a login and a node has no empty segment exactly when neither name has one. -/
theorem wholeSegments_path (loginName nodeName : Str) :
    WholeSegments (str "user/" ++ loginName ++ str "/node/" ++ nodeName) ↔
      WholeSegments loginName ∧ WholeSegments nodeName := by
  have hpath : str "user/" ++ loginName ++ str "/node/" ++ nodeName =
      str "user" ++ '/' :: (loginName ++ '/' :: (str "node" ++ '/' :: nodeName)) := by
    simp
  have huser : WholeSegments (str "user") := by
    with_unfolding_all decide
  have hnode : WholeSegments (str "node") := by
    with_unfolding_all decide
  rw [hpath, wholeSegments_append_cons, wholeSegments_append_cons, wholeSegments_append_cons]
  simp only [huser, hnode, true_and]

/-- The name a node goes by. -/
def nodeNameOf (selfNode : Json) : Str :=
  (((index (str "DNSName") selfNode).asStr.map fun d ↦ d.rdropWhile (· = '.')).or
    (index (str "HostName") selfNode).asStr).getD (str "unknown")

theorem wholeSegments_nodeNameOf (selfNode : Json) :
    WholeSegments (nodeNameOf selfNode) ↔
      (∀ dnsName, (index (str "DNSName") selfNode).asStr = some dnsName →
        WholeSegments (dnsName.rdropWhile (· = '.'))) ∧
      ∀ hostName, (index (str "DNSName") selfNode).asStr = none →
        (index (str "HostName") selfNode).asStr = some hostName → WholeSegments hostName := by
  have hunknown : WholeSegments (str "unknown") := by
    with_unfolding_all decide
  unfold nodeNameOf
  cases (index (str "DNSName") selfNode).asStr with
  | some dnsName => simp
  | none =>
    cases (index (str "HostName") selfNode).asStr with
    | some hostName => simp
    | none => simpa using hunknown

/-- A status gives an identity exactly when it has a user ID and a login for it. -/
theorem identityOf_eq_ok_iff {status : Json} {path display : Str} :
    identityOf status = .ok (path, display) ↔ ∃ userId loginName,
      (index (str "UserID") (index (str "Self") status)).asU64 = some userId ∧
      (index (str "LoginName") (index (Nat.toDigits 10 userId) (index (str "User") status))).asStr =
        some loginName ∧
      path = str "user/" ++ loginName ++ str "/node/" ++ nodeNameOf (index (str "Self") status) ∧
      display = (index (str "DisplayName") (index (Nat.toDigits 10 userId)
        (index (str "User") status))).asStr.getD loginName := by
  constructor
  · intro h
    unfold identityOf at h
    dsimp only at h
    split at h
    · cases h
    · rename_i userId huserId
      split at h
      · cases h
      · rename_i loginName hlogin
        obtain ⟨rfl, rfl⟩ := Prod.mk.inj (Except.ok.inj h)
        exact ⟨userId, loginName, huserId, hlogin, rfl, rfl⟩
  · rintro ⟨userId, loginName, huserId, hlogin, rfl, rfl⟩
    unfold identityOf
    simp only [huserId, hlogin]
    rfl

/-- When no identity is built from an empty name: the paths a status gives have no empty segment
exactly when its names are whole. -/
theorem wholeSegments_identityOf_iff (status : Json) :
    (∀ path display, identityOf status = .ok (path, display) → [] ∉ path.splitOn '/') ↔
      NamesWhole status := by
  unfold NamesWhole
  simp only [← wholeSegments_nodeNameOf]
  constructor
  · intro hwhole userId loginName huserId hlogin
    have hpath := hwhole _ _
      (identityOf_eq_ok_iff.mpr ⟨userId, loginName, huserId, hlogin, rfl, rfl⟩)
    exact (wholeSegments_path _ _).mp hpath
  · intro hnames path display hidentity
    obtain ⟨userId, loginName, huserId, hlogin, rfl, -⟩ := identityOf_eq_ok_iff.mp hidentity
    exact (wholeSegments_path _ _).mpr (hnames userId loginName huserId hlogin)

/-- A user entry with an empty login gives a path with an empty segment, and so does a node whose
DNS name is nothing but dots, although it has a host name. -/
theorem identityOf_empty_names :
    let users := fun login : Str ↦
      (str "User", Json.object [(str "7", .object [(str "LoginName", .string login)])])
    let node := fun names : List (Str × Json) ↦
      (str "Self", Json.object ((str "UserID", .number (.posInt 7)) ::
        (str "HostName", .string (str "heft")) :: names))
    identityOf (.object [node [], users []]) = .ok (str "user//node/heft", []) ∧
    identityOf (.object [node [(str "DNSName", .string (str "."))], users (str "a@b")]) =
      .ok (str "user/a@b/node/", str "a@b") ∧
    ¬∀ (status : Json) (path display : Str), identityOf status = .ok (path, display) →
      [] ∉ path.splitOn '/' := by
  intro users node
  have hlogin : identityOf (.object [node [], users []]) = .ok (str "user//node/heft", []) := by
    with_unfolding_all rfl
  refine ⟨hlogin, by with_unfolding_all rfl, fun hwhole ↦ ?_⟩
  exact absurd (hwhole _ _ _ hlogin) (by with_unfolding_all decide)

end Hire.Attestors.Tailscale
