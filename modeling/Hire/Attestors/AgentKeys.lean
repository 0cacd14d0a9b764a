import Hire.Attestors.SshAgent
import Hire.Attestors.Verify
import Hire.Library.Framing
import Hire.Library.Positional

/-!
# The keys of an identities answer

What `list_identities` of `hire-attestors/src/ssh.rs` makes of the reply of an agent. The reply
claims a number of keys and then frames a blob and a comment for each, every one of them behind a
length of its own. The number and the lengths come from a socket, and nothing makes them agree with
the bytes that are there.

A blob and a comment are read exactly (`exact_readKey`), so the keys that are found are the longest
run of whole ones, within the number that is claimed (`decodeIdentities_longestRun`).
`decodeIdentitiesChecked` is the reader of the source with every slice checked, and
`decodeIdentitiesChecked_eq_some` says that none is out of range. `list_identities_exact` joins
them.
-/

set_option autoImplicit false
set_option relaxedAutoImplicit false

namespace Hire.Attestors.Ssh

open Hire.Library Hire.Core

/-! ### What the agent sends -/

/-- A blob and a comment have lengths of four bytes. -/
def FitsAgent (key : Bytes × Bytes) : Prop := key.1.length < 2 ^ 32 ∧ key.2.length < 2 ^ 32

/-- A key on the wire: the blob behind its length, and the comment behind its length. -/
def keyBytes (key : Bytes × Bytes) : Bytes := framed key.1 ++ framed key.2

/-- The answer that frames keys. -/
def identitiesReply (keys : List (Bytes × Bytes)) : Bytes :=
  identitiesAnswer :: (u32ToBeBytes keys.length ++ keys.flatMap keyBytes)

/-- A key as it is listed: the blob, and the comment as a text. -/
def listed (key : Bytes × Bytes) : Bytes × Str := (key.1, fromUtf8Lossy key.2)

/-! ### What is read -/

theorem exact_readString : Exact (fun s : Bytes ↦ s.length < 2 ^ 32) framed readString :=
  fun _ _ _ ↦ readString_eq_some_iff

/-- A blob and the comment behind it are read exactly. -/
theorem exact_readKey : Exact FitsAgent keyBytes (readPair readString readString) :=
  exact_readString.pair exact_readString

theorem readIdentities_eq (nkeys : ℕ) (cur : Bytes) :
    readIdentities nkeys cur =
      (readRun (readPair readString readString) nkeys cur).1.map listed := by
  induction nkeys generalizing cur with
  | zero => rfl
  | succ nkeys ih =>
    rw [readIdentities, readRun, readPair]
    cases readString cur with
    | none => rfl
    | some blob =>
      dsimp only
      cases readString blob.2 with
      | none => rfl
      | some comment =>
        dsimp only
        rw [ih, List.map_cons]
        rfl

theorem decodeIdentities_cons (b0 b1 b2 b3 : UInt8) (body : Bytes) :
    decodeIdentities (identitiesAnswer :: b0 :: b1 :: b2 :: b3 :: body) =
      .ok (readIdentities (u32FromBeBytes b0 b1 b2 b3) body) := by
  rw [decodeIdentities, if_neg (fun hne ↦ hne rfl)]

theorem decodeIdentities_of_ne {msgType : UInt8} (htype : msgType ≠ identitiesAnswer)
    (cur : Bytes) : decodeIdentities (msgType :: cur) =
      .error (.unavailable (str "unexpected response from SSH agent")) := by
  unfold decodeIdentities
  exact if_pos htype

/-- A reply that does not reach the end of the number lists no key. -/
theorem decodeIdentities_of_short {cur : Bytes} (hshort : cur.length < 4) :
    decodeIdentities (identitiesAnswer :: cur) = .ok [] := by
  unfold decodeIdentities
  dsimp only
  rw [if_neg (fun hne ↦ hne rfl)]
  split
  · simp only [List.length_cons] at hshort
    omega
  · rfl

/-- Keys are read back from the answer that frames them. -/
theorem decodeIdentities_identitiesReply {keys : List (Bytes × Bytes)}
    (hcount : keys.length < 2 ^ 32) (hkeys : ∀ key ∈ keys, FitsAgent key) :
    decodeIdentities (identitiesReply keys) = .ok (keys.map listed) := by
  have hbody : Run FitsAgent keyBytes (keys.flatMap keyBytes) keys [] :=
    ⟨(List.append_nil _).symm, hkeys⟩
  have hread := exact_readKey.readRun_eq hbody le_rfl fun hlt ↦ absurd hlt (lt_irrefl _)
  have hcons := decodeIdentities_cons (UInt8.ofNat (keys.length / 16777216))
    (UInt8.ofNat (keys.length / 65536)) (UInt8.ofNat (keys.length / 256))
    (UInt8.ofNat keys.length) (keys.flatMap keyBytes)
  rw [u32FromBeBytes_ofNat hcount, readIdentities_eq, hread] at hcons
  exact hcons

/-- Whatever number is claimed and whatever follows, the keys that are found are the longest run of
whole keys in front, within that number. -/
theorem decodeIdentities_longestRun (b0 b1 b2 b3 : UInt8) (body : Bytes) :
    ∃ keys, LongestRun FitsAgent keyBytes (u32FromBeBytes b0 b1 b2 b3) body keys ∧
      decodeIdentities (identitiesAnswer :: b0 :: b1 :: b2 :: b3 :: body) =
        .ok (keys.map listed) := by
  refine ⟨_, exact_readKey.longestRun_readRun (u32FromBeBytes b0 b1 b2 b3) body, ?_⟩
  rw [decodeIdentities_cons, readIdentities_eq]

/-- A key takes the two lengths at least. -/
theorem eight_le_length_keyBytes (key : Bytes × Bytes) : 8 ≤ (keyBytes key).length := by
  rw [keyBytes, List.length_append, length_framed, length_framed]
  omega

/-- Whole keys in front of a body are no more than an eighth of its bytes. -/
theorem length_le_of_longestRun {count : ℕ} {body : Bytes} {keys : List (Bytes × Bytes)}
    (h : LongestRun FitsAgent keyBytes count body keys) : keys.length ≤ body.length / 8 := by
  obtain ⟨rest, hrun⟩ := h.front
  have hkeys := length_mul_le_length_flatMap eight_le_length_keyBytes keys
  have hlength := congrArg List.length hrun.buf_eq
  rw [List.length_append] at hlength
  omega

/-! ### The slices of the reader -/

/-- `readString` with every slice of the source checked. There is no result when one is out of
range. -/
def readStringChecked (buf : Bytes) : Option (Option (Bytes × Bytes)) :=
  if buf.length < 4 then some none
  else do
    let (lenBytes, rest) ← cutAt 4 buf
    let len := beValue lenBytes
    if rest.length < len then some none
    else (cutAt len rest).map some

/-- `readIdentities` with every slice of the source checked. -/
def readIdentitiesChecked : ℕ → Bytes → Option (List (Bytes × Str))
  | 0, _ => some []
  | nkeys + 1, cur => do
    match ← readStringChecked cur with
    | none => some []
    | some (keyBlob, rest) =>
      match ← readStringChecked rest with
      | none => some []
      | some (comment, rest) =>
        let keys ← readIdentitiesChecked nkeys rest
        some ((keyBlob, fromUtf8Lossy comment) :: keys)

/-- `decodeIdentities` with every slice of the source checked. -/
def decodeIdentitiesChecked (resp : Bytes) :
    Option (Except AttestorError (List (Bytes × Str))) :=
  if resp.head? ≠ some identitiesAnswer then
    some (.error (.unavailable (str "unexpected response from SSH agent")))
  else do
    let (_, cur) ← cutAt 1 resp
    if cur.length < 4 then some (.ok [])
    else
      let (countBytes, cur) ← cutAt 4 cur
      let keys ← readIdentitiesChecked (beValue countBytes) cur
      some (.ok keys)

theorem beValue_four (b0 b1 b2 b3 : UInt8) :
    beValue [b0, b1, b2, b3] = u32FromBeBytes b0 b1 b2 b3 := by
  rw [beValue_cons, beValue_cons, beValue_cons, beValue_cons]
  have hnil : beValue [] = 0 := rfl
  simp only [hnil, List.length_cons, List.length_nil, u32FromBeBytes]
  omega

theorem cutAt_four (b0 b1 b2 b3 : UInt8) (rest : Bytes) :
    cutAt 4 (b0 :: b1 :: b2 :: b3 :: rest) = some ([b0, b1, b2, b3], rest) :=
  cutAt_eq_some_iff.mpr ⟨rfl, rfl⟩

/-- A byte string is shorter than four bytes, or is four bytes and more. -/
theorem short_or_four (buf : Bytes) :
    buf.length < 4 ∨ ∃ b0 b1 b2 b3 rest, buf = b0 :: b1 :: b2 :: b3 :: rest := by
  match buf with
  | [] | [_] | [_, _] | [_, _, _] => exact .inl (by simp)
  | b0 :: b1 :: b2 :: b3 :: rest => exact .inr ⟨b0, b1, b2, b3, rest, rfl⟩

theorem readString_of_short {buf : Bytes} (hshort : buf.length < 4) : readString buf = none := by
  unfold readString
  split
  · simp only [List.length_cons] at hshort
    omega
  · rfl

/-- No slice of `readString` is out of range. -/
theorem readStringChecked_eq_some (buf : Bytes) :
    readStringChecked buf = some (readString buf) := by
  rcases short_or_four buf with hshort | ⟨b0, b1, b2, b3, rest, rfl⟩
  · rw [readStringChecked, if_pos hshort, readString_of_short hshort]
  · have hlong : ¬(b0 :: b1 :: b2 :: b3 :: rest).length < 4 := by simp
    rw [readStringChecked, if_neg hlong, cutAt_four, readString]
    simp only [Option.bind_eq_bind, Option.bind_some, beValue_four]
    split_ifs with hlen
    · rfl
    · rw [cutAt, if_pos (Nat.le_of_not_lt hlen), Option.map_some]

/-- No slice of the loop is out of range. -/
theorem readIdentitiesChecked_eq_some (nkeys : ℕ) (cur : Bytes) :
    readIdentitiesChecked nkeys cur = some (readIdentities nkeys cur) := by
  induction nkeys generalizing cur with
  | zero => rfl
  | succ nkeys ih =>
    rw [readIdentitiesChecked, readIdentities, readStringChecked_eq_some, Option.bind_eq_bind,
      Option.bind_some]
    cases readString cur with
    | none => rfl
    | some blob =>
      dsimp only
      rw [readStringChecked_eq_some, Option.bind_some]
      cases readString blob.2 with
      | none => rfl
      | some comment =>
        dsimp only
        rw [ih]
        rfl

/-- No slice of the reader is out of range, whatever the reply. -/
theorem decodeIdentitiesChecked_eq_some (resp : Bytes) :
    decodeIdentitiesChecked resp = some (decodeIdentities resp) := by
  cases resp with
  | nil => rfl
  | cons msgType cur =>
    have htail : cutAt 1 (msgType :: cur) = some ([msgType], cur) :=
      cutAt_eq_some_iff.mpr ⟨rfl, rfl⟩
    rw [decodeIdentitiesChecked, List.head?_cons]
    by_cases htype : msgType = identitiesAnswer
    · subst htype
      rw [if_neg (fun hne ↦ hne rfl), htail, Option.bind_eq_bind, Option.bind_some]
      dsimp only
      rcases short_or_four cur with hshort | ⟨b0, b1, b2, b3, body, rfl⟩
      · rw [if_pos hshort, decodeIdentities_of_short hshort]
      · rw [if_neg (by simp), cutAt_four, Option.bind_some, decodeIdentities_cons]
        dsimp only
        rw [readIdentitiesChecked_eq_some, beValue_four]
        rfl
    · rw [if_pos (fun heq ↦ htype (Option.some.inj heq)), decodeIdentities_of_ne htype]

/-! ### The list -/

/-- Once a reply is in, the list is what is decoded from it. -/
theorem listIdentities_of_reply {W : Type} {M : Machine W} {stream : ℕ} {w w' : W} {resp : Bytes}
    (hreply : agentRoundtrip M stream requestIdentities [] w = (.ok resp, w')) :
    listIdentities M stream w = (decodeIdentities resp, w') := by
  rw [listIdentities, Action.bind_of_ok hreply]
  cases decodeIdentities resp <;> rfl

/-- The list of keys is parsed exactly and boundedly. From the answer that frames keys under their
number, with lengths and a number of four bytes, the same blobs are listed in the same order. From
any reply of that type, whatever number it claims, the keys that are listed are the longest run of
whole ones in front, within that number, so there are at most an eighth as many as bytes behind the
number; a reply that does not reach the end of the number lists none. On no reply is a slice of the
source out of range, and what the source returns is what is decoded from the reply. -/
theorem list_identities_exact :
    (∀ keys : List (Bytes × Bytes), keys.length < 2 ^ 32 → (∀ key ∈ keys, FitsAgent key) →
      decodeIdentities (identitiesReply keys) = .ok (keys.map listed)) ∧
    (∀ (b0 b1 b2 b3 : UInt8) (body reply : Bytes),
      reply = identitiesAnswer :: b0 :: b1 :: b2 :: b3 :: body →
      ∃ keys, LongestRun FitsAgent keyBytes (u32FromBeBytes b0 b1 b2 b3) body keys ∧
        decodeIdentities reply = .ok (keys.map listed) ∧
        (keys.map listed).length ≤ (reply.length - 5) / 8) ∧
    (∀ short : Bytes, short.length < 4 → decodeIdentities (identitiesAnswer :: short) = .ok []) ∧
    (∀ reply : Bytes, decodeIdentitiesChecked reply = some (decodeIdentities reply)) ∧
    ∀ {W : Type} (M : Machine W) (stream : ℕ) (w w' : W) (reply : Bytes),
      agentRoundtrip M stream requestIdentities [] w = (.ok reply, w') →
        listIdentities M stream w = (decodeIdentities reply, w') := by
  refine ⟨fun keys hcount hkeys ↦ decodeIdentities_identitiesReply hcount hkeys, ?_,
    fun short hshort ↦ decodeIdentities_of_short hshort, decodeIdentitiesChecked_eq_some,
    fun M stream w w' reply hreply ↦ listIdentities_of_reply hreply⟩
  rintro b0 b1 b2 b3 body reply rfl
  obtain ⟨keys, hlongest, hread⟩ := decodeIdentities_longestRun b0 b1 b2 b3 body
  refine ⟨keys, hlongest, hread, ?_⟩
  rw [List.length_map]
  exact length_le_of_longestRun hlongest

end Hire.Attestors.Ssh
