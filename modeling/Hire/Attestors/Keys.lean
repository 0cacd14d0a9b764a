import Hire.Core.Foreign

/-!
# Key blobs and key names

The pure parts of `hire-attestors/src/ssh.rs` and `hire-attestors/src/did_key.rs` that the verifying
constructors of `hire-attestors/src/claim.rs` use: the length-prefixed strings of the agent
protocol, the ed25519 point of an agent key and of a `did:key` identifier, and the SPIFFE path of
each. A `did:key` is decoded by a bignum of a fixed width, and the array type carries that width
through the loop.
-/

set_option autoImplicit false
set_option relaxedAutoImplicit false

namespace Hire.Attestors

open Hire.Library Hire.Core

/-! ### Length-prefixed strings -/

/-- The value of four bytes, most significant first. -/
def u32FromBeBytes (b0 b1 b2 b3 : UInt8) : ℕ :=
  ((b0.toNat * 256 + b1.toNat) * 256 + b2.toNat) * 256 + b3.toNat

/-- The low four bytes of a number, most significant first. -/
def u32ToBeBytes (n : ℕ) : Bytes :=
  [UInt8.ofNat (n / 16777216), UInt8.ofNat (n / 65536), UInt8.ofNat (n / 256), UInt8.ofNat n]

/-- Read a length-prefixed blob, returning the blob and the rest. -/
def readString : Bytes → Option (Bytes × Bytes)
  | b0 :: b1 :: b2 :: b3 :: rest =>
    let len := u32FromBeBytes b0 b1 b2 b3
    if rest.length < len then none else some (rest.take len, rest.drop len)
  | _ => none

/-- Append a length-prefixed blob. -/
def pushString (buf s : Bytes) : Bytes := buf ++ u32ToBeBytes s.length ++ s

namespace Ssh

/-- The one agent key type that is proved. -/
def sshEd25519 : Bytes := utf8 (str "ssh-ed25519")

/-- The SPIFFE path of an agent key. -/
def spiffePath (C : Crypto) (keyBlob : Bytes) : Str :=
  str "key/" ++ base64Encode base64Standard (C.sha256 keyBlob).1

/-- The ed25519 point an agent key carries. -/
def ed25519PointOf (keyBlob : Bytes) : Option (ByteArr 32) :=
  match readString keyBlob with
  | none => none
  | some (algorithm, rest) =>
    match readString rest with
    | none => none
    | some (point, rest) =>
      if algorithm = sshEd25519 ∧ rest = [] then toByteArr 32 point else none

end Ssh

/-! ### `did:key` identifiers -/

namespace DidKey

/-- The base58 alphabet of Bitcoin, which the multibase letter `z` names. -/
def base58Btc : Bytes :=
  utf8 (str "123456789ABCDEFGHJKLMNPQRSTUVWXYZabcdefghijkmnopqrstuvwxyz")

/-- The multicodec label of an ed25519 public key. -/
def ed25519Multicodec : Bytes := [0xed, 0x01]

/-- Multiply a byte by 58 and add the carry, leaving the low byte and the next carry. -/
def mulAddByte (byte : UInt8) (acc : Bytes × ℕ) : Bytes × ℕ :=
  let carry := acc.2 + 58 * byte.toNat
  (UInt8.ofNat carry :: acc.1, carry / 256)

theorem length_foldr_mulAddByte (bytes : Bytes) (carry : ℕ) :
    (bytes.foldr mulAddByte ([], carry)).1.length = bytes.length := by
  induction bytes with
  | nil => rfl
  | cons byte rest ih => simp [mulAddByte, ih]

/-- Multiply a number of a fixed width by 58 and add a digit; the second part is what carries out
of the buffer. -/
def pushDigit {n : ℕ} (decoded : ByteArr n) (digit : ℕ) : ByteArr n × ℕ :=
  (⟨(decoded.1.foldr mulAddByte ([], digit)).1,
    (length_foldr_mulAddByte decoded.1 digit).trans decoded.2⟩,
    (decoded.1.foldr mulAddByte ([], digit)).2)

/-- Read base58 digits into a buffer of a fixed width, refusing a foreign character and a number
that does not fit. -/
def base58Decode {n : ℕ} (decoded : ByteArr n) : Bytes → Option (ByteArr n)
  | [] => some decoded
  | c :: rest =>
    match base58Btc.findIdx? (· == c) with
    | none => none
    | some digit =>
      if (pushDigit decoded digit).2 = 0 then base58Decode (pushDigit decoded digit).1 rest
      else none

/-- The ed25519 public key a `did:key` encodes. -/
def ed25519Point (did : Str) : Option (ByteArr 32) :=
  match stripPrefix (str "did:key:z") did with
  | none => none
  | some suffix =>
    match base58Decode (fill 34 0) (utf8 suffix) with
    | none => none
    | some decoded =>
      if decoded.1.take 2 = ed25519Multicodec then
        some ⟨decoded.1.drop 2, by rw [List.length_drop, decoded.2]⟩
      else none

/-- The hash of a DID, as sixty-four hexadecimal digits. -/
def didId (C : Crypto) (did : Str) : Str := hex (C.sha256 (utf8 did)).1

/-- The SPIFFE path of a DID. -/
def spiffePath (C : Crypto) (did : Str) : Str := str "did/" ++ didId C did

/-- The `did:key` identifiers of a whitespace-separated list. -/
def parseDidKeysFrom (raw : Str) : List Str :=
  (splitWhitespace raw).filter fun s ↦ (str "did:key:").isPrefixOf s

end DidKey

end Hire.Attestors
