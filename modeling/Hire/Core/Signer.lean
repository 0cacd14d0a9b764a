import Hire.Core.Pseudonym

/-!
# The signer

`hire-core/src/signer.rs`. A signer holds one keypair for the life of the daemon and the key of the
consumer pseudonyms. Its public point and its encoding key are built from the signing key when it
is made, and the structure carries that as two fields, so no signer publishes one key and signs
with another. `SvidSigner.kid` is the thumbprint of the public point; it is the `kid` of the
published key set and of every token header.

`TokenLib.Documented` states what the documentation of the token functions promises of the payloads
that a signer encodes: a token reads back as the header and payload that were encoded, a published
key reads back from its JWK, and verification under the key that matches the signature accepts
exactly the tokens that are neither expired nor meant for another audience.

`signJwtSvid` reads the clock it is given. A clock before the Unix epoch panics, and an error of
the token library is returned with its text.
-/

set_option autoImplicit false
set_option relaxedAutoImplicit false

namespace Hire.Core

open Hire.Library

/-- How a computation ends without a value: with an error, or with a panic. -/
inductive Fault (ε : Type)
  | error (e : ε)
  | panic (message : Str)
  deriving DecidableEq, Repr

/-- An error of the signer. -/
inductive SignerError
  | jwt (message : Str)
  deriving DecidableEq, Repr

/-- The message of a signer error. -/
def SignerError.toStr : SignerError → Str
  | .jwt message => str "jwt error: " ++ message

/-- The payload of a JWT-SVID. -/
structure JwtClaims where
  sub : Str
  aud : List Str
  exp : ℕ
  iat : ℕ
  spiffeId : Str
  hire : Json

/-- The payload as the JSON object that is signed. -/
def JwtClaims.toValue (claims : JwtClaims) : Json :=
  .object [(str "sub", .string claims.sub), (str "aud", .array (claims.aud.map .string)),
    (str "exp", .number (.posInt claims.exp)), (str "iat", .number (.posInt claims.iat)),
    (str "spiffe_id", .string claims.spiffeId), (str "hire", claims.hire)]

/-- The members of the signed payload that a validator reads. -/
theorem JwtClaims.get_spiffeId (claims : JwtClaims) :
    claims.toValue.get (str "spiffe_id") = some (.string claims.spiffeId) := by
  simp [JwtClaims.toValue, Json.get, List.lookup_cons]

theorem JwtClaims.get_exp (claims : JwtClaims) :
    claims.toValue.get (str "exp") = some (.number (.posInt claims.exp)) := by
  simp [JwtClaims.toValue, Json.get, List.lookup_cons]

theorem JwtClaims.payloadAudiences_toValue (claims : JwtClaims) :
    payloadAudiences claims.toValue = claims.aud := by
  have haud : claims.toValue.get (str "aud") = some (.array (claims.aud.map .string)) := by
    simp [JwtClaims.toValue, Json.get, List.lookup_cons]
  rw [payloadAudiences, haud]
  simp [Json.strItems, Json.asStr, List.filterMap_map, Function.comp_def]

/-- A validation of one audience with no leeway accepts a payload exactly when it is not expired
and names the audience. -/
theorem JwtClaims.accepts_iff (claims : JwtClaims) (audience : Str) (now : ℕ) :
    Validation.accepts ⟨.es256, [audience], 0⟩ now claims.toValue = true ↔
      now ≤ claims.exp ∧ audience ∈ claims.aud := by
  unfold Validation.accepts
  rw [claims.get_exp, claims.payloadAudiences_toValue]
  simp [Json.asU64]

/-- What the documentation of the token functions promises of the tokens that the signer encodes. -/
structure TokenLib.Documented (L : TokenLib) : Prop where
  /-- A token is not the empty string. -/
  isEmpty_encode : ∀ header payload key token, L.encode header payload key = .ok token →
    L.isEmpty token = false
  /-- A token read without verification gives back what was encoded. -/
  insecureDecode_encode : ∀ header (claims : JwtClaims) key token,
    L.encode header claims.toValue key = .ok token →
    L.insecureDecode token = some (header, claims.toValue)
  /-- A JWK set of one key is read as that key. -/
  jwkSet_jwksValue : ∀ kid x y, L.jwkSet (jwksValue kid x y) =
    some [⟨some kid, .ellipticCurve .p256 x y⟩]
  /-- The JWK of a public key yields a verification key. -/
  fromJwk_pointJwk : ∀ kid signingKey,
    ∃ key, L.fromJwk (pointJwk kid (L.publicSec1 signingKey)) = some key
  /-- The verification key of a signing key accepts what that key signed, as long as the payload
  passes the remaining checks. -/
  decode_encode : ∀ kid signingKey key header (claims : JwtClaims) token validation now,
    L.fromJwk (pointJwk kid (L.publicSec1 signingKey)) = some key →
    L.encode header claims.toValue (L.encodingKey signingKey) = .ok token →
    header.alg = validation.algorithm →
    L.decode token key validation now =
      if validation.accepts now claims.toValue then some claims.toValue else none

/-- The transparent library behaves as documented. -/
theorem TokenLib.transparent_documented : TokenLib.transparent.Documented where
  isEmpty_encode _ _ _ _ _ := rfl
  insecureDecode_encode header claims key token h := by
    obtain rfl : (header, claims.toValue, key) = token := Except.ok.inj h
    rfl
  jwkSet_jwksValue kid x y := by
    simp [TokenLib.transparent, jwksValue, itemsOf, jwkOf, Json.get, Json.asStr, List.lookup_cons]
  fromJwk_pointJwk kid signingKey := ⟨_, rfl⟩
  decode_encode kid signingKey key header claims token validation now hkey hencode halg := by
    obtain rfl : (header, claims.toValue, signingKey) = token := Except.ok.inj hencode
    obtain rfl : coordinates signingKey = key := Option.some.inj hkey
    simp [TokenLib.transparent, halg]

/-- A signer: a keypair and the key material of the consumer pseudonyms. -/
structure SvidSigner (L : TokenLib) where
  signingKey : L.SigningKey
  publicKeySec1 : ByteArr 65
  encodingKey : L.EncodingKey
  pseudonymIkm : ByteArr 32
  publicKeySec1_eq : publicKeySec1 = L.publicSec1 signingKey
  encodingKey_eq : encodingKey = L.encodingKey signingKey

/-- The thumbprint of a P-256 key: the hash of its canonical JSON form. -/
def jwkThumbprint (C : Crypto) (x y : Str) : Str :=
  base64Encode base64Url (C.sha256 (utf8
    (str "\x7b\"crv\":\"P-256\",\"kty\":\"EC\",\"x\":\"" ++ x ++ str "\",\"y\":\"" ++ y ++
      str "\"\x7d"))).1

namespace SvidSigner

variable {L : TokenLib}

/-- The signer of a signing key and fresh pseudonym key material. -/
def fromSigningKey (signingKey : L.SigningKey) (pseudonymIkm : ByteArr 32) : SvidSigner L where
  signingKey := signingKey
  publicKeySec1 := L.publicSec1 signingKey
  encodingKey := L.encodingKey signingKey
  pseudonymIkm := pseudonymIkm
  publicKeySec1_eq := rfl
  encodingKey_eq := rfl

/-- The coordinates of the public point, as base64url text. -/
def publicXy (signer : SvidSigner L) : Str × Str := coordinates signer.publicKeySec1

/-- The key ID of the signer. -/
def kid (C : Crypto) (signer : SvidSigner L) : Str :=
  jwkThumbprint C signer.publicXy.1 signer.publicXy.2

/-- The key set the signer is published with. -/
def jwks (C : Crypto) (signer : SvidSigner L) : Json :=
  jwksValue (jwkThumbprint C signer.publicXy.1 signer.publicXy.2) signer.publicXy.1
    signer.publicXy.2

/-- The SPIFFE ID a consumer is issued for a root identity. -/
def pseudonymousId (C : Crypto) (signer : SvidSigner L) (root : SpiffeId)
    (consumer : ConsumerIdentity) : SpiffeId :=
  derivePseudonymousId C signer.pseudonymIkm root consumer

/-- The payload of a token signed at a whole second of the Unix clock; it lives five minutes. -/
def svidClaims (now : ℕ) (spiffeId : Str) (audiences : List Str) (hireExt : Json) : JwtClaims :=
  ⟨spiffeId, audiences, now + 300, now, spiffeId, hireExt⟩

/-- The header of the tokens the signer issues. -/
def svidHeader (C : Crypto) (signer : SvidSigner L) : Header := ⟨.es256, some (signer.kid C)⟩

/-- Sign a JWT-SVID at a reading of the clock. -/
def signJwtSvid (C : Crypto) (signer : SvidSigner L) (clock : SystemTime) (spiffeId : Str)
    (audiences : List Str) (hireExt : Json) : Except (Fault SignerError) L.Token :=
  match durationSince clock unixEpoch with
  | none => .error (.panic (str "system clock before epoch"))
  | some sinceEpoch =>
    match L.encode (signer.svidHeader C)
        (svidClaims sinceEpoch.asSecs spiffeId audiences hireExt).toValue signer.encodingKey with
    | .error message => .error (.error (.jwt message))
    | .ok token => .ok token

/-- A token that was signed is the encoding of the payload at some whole second. -/
theorem signJwtSvid_eq_ok_iff (C : Crypto) {signer : SvidSigner L} {clock : SystemTime}
    {spiffeId : Str} {audiences : List Str} {hireExt : Json} {token : L.Token} :
    signer.signJwtSvid C clock spiffeId audiences hireExt = .ok token ↔
      ∃ sinceEpoch, durationSince clock unixEpoch = some sinceEpoch ∧
        L.encode (signer.svidHeader C)
          (svidClaims sinceEpoch.asSecs spiffeId audiences hireExt).toValue signer.encodingKey =
            .ok token := by
  unfold signJwtSvid
  cases hclock : durationSince clock unixEpoch with
  | none => simp
  | some sinceEpoch =>
    cases hencode : L.encode (signer.svidHeader C)
        (svidClaims sinceEpoch.asSecs spiffeId audiences hireExt).toValue signer.encodingKey <;>
      simp [hencode]

end SvidSigner

end Hire.Core
