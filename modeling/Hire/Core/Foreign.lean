import Hire.Core.Assurance
import Hire.Library.Binary64
import Hire.Library.Encoding

/-!
# The libraries the daemon calls

The daemon's own code is modelled; the packages it calls are parameters. `Crypto` holds SHA-256,
HKDF-SHA256 and ed25519 verification as plain functions, with nothing assumed about them. `TokenLib`
holds the P-256 key type and the JSON Web Token functions; what the daemon relies on in them is
`TokenLib.Documented`, which is stated beside the payload of the signer. `Crypto.transparent` and
`TokenLib.transparent` are two libraries simple enough to run a whole request on.

`Json` is the value type of the JSON library, with the accessors the daemon uses. The text that the
library writes for a double is left to `TokenLib` too.
-/

set_option autoImplicit false
set_option relaxedAutoImplicit false

namespace Hire.Core

open Hire.Library

/-! ### JSON values -/

/-- A JSON number: an unsigned 64-bit integer, a negative 64-bit integer, or a double given by its
bits. -/
inductive JsonNumber
  | posInt (value : ℕ)
  | negInt (value : ℤ)
  | float (bits : UInt64)
  deriving DecidableEq, Repr

namespace JsonNumber

/-- The integer a number is, if it is one. -/
def toInt : JsonNumber → Option ℤ
  | posInt value => some value
  | negInt value => some value
  | float _ => none

/-- The double of a number. There is one for every number: an integer is rounded to the nearest. -/
def asF64 : JsonNumber → Option UInt64
  | posInt value => some (Binary64.ofInt value)
  | negInt value => some (Binary64.ofInt value)
  | float bits => some bits

/-- The decimal text of an integer. -/
def decimal (z : ℤ) : Str :=
  if z < 0 then '-' :: Nat.toDigits 10 z.natAbs else Nat.toDigits 10 z.natAbs

/-- The text of a number, given the text of a double. -/
def display (formatFinite : UInt64 → Str) : JsonNumber → Str
  | posInt value => decimal value
  | negInt value => decimal value
  | float bits => formatFinite bits

/-- The double of a number that is an integer. -/
theorem asF64_of_toInt {n : JsonNumber} {z : ℤ} (h : n.toInt = some z) :
    n.asF64 = some (Binary64.ofInt z) := by
  cases n with
  | posInt value =>
    obtain rfl := Option.some.inj h
    rfl
  | negInt value =>
    obtain rfl := Option.some.inj h
    rfl
  | float bits => cases h

end JsonNumber

/-- A JSON value. An object is the list of its members. -/
inductive Json
  | null
  | bool (value : Bool)
  | number (value : JsonNumber)
  | string (value : Str)
  | array (items : List Json)
  | object (members : List (Str × Json))
  deriving Repr

namespace Json

/-- The member of an object under a key. -/
def get (key : Str) : Json → Option Json
  | object members => members.lookup key
  | _ => none

/-- The text of a string. -/
def asStr : Json → Option Str
  | string value => some value
  | _ => none

/-- The value of an unsigned integer. -/
def asU64 : Json → Option ℕ
  | number (.posInt value) => some value
  | _ => none

/-- The strings among the items of an array. -/
def strItems : Json → List Str
  | array items => items.filterMap asStr
  | _ => []

/-- Induction over the values nested in a value. -/
theorem induction_on_nested {P : Json → Prop} (null : P null) (bool : ∀ value, P (bool value))
    (number : ∀ value, P (number value)) (string : ∀ value, P (string value))
    (array : ∀ items, (∀ item ∈ items, P item) → P (array items))
    (object : ∀ members, (∀ member ∈ members, P member.2) → P (object members)) (value : Json) :
    P value := by
  refine Json.rec (motive_1 := P) (motive_2 := fun items ↦ ∀ item ∈ items, P item)
    (motive_3 := fun members ↦ ∀ member ∈ members, P member.2)
    (motive_4 := fun member ↦ P member.2) null bool number string array object ?_ ?_ ?_ ?_ ?_ value
  · simp
  · intro head tail hhead htail
    exact List.forall_mem_cons.mpr ⟨hhead, htail⟩
  · simp
  · intro head tail hhead htail
    exact List.forall_mem_cons.mpr ⟨hhead, htail⟩
  · intro key value hvalue
    exact hvalue

end Json

/-! ### Hashes, key derivation and signatures -/

/-- The three inputs of HKDF. -/
structure HkdfInput where
  salt : Bytes
  ikm : Bytes
  info : Bytes
  deriving DecidableEq, Repr

/-- The cryptographic primitives. -/
structure Crypto where
  sha256 : Bytes → ByteArr 32
  hkdfSha256 : HkdfInput → ByteArr 32
  validPoint : ByteArr 32 → Bool
  verifyStrict : ByteArr 32 → Bytes → ByteArr 64 → Bool

/-! ### JSON Web Tokens -/

/-- A signature algorithm of a token. -/
inductive Algorithm
  | es256
  | other (name : Str)
  deriving DecidableEq, Repr

/-- The header of a token. -/
structure Header where
  alg : Algorithm
  kid : Option Str
  deriving DecidableEq, Repr

/-- An elliptic curve of a JWK. -/
inductive EllipticCurve
  | p256
  | other (name : Str)
  deriving DecidableEq, Repr

/-- The algorithm-specific part of a JWK; the coordinates are base64url text. -/
inductive AlgorithmParameters
  | ellipticCurve (curve : EllipticCurve) (x y : Str)
  | other
  deriving DecidableEq, Repr

/-- A published key. -/
structure Jwk where
  keyId : Option Str
  algorithm : AlgorithmParameters
  deriving DecidableEq, Repr

/-- The key of a JWK set with a given key ID. -/
def findJwk (keys : List Jwk) (kid : Str) : Option Jwk := keys.find? (·.keyId == some kid)

/-- What a token is checked against besides its signature. -/
structure Validation where
  algorithm : Algorithm
  aud : List Str
  leeway : ℕ
  deriving DecidableEq, Repr

/-- The JWK set of one P-256 key, as the daemon publishes it. -/
def jwksValue (kid x y : Str) : Json :=
  .object [(str "keys", .array [.object [(str "kty", .string (str "EC")),
    (str "crv", .string (str "P-256")), (str "alg", .string (str "ES256")),
    (str "use", .string (str "sig")), (str "kid", .string kid), (str "x", .string x),
    (str "y", .string y)]])]

/-- The two coordinates of an uncompressed P-256 point, `0x04 ‖ X ‖ Y`, as base64url text. -/
def coordinates (point : ByteArr 65) : Str × Str :=
  (base64Encode base64Url ((point.1.drop 1).take 32), base64Encode base64Url (point.1.drop 33))

/-- The JWK of a P-256 point under a key ID. -/
def pointJwk (kid : Str) (point : ByteArr 65) : Jwk :=
  ⟨some kid, .ellipticCurve .p256 (coordinates point).1 (coordinates point).2⟩

/-- Key generation, token encoding and token decoding. The text of a token is opaque: the daemon
only asks whether it is empty. `encode` fails with the text of its error, and `decode` is given
the clock it reads, in whole seconds. `formatFinite` is the text of a double in a payload. -/
structure TokenLib where
  SigningKey : Type
  EncodingKey : Type
  DecodingKey : Type
  Token : Type
  publicSec1 : SigningKey → ByteArr 65
  encodingKey : SigningKey → EncodingKey
  encode : Header → Json → EncodingKey → Except Str Token
  isEmpty : Token → Bool
  insecureDecode : Token → Option (Header × Json)
  decode : Token → DecodingKey → Validation → ℕ → Option Json
  jwkSet : Json → Option (List Jwk)
  fromJwk : Jwk → Option DecodingKey
  formatFinite : UInt64 → Str

/-- The audiences a payload names. -/
def payloadAudiences (payload : Json) : List Str :=
  ((payload.get (str "aud")).map Json.strItems).getD []

/-- Whether a payload passes the checks besides the signature: it carries an expiry that is not
past, and an audience the validation names. -/
def Validation.accepts (validation : Validation) (now : ℕ) (payload : Json) : Bool :=
  (match (payload.get (str "exp")).bind Json.asU64 with
    | some expiry => decide (now - validation.leeway ≤ expiry)
    | none => false) &&
  validation.aud.any fun audience ↦ (payloadAudiences payload).contains audience

/-- Encoding fails only for a key that does not fit the header: whether it fails, and with which
message, does not depend on the payload. -/
def TokenLib.UniformEncode (L : TokenLib) : Prop :=
  ∀ header key, (∃ message, ∀ payload, L.encode header payload key = .error message) ∨
    ∀ payload, ∃ token, L.encode header payload key = .ok token

/-! ### Libraries that keep their promises -/

/-- The first thirty-two bytes of a byte string, filled up with zeros. -/
def pad32 (bytes : Bytes) : ByteArr 32 :=
  ⟨(bytes ++ List.replicate 32 0).take 32, by simp⟩

/-- Transparent primitives: a hash is the beginning of what is hashed, a derived key is the end of
the key material, and no signature verifies. -/
def Crypto.transparent : Crypto where
  sha256 := pad32
  hkdfSha256 input := pad32 input.ikm.reverse
  validPoint _ := true
  verifyStrict _ _ _ := false

/-- The key a JWK object describes. -/
def jwkOf (value : Json) : Jwk :=
  ⟨(value.get (str "kid")).bind Json.asStr,
    match (value.get (str "x")).bind Json.asStr, (value.get (str "y")).bind Json.asStr with
    | some x, some y => .ellipticCurve .p256 x y
    | _, _ => .other⟩

/-- The items of a JSON array under a key. -/
def itemsOf (key : Str) (value : Json) : Option (List Json) :=
  match value.get key with
  | some (.array items) => some items
  | _ => none

/-- A transparent token library: a token is the header, the payload and the key it was encoded
with, a signing key is its public point, a verification key is the pair of coordinates, and the text
of a double is that of its bits. -/
def TokenLib.transparent : TokenLib where
  SigningKey := ByteArr 65
  EncodingKey := ByteArr 65
  DecodingKey := Str × Str
  Token := Header × Json × ByteArr 65
  publicSec1 := id
  encodingKey := id
  encode header payload key := .ok (header, payload, key)
  isEmpty _ := false
  insecureDecode token := some (token.1, token.2.1)
  decode token key validation now :=
    if coordinates token.2.2 = key ∧ token.1.alg = validation.algorithm ∧
        validation.accepts now token.2.1 = true then some token.2.1
    else none
  jwkSet value := (itemsOf (str "keys") value).map (List.map jwkOf)
  fromJwk jwk :=
    match jwk.algorithm with
    | .ellipticCurve .p256 x y => some (x, y)
    | _ => none
  formatFinite bits := Nat.toDigits 10 bits.toNat

end Hire.Core
