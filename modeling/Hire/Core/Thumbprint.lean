import Hire.Core.Signer

/-!
# What a key ID names

The key ID of a signer is the hash of a canonical JSON text of its public point, as
`hire-core/src/signer.rs` writes it. The text can be taken apart again: the coordinates are
base64url without padding, so they end at the next quotation mark, and each is the text of one byte
string. So a key ID names one key (`kid_eq_iff`), up to a collision of the hash on the two texts at
hand, and the published key set has the key itself.
-/

set_option autoImplicit false
set_option relaxedAutoImplicit false

namespace Hire.Core

open Hire.Library

/-- The bytes that are hashed for a thumbprint. -/
def thumbprintInput (x y : Str) : Bytes :=
  utf8 (str "\x7b\"crv\":\"P-256\",\"kty\":\"EC\",\"x\":\"" ++ x ++ str "\",\"y\":\"" ++ y ++
    str "\"\x7d")

/-- A base64url text has no quotation mark. -/
theorem quote_not_mem_base64Encode (bytes : Bytes) : '"' ∉ base64Encode base64Url bytes :=
  fun hquote ↦ absurd (mem_base64Url_of_mem_encode hquote) (by with_unfolding_all decide)

/-- Thumbprints of the same text have the same coordinates. -/
theorem thumbprintInput_inj {x y x' y' : Bytes}
    (h : thumbprintInput (base64Encode base64Url x) (base64Encode base64Url y) =
      thumbprintInput (base64Encode base64Url x') (base64Encode base64Url y')) :
    x = x' ∧ y = y' := by
  have htext := utf8_injective h
  have hsep : str "\",\"y\":\"" = '"' :: str ",\"y\":\"" := by with_unfolding_all rfl
  simp only [List.append_assoc, List.append_cancel_left_eq] at htext
  rw [hsep, List.cons_append, List.cons_append] at htext
  obtain ⟨hx, hrest⟩ :=
    append_sep_inj (quote_not_mem_base64Encode x) (quote_not_mem_base64Encode x')
    htext
  have hy := List.append_cancel_right (List.append_cancel_left hrest)
  exact ⟨base64Encode_url_injective hx, base64Encode_url_injective hy⟩

/-- The public point of a signer without its first byte, which says that it is uncompressed. -/
def SvidSigner.point {L : TokenLib} (signer : SvidSigner L) : Bytes := signer.publicKeySec1.1.drop 1

namespace SvidSigner

variable {L : TokenLib} (C : Crypto) (s s' : SvidSigner L)

/-- The text that the key ID of a signer is the hash of. -/
def kidInput (signer : SvidSigner L) : Bytes :=
  thumbprintInput signer.publicXy.1 signer.publicXy.2

/-- The published coordinates of a signer are the two halves of its point. -/
theorem publicXy_eq : s.publicXy =
    (base64Encode base64Url (s.point.take 32), base64Encode base64Url (s.point.drop 32)) := by
  rw [point, List.drop_drop]
  rfl

/-- A key ID names one key: two signers have the same key ID exactly when they have the same public
point, and the key set that either publishes under its key ID gives that point back. Assumes: the
hash does not collide on the two texts that the key IDs are made of. -/
theorem kid_eq_iff (hcollision : C.sha256 s.kidInput = C.sha256 s'.kidInput →
      s.kidInput = s'.kidInput) :
    (s.kid C = s'.kid C ↔ s.point = s'.point) ∧
      ∃ x y front back, s.jwks C = jwksValue (s.kid C) x y ∧
        base64Decode base64Url x = some front ∧ base64Decode base64Url y = some back ∧
        front ++ back = s.point := by
  refine ⟨⟨fun hkid ↦ ?_, fun hpoint ↦ ?_⟩, s.publicXy.1, s.publicXy.2, s.point.take 32,
    s.point.drop 32, rfl, ?_, ?_, List.take_append_drop 32 s.point⟩
  · have hhash : C.sha256 s.kidInput = C.sha256 s'.kidInput :=
      Subtype.ext (base64Encode_url_injective hkid)
    have hinput := hcollision hhash
    unfold kidInput at hinput
    rw [publicXy_eq, publicXy_eq] at hinput
    obtain ⟨hfront, hback⟩ := thumbprintInput_inj hinput
    rw [← List.take_append_drop 32 s.point, hfront, hback, List.take_append_drop]
  · unfold kid
    rw [publicXy_eq, publicXy_eq, hpoint]
  · rw [publicXy_eq]
    exact base64Decode_url _
  · rw [publicXy_eq]
    exact base64Decode_url _

/-- Primitives whose hash tells the coordinates of two keys apart by their first bytes. -/
def tellingApart : Crypto where
  __ := Crypto.transparent
  sha256 bytes := pad32 (bytes.drop 31)

/-- A signer whose public point is one byte over and over. -/
def repeating (byte : UInt8) : SvidSigner TokenLib.transparent :=
  .fromSigningKey (fill 65 byte) (fill 32 7)

/-- Two keys have two key IDs. -/
theorem kid_eq_iff_repeating : (repeating 4).kid tellingApart ≠ (repeating 5).kid tellingApart := by
  intro hkid
  have hpoint := (kid_eq_iff tellingApart (repeating 4) (repeating 5) fun hhash ↦
    absurd hhash (by with_unfolding_all decide)).1.mp hkid
  exact absurd hpoint (by with_unfolding_all decide)

end SvidSigner

end Hire.Core
