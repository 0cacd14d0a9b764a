import Hire.Core.Signer
import Hire.Library.KeyedStore

/-!
# Trust bundles

`hire-core/src/trust_bundle.rs`. A bundle is the verification material of one trust domain, and the
store keeps one bundle under the string form of each trust domain. `TrustBundleStore.get_upsertAll`
says that the store is a map keyed by the trust domain itself: after any history of upserts, `get`
returns the last bundle upserted for that trust domain. The store never sees the domain, only its
string form, so the lemma rests on the injectivity of the rendering. `mem_snapshot_upsertAll` and
`snapshot_upsertAll_perm` say the same of `snapshot`: it holds the bundle of each trust domain of
the history, and no second one.

`TrustBundle.jwtDecodingKey_local` says which key a local bundle offers: the key of its own signer
under that signer's key ID, and none under any other.
-/

set_option autoImplicit false
set_option relaxedAutoImplicit false

namespace Hire.Core

open Hire.Library

/-- The verification material of one trust domain. -/
structure TrustBundle where
  trustDomain : TrustDomain
  x509Authorities : List Bytes
  jwtAuthorities : Json

namespace TrustBundle

variable {L : TokenLib}

/-- The bundle of a trust domain this daemon is itself the authority for. -/
def «local» (C : Crypto) (trustDomain : TrustDomain) (signer : SvidSigner L) : TrustBundle where
  trustDomain := trustDomain
  x509Authorities := []
  jwtAuthorities := signer.jwks C

/-- The published key with a key ID, as a verification key. The lengths of the coordinates are
checked here, because building the key does not check them. -/
def jwtDecodingKey (L : TokenLib) (bundle : TrustBundle) (kid : Str) : Option L.DecodingKey :=
  match L.jwkSet bundle.jwtAuthorities with
  | none => none
  | some keys =>
    match findJwk keys kid with
    | none => none
    | some jwk =>
      match jwk.algorithm with
      | .ellipticCurve curve x y =>
        if curve = .p256 ∧ ((base64Decode base64Url x).any (·.length = 32)) ∧
            ((base64Decode base64Url y).any (·.length = 32)) then
          L.fromJwk jwk
        else none
      | .other => none

/-- Both coordinates of a point decode to thirty-two bytes. -/
theorem coordinates_decode (point : ByteArr 65) :
    (base64Decode base64Url (coordinates point).1).any (·.length = 32) = true ∧
      (base64Decode base64Url (coordinates point).2).any (·.length = 32) = true := by
  have hlength : List.length point.1 = 65 := point.2
  simp only [coordinates, base64Decode_url, Option.any_some, decide_eq_true_eq]
  constructor
  · rw [List.length_take, List.length_drop, hlength]
    rfl
  · rw [List.length_drop, hlength]

/-- A local bundle offers its signer's key under the signer's key ID, and nothing under another.
Assumes: the documented behaviour of the token library. -/
theorem jwtDecodingKey_local (C : Crypto) (hL : L.Documented) (trustDomain : TrustDomain)
    (signer : SvidSigner L) (kid : Str) :
    («local» C trustDomain signer).jwtDecodingKey L kid =
      if kid = signer.kid C then L.fromJwk (pointJwk (signer.kid C) signer.publicKeySec1)
      else none := by
  have hset : L.jwkSet («local» C trustDomain signer).jwtAuthorities =
      some [pointJwk (signer.kid C) signer.publicKeySec1] :=
    hL.jwkSet_jwksValue _ _ _
  have hcoordinates := coordinates_decode signer.publicKeySec1
  unfold jwtDecodingKey
  rw [hset]
  by_cases hkid : kid = signer.kid C
  · subst hkid
    simp [findJwk, pointJwk, hcoordinates.1, hcoordinates.2]
  · have hne : ¬ signer.kid C = kid := fun h ↦ hkid h.symm
    simp [findJwk, pointJwk, hkid, hne]

end TrustBundle

/-- The bundles of the daemon, one under the string form of each trust domain. -/
structure TrustBundleStore where
  bundles : AList fun _ : Str ↦ TrustBundle

namespace TrustBundleStore

/-- An empty store. -/
def new : TrustBundleStore := ⟨∅⟩

/-- Insert or replace the bundle of a trust domain. -/
def upsert (store : TrustBundleStore) (bundle : TrustBundle) : TrustBundleStore :=
  ⟨store.bundles.insert bundle.trustDomain.display bundle⟩

/-- The bundle of one trust domain. -/
def get (store : TrustBundleStore) (trustDomain : TrustDomain) : Option TrustBundle :=
  store.bundles.lookup trustDomain.display

/-- Every bundle currently held. -/
def snapshot (store : TrustBundleStore) : List TrustBundle := store.bundles.entries.map Sigma.snd

/-- The store after a history of upserts, oldest first. -/
def upsertAll (store : TrustBundleStore) (history : List TrustBundle) : TrustBundleStore :=
  history.foldl upsert store

theorem upsertAll_bundles (store : TrustBundleStore) (history : List TrustBundle) :
    (store.upsertAll history).bundles =
      replay (fun bundle ↦ bundle.trustDomain.display) store.bundles history := by
  induction history generalizing store with
  | nil => rfl
  | cons bundle rest ih => exact ih (store.upsert bundle)

/-- After a history of upserts into an empty store, `get` returns the last bundle upserted for the
trust domain. -/
theorem get_upsertAll (history : List TrustBundle) (trustDomain : TrustDomain) :
    (new.upsertAll history).get trustDomain =
      history.reverse.find? fun bundle ↦ bundle.trustDomain = trustDomain := by
  have hempty : new.bundles.lookup trustDomain.display = none := AList.lookup_empty _
  rw [get, upsertAll_bundles, lookup_replay, hempty, Option.or_none]
  simp only [TrustDomain.display_injective.eq_iff]

theorem bundles_upsertAll_new (history : List TrustBundle) :
    (new.upsertAll history).bundles =
      replay (fun bundle ↦ bundle.trustDomain.display) ∅ history :=
  upsertAll_bundles new history

/-- A bundle is held exactly when it is the one of its trust domain. -/
theorem mem_snapshot_upsertAll {history : List TrustBundle} {bundle : TrustBundle} :
    bundle ∈ (new.upsertAll history).snapshot ↔
      (new.upsertAll history).get bundle.trustDomain = some bundle := by
  unfold snapshot get
  rw [bundles_upsertAll_new]
  exact mem_values_replay_iff

/-- The bundles held are one for each trust domain of the history. -/
theorem snapshot_upsertAll_perm (history : List TrustBundle) :
    ((new.upsertAll history).snapshot.map TrustBundle.trustDomain).Perm
      (history.map TrustBundle.trustDomain).dedup := by
  have hkeys := values_replay_perm (fun bundle ↦ bundle.trustDomain.display) history
  rw [← bundles_upsertAll_new] at hkeys
  refine (List.map_perm_map_iff TrustDomain.display_injective).mp ?_
  rw [← List.dedup_map_of_injective TrustDomain.display_injective, List.map_map, List.map_map]
  exact hkeys

end TrustBundleStore

end Hire.Core
