import Hire.Grpc.Validation

/-!
# The published bundles

`fetch_jwt_bundles` of `hire-grpc/src/service.rs` over the store of `hire-core/src/trust_bundle.rs`.
Both are maps keyed by a text: the store by the string form of a trust domain, and the published map
by the same with `spiffe://` in front. Over any history of upserts the two are maps keyed by the
trust domain itself, because neither text merges two domains (`bundleKey_injective`).

`WorkloadApiService.bundles_keyed_by_trustDomain` states it for the store, for its snapshot and for
the published map. The order of a snapshot is that of a hash map and means nothing: the results are
about which bundles it holds.
-/

set_option autoImplicit false
set_option relaxedAutoImplicit false

namespace Hire.Grpc

open Hire.Library Hire.Core Hire.Attestors

variable {L : TokenLib} {W : Type}

/-- The key of a published bundle determines the trust domain. -/
theorem bundleKey_injective : Function.Injective bundleKey := by
  intro trustDomain trustDomain' h
  exact TrustDomain.display_injective (List.append_cancel_left h)

/-- Searching the snapshot for a trust domain, from either end, finds what the store returns. -/
theorem find?_reverse_snapshot (history : List TrustBundle) (trustDomain : TrustDomain) :
    ((TrustBundleStore.new.upsertAll history).snapshot.reverse.find? fun bundle ↦
      bundle.trustDomain = trustDomain) =
        (TrustBundleStore.new.upsertAll history).get trustDomain := by
  cases hfind : (TrustBundleStore.new.upsertAll history).snapshot.reverse.find? fun bundle ↦
      bundle.trustDomain = trustDomain with
  | some bundle =>
    have hmem := List.mem_reverse.mp (List.mem_of_find?_eq_some hfind)
    have hdomain : bundle.trustDomain = trustDomain := by simpa using List.find?_some hfind
    rw [← hdomain, TrustBundleStore.mem_snapshot_upsertAll.mp hmem]
  | none =>
    cases hget : (TrustBundleStore.new.upsertAll history).get trustDomain with
    | none => rfl
    | some bundle =>
      -- What the store returns is of that domain, so the snapshot holds it.
      have hdomain : bundle.trustDomain = trustDomain := by
        rw [TrustBundleStore.get_upsertAll] at hget
        simpa using List.find?_some hget
      have hmem : bundle ∈ (TrustBundleStore.new.upsertAll history).snapshot :=
        TrustBundleStore.mem_snapshot_upsertAll.mpr (hdomain ▸ hget)
      have hnone := List.find?_eq_none.mp hfind bundle (List.mem_reverse.mpr hmem)
      exact absurd (decide_eq_true hdomain) hnone

namespace WorkloadApiService

/-- The published entry of a trust domain is the key set of its bundle. -/
theorem lookup_fetchJwtBundles {service : WorkloadApiService L W} {history : List TrustBundle}
    (hbundles : service.bundles = TrustBundleStore.new.upsertAll history)
    (trustDomain : TrustDomain) :
    service.fetchJwtBundles.lookup (bundleKey trustDomain) =
      (service.bundles.get trustDomain).map TrustBundle.jwtAuthorities := by
  unfold fetchJwtBundles
  rw [lookup_foldl_insert, AList.lookup_empty, Option.or_none, hbundles]
  simp only [bundleKey_injective.eq_iff, find?_reverse_snapshot]

/-- The published keys are those of the trust domains of the history, each once. -/
theorem keys_fetchJwtBundles_perm {service : WorkloadApiService L W} {history : List TrustBundle}
    (hbundles : service.bundles = TrustBundleStore.new.upsertAll history) :
    service.fetchJwtBundles.keys.Perm
      ((history.map TrustBundle.trustDomain).dedup.map bundleKey) := by
  have hdomains := (TrustBundleStore.snapshot_upsertAll_perm history).map bundleKey
  rw [List.map_map] at hdomains
  have hnodup : ((TrustBundleStore.new.upsertAll history).snapshot.map
      fun bundle ↦ bundleKey bundle.trustDomain).Nodup :=
    hdomains.nodup_iff.mpr ((List.nodup_dedup _).map bundleKey_injective)
  have hkeys := keys_foldl_insert_perm (fun bundle : TrustBundle ↦ bundleKey bundle.trustDomain)
    TrustBundle.jwtAuthorities service.bundles.snapshot
  rw [hbundles, hnodup.dedup] at hkeys
  unfold fetchJwtBundles
  rw [hbundles]
  exact hkeys.trans hdomains

/-- The bundles of a daemon are maps keyed by trust domain. After any history of upserts of any
bundles, the store returns the last bundle upserted for a trust domain; its snapshot holds one
bundle for each trust domain of the history, which is the one the store returns; and the published
map has one entry for each, under `spiffe://` and the string form of the domain, with the key set of
that bundle. -/
theorem bundles_keyed_by_trustDomain (signer : SvidSigner L) (attestors : List (Attestor W))
    (history : List TrustBundle) :
    let store := TrustBundleStore.new.upsertAll history
    let published := (⟨signer, store, attestors⟩ : WorkloadApiService L W).fetchJwtBundles
    (∀ trustDomain, store.get trustDomain =
      history.reverse.find? fun bundle ↦ bundle.trustDomain = trustDomain) ∧
    ((store.snapshot.map TrustBundle.trustDomain).Perm
        (history.map TrustBundle.trustDomain).dedup ∧
      ∀ bundle ∈ store.snapshot, store.get bundle.trustDomain = some bundle) ∧
    published.keys.Perm ((history.map TrustBundle.trustDomain).dedup.map
        fun trustDomain ↦ str "spiffe://" ++ trustDomain.display) ∧
      ∀ trustDomain : TrustDomain,
        published.lookup (str "spiffe://" ++ trustDomain.display) =
          (store.get trustDomain).map TrustBundle.jwtAuthorities := by
  intro store published
  refine ⟨TrustBundleStore.get_upsertAll history, ⟨?_, ?_⟩, ?_, ?_⟩
  · exact TrustBundleStore.snapshot_upsertAll_perm history
  · exact fun bundle ↦ TrustBundleStore.mem_snapshot_upsertAll.mp
  · exact keys_fetchJwtBundles_perm rfl
  · exact lookup_fetchJwtBundles rfl

end WorkloadApiService

end Hire.Grpc
