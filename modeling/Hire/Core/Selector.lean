import Hire.Core.Pseudonym
import Mathlib.Tactic.IntervalCases

/-!
# Which consumers share a selector key

`ConsumerIdentity.selectorKey` flattens a consumer into one text. The five variants start with
different texts, and in four of them one string follows, so the key gives the consumer back. A macOS
consumer has two free strings around `:team_id:`, and nothing keeps that text out of either of them:
the key of one bundle and team is the key of another pair wherever the separator can be moved.

`teamIdShift` lists the texts the separator can be moved over, `ConsumerIdentity.Rebracketed` is the
relation between two macOS consumers that follows, and `ConsumerIdentity.selectorKey_inj_iff` says
that the key identifies the consumer on a pair exactly when the pair is not so related. Bundle
identifiers without a colon, which are those a platform issues, are never related
(`ConsumerIdentity.selectorKey_inj_of_notMem_colon`).
-/

set_option autoImplicit false
set_option relaxedAutoImplicit false

namespace Hire.Core

open Hire.Library

/-- The texts that `:team_id:` can be moved over, with what comes back on the other side: a text
that starts with the separator, or the separator up to its last colon. -/
def teamIdShift (moved back : Str) : Prop :=
  (∃ between, moved = str ":team_id:" ++ between ∧ back = between ++ str ":team_id:") ∨
    moved = str ":team_id" ∧ back = str "team_id:"

/-- The places where the separator of a macOS key can be moved to. -/
theorem teamId_append_eq_append_iff {moved back : Str} :
    str ":team_id:" ++ back = moved ++ str ":team_id:" ↔
      moved = [] ∧ back = [] ∨ teamIdShift moved back := by
  constructor
  · intro h
    rcases List.append_eq_append_iff.mp h with ⟨between, hover, hback⟩ | ⟨border, hsep, hback⟩
    · exact .inr (.inl ⟨between, hover, hback⟩)
    · -- The separator then ends and starts with one text: a colon, all of it, or nothing.
      have hlength : moved.length ≤ 9 := by
        have hcount := congrArg List.length hsep
        simp at hcount
        omega
      have hover : moved = (str ":team_id:").take moved.length := by
        rw [hsep, List.take_left]
      have hborder : border = (str ":team_id:").drop moved.length := by
        rw [hsep, List.drop_left]
      rw [hborder] at hback
      have hplaces : moved.length = 0 ∧ back = [] ∨ moved.length = 8 ∧ back = str "team_id:" ∨
          moved.length = 9 ∧ back = str ":team_id:" := by
        rw [eq_comm] at hback
        generalize moved.length = n at hlength hback
        interval_cases n <;> simp at hback <;> simp [hback]
      rcases hplaces with ⟨hn, hback⟩ | ⟨hn, hback⟩ | ⟨hn, hback⟩
      · exact .inl ⟨List.length_eq_zero_iff.mp hn, hback⟩
      · rw [hn] at hover
        exact .inr (.inr ⟨by simpa using hover, hback⟩)
      · rw [hn] at hover
        exact .inr (.inl ⟨[], by simpa using hover, by simpa using hback⟩)
  · rintro (⟨rfl, rfl⟩ | ⟨between, rfl, rfl⟩ | ⟨rfl, rfl⟩)
    · simp
    · rw [List.append_assoc]
    · with_unfolding_all decide

namespace ConsumerIdentity

/-- Two macOS consumers that differ in where `:team_id:` is taken to stand: a text the separator can
be moved over is at the end of the second bundle identifier, and what comes back for it is at the
start of the first team identifier. -/
def Rebracketed (consumer consumer' : ConsumerIdentity) : Prop :=
  ∃ bundleId teamId moved back, teamIdShift moved back ∧
    consumer = macosBundleId bundleId (back ++ teamId) ∧
    consumer' = macosBundleId (bundleId ++ moved) teamId

/-- The key of a macOS consumer, with the separator as one text between the two strings. -/
theorem selectorKey_macosBundleId (bundleId teamId : Str) :
    (macosBundleId bundleId teamId).selectorKey =
      str "macos:bundle_id:" ++ (bundleId ++ (str ":team_id:" ++ teamId)) := by
  simp only [selectorKey, List.append_assoc]

/-- The texts the separator can be moved over are not empty. -/
theorem ne_nil_of_teamIdShift {moved back : Str} (h : teamIdShift moved back) : moved ≠ [] := by
  rcases h with ⟨between, rfl, -⟩ | ⟨rfl, -⟩ <;> simp

/-- A rebracketed pair is two consumers with one key. -/
theorem Rebracketed.selectorKey_eq {consumer consumer' : ConsumerIdentity}
    (h : Rebracketed consumer consumer') :
    consumer.selectorKey = consumer'.selectorKey ∧ consumer ≠ consumer' := by
  obtain ⟨bundleId, teamId, moved, back, hshift, rfl, rfl⟩ := h
  refine ⟨?_, fun heq ↦ ?_⟩
  · have hmove := teamId_append_eq_append_iff.mpr (.inr hshift)
    rw [selectorKey_macosBundleId, selectorKey_macosBundleId,
      append_append_eq_append_append_iff.mpr (.inl ⟨moved, back, hmove, rfl, rfl⟩)]
  · have hbundle := (macosBundleId.inj heq).1
    exact ne_nil_of_teamIdShift hshift (List.append_right_eq_self.mp hbundle.symm)

/-- Two macOS consumers with one key are the same or a rebracketed pair. -/
theorem eq_or_rebracketed_of_selectorKey_eq {bundleId teamId bundleId' teamId' : Str}
    (h : (macosBundleId bundleId teamId).selectorKey =
      (macosBundleId bundleId' teamId').selectorKey) :
    macosBundleId bundleId teamId = macosBundleId bundleId' teamId' ∨
      Rebracketed (macosBundleId bundleId teamId) (macosBundleId bundleId' teamId') ∨
      Rebracketed (macosBundleId bundleId' teamId') (macosBundleId bundleId teamId) := by
  rw [selectorKey_macosBundleId, selectorKey_macosBundleId] at h
  rcases append_append_eq_append_append_iff.mp (List.append_cancel_left h) with
    ⟨moved, back, hmove, rfl, rfl⟩ | ⟨moved, back, hmove, rfl, rfl⟩
  · rcases teamId_append_eq_append_iff.mp hmove with ⟨rfl, rfl⟩ | hshift
    · exact .inl (by simp)
    · exact .inr (.inl ⟨bundleId, teamId', moved, back, hshift, rfl, rfl⟩)
  · rcases teamId_append_eq_append_iff.mp hmove with ⟨rfl, rfl⟩ | hshift
    · exact .inl (by simp)
    · exact .inr (.inr ⟨bundleId', teamId, moved, back, hshift, rfl, rfl⟩)

/-- Two consumers with one key are the same or a rebracketed pair. -/
theorem eq_or_rebracketed {consumer consumer' : ConsumerIdentity}
    (h : consumer.selectorKey = consumer'.selectorKey) :
    consumer = consumer' ∨ Rebracketed consumer consumer' ∨ Rebracketed consumer' consumer := by
  -- The five variants start with five different letters.
  have hhead := congrArg List.head? h
  cases consumer <;> cases consumer' <;> try (simp [selectorKey] at hhead; done)
  case binarySha256.binarySha256 hash hash' =>
    exact .inl (congrArg binarySha256 (selectorKey_binarySha256_inj h))
  case macosBundleId.macosBundleId => exact eq_or_rebracketed_of_selectorKey_eq h
  case flatpakApp.flatpakApp => exact .inl (congrArg flatpakApp (List.append_cancel_left h))
  case snapName.snapName => exact .inl (congrArg snapName (List.append_cancel_left h))
  case chromeExtension.chromeExtension =>
    exact .inl (congrArg chromeExtension (List.append_cancel_left h))

/-- When a selector key identifies its consumer: on two consumers of any variants it does exactly
when they are not a rebracketed pair, and so does the HKDF info that carries it. -/
theorem selectorKey_inj_iff (consumer consumer' : ConsumerIdentity) :
    ((consumer.selectorKey = consumer'.selectorKey → consumer = consumer') ↔
      ¬Rebracketed consumer consumer' ∧ ¬Rebracketed consumer' consumer) ∧
    ((utf8 (scheme ++ consumer.selectorKey) = utf8 (scheme ++ consumer'.selectorKey) →
        consumer = consumer') ↔
      ¬Rebracketed consumer consumer' ∧ ¬Rebracketed consumer' consumer) := by
  have hkey : (consumer.selectorKey = consumer'.selectorKey → consumer = consumer') ↔
      ¬Rebracketed consumer consumer' ∧ ¬Rebracketed consumer' consumer := by
    constructor
    · intro hinj
      refine ⟨fun hpair ↦ ?_, fun hpair ↦ ?_⟩
      · exact hpair.selectorKey_eq.2 (hinj hpair.selectorKey_eq.1)
      · exact hpair.selectorKey_eq.2 (hinj hpair.selectorKey_eq.1.symm).symm
    · rintro ⟨hpair, hpair'⟩ h
      exact (eq_or_rebracketed h).resolve_right (not_or.mpr ⟨hpair, hpair'⟩)
  have hinfo : utf8 (scheme ++ consumer.selectorKey) = utf8 (scheme ++ consumer'.selectorKey) ↔
      consumer.selectorKey = consumer'.selectorKey :=
    ⟨fun h ↦ List.append_cancel_left (utf8_injective h), fun h ↦ by rw [h]⟩
  exact ⟨hkey, by rw [hinfo, hkey]⟩

/-- Two macOS applications of two teams have one selector key, and with it one pseudonymous ID for
every root under every daemon key. -/
theorem selectorKey_merges_applications :
    ¬(∀ consumer consumer' : ConsumerIdentity,
      consumer.selectorKey = consumer'.selectorKey → consumer = consumer') ∧
    ∀ (C : Crypto) (ikm : ByteArr 32) (root : SpiffeId),
      derivePseudonymousId C ikm root (macosBundleId (str "com.a") (str "T1:team_id:T2")) =
        derivePseudonymousId C ikm root (macosBundleId (str "com.a:team_id:T1") (str "T2")) := by
  have hkey : (macosBundleId (str "com.a") (str "T1:team_id:T2")).selectorKey =
      (macosBundleId (str "com.a:team_id:T1") (str "T2")).selectorKey := by
    with_unfolding_all decide
  refine ⟨fun hinj ↦ ?_, fun C ikm root ↦ ?_⟩
  · exact absurd (hinj _ _ hkey) (by with_unfolding_all decide)
  · unfold derivePseudonymousId derivePseudonym
    rw [hkey]

/-- Bundle identifiers without a colon keep the keys of macOS consumers apart. -/
theorem selectorKey_inj_of_notMem_colon {consumer consumer' : ConsumerIdentity}
    (hcolon : ∀ bundleId teamId, consumer = macosBundleId bundleId teamId → ':' ∉ bundleId)
    (hcolon' : ∀ bundleId teamId, consumer' = macosBundleId bundleId teamId → ':' ∉ bundleId)
    (h : consumer.selectorKey = consumer'.selectorKey) : consumer = consumer' := by
  have hmem : ∀ {moved back : Str}, teamIdShift moved back → ':' ∈ moved := by
    rintro moved back (⟨between, rfl, -⟩ | ⟨rfl, -⟩) <;> simp
  rcases eq_or_rebracketed h with
    heq | ⟨_, _, _, _, hshift, -, hpair⟩ | ⟨_, _, _, _, hshift, -, hpair⟩
  · exact heq
  · exact absurd (List.mem_append_right _ (hmem hshift)) (hcolon' _ _ hpair)
  · exact absurd (List.mem_append_right _ (hmem hshift)) (hcolon _ _ hpair)

end ConsumerIdentity

end Hire.Core
