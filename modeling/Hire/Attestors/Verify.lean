import Hire.Attestors.Claim
import Mathlib.Algebra.Group.Nat.Defs

/-!
# What the verifying constructors accept

The agent's blobs come from a socket: a key blob and a signature are two length-prefixed strings
each, and a length may be short, long, or larger than what follows. `framed` writes such a string,
and `readString_eq_some_iff` says that the reader accepts exactly what it writes, so that three
functions which parse a blob on their own agree on what a key is.

`verify_accepts_grammar` states it for the two constructors of possession and for the function that
compares an agent key with a key named elsewhere: each accepts exactly its grammar, the binding to
the candidate and the signature over the challenge, and the evidence keeps that challenge. The
validity of a point, the strict verification and the hashes are the abstract primitives.
-/

set_option autoImplicit false
set_option relaxedAutoImplicit false

namespace Hire.Attestors

open Hire.Library Hire.Core

/-! ### Length-prefixed strings -/

/-- A string behind its length in four bytes, the most significant first. -/
def framed (s : Bytes) : Bytes := pushString [] s

theorem framed_eq (s : Bytes) : framed s = u32ToBeBytes s.length ++ s := rfl

theorem length_framed (s : Bytes) : (framed s).length = s.length + 4 := by
  rw [framed_eq, List.length_append, Nat.add_comm]
  rfl

theorem u32FromBeBytes_lt (b0 b1 b2 b3 : UInt8) : u32FromBeBytes b0 b1 b2 b3 < 2 ^ 32 := by
  have h0 := b0.toNat_lt
  have h1 := b1.toNat_lt
  have h2 := b2.toNat_lt
  have h3 := b3.toNat_lt
  unfold u32FromBeBytes
  omega

/-- Four bytes are the bytes of their value. -/
theorem u32ToBeBytes_u32FromBeBytes (b0 b1 b2 b3 : UInt8) :
    u32ToBeBytes (u32FromBeBytes b0 b1 b2 b3) = [b0, b1, b2, b3] := by
  have h0 := b0.toNat_lt
  have h1 := b1.toNat_lt
  have h2 := b2.toNat_lt
  have h3 := b3.toNat_lt
  have hbyte : ∀ (n : ℕ) (b : UInt8), n % 256 = b.toNat → UInt8.ofNat n = b := by
    intro n b hn
    apply UInt8.toNat_inj.mp
    rw [UInt8.toNat_ofNat']
    exact hn
  unfold u32ToBeBytes u32FromBeBytes
  rw [hbyte _ b0 (by omega), hbyte _ b1 (by omega), hbyte _ b2 (by omega), hbyte _ b3 (by omega)]

/-- The value of the four bytes of a length is the length. -/
theorem u32FromBeBytes_ofNat {n : ℕ} (hn : n < 2 ^ 32) :
    u32FromBeBytes (UInt8.ofNat (n / 16777216)) (UInt8.ofNat (n / 65536)) (UInt8.ofNat (n / 256))
      (UInt8.ofNat n) = n := by
  unfold u32FromBeBytes
  simp only [UInt8.toNat_ofNat', Nat.reducePow]
  omega

/-- A string is read back from behind its length, whatever follows. -/
theorem readString_framed {s : Bytes} (hs : s.length < 2 ^ 32) (rest : Bytes) :
    readString (framed s ++ rest) = some (s, rest) := by
  have hshape : framed s ++ rest = UInt8.ofNat (s.length / 16777216) ::
      UInt8.ofNat (s.length / 65536) :: UInt8.ofNat (s.length / 256) :: UInt8.ofNat s.length ::
        (s ++ rest) := rfl
  have hfits : ¬ (s ++ rest).length < s.length := by
    rw [List.length_append]
    omega
  rw [hshape, readString]
  simp only [u32FromBeBytes_ofNat hs]
  rw [if_neg hfits, List.take_left, List.drop_left]

/-- The reader accepts exactly a string behind its length. -/
theorem readString_eq_some_iff {buf s rest : Bytes} :
    readString buf = some (s, rest) ↔ buf = framed s ++ rest ∧ s.length < 2 ^ 32 := by
  constructor
  · intro h
    unfold readString at h
    split at h
    · rename_i b0 b1 b2 b3 tail
      simp only at h
      split_ifs at h with hshort
      obtain ⟨rfl, rfl⟩ := Prod.mk.inj (Option.some.inj h)
      have hlength : (tail.take (u32FromBeBytes b0 b1 b2 b3)).length =
          u32FromBeBytes b0 b1 b2 b3 := by
        rw [List.length_take]
        omega
      refine ⟨?_, ?_⟩
      · rw [framed_eq, hlength, u32ToBeBytes_u32FromBeBytes, List.append_assoc,
          List.take_append_drop]
        rfl
      · rw [hlength]
        exact u32FromBeBytes_lt b0 b1 b2 b3
    · simp at h
  · rintro ⟨rfl, hs⟩
    exact readString_framed hs rest

theorem toByteArr_eq_some_iff {n : ℕ} {bytes : Bytes} {a : ByteArr n} :
    toByteArr n bytes = some a ↔ a.1 = bytes := by
  unfold toByteArr
  constructor
  · intro h
    split_ifs at h
    rw [← Option.some.inj h]
  · rintro rfl
    rw [dif_pos a.2]

/-- Two reads find the algorithm and an array, and use a blob up, exactly when the blob is the two
behind their lengths. -/
theorem readString_blob_iff {buf : Bytes} {n : ℕ} {a : ByteArr n} (hn : n < 2 ^ 32) :
    (∃ rest, readString buf = some (Ssh.sshEd25519, rest) ∧ readString rest = some (a.1, [])) ↔
      buf = framed Ssh.sshEd25519 ++ framed a.1 := by
  have halgorithm : Ssh.sshEd25519.length < 2 ^ 32 := by
    with_unfolding_all decide
  have ha : a.1.length < 2 ^ 32 := by
    rw [a.2]
    exact hn
  constructor
  · rintro ⟨rest, hbuf, hrest⟩
    rw [(readString_eq_some_iff.mp hbuf).1, (readString_eq_some_iff.mp hrest).1, List.append_nil]
  · rintro rfl
    have hread := readString_framed ha []
    rw [List.append_nil] at hread
    exact ⟨framed a.1, readString_framed halgorithm _, hread⟩

/-! ### The three parsers -/

/-- The signature of an agent is accepted exactly in its framing. -/
theorem framedSignature_eq_ok_iff {signature : Bytes} {sig : ByteArr 64} :
    framedSignature Ssh.sshEd25519 signature = .ok sig ↔
      signature = framed Ssh.sshEd25519 ++ framed sig.1 := by
  rw [← readString_blob_iff (by decide)]
  constructor
  · intro h
    unfold framedSignature at h
    split at h
    · simp at h
    · rename_i sigAlgorithm rest hfirst
      split at h
      · simp at h
      · rename_i sigBytes rest' hsecond
        split_ifs at h with hbad
        split at h
        · simp at h
        · rename_i sig' harray
          rw [not_or, not_ne_iff, not_ne_iff] at hbad
          rw [← Except.ok.inj h, toByteArr_eq_some_iff.mp harray, ← hbad.1, ← hbad.2]
          exact ⟨rest, hfirst, hsecond⟩
  · rintro ⟨rest, hfirst, hsecond⟩
    have harray : toByteArr 64 sig.1 = some sig := toByteArr_eq_some_iff.mpr rfl
    unfold framedSignature
    simp [hfirst, hsecond, harray]

/-- An agent key carries a point exactly when it is the algorithm and the point, and nothing
after. -/
theorem Ssh.ed25519PointOf_eq_some_iff {keyBlob : Bytes} {point : ByteArr 32} :
    Ssh.ed25519PointOf keyBlob = some point ↔
      keyBlob = framed Ssh.sshEd25519 ++ framed point.1 := by
  rw [← readString_blob_iff (by decide)]
  constructor
  · intro h
    unfold Ssh.ed25519PointOf at h
    split at h
    · simp at h
    · rename_i algorithm rest hfirst
      split at h
      · simp at h
      · rename_i bytes rest' hsecond
        split_ifs at h with hgood
        rw [toByteArr_eq_some_iff.mp h, ← hgood.1, ← hgood.2]
        exact ⟨rest, hfirst, hsecond⟩
  · rintro ⟨rest, hfirst, hsecond⟩
    have harray : toByteArr 32 point.1 = some point := toByteArr_eq_some_iff.mpr rfl
    unfold Ssh.ed25519PointOf
    simp [hfirst, hsecond, harray]

namespace ChallengeSignature

/-- An agent's signature is accepted exactly when the blob is a key whose fingerprint the candidate
names, the point is valid, the signature is framed, and it verifies over the challenge. -/
theorem verifySshEd25519_eq_ok_iff {C : Crypto} {candidate : Candidate}
    {challenge keyBlob signature : Bytes} {now : SystemTime} {s : ChallengeSignature} :
    verifySshEd25519 C candidate challenge keyBlob signature now = .ok s ↔
      Ssh.spiffePath C keyBlob = candidate.path ∧ ∃ (point : ByteArr 32) (sig : ByteArr 64),
        keyBlob = framed Ssh.sshEd25519 ++ framed point.1 ∧ C.validPoint point ∧
        signature = framed Ssh.sshEd25519 ++ framed sig.1 ∧ C.verifyStrict point challenge sig ∧
        s = ⟨⟨sig.1, str "application/vnd.hire.ssh-ed25519-signature"⟩, challenge, now⟩ := by
  constructor
  · intro h
    unfold verifySshEd25519 at h
    split_ifs at h with hpath
    split at h
    · simp at h
    · rename_i algorithm rest hfirst
      split at h
      · simp at h
      · rename_i bytes rest' hsecond
        split_ifs at h with hbad
        rw [not_or, not_ne_iff, not_ne_iff] at hbad
        split at h
        · simp at h
        · rename_i point harray
          split_ifs at h with hpoint
          split at h
          · simp at h
          · rename_i sig hsig
            split_ifs at h with hverify
            rw [hbad.1] at hfirst hsig
            rw [hbad.2, ← toByteArr_eq_some_iff.mp harray] at hsecond
            have hblob := (readString_blob_iff (by decide)).mp ⟨rest, hfirst, hsecond⟩
            exact ⟨not_ne_iff.mp hpath, point, sig, hblob, by simpa using hpoint,
              framedSignature_eq_ok_iff.mp hsig, by simpa using hverify, (Except.ok.inj h).symm⟩
  · rintro ⟨hpath, point, sig, hblob, hpoint, hsig, hverify, rfl⟩
    obtain ⟨rest, hfirst, hsecond⟩ := (readString_blob_iff (by decide)).mpr hblob
    have harray : toByteArr 32 point.1 = some point := toByteArr_eq_some_iff.mpr rfl
    unfold verifySshEd25519
    simp [hpath, hfirst, hsecond, harray, hpoint, framedSignature_eq_ok_iff.mpr hsig, hverify]

/-- A signature by a `did:key` is accepted exactly when the candidate names the identifier, the
identifier has a valid point, the signature is framed, and it verifies over the challenge. -/
theorem verifyDidKeyEd25519_eq_ok_iff {C : Crypto} {candidate : Candidate} {challenge : Bytes}
    {did : Str} {signature : Bytes} {now : SystemTime} {s : ChallengeSignature} :
    verifyDidKeyEd25519 C candidate challenge did signature now = .ok s ↔
      DidKey.spiffePath C did = candidate.path ∧ ∃ (point : ByteArr 32) (sig : ByteArr 64),
        DidKey.ed25519Point did = some point ∧ C.validPoint point ∧
        signature = framed Ssh.sshEd25519 ++ framed sig.1 ∧ C.verifyStrict point challenge sig ∧
        s = ⟨⟨sig.1, str "application/vnd.hire.did-key-ed25519-signature"⟩, challenge, now⟩ := by
  constructor
  · intro h
    unfold verifyDidKeyEd25519 at h
    split_ifs at h with hpath
    split at h
    · simp at h
    · rename_i point hkey
      split_ifs at h with hpoint
      split at h
      · simp at h
      · rename_i sig hsig
        split_ifs at h with hverify
        exact ⟨not_ne_iff.mp hpath, point, sig, hkey, by simpa using hpoint,
          framedSignature_eq_ok_iff.mp hsig, by simpa using hverify, (Except.ok.inj h).symm⟩
  · rintro ⟨hpath, point, sig, hkey, hpoint, hsig, hverify, rfl⟩
    unfold verifyDidKeyEd25519
    simp [hpath, hkey, hpoint, framedSignature_eq_ok_iff.mpr hsig, hverify]

/-- The verifying constructors accept exactly their wire grammar. An agent's signature is accepted
iff the key blob is the algorithm and a valid point with nothing after, the signature is the
algorithm and sixty-four bytes with nothing after, the fingerprint path of the blob is the
candidate's and the signature verifies strictly over the challenge; a signature by a `did:key` iff
the path of the identifier is the candidate's, the identifier has a valid point, the signature has
the same framing and verifies. The evidence keeps this challenge. An agent key carries a point iff
it is the algorithm and the point. -/
theorem verify_accepts_grammar (C : Crypto) :
    (∀ (candidate : Candidate) (challenge keyBlob signature : Bytes) (now : SystemTime),
      ((∃ s, verifySshEd25519 C candidate challenge keyBlob signature now = .ok s) ↔
        ∃ (point : ByteArr 32) (sig : ByteArr 64),
          keyBlob = framed Ssh.sshEd25519 ++ framed point.1 ∧ C.validPoint point ∧
          signature = framed Ssh.sshEd25519 ++ framed sig.1 ∧
          Ssh.spiffePath C keyBlob = candidate.path ∧ C.verifyStrict point challenge sig) ∧
      ∀ s, verifySshEd25519 C candidate challenge keyBlob signature now = .ok s →
        s.challenge = challenge) ∧
    (∀ (candidate : Candidate) (challenge : Bytes) (did : Str) (signature : Bytes)
      (now : SystemTime),
      ((∃ s, verifyDidKeyEd25519 C candidate challenge did signature now = .ok s) ↔
        ∃ (point : ByteArr 32) (sig : ByteArr 64), DidKey.spiffePath C did = candidate.path ∧
          DidKey.ed25519Point did = some point ∧ C.validPoint point ∧
          signature = framed Ssh.sshEd25519 ++ framed sig.1 ∧
          C.verifyStrict point challenge sig) ∧
      ∀ s, verifyDidKeyEd25519 C candidate challenge did signature now = .ok s →
        s.challenge = challenge) ∧
    ∀ (blob : Bytes) (point : ByteArr 32), Ssh.ed25519PointOf blob = some point ↔
      blob = framed Ssh.sshEd25519 ++ framed point.1 := by
  refine ⟨fun candidate challenge keyBlob signature now ↦
      ⟨⟨?_, ?_⟩, fun s h ↦ challenge_of_verifySshEd25519 h⟩,
    fun candidate challenge did signature now ↦
      ⟨⟨?_, ?_⟩, fun s h ↦ challenge_of_verifyDidKeyEd25519 h⟩,
    fun blob point ↦ Ssh.ed25519PointOf_eq_some_iff⟩
  · rintro ⟨s, h⟩
    obtain ⟨hpath, point, sig, hblob, hpoint, hsig, hverify, -⟩ := verifySshEd25519_eq_ok_iff.mp h
    exact ⟨point, sig, hblob, hpoint, hsig, hpath, hverify⟩
  · rintro ⟨point, sig, hblob, hpoint, hsig, hpath, hverify⟩
    exact ⟨_, verifySshEd25519_eq_ok_iff.mpr
      ⟨hpath, point, sig, hblob, hpoint, hsig, hverify, rfl⟩⟩
  · rintro ⟨s, h⟩
    obtain ⟨hpath, point, sig, hkey, hpoint, hsig, hverify, -⟩ := verifyDidKeyEd25519_eq_ok_iff.mp h
    exact ⟨point, sig, hpath, hkey, hpoint, hsig, hverify⟩
  · rintro ⟨point, sig, hpath, hkey, hpoint, hsig, hverify⟩
    exact ⟨_, verifyDidKeyEd25519_eq_ok_iff.mpr
      ⟨hpath, point, sig, hkey, hpoint, hsig, hverify, rfl⟩⟩

end ChallengeSignature

end Hire.Attestors
