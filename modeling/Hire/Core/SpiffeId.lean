import Hire.Library.Text

/-!
# SPIFFE IDs and trust domains

`hire-core/src/spiffe_id.rs`. A trust domain has six variants, three of them with a free payload,
and every variant owns a reserved authority: `TrustDomain.display` renders it and
`TrustDomain.fromStr` reads it back. A SPIFFE ID is a trust domain and a path; `SpiffeId.uri`
renders it and `SpiffeId.fromStr` reads it back.

The parser is described by two exact readings. `TrustDomain.fromStr_eq_ok_iff` says that a string
parses to a trust domain exactly when it is that domain's string form, has only bytes of the
SPIFFE character set, and names a payload where the variant has one.
`SpiffeId.fromStr_eq_ok_iff` says the same of a SPIFFE ID. Rendering is injective on all trust
domains, whatever their payload holds (`TrustDomain.display_injective`), and on SPIFFE IDs whose
trust domains do not contain a slash (`SpiffeId.uri_inj_of_slash_free`); with a slash in a payload
two SPIFFE IDs can share a URI, which is why the second statement needs its assumption.
`SpiffeId.parsing_inverts_rendering` collects what parsing and rendering owe each other.
-/

set_option autoImplicit false
set_option relaxedAutoImplicit false

namespace Hire.Core

open Hire.Library

/-- Why a SPIFFE URI or a trust domain does not parse. -/
inductive SpiffeIdError
  | missingScheme
  | missingTrustDomain
  | missingPath
  | unknownTrustDomain (authority : Str)
  | illegalTrustDomain (authority : Str)
  deriving DecidableEq, Repr

/-- The message of a parse error. -/
def SpiffeIdError.toStr : SpiffeIdError → Str
  | .missingScheme => str "missing spiffe:// scheme"
  | .missingTrustDomain => str "missing trust domain"
  | .missingPath => str "missing path"
  | .unknownTrustDomain authority => str "unknown trust domain: " ++ authority
  | .illegalTrustDomain authority => str "illegal character in trust domain: " ++ authority

/-- The trust domain portion of a SPIFFE ID. Every variant owns a reserved authority. -/
inductive TrustDomain
  | tailscale
  | orgOidc (domain : Str)
  | personalDid (did : Str)
  | pivIssuer (issuer : Str)
  | sshLocal
  | pgpLocal
  deriving DecidableEq, Repr

namespace TrustDomain

/-- The string form of a trust domain. -/
def display : TrustDomain → Str
  | tailscale => str "tailscale"
  | orgOidc domain => str "oidc." ++ domain
  | personalDid did => str "personal." ++ did
  | pivIssuer issuer => str "piv." ++ issuer
  | sshLocal => str "ssh.local"
  | pgpLocal => str "pgp.local"

/-- The free text a trust domain carries; empty for the variants that carry none. -/
def payload : TrustDomain → Str
  | orgOidc domain => domain
  | personalDid did => did
  | pivIssuer issuer => issuer
  | _ => []

/-- Whether a byte may occur in a trust domain: a lowercase letter, a digit, or one of `.-_`. -/
def isTrustDomainByte (b : UInt8) : Bool :=
  (0x61 ≤ b && b ≤ 0x7a) || (0x30 ≤ b && b ≤ 0x39) || [0x2e, 0x2d, 0x5f].contains b

/-- Read a trust domain back from its string form. -/
def fromStr (s : Str) : Except SpiffeIdError TrustDomain :=
  if s = [] then .error .missingTrustDomain
  else if !(utf8 s).all isTrustDomainByte then .error (.illegalTrustDomain s)
  else if s = str "tailscale" then .ok tailscale
  else if s = str "ssh.local" then .ok sshLocal
  else if s = str "pgp.local" then .ok pgpLocal
  else
    match splitOnce '.' s with
    | some (label, rest) =>
      if label = str "personal" ∧ rest ≠ [] then .ok (personalDid rest)
      else if label = str "piv" ∧ rest ≠ [] then .ok (pivIssuer rest)
      else if label = str "oidc" ∧ rest ≠ [] then .ok (orgOidc rest)
      else .error (.unknownTrustDomain s)
    | none => .error (.unknownTrustDomain s)

/-- A trust domain that names something: its payload is not empty where it has one. -/
def Named : TrustDomain → Prop
  | orgOidc domain => domain ≠ []
  | personalDid did => did ≠ []
  | pivIssuer issuer => issuer ≠ []
  | _ => True

/-- Two distinct trust domains do not share a string form, whatever their payload holds. -/
theorem display_injective : Function.Injective display := by
  intro first second h
  cases first <;> cases second <;> simp_all [display]

/-- A string form is never empty. -/
theorem display_ne_nil (td : TrustDomain) : td.display ≠ [] := by
  cases td <;> simp [display]

/-- A string parses to a trust domain exactly when it is the string form of that domain, all its
bytes are in the SPIFFE character set, and the domain names something. -/
theorem fromStr_eq_ok_iff {s : Str} {td : TrustDomain} :
    fromStr s = .ok td ↔ s = td.display ∧ (utf8 s).all isTrustDomainByte = true ∧ td.Named := by
  constructor
  · intro h
    unfold fromStr at h
    split_ifs at h with hempty hbytes htailscale hssh hpgp
    · cases h
      exact ⟨htailscale, by simpa using hbytes, trivial⟩
    · cases h
      exact ⟨hssh, by simpa using hbytes, trivial⟩
    · cases h
      exact ⟨hpgp, by simpa using hbytes, trivial⟩
    · split at h
      · rename_i label rest hsplit
        have hcat := (splitOnce_eq_some_iff.mp hsplit).1
        split_ifs at h with hpersonal hpiv hoidc
        · cases h
          refine ⟨?_, by simpa using hbytes, hpersonal.2⟩
          rw [hcat, hpersonal.1]
          simp [display]
        · cases h
          refine ⟨?_, by simpa using hbytes, hpiv.2⟩
          rw [hcat, hpiv.1]
          simp [display]
        · cases h
          refine ⟨?_, by simpa using hbytes, hoidc.2⟩
          rw [hcat, hoidc.1]
          simp [display]
      · cases h
  · rintro ⟨rfl, hbytes, hnamed⟩
    unfold fromStr
    rw [if_neg td.display_ne_nil, hbytes]
    cases td with
    | tailscale => simp [display]
    | sshLocal => simp [display]
    | pgpLocal => simp [display]
    | orgOidc domain =>
      have hsplit : splitOnce '.' (orgOidc domain).display = some (str "oidc", domain) :=
        splitOnce_eq_some_iff.mpr (by simp [display])
      rw [hsplit]
      simp [display, show domain ≠ [] from hnamed]
    | personalDid did =>
      have hsplit : splitOnce '.' (personalDid did).display = some (str "personal", did) :=
        splitOnce_eq_some_iff.mpr (by simp [display])
      rw [hsplit]
      simp [display, show did ≠ [] from hnamed]
    | pivIssuer issuer =>
      have hsplit : splitOnce '.' (pivIssuer issuer).display = some (str "piv", issuer) :=
        splitOnce_eq_some_iff.mpr (by simp [display])
      rw [hsplit]
      simp [display, show issuer ≠ [] from hnamed]

/-- The bytes of the SPIFFE character set, `[a-z0-9._-]`, written out. -/
def charset : Bytes := utf8 (str "abcdefghijklmnopqrstuvwxyz0123456789._-")

/-- The byte test of the parser accepts exactly the SPIFFE character set. -/
theorem isTrustDomainByte_iff (b : UInt8) : isTrustDomainByte b = true ↔ b ∈ charset := by
  have hcharset : charset.map UInt8.toNat =
      List.range' 0x61 26 ++ List.range' 0x30 10 ++ [0x2e, 0x5f, 0x2d] := by
    with_unfolding_all decide
  have hmem : b ∈ charset ↔ b.toNat ∈ charset.map UInt8.toNat := by
    rw [List.mem_map]
    constructor
    · exact fun hb ↦ ⟨b, hb, rfl⟩
    · rintro ⟨c, hc, heq⟩
      rwa [← UInt8.toNat_inj.mp heq]
  rw [hmem, hcharset, List.mem_append, List.mem_append, List.mem_range'_1, List.mem_range'_1]
  simp only [isTrustDomainByte, Bool.or_eq_true, Bool.and_eq_true, decide_eq_true_iff,
    UInt8.le_iff_toNat_le, List.contains_eq_mem, List.mem_cons, List.not_mem_nil, or_false,
    ← UInt8.toNat_inj]
  show (0x61 ≤ b.toNat ∧ b.toNat ≤ 0x7a ∨ 0x30 ≤ b.toNat ∧ b.toNat ≤ 0x39) ∨
    (b.toNat = 0x2e ∨ b.toNat = 0x2d ∨ b.toNat = 0x5f) ↔ _
  omega

/-- A string whose bytes are all in the SPIFFE character set contains no slash. -/
theorem slash_notMem_of_charset {s : Str} (hbytes : (utf8 s).all isTrustDomainByte = true) :
    '/' ∉ s := by
  intro hslash
  have hmem : (0x2f : UInt8) ∈ utf8 s := mem_utf8_of_mem hslash (by decide)
  have hbyte := List.all_eq_true.mp hbytes _ hmem
  exact absurd hbyte (by decide)

/-- A trust domain whose payload contains no slash has a string form with no slash. -/
theorem slash_notMem_display {td : TrustDomain} (hpayload : '/' ∉ td.payload) :
    '/' ∉ td.display := by
  cases td <;> simp_all [display, payload]

/-- The strings that parse as a trust domain, described without the parser. -/
theorem fromStr_isOk_iff (s : Str) :
    (∃ td, fromStr s = .ok td) ↔
      (s = str "tailscale" ∨ s = str "ssh.local" ∨ s = str "pgp.local" ∨
        ∃ label ∈ [str "oidc.", str "personal.", str "piv."], ∃ rest ≠ [], s = label ++ rest) ∧
      ∀ b ∈ utf8 s, b ∈ charset := by
  have hcharset : (utf8 s).all isTrustDomainByte = true ↔ ∀ b ∈ utf8 s, b ∈ charset := by
    simp only [List.all_eq_true, isTrustDomainByte_iff]
  rw [← hcharset]
  constructor
  · rintro ⟨td, h⟩
    obtain ⟨hs, hbytes, hnamed⟩ := fromStr_eq_ok_iff.mp h
    refine ⟨?_, hbytes⟩
    cases td with
    | tailscale => exact Or.inl hs
    | sshLocal => exact Or.inr (Or.inl hs)
    | pgpLocal => exact Or.inr (Or.inr (Or.inl hs))
    | orgOidc domain =>
      exact Or.inr (Or.inr (Or.inr ⟨str "oidc.", by simp, domain, hnamed, hs⟩))
    | personalDid did =>
      exact Or.inr (Or.inr (Or.inr ⟨str "personal.", by simp, did, hnamed, hs⟩))
    | pivIssuer issuer =>
      exact Or.inr (Or.inr (Or.inr ⟨str "piv.", by simp, issuer, hnamed, hs⟩))
  · rintro ⟨hform, hbytes⟩
    rcases hform with hs | hs | hs | ⟨label, hlabel, rest, hrest, hs⟩
    · exact ⟨tailscale, fromStr_eq_ok_iff.mpr ⟨hs, hbytes, trivial⟩⟩
    · exact ⟨sshLocal, fromStr_eq_ok_iff.mpr ⟨hs, hbytes, trivial⟩⟩
    · exact ⟨pgpLocal, fromStr_eq_ok_iff.mpr ⟨hs, hbytes, trivial⟩⟩
    · simp only [List.mem_cons, List.not_mem_nil, or_false] at hlabel
      rcases hlabel with rfl | rfl | rfl
      · exact ⟨orgOidc rest, fromStr_eq_ok_iff.mpr ⟨hs, hbytes, hrest⟩⟩
      · exact ⟨personalDid rest, fromStr_eq_ok_iff.mpr ⟨hs, hbytes, hrest⟩⟩
      · exact ⟨pivIssuer rest, fromStr_eq_ok_iff.mpr ⟨hs, hbytes, hrest⟩⟩

end TrustDomain

/-! ### SPIFFE IDs -/

/-- A SPIFFE ID: a trust domain and a path without a leading slash. -/
structure SpiffeId where
  trustDomain : TrustDomain
  path : Str
  deriving DecidableEq, Repr

namespace SpiffeId

/-- The canonical SPIFFE URI. -/
def uri (id : SpiffeId) : Str :=
  str "spiffe://" ++ id.trustDomain.display ++ str "/" ++ id.path

/-- The pseudonymous SPIFFE ID with path `pseudonym/{hkdf_id}`. -/
def pseudonymous (trustDomain : TrustDomain) (hkdfId : Str) : SpiffeId :=
  ⟨trustDomain, str "pseudonym/" ++ hkdfId⟩

/-- Read a SPIFFE ID back from its URI. -/
def fromStr (s : Str) : Except SpiffeIdError SpiffeId :=
  match stripPrefix (str "spiffe://") s with
  | none => .error .missingScheme
  | some rest =>
    match splitOnce '/' rest with
    | none => .error .missingPath
    | some (tdStr, path) =>
      if tdStr = [] then .error .missingTrustDomain
      else if path = [] then .error .missingPath
      else
        match TrustDomain.fromStr tdStr with
        | .error e => .error e
        | .ok trustDomain => .ok ⟨trustDomain, path⟩

/-- A URI is the scheme, the string form of the trust domain, a slash and the path. -/
theorem uri_eq_append (id : SpiffeId) :
    id.uri = str "spiffe://" ++ (id.trustDomain.display ++ '/' :: id.path) := by
  simp [uri]

/-- A string parses to a SPIFFE ID exactly when it is the URI of that ID, its trust domain reads
back, and its path is not empty. -/
theorem fromStr_eq_ok_iff {s : Str} {id : SpiffeId} :
    fromStr s = .ok id ↔ s = id.uri ∧
      TrustDomain.fromStr id.trustDomain.display = .ok id.trustDomain ∧ id.path ≠ [] := by
  constructor
  · intro h
    unfold fromStr at h
    split at h
    · cases h
    · rename_i rest hstrip
      split at h
      · cases h
      · rename_i tdStr path hsplit
        split_ifs at h with htd hpath
        split at h
        · cases h
        · rename_i trustDomain hparse
          cases h
          have hdisplay := (TrustDomain.fromStr_eq_ok_iff.mp hparse).1
          refine ⟨?_, hdisplay ▸ hparse, hpath⟩
          rw [uri_eq_append, stripPrefix_eq_some_iff.mp hstrip,
            (splitOnce_eq_some_iff.mp hsplit).1, hdisplay]
  · rintro ⟨rfl, hparse, hpath⟩
    have hfree := TrustDomain.slash_notMem_of_charset (TrustDomain.fromStr_eq_ok_iff.mp hparse).2.1
    have hstrip := stripPrefix_eq_some_iff.mpr id.uri_eq_append
    have hsplit : splitOnce '/' (id.trustDomain.display ++ '/' :: id.path) =
        some (id.trustDomain.display, id.path) := splitOnce_eq_some_iff.mpr ⟨rfl, hfree⟩
    simp only [fromStr, hstrip, hsplit, hparse, if_neg hpath,
      if_neg (TrustDomain.display_ne_nil id.trustDomain)]

/-- The empty string is no SPIFFE ID. -/
theorem ne_nil_of_fromStr {s : Str} {id : SpiffeId} (h : fromStr s = .ok id) : s ≠ [] := by
  intro hempty
  obtain ⟨huri, -, -⟩ := fromStr_eq_ok_iff.mp h
  rw [hempty, uri_eq_append] at huri
  simp at huri

/-- Rendering is injective on the SPIFFE IDs of one trust domain. -/
theorem uri_inj_of_trustDomain_eq {first second : SpiffeId}
    (htd : first.trustDomain = second.trustDomain) (h : first.uri = second.uri) :
    first = second := by
  obtain ⟨td, path⟩ := first
  obtain ⟨td', path'⟩ := second
  obtain rfl : td = td' := htd
  simpa [uri] using h

/-- Rendering is injective on SPIFFE IDs whose trust domains contain no slash. -/
theorem uri_inj_of_slash_free {first second : SpiffeId}
    (hfirst : '/' ∉ first.trustDomain.display) (hsecond : '/' ∉ second.trustDomain.display)
    (h : first.uri = second.uri) : first = second := by
  refine uri_inj_of_trustDomain_eq ?_ h
  rw [uri_eq_append, uri_eq_append] at h
  exact TrustDomain.display_injective
    (append_sep_inj hfirst hsecond (List.append_cancel_left h)).1

/-- With a slash in a payload two SPIFFE IDs can share a URI. -/
example : (⟨.orgOidc (str "a/b"), str "c"⟩ : SpiffeId).uri =
    (⟨.orgOidc (str "a"), str "b/c"⟩ : SpiffeId).uri := by
  with_unfolding_all decide

/-- Parsing and rendering are exact inverses. A string parses as a trust domain exactly when it is
one of the three reserved names or a reserved label followed by a non-empty remainder, with all
its bytes in the SPIFFE character set, and then rendering gives the string back. A string parses
as a SPIFFE ID exactly when it is the scheme, a slash-free string that parses as a trust domain, a
slash and a non-empty path, and then `uri` gives the string back. A SPIFFE ID whose trust domain
reads back and whose path is not empty is read back from its URI. No two trust domains share a
string form. -/
theorem parsing_inverts_rendering :
    (∀ s : Str, (∃ td, TrustDomain.fromStr s = .ok td) ↔
      (s = str "tailscale" ∨ s = str "ssh.local" ∨ s = str "pgp.local" ∨
        ∃ label ∈ [str "oidc.", str "personal.", str "piv."], ∃ rest ≠ [], s = label ++ rest) ∧
      ∀ b ∈ utf8 s, b ∈ TrustDomain.charset) ∧
    (∀ (s : Str) (td : TrustDomain), TrustDomain.fromStr s = .ok td → td.display = s) ∧
    (∀ s : Str, (∃ id, fromStr s = .ok id) ↔
      ∃ t p, s = str "spiffe://" ++ t ++ str "/" ++ p ∧ '/' ∉ t ∧
        (∃ td, TrustDomain.fromStr t = .ok td) ∧ p ≠ []) ∧
    (∀ (s : Str) (id : SpiffeId), fromStr s = .ok id → id.uri = s) ∧
    (∀ id : SpiffeId, (∃ td, TrustDomain.fromStr id.trustDomain.display = .ok td) →
      id.path ≠ [] → fromStr id.uri = .ok id) ∧
    Function.Injective TrustDomain.display := by
  refine ⟨TrustDomain.fromStr_isOk_iff,
    fun s td h ↦ (TrustDomain.fromStr_eq_ok_iff.mp h).1.symm, fun s ↦ ⟨?_, ?_⟩,
    fun s id h ↦ (fromStr_eq_ok_iff.mp h).1.symm, ?_, TrustDomain.display_injective⟩
  · rintro ⟨id, h⟩
    obtain ⟨hs, hparse, hpath⟩ := fromStr_eq_ok_iff.mp h
    have hfree := TrustDomain.slash_notMem_of_charset (TrustDomain.fromStr_eq_ok_iff.mp hparse).2.1
    exact ⟨id.trustDomain.display, id.path, hs, hfree, ⟨_, hparse⟩, hpath⟩
  · rintro ⟨t, p, hs, -, ⟨td, hparse⟩, hpath⟩
    obtain ⟨rfl, -⟩ := TrustDomain.fromStr_eq_ok_iff.mp hparse
    exact ⟨⟨td, p⟩, fromStr_eq_ok_iff.mpr ⟨hs, hparse, hpath⟩⟩
  · rintro id ⟨td, hparse⟩ hpath
    obtain rfl : id.trustDomain = td :=
      TrustDomain.display_injective (TrustDomain.fromStr_eq_ok_iff.mp hparse).1
    exact fromStr_eq_ok_iff.mpr ⟨rfl, hparse, hpath⟩

end SpiffeId

end Hire.Core
