import Hire.Library.Text
import Mathlib.Data.List.Nodup

/-!
# Byte encodings

Lowercase hexadecimal, base64 without padding, and the lossy reading of bytes as UTF-8.

`hex` writes two digits for a byte; it is injective (`hex_injective`), has twice the length of its
input, and uses only the sixteen lowercase digits. `base64Encode` and `base64Decode` are the
unpadded codec over an alphabet, and `base64Decode_encode` is the round trip for an alphabet of
sixty-four distinct characters. `fromUtf8Lossy` reads bytes as UTF-8 and writes one replacement
character for every maximal ill-formed run.

Nothing here names a particular program.
-/

set_option autoImplicit false
set_option relaxedAutoImplicit false

namespace Hire.Library

/-! ### Hexadecimal -/

/-- The two lowercase hexadecimal digits of a byte. -/
def hexByte (b : UInt8) : Str :=
  [Nat.digitChar (b.toNat / 16), Nat.digitChar (b.toNat % 16)]

/-- The lowercase hexadecimal form of a byte string. -/
def hex (bytes : Bytes) : Str := bytes.flatMap hexByte

/-- The sixteen lowercase hexadecimal digits. -/
def hexDigits : Str := str "0123456789abcdef"

/-- A digit below sixteen is recovered from its character. -/
theorem digitChar_injOn {m n : ℕ} (hm : m < 16) (hn : n < 16)
    (h : Nat.digitChar m = Nat.digitChar n) : m = n := by
  have hall : ∀ m < 16, ∀ n < 16, Nat.digitChar m = Nat.digitChar n → m = n := by decide
  exact hall m hm n hn h

theorem digitChar_mem_hexDigits {n : ℕ} (hn : n < 16) : Nat.digitChar n ∈ hexDigits := by
  have hall : ∀ n < 16, Nat.digitChar n ∈ hexDigits := by with_unfolding_all decide
  exact hall n hn

/-- The two digits of a byte determine it. -/
theorem hexByte_injective : Function.Injective hexByte := by
  intro b c h
  have hb := b.toNat_lt
  have hc := c.toNat_lt
  obtain ⟨hhigh, hlow⟩ : Nat.digitChar (b.toNat / 16) = Nat.digitChar (c.toNat / 16) ∧
      Nat.digitChar (b.toNat % 16) = Nat.digitChar (c.toNat % 16) := by
    simpa [hexByte] using h
  have hdiv := digitChar_injOn (by omega) (by omega) hhigh
  have hmod := digitChar_injOn (by omega) (by omega) hlow
  exact UInt8.toNat_inj.mp (by omega)

@[simp] theorem hex_length (bytes : Bytes) : (hex bytes).length = 2 * bytes.length := by
  induction bytes with
  | nil => rfl
  | cons b rest ih =>
    have hstep : hex (b :: rest) = hexByte b ++ hex rest := rfl
    rw [hstep, List.length_append, ih, List.length_cons]
    simp only [hexByte, List.length_cons, List.length_nil]
    omega

/-- The hexadecimal form of a byte string determines it. -/
theorem hex_injective : Function.Injective hex := by
  intro bytes
  induction bytes with
  | nil =>
    intro other h
    have hlength := congrArg List.length h
    rw [hex_length, hex_length, List.length_nil] at hlength
    exact (List.eq_nil_of_length_eq_zero (by omega)).symm
  | cons b rest ih =>
    intro other h
    cases other with
    | nil => exact absurd (congrArg List.length h) (by simp)
    | cons c rest' =>
      have hcat : hexByte b ++ hex rest = hexByte c ++ hex rest' := h
      obtain ⟨hhead, htail⟩ := List.append_inj hcat rfl
      rw [hexByte_injective hhead, ih htail]

/-- The hexadecimal form uses only the sixteen lowercase digits. -/
theorem mem_hexDigits_of_mem_hex {bytes : Bytes} {c : Char} (hc : c ∈ hex bytes) :
    c ∈ hexDigits := by
  obtain ⟨b, -, hdigit⟩ := List.mem_flatMap.mp hc
  have hb := b.toNat_lt
  simp only [hexByte, List.mem_cons, List.not_mem_nil, or_false] at hdigit
  rcases hdigit with rfl | rfl
  · exact digitChar_mem_hexDigits (by omega)
  · exact digitChar_mem_hexDigits (by omega)

/-! ### Base64 without padding -/

/-- The alphabet of standard base64. -/
def base64Standard : Str := str "ABCDEFGHIJKLMNOPQRSTUVWXYZabcdefghijklmnopqrstuvwxyz0123456789+/"

/-- The alphabet of URL-safe base64. -/
def base64Url : Str := str "ABCDEFGHIJKLMNOPQRSTUVWXYZabcdefghijklmnopqrstuvwxyz0123456789-_"

/-- The base64 form of a byte string over an alphabet, without padding. -/
def base64Encode (alphabet : Str) : Bytes → Str
  | [] => []
  | [a] => [a.toNat / 4, a.toNat % 4 * 16].map (alphabet.getD · 'A')
  | [a, b] =>
    [a.toNat / 4, a.toNat % 4 * 16 + b.toNat / 16, b.toNat % 16 * 4].map (alphabet.getD · 'A')
  | a :: b :: c :: rest =>
    [a.toNat / 4, a.toNat % 4 * 16 + b.toNat / 16, b.toNat % 16 * 4 + c.toNat / 64,
      c.toNat % 64].map (alphabet.getD · 'A') ++ base64Encode alphabet rest

/-- The value of a character in an alphabet, if it has one. -/
def base64Value (alphabet : Str) (c : Char) : Option ℕ := alphabet.findIdx? (· == c)

/-- The bytes of a list of base64 values. A last group of one value, and spare bits that are not
zero, are refused. -/
def base64Bytes : List ℕ → Option Bytes
  | [] => some []
  | [_] => none
  | [p, q] => if q % 16 = 0 then some [UInt8.ofNat (p * 4 + q / 16)] else none
  | [p, q, r] =>
    if r % 4 = 0 then
      some [UInt8.ofNat (p * 4 + q / 16), UInt8.ofNat (q % 16 * 16 + r / 4)]
    else none
  | p :: q :: r :: s :: rest =>
    (base64Bytes rest).map fun tail ↦
      UInt8.ofNat (p * 4 + q / 16) :: UInt8.ofNat (q % 16 * 16 + r / 4) ::
        UInt8.ofNat (r % 4 * 64 + s) :: tail

/-- The byte string a base64 text over an alphabet stands for, if it is well formed. -/
def base64Decode (alphabet : Str) (text : Str) : Option Bytes :=
  (text.mapM (base64Value alphabet)).bind base64Bytes

section Base64

variable {alphabet : Str}

/-- A value below sixty-four is recovered from its character. Assumes: an alphabet of sixty-four
distinct characters. -/
theorem base64Value_getD (hlength : alphabet.length = 64) (hnodup : alphabet.Nodup) {n : ℕ}
    (hn : n < 64) : base64Value alphabet (alphabet.getD n 'A') = some n := by
  have hbound : n < alphabet.length := by omega
  rw [List.getD_eq_getElem?_getD, List.getElem?_eq_getElem hbound, Option.getD_some, base64Value,
    List.findIdx?_eq_some_iff_getElem]
  refine ⟨hbound, by simp, fun j hj ↦ ?_⟩
  have hne : alphabet[j] ≠ alphabet[n] := fun heq ↦ by
    have hindex := (List.Nodup.getElem_inj_iff hnodup).mp heq
    omega
  simpa using hne

/-- Reading the values of a text written from values below sixty-four gives the values back. -/
theorem mapM_base64Value_map (hlength : alphabet.length = 64) (hnodup : alphabet.Nodup)
    {values : List ℕ} (hvalues : ∀ n ∈ values, n < 64) :
    (values.map (alphabet.getD · 'A')).mapM (base64Value alphabet) = some values := by
  induction values with
  | nil => rfl
  | cons n rest ih =>
    have hn := hvalues n List.mem_cons_self
    have hrest := ih fun m hm ↦ hvalues m (List.mem_cons_of_mem _ hm)
    rw [List.map_cons, List.mapM_cons, base64Value_getD hlength hnodup hn, hrest]
    rfl

/-- The base64 values of a byte string. -/
def base64Values : Bytes → List ℕ
  | [] => []
  | [a] => [a.toNat / 4, a.toNat % 4 * 16]
  | [a, b] => [a.toNat / 4, a.toNat % 4 * 16 + b.toNat / 16, b.toNat % 16 * 4]
  | a :: b :: c :: rest =>
    a.toNat / 4 :: (a.toNat % 4 * 16 + b.toNat / 16) :: (b.toNat % 16 * 4 + c.toNat / 64) ::
      c.toNat % 64 :: base64Values rest

theorem base64Encode_eq_map (alphabet : Str) (bytes : Bytes) :
    base64Encode alphabet bytes = (base64Values bytes).map (alphabet.getD · 'A') := by
  induction bytes using base64Values.induct with
  | case1 => rfl
  | case2 a => rfl
  | case3 a b => rfl
  | case4 a b c rest ih =>
    rw [base64Encode, base64Values, ih]
    simp

/-- A byte is recovered from a number that equals it. -/
theorem ofNat_eq_of_toNat {b : UInt8} {n : ℕ} (h : n = b.toNat) : UInt8.ofNat n = b := by
  rw [h, UInt8.ofNat_toNat]

theorem base64Values_lt (bytes : Bytes) : ∀ n ∈ base64Values bytes, n < 64 := by
  induction bytes using base64Values.induct with
  | case1 => simp [base64Values]
  | case2 a =>
    have ha := a.toNat_lt
    simp only [base64Values, List.mem_cons, List.not_mem_nil, or_false, forall_eq_or_imp, forall_eq]
    omega
  | case3 a b =>
    have ha := a.toNat_lt
    have hb := b.toNat_lt
    simp only [base64Values, List.mem_cons, List.not_mem_nil, or_false, forall_eq_or_imp, forall_eq]
    omega
  | case4 a b c rest ih =>
    have ha := a.toNat_lt
    have hb := b.toNat_lt
    have hc := c.toNat_lt
    simp only [base64Values, List.mem_cons, forall_eq_or_imp]
    exact ⟨by omega, by omega, by omega, by omega, ih⟩

theorem base64Bytes_values (bytes : Bytes) : base64Bytes (base64Values bytes) = some bytes := by
  induction bytes using base64Values.induct with
  | case1 => rfl
  | case2 a =>
    have ha := a.toNat_lt
    have hvalue : UInt8.ofNat (a.toNat / 4 * 4 + a.toNat % 4 * 16 / 16) = a :=
      ofNat_eq_of_toNat (by omega)
    rw [base64Values, base64Bytes, if_pos (by omega), hvalue]
  | case3 a b =>
    have ha := a.toNat_lt
    have hb := b.toNat_lt
    have hfirst : UInt8.ofNat (a.toNat / 4 * 4 + (a.toNat % 4 * 16 + b.toNat / 16) / 16) = a :=
      ofNat_eq_of_toNat (by omega)
    have hsecond : UInt8.ofNat ((a.toNat % 4 * 16 + b.toNat / 16) % 16 * 16 +
        b.toNat % 16 * 4 / 4) = b := ofNat_eq_of_toNat (by omega)
    rw [base64Values, base64Bytes, if_pos (by omega), hfirst, hsecond]
  | case4 a b c rest ih =>
    have ha := a.toNat_lt
    have hb := b.toNat_lt
    have hc := c.toNat_lt
    have hfirst : UInt8.ofNat (a.toNat / 4 * 4 + (a.toNat % 4 * 16 + b.toNat / 16) / 16) = a :=
      ofNat_eq_of_toNat (by omega)
    have hsecond : UInt8.ofNat ((a.toNat % 4 * 16 + b.toNat / 16) % 16 * 16 +
        (b.toNat % 16 * 4 + c.toNat / 64) / 4) = b := ofNat_eq_of_toNat (by omega)
    have hthird : UInt8.ofNat ((b.toNat % 16 * 4 + c.toNat / 64) % 4 * 64 + c.toNat % 64) = c :=
      ofNat_eq_of_toNat (by omega)
    rw [base64Values, base64Bytes, ih, hfirst, hsecond, hthird]
    rfl

/-- Decoding what was encoded gives the bytes back. Assumes: an alphabet of sixty-four distinct
characters. -/
theorem base64Decode_encode (hlength : alphabet.length = 64) (hnodup : alphabet.Nodup)
    (bytes : Bytes) : base64Decode alphabet (base64Encode alphabet bytes) = some bytes := by
  rw [base64Decode, base64Encode_eq_map,
    mapM_base64Value_map hlength hnodup (base64Values_lt bytes)]
  exact base64Bytes_values bytes

/-- Values that stand for bytes are the values of those bytes. -/
theorem base64Values_eq_of_bytes {values : List ℕ} {bytes : Bytes} (hvalues : ∀ n ∈ values, n < 64)
    (h : base64Bytes values = some bytes) : base64Values bytes = values := by
  induction values using base64Bytes.induct generalizing bytes with
  | case1 =>
    obtain rfl : [] = bytes := Option.some.inj h
    rfl
  | case2 p => cases h
  | case3 p q hspare =>
    rw [base64Bytes, if_pos hspare] at h
    obtain rfl := Option.some.inj h
    simp only [List.mem_cons, List.not_mem_nil, or_false, forall_eq_or_imp, forall_eq] at hvalues
    have hfirst : p * 4 + q / 16 < 256 := by omega
    simp only [base64Values, UInt8.toNat_ofNat', List.cons.injEq, and_true]
    omega
  | case4 p q hspare =>
    rw [base64Bytes, if_neg hspare] at h
    cases h
  | case5 p q r hspare =>
    rw [base64Bytes, if_pos hspare] at h
    obtain rfl := Option.some.inj h
    simp only [List.mem_cons, List.not_mem_nil, or_false, forall_eq_or_imp, forall_eq] at hvalues
    have hfirst : p * 4 + q / 16 < 256 := by omega
    have hsecond : q % 16 * 16 + r / 4 < 256 := by omega
    simp only [base64Values, UInt8.toNat_ofNat', List.cons.injEq, and_true]
    omega
  | case6 p q r hspare =>
    rw [base64Bytes, if_neg hspare] at h
    cases h
  | case7 p q r s rest ih =>
    rw [base64Bytes] at h
    obtain ⟨tail, htail, rfl⟩ := Option.map_eq_some_iff.mp h
    simp only [List.mem_cons, forall_eq_or_imp] at hvalues
    obtain ⟨hp, hq, hr, hs, hrest⟩ := hvalues
    have hfirst : p * 4 + q / 16 < 256 := by omega
    have hsecond : q % 16 * 16 + r / 4 < 256 := by omega
    have hthird : r % 4 * 64 + s < 256 := by omega
    simp only [base64Values, UInt8.toNat_ofNat', List.cons.injEq, ih hrest htail, and_true]
    omega

/-- The value of a character is its place in the alphabet. -/
theorem getD_base64Value {c : Char} {n : ℕ} (h : base64Value alphabet c = some n) :
    n < alphabet.length ∧ alphabet.getD n 'A' = c := by
  obtain ⟨hbound, hc, -⟩ := List.findIdx?_eq_some_iff_getElem.mp h
  rw [List.getD_eq_getElem?_getD, List.getElem?_eq_getElem hbound]
  exact ⟨hbound, by simpa using hc⟩

/-- A text is written from the values it reads as. -/
theorem map_mapM_base64Value (hlength : alphabet.length = 64) {text : Str} {values : List ℕ}
    (h : text.mapM (base64Value alphabet) = some values) :
    values.map (alphabet.getD · 'A') = text ∧ ∀ n ∈ values, n < 64 := by
  induction text generalizing values with
  | nil =>
    obtain rfl : [] = values := Option.some.inj h
    exact ⟨rfl, by simp⟩
  | cons c rest ih =>
    rw [List.mapM_cons] at h
    obtain ⟨n, hn, hrest⟩ := Option.bind_eq_some_iff.mp h
    obtain ⟨ns, hns, hcons⟩ := Option.bind_eq_some_iff.mp hrest
    obtain rfl : n :: ns = values := Option.some.inj hcons
    obtain ⟨hbound, hc⟩ := getD_base64Value hn
    obtain ⟨htext, hsmall⟩ := ih hns
    exact ⟨by rw [List.map_cons, hc, htext], List.forall_mem_cons.mpr ⟨hlength ▸ hbound, hsmall⟩⟩

/-- The text that decodes to a byte string is the one it is encoded as. Assumes: an alphabet of
sixty-four distinct characters. -/
theorem base64Decode_eq_some_iff (hlength : alphabet.length = 64) (hnodup : alphabet.Nodup)
    {text : Str} {bytes : Bytes} :
    base64Decode alphabet text = some bytes ↔ text = base64Encode alphabet bytes := by
  constructor
  · intro h
    obtain ⟨values, hvalues, hbytes⟩ := Option.bind_eq_some_iff.mp h
    obtain ⟨htext, hsmall⟩ := map_mapM_base64Value hlength hvalues
    rw [base64Encode_eq_map, base64Values_eq_of_bytes hsmall hbytes, htext]
  · rintro rfl
    exact base64Decode_encode hlength hnodup bytes

end Base64

/-- The URL-safe codec round trips. -/
theorem base64Decode_url (bytes : Bytes) :
    base64Decode base64Url (base64Encode base64Url bytes) = some bytes :=
  base64Decode_encode (by with_unfolding_all decide) (by with_unfolding_all decide) bytes

/-- A URL-safe text is written in its alphabet. -/
theorem mem_base64Url_of_mem_encode {bytes : Bytes} {c : Char}
    (hc : c ∈ base64Encode base64Url bytes) : c ∈ base64Url := by
  rw [base64Encode_eq_map] at hc
  obtain ⟨n, hn, hchar⟩ := List.mem_map.mp hc
  have hlength : base64Url.length = 64 := by with_unfolding_all decide
  have hbound : n < base64Url.length := hlength ▸ base64Values_lt bytes n hn
  rw [List.getD_eq_getElem?_getD, List.getElem?_eq_getElem hbound, Option.getD_some] at hchar
  exact hchar ▸ List.getElem_mem hbound

/-- The URL-safe codec writes different texts for different byte strings. -/
theorem base64Encode_url_injective : Function.Injective (base64Encode base64Url) := by
  intro bytes bytes' h
  have hdecode := base64Decode_url bytes
  rw [h, base64Decode_url] at hdecode
  exact (Option.some.inj hdecode).symm

/-- The URL-safe codec reads nothing but what it writes. -/
theorem base64Decode_url_eq_some_iff {text : Str} {bytes : Bytes} :
    base64Decode base64Url text = some bytes ↔ text = base64Encode base64Url bytes :=
  base64Decode_eq_some_iff (by with_unfolding_all decide) (by with_unfolding_all decide)

/-! ### Lossy UTF-8 -/

/-- Whether a byte is a UTF-8 continuation byte. -/
def isContinuation (b : UInt8) : Bool := 0x80 ≤ b && b ≤ 0xbf

/-- Whether a byte may follow a given leading byte of a three- or four-byte sequence. -/
def isSecondByte (lead b : UInt8) : Bool :=
  if lead = 0xe0 then 0xa0 ≤ b && b ≤ 0xbf
  else if lead = 0xed then 0x80 ≤ b && b ≤ 0x9f
  else if lead = 0xf0 then 0x90 ≤ b && b ≤ 0xbf
  else if lead = 0xf4 then 0x80 ≤ b && b ≤ 0x8f
  else isContinuation b

/-- The replacement character. -/
def replacement : Char := Char.ofNat 0xfffd

/-- The first character of a byte string given its leading byte and the bytes after it, and the
bytes that remain. An ill-formed sequence reads as one replacement character. -/
def lossyStep (lead : UInt8) (rest : Bytes) : Char × Bytes :=
  if lead < 0x80 then (Char.ofNat lead.toNat, rest)
  else if 0xc2 ≤ lead ∧ lead ≤ 0xdf then
    match rest with
    | second :: rest' =>
      if isContinuation second then
        (Char.ofNat ((lead.toNat - 0xc0) * 64 + (second.toNat - 0x80)), rest')
      else (replacement, rest)
    | [] => (replacement, [])
  else if 0xe0 ≤ lead ∧ lead ≤ 0xef then
    match rest with
    | second :: rest' =>
      if isSecondByte lead second then
        match rest' with
        | third :: rest'' =>
          if isContinuation third then
            (Char.ofNat ((lead.toNat - 0xe0) * 4096 + (second.toNat - 0x80) * 64 +
              (third.toNat - 0x80)), rest'')
          else (replacement, rest')
        | [] => (replacement, [])
      else (replacement, rest)
    | [] => (replacement, [])
  else if 0xf0 ≤ lead ∧ lead ≤ 0xf4 then
    match rest with
    | second :: rest' =>
      if isSecondByte lead second then
        match rest' with
        | third :: rest'' =>
          if isContinuation third then
            match rest'' with
            | fourth :: rest''' =>
              if isContinuation fourth then
                (Char.ofNat ((lead.toNat - 0xf0) * 262144 + (second.toNat - 0x80) * 4096 +
                  (third.toNat - 0x80) * 64 + (fourth.toNat - 0x80)), rest''')
              else (replacement, rest'')
            | [] => (replacement, [])
          else (replacement, rest')
        | [] => (replacement, [])
      else (replacement, rest)
    | [] => (replacement, [])
  else (replacement, rest)

/-- At most `fuel` characters of a byte string read as UTF-8. -/
def lossyChars : ℕ → Bytes → Str
  | 0, _ => []
  | _ + 1, [] => []
  | fuel + 1, lead :: rest =>
    (lossyStep lead rest).1 :: lossyChars fuel (lossyStep lead rest).2

/-- A byte string read as UTF-8, ill-formed runs replaced. A character takes at least one byte, so
the length of the string is fuel enough. -/
def fromUtf8Lossy (bytes : Bytes) : Str := lossyChars bytes.length bytes

/-- An ASCII byte is read by itself, whatever follows. -/
theorem fromUtf8Lossy_asciiByte_cons {c : Char} (hc : IsAscii c) (rest : Bytes) :
    fromUtf8Lossy (asciiByte c :: rest) = c :: fromUtf8Lossy rest := by
  have hsmall : asciiByte c < 0x80 := by
    rw [UInt8.lt_iff_toNat_lt, asciiByte_toNat hc]
    exact hc
  have hstep : lossyStep (asciiByte c) rest = (c, rest) := by
    unfold lossyStep
    rw [if_pos hsmall, asciiByte_toNat hc]
    exact congrArg (·, rest) (Char.ofNat_toNat c)
  unfold fromUtf8Lossy
  rw [List.length_cons, lossyChars, hstep]

/-- ASCII bytes in front of a byte string are read by themselves. -/
theorem fromUtf8Lossy_map_asciiByte_append {s : Str} (hs : ∀ c ∈ s, IsAscii c) (rest : Bytes) :
    fromUtf8Lossy (s.map asciiByte ++ rest) = s ++ fromUtf8Lossy rest := by
  induction s with
  | nil => rfl
  | cons c s ih =>
    rw [List.map_cons, List.cons_append, fromUtf8Lossy_asciiByte_cons (hs c List.mem_cons_self),
      ih fun d hd ↦ hs d (List.mem_cons_of_mem c hd), List.cons_append]

end Hire.Library
