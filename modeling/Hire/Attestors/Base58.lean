import Hire.Attestors.Keys
import Hire.Library.Positional
import Mathlib.Data.List.GetD

/-!
# `did:key` decoding as arithmetic

`DidKey.ed25519Point` decodes base58 in a buffer of thirty-four bytes: for every character it
multiplies the buffer by 58 and adds, rippling a carry from the last byte to the first, and it stops
when the carry leaves the buffer. Here the buffer is read as a number. One character maps a number
`v` to `58 v + digit`, with what leaves the buffer counted at the weight of the buffer
(`DidKey.beValue_foldr_mulAddByte`), so the decoder accepts exactly the texts over the alphabet
whose number fits (`DidKey.base58Decode_eq_some_iff`): a prefix that overflows can only grow.

`DidKey.ed25519Point_is_base58` states what this makes of the decoder: which identifiers it accepts,
that it reads back the standard encoding of every key, that a payload too large for the buffer is
refused, and that no carry leaves thirty-two bits. The width of the buffer bounds the number and not
the text, and a character `1` is a zero digit: `DidKey.ed25519Point_eq_some_iff_spelling` lists the
spellings of a key, and `DidKey.ed25519Point_injective_iff` says when two identifiers of a key
agree.
-/

set_option autoImplicit false
set_option relaxedAutoImplicit false

namespace Hire.Attestors.DidKey

open Hire.Library Hire.Core

/-! ### One character -/

/-- Multiplying a buffer by 58 and adding, as arithmetic: what is left in the buffer and what
carries out of it make up the product and the sum. -/
theorem beValue_foldr_mulAddByte (bytes : Bytes) (carry : ℕ) :
    (bytes.foldr mulAddByte ([], carry)).2 * 256 ^ bytes.length +
      beValue (bytes.foldr mulAddByte ([], carry)).1 = 58 * beValue bytes + carry := by
  induction bytes with
  | nil => simp [beValue]
  | cons byte rest ih =>
    have hlength := length_foldr_mulAddByte rest carry
    rw [List.foldr_cons]
    generalize rest.foldr mulAddByte ([], carry) = acc at ih hlength ⊢
    -- The byte written and the carry passed on split the sum at 256.
    have hsplit : (acc.2 + 58 * byte.toNat) / 256 * 256 + (acc.2 + 58 * byte.toNat) % 256 =
        acc.2 + 58 * byte.toNat := Nat.div_add_mod' _ _
    simp only [mulAddByte, beValue_cons, UInt8.toNat_ofNat', Nat.reducePow, List.length_cons,
      hlength]
    calc (acc.2 + 58 * byte.toNat) / 256 * 256 ^ (rest.length + 1) +
          ((acc.2 + 58 * byte.toNat) % 256 * 256 ^ rest.length + beValue acc.1)
        = ((acc.2 + 58 * byte.toNat) / 256 * 256 + (acc.2 + 58 * byte.toNat) % 256) *
            256 ^ rest.length + beValue acc.1 := by ring
      _ = (acc.2 + 58 * byte.toNat) * 256 ^ rest.length + beValue acc.1 := by rw [hsplit]
      _ = acc.2 * 256 ^ rest.length + beValue acc.1 + 58 * byte.toNat * 256 ^ rest.length := by ring
      _ = 58 * (byte.toNat * 256 ^ rest.length + beValue rest) + carry := by rw [ih]; ring

/-- The carry stays below 58 from byte to byte. -/
theorem carry_foldr_mulAddByte_lt (bytes : Bytes) {carry : ℕ} (hcarry : carry < 58) :
    (bytes.foldr mulAddByte ([], carry)).2 < 58 := by
  induction bytes with
  | nil => exact hcarry
  | cons byte rest ih =>
    have hbyte := byte.toNat_lt
    show ((rest.foldr mulAddByte ([], carry)).2 + 58 * byte.toNat) / 256 < 58
    omega

/-! ### The whole text -/

/-- The characters of base58 in the order of their digits. -/
def base58Alphabet : Str := str "123456789ABCDEFGHJKLMNPQRSTUVWXYZabcdefghijkmnopqrstuvwxyz"

theorem isAscii_of_mem_base58Alphabet : ∀ c ∈ base58Alphabet, IsAscii c := by
  have hall : (base58Alphabet.all fun c ↦ decide (IsAscii c)) = true := by
    with_unfolding_all decide
  intro c hc
  exact of_decide_eq_true (List.all_eq_true.mp hall c hc)

theorem length_base58Alphabet : base58Alphabet.length = 58 := by
  with_unfolding_all decide

/-- The alphabet is in the order of the character codes, so no character occurs twice in it. -/
theorem nodup_base58Alphabet : base58Alphabet.Nodup := by
  have hchain : base58Alphabet.IsChain (· < ·) := by
    with_unfolding_all decide
  exact (List.isChain_iff_pairwise.mp hchain).imp Char.ne_of_lt

theorem length_base58Btc : base58Btc.length = 58 := by
  with_unfolding_all decide

/-- The digit the decoder finds is the place of the byte in the alphabet. -/
theorem findIdx?_base58Btc {c : UInt8} (hc : c ∈ base58Btc) :
    base58Btc.findIdx? (· == c) = some (base58Btc.idxOf c) :=
  List.findIdx?_eq_some_iff_findIdx_eq.mpr ⟨List.idxOf_lt_length_of_mem hc, rfl⟩

/-- One character on a buffer of a fixed width, as arithmetic. -/
theorem beValue_pushDigit {n : ℕ} (decoded : ByteArr n) (digit : ℕ) :
    (pushDigit decoded digit).2 * 256 ^ n + beValue (pushDigit decoded digit).1.1 =
      58 * beValue decoded.1 + digit := by
  have hvalue := beValue_foldr_mulAddByte decoded.1 digit
  rwa [decoded.2] at hvalue

/-- A text is decoded into a buffer exactly when it is written in the alphabet and its number, on
top of what the buffer held, is the number of the new buffer. -/
theorem base58Decode_eq_some_iff {n : ℕ} {decoded result : ByteArr n} {text : Bytes} :
    base58Decode decoded text = some result ↔
      (∀ c ∈ text, c ∈ base58Btc) ∧ beValue result.1 =
        beValue decoded.1 * 58 ^ text.length + bigEndian 58 (text.map base58Btc.idxOf) := by
  induction text generalizing decoded with
  | nil =>
    have hinj : decoded = result ↔ beValue result.1 = beValue decoded.1 :=
      ⟨fun heq ↦ by rw [heq], fun heq ↦
        Subtype.ext (beValue_inj (decoded.2.trans result.2.symm) heq.symm)⟩
    simpa [base58Decode] using hinj
  | cons c rest ih =>
    rw [base58Decode]
    by_cases hc : c ∈ base58Btc
    · have hvalue := beValue_pushDigit decoded (base58Btc.idxOf c)
      have hstep : beValue decoded.1 * 58 ^ (c :: rest).length +
          bigEndian 58 ((c :: rest).map base58Btc.idxOf) =
          (58 * beValue decoded.1 + base58Btc.idxOf c) * 58 ^ rest.length +
            bigEndian 58 (rest.map base58Btc.idxOf) := by
        rw [List.map_cons, bigEndian_cons, List.length_map, List.length_cons]
        ring
      rw [findIdx?_base58Btc hc, hstep, ← hvalue, List.forall_mem_cons]
      simp only [hc, true_and]
      by_cases hfit : (pushDigit decoded (base58Btc.idxOf c)).2 = 0
      · rw [if_pos hfit, ih, hfit, Nat.zero_mul, Nat.zero_add]
      · -- The prefix already has the weight of the buffer, and the rest only makes it larger.
        rw [if_neg hfit]
        refine iff_of_false (by simp) ?_
        rintro ⟨-, htotal⟩
        have hresult := beValue_lt result.1
        rw [result.2] at hresult
        have hcarry : 256 ^ n ≤ (pushDigit decoded (base58Btc.idxOf c)).2 * 256 ^ n :=
          Nat.le_mul_of_pos_left _ (Nat.pos_of_ne_zero hfit)
        have hgrow := Nat.le_mul_of_pos_right ((pushDigit decoded (base58Btc.idxOf c)).2 * 256 ^ n +
          beValue (pushDigit decoded (base58Btc.idxOf c)).1.1) (Nat.pow_pos (by decide : 0 < 58) :
            0 < 58 ^ rest.length)
        omega
    · have hnone : base58Btc.findIdx? (· == c) = none := by
        rw [List.findIdx?_eq_none_iff]
        intro b hb
        apply beq_false_of_ne
        rintro rfl
        exact hc hb
      rw [hnone]
      refine iff_of_false (by simp) ?_
      rintro ⟨hall, -⟩
      exact hc (hall c List.mem_cons_self)

/-- The number a text writes in base58, the most significant character first. -/
def base58Value (text : Str) : ℕ := bigEndian 58 (text.map base58Alphabet.idxOf)

/-- Texts over the alphabet, as characters and as bytes: the decoder sees the same digits. -/
theorem base58Decode_utf8_eq_some_iff {n : ℕ} {result : ByteArr n} {text : Str} :
    base58Decode (fill n 0) (utf8 text) = some result ↔
      (∀ c ∈ text, c ∈ base58Alphabet) ∧ beValue result.1 = base58Value text := by
  have hzero : beValue (fill n 0).1 = 0 := beValue_replicate_zero n
  rw [base58Decode_eq_some_iff, hzero, Nat.zero_mul, Nat.zero_add]
  have hdigits : (∀ c ∈ text, c ∈ base58Alphabet) →
      (utf8 text).map base58Btc.idxOf = text.map base58Alphabet.idxOf ∧
        ∀ b ∈ utf8 text, b ∈ base58Btc := by
    intro htext
    have hascii : ∀ c ∈ text, IsAscii c := fun c hc ↦
      isAscii_of_mem_base58Alphabet c (htext c hc)
    have hbtc : base58Btc = base58Alphabet.map asciiByte :=
      utf8_of_isAscii isAscii_of_mem_base58Alphabet
    rw [utf8_of_isAscii hascii, hbtc, List.map_map]
    refine ⟨List.map_congr_left fun c hc ↦
      idxOf_map_asciiByte isAscii_of_mem_base58Alphabet (hascii c hc), fun b hb ↦ ?_⟩
    obtain ⟨c, hc, rfl⟩ := List.mem_map.mp hb
    exact List.mem_map_of_mem (htext c hc)
  constructor
  · rintro ⟨hbytes, hvalue⟩
    have htext := mem_of_utf8_subset isAscii_of_mem_base58Alphabet hbytes
    rw [(hdigits htext).1] at hvalue
    exact ⟨htext, hvalue⟩
  · rintro ⟨htext, hvalue⟩
    refine ⟨(hdigits htext).2, ?_⟩
    rw [(hdigits htext).1]
    exact hvalue

/-! ### The key of an identifier -/

/-- The labelled key fills the buffer. -/
theorem length_ed25519Multicodec_append (k : ByteArr 32) :
    (ed25519Multicodec ++ k.1).length = 34 := by
  rw [List.length_append, k.2]
  rfl

/-- The key of an identifier is there exactly when the identifier is the scheme followed by a text
over the alphabet, and the text writes the number of the labelled key. -/
theorem ed25519Point_eq_some_iff {did : Str} {k : ByteArr 32} :
    ed25519Point did = some k ↔
      ∃ text, did = str "did:key:z" ++ text ∧ (∀ c ∈ text, c ∈ base58Alphabet) ∧
        base58Value text = beValue (ed25519Multicodec ++ k.1) := by
  constructor
  · intro h
    unfold ed25519Point at h
    split at h
    · simp at h
    · rename_i text htext
      split at h
      · simp at h
      · rename_i decoded hdecoded
        obtain ⟨halphabet, hvalue⟩ := base58Decode_utf8_eq_some_iff.mp hdecoded
        split_ifs at h with hlabel
        have hkey : decoded.1 = ed25519Multicodec ++ k.1 := by
          rw [← hlabel, ← Option.some.inj h, List.take_append_drop]
        rw [hkey] at hvalue
        exact ⟨text, stripPrefix_eq_some_iff.mp htext, halphabet, hvalue.symm⟩
  · rintro ⟨text, hdid, halphabet, hvalue⟩
    have hstrip : stripPrefix (str "did:key:z") did = some text := stripPrefix_eq_some_iff.mpr hdid
    have hdecode : base58Decode (fill 34 0) (utf8 text) =
        some ⟨ed25519Multicodec ++ k.1, length_ed25519Multicodec_append k⟩ :=
      base58Decode_utf8_eq_some_iff.mpr ⟨halphabet, hvalue.symm⟩
    have hlabel : (ed25519Multicodec ++ k.1).take 2 = ed25519Multicodec := List.take_left' rfl
    have hkey : (ed25519Multicodec ++ k.1).drop 2 = k.1 := List.drop_left' rfl
    unfold ed25519Point
    simp only [hstrip, hdecode, hlabel, hkey, if_true]

/-- The standard base58 form of a byte string: a character `1` for every zero byte in front, and
then the digits of its number. -/
def base58Encode (bytes : Bytes) : Str :=
  List.replicate (bytes.takeWhile (· == 0)).length '1' ++
    (toBase 58 (beValue bytes)).map (base58Alphabet.getD · '1')

/-- The standard `did:key` identifier of an ed25519 key. -/
def didKeyOf (k : ByteArr 32) : Str := str "did:key:z" ++ base58Encode (ed25519Multicodec ++ k.1)

/-- The characters of the alphabet carry its digits. -/
theorem getD_base58Alphabet {d : ℕ} (hd : d < 58) :
    base58Alphabet.getD d '1' ∈ base58Alphabet ∧
      base58Alphabet.idxOf (base58Alphabet.getD d '1') = d := by
  have hlength : d < base58Alphabet.length := by
    rw [length_base58Alphabet]
    exact hd
  rw [List.getD_eq_getElem _ _ hlength]
  exact ⟨List.getElem_mem hlength, nodup_base58Alphabet.idxOf_getElem d hlength⟩

/-- The character `1` is the digit zero. -/
theorem one_base58Alphabet : '1' ∈ base58Alphabet ∧ base58Alphabet.idxOf '1' = 0 := by
  with_unfolding_all decide

theorem mem_base58Alphabet_of_mem_base58Encode {bytes : Bytes} {c : Char}
    (hc : c ∈ base58Encode bytes) : c ∈ base58Alphabet := by
  rcases List.mem_append.mp hc with hone | hdigit
  · rw [List.eq_of_mem_replicate hone]
    exact one_base58Alphabet.1
  · obtain ⟨d, hd, rfl⟩ := List.mem_map.mp hdigit
    exact (getD_base58Alphabet (lt_of_mem_toBase (by decide) hd)).1

/-- The standard form of a byte string writes its number. -/
theorem base58Value_base58Encode (bytes : Bytes) :
    base58Value (base58Encode bytes) = beValue bytes := by
  have hdigits : ((toBase 58 (beValue bytes)).map (base58Alphabet.getD · '1')).map
      base58Alphabet.idxOf = toBase 58 (beValue bytes) := by
    rw [List.map_map]
    calc (toBase 58 (beValue bytes)).map (base58Alphabet.idxOf ∘ (base58Alphabet.getD · '1'))
        = (toBase 58 (beValue bytes)).map id := List.map_congr_left fun d hd ↦
          (getD_base58Alphabet (lt_of_mem_toBase (by decide) hd)).2
      _ = toBase 58 (beValue bytes) := List.map_id _
  unfold base58Value base58Encode
  rw [List.map_append, List.map_replicate, one_base58Alphabet.2, hdigits,
    bigEndian_replicate_zero_append, bigEndian_toBase]

/-- Decoding a `did:key` is base58 arithmetic. An identifier has a key exactly when it is the scheme
followed by a text over the alphabet that writes the number of the labelled key; the standard
identifier of a key has that key; a text whose number does not fit thirty-four bytes is refused; and
in a buffer of any contents, at any byte of it, the carry fits thirty-two bits. -/
theorem ed25519Point_is_base58 :
    (∀ (did : Str) (k : ByteArr 32), ed25519Point did = some k ↔
      ∃ text, did = str "did:key:z" ++ text ∧ (∀ c ∈ text, c ∈ base58Alphabet) ∧
        base58Value text = beValue ([0xed, 0x01] ++ k.1)) ∧
    (∀ k : ByteArr 32, ed25519Point (didKeyOf k) = some k) ∧
    (∀ text : Str, 256 ^ 34 ≤ base58Value text →
      ed25519Point (str "did:key:z" ++ text) = none) ∧
    ∀ (c : UInt8) (digit : ℕ), base58Btc.findIdx? (· == c) = some digit →
      ∀ (before after : Bytes) (byte : UInt8), (before ++ byte :: after).length = 34 →
        (after.foldr mulAddByte ([], digit)).2 + 58 * byte.toNat < 2 ^ 32 := by
  refine ⟨fun did k ↦ ed25519Point_eq_some_iff, fun k ↦ ?_, fun text hlarge ↦ ?_, ?_⟩
  · exact ed25519Point_eq_some_iff.mpr ⟨_, rfl,
      fun c hc ↦ mem_base58Alphabet_of_mem_base58Encode hc, base58Value_base58Encode _⟩
  · by_contra hsome
    obtain ⟨k, hk⟩ := Option.ne_none_iff_exists'.mp hsome
    obtain ⟨text', hsplit, -, hvalue⟩ := ed25519Point_eq_some_iff.mp hk
    have hlt := beValue_lt (ed25519Multicodec ++ k.1)
    rw [List.append_cancel_left hsplit] at hlarge
    rw [length_ed25519Multicodec_append] at hlt
    omega
  · intro c digit hdigit before after byte _
    have hindex := (List.findIdx?_eq_some_iff_findIdx_eq.mp hdigit).1
    rw [length_base58Btc] at hindex
    have hcarry := carry_foldr_mulAddByte_lt after hindex
    have hbyte := byte.toNat_lt
    omega

/-- The ed25519 example of the `did:key` specification decodes to its key. -/
example : (ed25519Point
    (str "did:key:z6MkhaXgBZDvotDkL5257faiztiGiC2QtKLGpbnnEGta2doK")).map (hex ·.1) =
    some (str "2e6fcce36701dc791488e0d0b1745cc1e33a4c1c9fcc41c63bd343dbbe0970e6") := by
  decide +kernel

/-! ### The spellings of a key -/

/-- The standard `did:key` identifier of a key with characters `1` put in front of its payload. -/
def didKeySpelling (k : ByteArr 32) (ones : ℕ) : Str :=
  str "did:key:z" ++ (List.replicate ones '1' ++ base58Encode (ed25519Multicodec ++ k.1))

theorem didKeySpelling_zero (k : ByteArr 32) : didKeySpelling k 0 = didKeyOf k := rfl

theorem length_didKeySpelling (k : ByteArr 32) (ones : ℕ) :
    (didKeySpelling k ones).length = ones + (didKeyOf k).length := by
  simp only [didKeySpelling, didKeyOf, List.length_append, List.length_replicate]
  omega

/-- The label in front of a key is not a zero byte, so its standard form is its digits alone. -/
theorem base58Encode_ed25519Multicodec (k : ByteArr 32) :
    base58Encode (ed25519Multicodec ++ k.1) =
      (toBase 58 (beValue (ed25519Multicodec ++ k.1))).map (base58Alphabet.getD · '1') := rfl

/-- A text over the alphabet is the digits of its number behind some characters `1`. -/
theorem exists_eq_replicate_append_of_base58 {text : Str} (htext : ∀ c ∈ text, c ∈ base58Alphabet) :
    ∃ ones, text = List.replicate ones '1' ++
      (toBase 58 (base58Value text)).map (base58Alphabet.getD · '1') := by
  have hdigits : ∀ d ∈ text.map base58Alphabet.idxOf, d < 58 := by
    intro d hd
    obtain ⟨c, hc, rfl⟩ := List.mem_map.mp hd
    rw [← length_base58Alphabet]
    exact List.idxOf_lt_length_of_mem (htext c hc)
  have hback : (text.map base58Alphabet.idxOf).map (base58Alphabet.getD · '1') = text := by
    rw [List.map_map]
    calc text.map ((base58Alphabet.getD · '1') ∘ base58Alphabet.idxOf)
        = text.map id := List.map_congr_left fun c hc ↦ by
          have hindex := List.idxOf_lt_length_of_mem (htext c hc)
          rw [Function.comp_apply, List.getD_eq_getElem _ _ hindex, List.getElem_idxOf, id]
      _ = text := List.map_id _
  have hzero : base58Alphabet.getD 0 '1' = '1' := by
    with_unfolding_all decide
  obtain ⟨ones, hsplit⟩ := exists_eq_replicate_zero_append_toBase (by decide) hdigits
  refine ⟨ones, ?_⟩
  rw [hsplit, List.map_append, List.map_replicate, hzero] at hback
  exact hback.symm

/-- A key is read from its spellings and from nothing else. -/
theorem ed25519Point_eq_some_iff_spelling {did : Str} {k : ByteArr 32} :
    ed25519Point did = some k ↔ ∃ ones, did = didKeySpelling k ones := by
  rw [ed25519Point_eq_some_iff]
  constructor
  · rintro ⟨text, rfl, htext, hvalue⟩
    obtain ⟨ones, hsplit⟩ := exists_eq_replicate_append_of_base58 htext
    rw [hvalue, ← base58Encode_ed25519Multicodec] at hsplit
    exact ⟨ones, congrArg _ hsplit⟩
  · rintro ⟨ones, rfl⟩
    refine ⟨_, rfl, ?_, ?_⟩
    · intro c hc
      rcases List.mem_append.mp hc with hone | hdigit
      · rw [List.eq_of_mem_replicate hone]
        exact one_base58Alphabet.1
      · exact mem_base58Alphabet_of_mem_base58Encode hdigit
    · rw [← base58Value_base58Encode]
      unfold base58Value
      rw [List.map_append, List.map_replicate, one_base58Alphabet.2,
        bigEndian_replicate_zero_append]

/-- The spellings of a key differ in their lengths. -/
theorem didKeySpelling_injective (k : ByteArr 32) : Function.Injective (didKeySpelling k) := by
  intro m n h
  have hlength := congrArg List.length h
  rw [length_didKeySpelling, length_didKeySpelling] at hlength
  exact Nat.add_right_cancel hlength

/-- When one key has one spelling. Two identifiers are told apart by their keys exactly when they
are not the standard identifier of one key with two different numbers of characters `1` in front of
the payload; an identifier with a key is the standard one exactly when it has none of them; and two
different spellings have different SPIFFE paths unless their hashes collide. -/
theorem ed25519Point_injective_iff (C : Crypto) (did did' : Str) :
    ((∀ k, ed25519Point did = some k → ed25519Point did' = some k → did = did') ↔
      ¬∃ k ones ones', ones ≠ ones' ∧ did = didKeySpelling k ones ∧
        did' = didKeySpelling k ones') ∧
    ((∀ k, ed25519Point did = some k → did = didKeyOf k) ↔
      ¬∃ k ones, did = didKeySpelling k (ones + 1)) ∧
    ∀ (k : ByteArr 32) (ones ones' : ℕ), ones ≠ ones' →
      spiffePath C (didKeySpelling k ones) = spiffePath C (didKeySpelling k ones') →
        utf8 (didKeySpelling k ones) ≠ utf8 (didKeySpelling k ones') ∧
          C.sha256 (utf8 (didKeySpelling k ones)) = C.sha256 (utf8 (didKeySpelling k ones')) := by
  refine ⟨⟨?_, ?_⟩, ⟨?_, ?_⟩, fun k ones ones' hne hpath ↦ ⟨?_, ?_⟩⟩
  · rintro hone ⟨k, ones, ones', hne, hdid, hdid'⟩
    have heq := hone k (ed25519Point_eq_some_iff_spelling.mpr ⟨ones, hdid⟩)
      (ed25519Point_eq_some_iff_spelling.mpr ⟨ones', hdid'⟩)
    rw [hdid, hdid'] at heq
    exact hne (didKeySpelling_injective k heq)
  · intro hnone k hk hk'
    obtain ⟨ones, hdid⟩ := ed25519Point_eq_some_iff_spelling.mp hk
    obtain ⟨ones', hdid'⟩ := ed25519Point_eq_some_iff_spelling.mp hk'
    by_contra hne
    refine hnone ⟨k, ones, ones', fun heq ↦ hne ?_, hdid, hdid'⟩
    rw [hdid, hdid', heq]
  · rintro hone ⟨k, ones, hdid⟩
    have heq := hone k (ed25519Point_eq_some_iff_spelling.mpr ⟨ones + 1, hdid⟩)
    rw [hdid, ← didKeySpelling_zero] at heq
    exact absurd (didKeySpelling_injective k heq) (Nat.succ_ne_zero ones)
  · intro hnone k hk
    obtain ⟨ones, hdid⟩ := ed25519Point_eq_some_iff_spelling.mp hk
    cases ones with
    | zero => exact hdid
    | succ ones => exact absurd ⟨k, ones, hdid⟩ hnone
  · intro hbytes
    exact hne (didKeySpelling_injective k (utf8_injective hbytes))
  · exact Subtype.ext (hex_injective (List.append_cancel_left hpath))

/-- A character `1` in front of the payload changes nothing. -/
theorem ed25519Point_one_cons {text : Str} {k : ByteArr 32}
    (h : ed25519Point (str "did:key:z" ++ text) = some k) :
    ed25519Point (str "did:key:z" ++ '1' :: text) = some k := by
  obtain ⟨ones, hdid⟩ := ed25519Point_eq_some_iff_spelling.mp h
  rw [List.append_cancel_left hdid]
  exact ed25519Point_eq_some_iff_spelling.mpr ⟨ones + 1, rfl⟩

/-- The identifier of the `did:key` specification, and the same with a character `1` in front of the
payload, are two identifiers of one key. -/
theorem ed25519Point_two_spellings :
    ¬∀ (did did' : Str) (k : ByteArr 32),
      ed25519Point did = some k → ed25519Point did' = some k → did = did' := by
  intro hone
  have hspec : (ed25519Point (str "did:key:z" ++
      str "6MkhaXgBZDvotDkL5257faiztiGiC2QtKLGpbnnEGta2doK")).isSome = true := by
    with_unfolding_all decide
  obtain ⟨k, hk⟩ := Option.isSome_iff_exists.mp hspec
  have heq := hone _ _ k hk (ed25519Point_one_cons hk)
  exact absurd (congrArg List.length heq) (by simp)

end Hire.Attestors.DidKey
