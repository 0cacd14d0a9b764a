import Hire.Attestors.Tailscale
import Hire.Library.Positional

/-!
# Chunked bodies

What `Tailscale.dechunk` makes of a body in the chunked transfer coding. The writer's side is data:
a `SizeLine` is a line that announces a length, in hexadecimal digits of either case with any number
of zeros in front and an optional extension, and a `Chunk` is a size line with the bytes it
announces. Both carry what makes them well formed.

The reader looks for the end of a line while the bytes of a chunk may hold anything, so what carries
the proof is that it always stands at the start of a size line (`dechunkFrom_sizeLine`). From there
`dechunkFrom_chunks` reads a whole body back, and `dechunkFrom_of_cut_body` follows a body that is
cut off before its last size line is complete. `dechunkLoop` is the loop of the source with its
slices checked, and `dechunkLoop_eq_some` says that no slice is out of range and that the loop ends.
-/

set_option autoImplicit false
set_option relaxedAutoImplicit false

namespace Hire.Attestors.Tailscale

open Hire.Library Hire.Core

/-! ### What is sent -/

/-- A hexadecimal digit, in one of its two cases. -/
structure HexDigit where
  value : Fin 16
  upper : Bool

/-- The character of a digit. -/
def HexDigit.char (digit : HexDigit) : Char :=
  if digit.upper then (Nat.digitChar digit.value).toUpper else Nat.digitChar digit.value

/-- A line that announces a length: at least one digit, and an extension without an end of line. -/
structure SizeLine where
  digits : List HexDigit
  extension : Option Bytes
  digits_ne_nil : digits ≠ []
  extension_free : ∀ text ∈ extension, ¬crlf <:+: text

namespace SizeLine

/-- The length a line announces. -/
def size (line : SizeLine) : ℕ := bigEndian 16 (line.digits.map fun digit ↦ digit.value.val)

/-- A size line on the wire, without its end. -/
def text (line : SizeLine) : Bytes :=
  (line.digits.map HexDigit.char).map asciiByte ++
    match line.extension with
    | none => []
    | some extension => asciiByte ';' :: extension

/-- A size line on the wire. -/
def bytes (line : SizeLine) : Bytes := line.text ++ crlf

end SizeLine

/-- A chunk: a size line, and as many bytes as it announces, which is a 64-bit number. -/
structure Chunk extends SizeLine where
  data : Bytes
  data_ne_nil : data ≠ []
  size_eq : toSizeLine.size = data.length
  size_le : data.length ≤ u64Max

/-- A chunk on the wire. -/
def Chunk.bytes (chunk : Chunk) : Bytes := chunk.toSizeLine.bytes ++ (chunk.data ++ crlf)

/-! ### A size line is read -/

theorem HexDigit.hexValue_char (digit : HexDigit) : hexValue digit.char = some digit.value.val := by
  have hall : ∀ (value : Fin 16) (upper : Bool),
      hexValue (HexDigit.char ⟨value, upper⟩) = some value.val := by decide
  exact hall digit.value digit.upper

/-- The characters of digits are ASCII, and neither whitespace nor a sign nor a semicolon. -/
theorem HexDigit.char_plain (digit : HexDigit) :
    IsAscii digit.char ∧ isWhitespace digit.char = false ∧ digit.char ≠ '+' ∧ digit.char ≠ ';' ∧
      asciiByte digit.char ≠ 0x0d := by
  have hall : ∀ (value : Fin 16) (upper : Bool), IsAscii (HexDigit.char ⟨value, upper⟩) ∧
      isWhitespace (HexDigit.char ⟨value, upper⟩) = false ∧ HexDigit.char ⟨value, upper⟩ ≠ '+' ∧
      HexDigit.char ⟨value, upper⟩ ≠ ';' ∧ asciiByte (HexDigit.char ⟨value, upper⟩) ≠ 0x0d := by
    decide
  exact hall digit.value digit.upper

theorem mapM_hexValue_char (digits : List HexDigit) :
    (digits.map HexDigit.char).mapM hexValue = some (digits.map fun digit ↦ digit.value.val) := by
  induction digits with
  | nil => rfl
  | cons digit rest ih => simp [List.mapM_cons, digit.hexValue_char, ih]

/-- Digits are read as the number they write, when it fits. -/
theorem fromStrRadix16_digits {digits : List HexDigit} (hne : digits ≠ [])
    (hfits : bigEndian 16 (digits.map fun digit ↦ digit.value.val) ≤ u64Max) :
    fromStrRadix16 (digits.map HexDigit.char) =
      some (bigEndian 16 (digits.map fun digit ↦ digit.value.val)) := by
  have hsign : (digits.map HexDigit.char).head? ≠ some '+' := by
    intro hhead
    obtain ⟨digit, -, hchar⟩ := List.mem_map.mp (List.mem_of_mem_head? hhead)
    exact digit.char_plain.2.2.1 hchar
  have hread := foldl_mul_add_eq_bigEndian (b := 16) 0 (digits.map fun digit ↦ digit.value.val)
  rw [Nat.zero_mul, Nat.zero_add] at hread
  unfold fromStrRadix16
  dsimp only
  rw [if_neg hsign, if_neg (by simpa using hne), mapM_hexValue_char]
  dsimp only
  rw [hread, if_pos hfits]

/-- The length that is read from a size line, extension and all. -/
theorem fromStrRadix16_text {line : SizeLine} (hfits : line.size ≤ u64Max) :
    fromStrRadix16 (trim ((fromUtf8Lossy line.text).takeWhile (· ≠ ';'))) = some line.size := by
  have hplain : ∀ c ∈ line.digits.map HexDigit.char,
      IsAscii c ∧ isWhitespace c = false ∧ c ≠ ';' := by
    intro c hc
    obtain ⟨digit, -, rfl⟩ := List.mem_map.mp hc
    obtain ⟨hascii, hspace, -, hsemicolon, -⟩ := digit.char_plain
    exact ⟨hascii, hspace, hsemicolon⟩
  have hdigits : (fromUtf8Lossy line.text).takeWhile (· ≠ ';') = line.digits.map HexDigit.char := by
    unfold SizeLine.text
    rw [fromUtf8Lossy_map_asciiByte_append fun c hc ↦ (hplain c hc).1,
      List.takeWhile_append_of_pos fun c hc ↦ by simpa using (hplain c hc).2.2]
    cases line.extension with
    | none => simp [fromUtf8Lossy, lossyChars]
    | some extension =>
      dsimp only
      rw [fromUtf8Lossy_asciiByte_cons (by decide), List.takeWhile_cons_of_neg (by simp),
        List.append_nil]
  rw [hdigits, trim_eq_self fun c hc ↦ (hplain c hc).2.1]
  exact fromStrRadix16_digits line.digits_ne_nil hfits

/-- Bytes without a carriage return in front of a text without an end of line have none either. -/
theorem not_crlf_infix_append {front back : Bytes} (hfront : (0x0d : UInt8) ∉ front)
    (hback : ¬crlf <:+: back) : ¬crlf <:+: front ++ back := by
  induction front with
  | nil => exact hback
  | cons b front ih =>
    rw [List.mem_cons, not_or] at hfront
    rw [List.cons_append, List.infix_cons_iff, not_or]
    refine ⟨fun hhere ↦ hfront.1 ?_, ih hfront.2⟩
    exact (List.cons_prefix_cons.mp hhere).1

/-- There is no end of line inside a size line. -/
theorem SizeLine.not_crlf_infix_text (line : SizeLine) : ¬crlf <:+: line.text := by
  have hdigits : (0x0d : UInt8) ∉ (line.digits.map HexDigit.char).map asciiByte := by
    intro hmem
    obtain ⟨c, hc, hbyte⟩ := List.mem_map.mp hmem
    obtain ⟨digit, -, rfl⟩ := List.mem_map.mp hc
    exact digit.char_plain.2.2.2.2 hbyte
  have hnil : ¬crlf <:+: ([] : Bytes) := by decide
  unfold text
  refine not_crlf_infix_append hdigits ?_
  cases hextension : line.extension with
  | none => exact hnil
  | some extension =>
    have hsemicolon : (0x0d : UInt8) ∉ [asciiByte ';'] := by decide
    exact not_crlf_infix_append hsemicolon (line.extension_free extension hextension)

/-- The end of a line is found behind a text that has none in it. -/
theorem position_crlf_append {text : Bytes} (hfree : ¬crlf <:+: text) (rest : Bytes) :
    position crlf (text ++ (crlf ++ rest)) = some text.length := by
  induction text with
  | nil =>
    have hhere : crlf.isPrefixOf (crlf ++ rest) = true :=
      List.isPrefixOf_iff_prefix.mpr (List.prefix_append _ _)
    exact if_pos hhere
  | cons b text ih =>
    rw [List.infix_cons_iff, not_or] at hfree
    have hnot : crlf.isPrefixOf (b :: (text ++ (crlf ++ rest))) = false := by
      rw [Bool.eq_false_iff]
      intro hhere
      obtain ⟨rfl, hnext⟩ := List.cons_prefix_cons.mp (List.isPrefixOf_iff_prefix.mp hhere)
      -- The line feed is in the text, or it is the carriage return of the end of line.
      cases text with
      | nil => exact absurd (List.cons_prefix_cons.mp hnext).1 (by decide)
      | cons c text =>
        obtain ⟨rfl, -⟩ := List.cons_prefix_cons.mp hnext
        exact hfree.1 ⟨text, rfl⟩
    rw [List.cons_append, position, hnot, ih hfree.2]
    rfl

/-- There is no end of line in a line that is not complete. -/
theorem not_crlf_infix_of_cut {text cut : Bytes} (hfree : ¬crlf <:+: text)
    (hcut : cut <+: text ++ crlf) (hlength : cut.length < text.length + 2) : ¬crlf <:+: cut := by
  have hopen : cut <+: text ++ [0x0d] := by
    refine List.prefix_of_prefix_length_le hcut ⟨[0x0a], by simp [crlf]⟩ ?_
    rw [List.length_append, List.length_singleton]
    omega
  intro hcrlf
  rcases List.infix_concat_iff.mp (hcrlf.trans hopen.isInfix) with hend | hinside
  · obtain ⟨front, hfront⟩ := hend
    have hlast := congrArg List.getLast? hfront
    simp [crlf] at hlast
  · exact hfree hinside

/-! ### A body is read -/

/-- One round of the reader. -/
theorem dechunkFrom_eq (U : Unicode) (out body : Bytes) :
    dechunkFrom U out body =
      match position crlf body with
      | none => .error (.unavailable (str "chunked body: no chunk header"))
      | some eol =>
        match fromStrRadix16 (trim ((fromUtf8Lossy (body.take eol)).takeWhile (· ≠ ';'))) with
        | none => .error (.unavailable (str "chunked body: bad length " ++
            U.debug (trim ((fromUtf8Lossy (body.take eol)).takeWhile (· ≠ ';')))))
        | some len =>
          if len = 0 then .ok out
          else if (body.drop (eol + 2)).length < len then
            .error (.unavailable (str "chunked body: truncated chunk"))
          else
            dechunkFrom U (out ++ (body.drop (eol + 2)).take len)
              (if crlf.isPrefixOf ((body.drop (eol + 2)).drop len) then
                ((body.drop (eol + 2)).drop len).drop 2
              else (body.drop (eol + 2)).drop len) := by
  rw [dechunkFrom]
  cases position crlf body with
  | none => rfl
  | some eol => rfl

/-- A chunked body without an end of line is refused. -/
theorem dechunkFrom_of_not_crlf (U : Unicode) (out : Bytes) {body : Bytes}
    (hfree : ¬crlf <:+: body) :
    dechunkFrom U out body = .error (.unavailable (str "chunked body: no chunk header")) := by
  rw [dechunkFrom_eq, position_eq_none_iff.mpr hfree]

/-- The reader at the start of a size line takes the length from it, and then as many bytes and the
end of line behind them. -/
theorem dechunkFrom_sizeLine (U : Unicode) (out : Bytes) {line : SizeLine}
    (hfits : line.size ≤ u64Max) (body : Bytes) :
    dechunkFrom U out (line.bytes ++ body) =
      if line.size = 0 then .ok out
      else if body.length < line.size then
        .error (.unavailable (str "chunked body: truncated chunk"))
      else
        dechunkFrom U (out ++ body.take line.size)
          (if crlf.isPrefixOf (body.drop line.size) then (body.drop line.size).drop 2
          else body.drop line.size) := by
  have hposition : position crlf (line.bytes ++ body) = some line.text.length := by
    unfold SizeLine.bytes
    rw [List.append_assoc]
    exact position_crlf_append line.not_crlf_infix_text body
  have htext : (line.bytes ++ body).take line.text.length = line.text := by
    unfold SizeLine.bytes
    rw [List.append_assoc, List.take_left]
  have hbody : (line.bytes ++ body).drop (line.text.length + 2) = body := by
    have hlength : line.text.length + 2 = line.bytes.length := by
      simp [SizeLine.bytes, crlf]
    rw [hlength, List.drop_left]
  rw [dechunkFrom_eq, hposition]
  dsimp only
  rw [htext, hbody, fromStrRadix16_text hfits]

/-- A chunk is not the end of a body. -/
theorem Chunk.size_ne_zero (chunk : Chunk) : chunk.toSizeLine.size ≠ 0 := by
  rw [chunk.size_eq, ne_eq, List.length_eq_zero_iff]
  exact chunk.data_ne_nil

/-- A chunk is read onto what was read before it. -/
theorem dechunkFrom_chunk (U : Unicode) (out : Bytes) (chunk : Chunk) (body : Bytes) :
    dechunkFrom U out (chunk.bytes ++ body) = dechunkFrom U (out ++ chunk.data) body := by
  have hcrlf : crlf.isPrefixOf (crlf ++ body) = true :=
    List.isPrefixOf_iff_prefix.mpr (List.prefix_append _ _)
  unfold Chunk.bytes
  rw [List.append_assoc, dechunkFrom_sizeLine U out (chunk.size_eq ▸ chunk.size_le),
    if_neg chunk.size_ne_zero, chunk.size_eq, List.append_assoc, if_neg (by simp),
    List.take_left, List.drop_left, if_pos hcrlf]
  rfl

/-- A whole body is read back: the data of its chunks, whatever follows the line of size zero. -/
theorem dechunkFrom_chunks (U : Unicode) (out : Bytes) (chunks : List Chunk) {last : SizeLine}
    (hlast : last.size = 0) (trailers : Bytes) :
    dechunkFrom U out (chunks.flatMap Chunk.bytes ++ (last.bytes ++ trailers)) =
      .ok (out ++ chunks.flatMap Chunk.data) := by
  induction chunks generalizing out with
  | nil =>
    rw [List.flatMap_nil, List.nil_append, dechunkFrom_sizeLine U out (by simp [hlast]),
      if_pos hlast]
    simp
  | cons chunk rest ih =>
    rw [List.flatMap_cons, List.append_assoc, dechunkFrom_chunk, ih, List.flatMap_cons,
      List.append_assoc]

/-! ### A body is cut off -/

/-- A size line that is not complete is refused. -/
theorem dechunkFrom_of_cut_line (U : Unicode) (out : Bytes) {line : SizeLine} {cut : Bytes}
    (hcut : cut <+: line.bytes) (hlength : cut.length < line.bytes.length) :
    ∃ error, dechunkFrom U out cut = .error error := by
  have hbound : cut.length < line.text.length + 2 := by
    simpa [SizeLine.bytes, crlf] using hlength
  exact ⟨_, dechunkFrom_of_not_crlf U out
    (not_crlf_infix_of_cut line.not_crlf_infix_text hcut hbound)⟩

/-- A chunk that is not complete is refused: its data are short, or no size line follows them. -/
theorem dechunkFrom_of_cut_chunk (U : Unicode) (out : Bytes) {chunk : Chunk} {cut : Bytes}
    (hcut : cut <+: chunk.bytes) (hlength : cut.length < chunk.bytes.length) :
    ∃ error, dechunkFrom U out cut = .error error := by
  rcases prefix_append_cases hcut with ⟨hshort, hline⟩ | ⟨behind, rfl, hbehind⟩
  · exact dechunkFrom_of_cut_line U out hline hshort
  rw [dechunkFrom_sizeLine U out (chunk.size_eq ▸ chunk.size_le),
    if_neg chunk.size_ne_zero, chunk.size_eq]
  rcases prefix_append_cases hbehind with ⟨hshort, hdata⟩ | ⟨rest, rfl, hrest⟩
  · exact ⟨_, if_pos hshort⟩
  · have hrestLength : rest.length < 2 := by
      simp only [Chunk.bytes, List.length_append] at hlength
      have htwo : crlf.length = 2 := rfl
      omega
    have hfree : ¬crlf <:+: rest := by
      intro hcrlf
      have htwo : 2 ≤ rest.length := hcrlf.length_le
      omega
    have hnot : ¬crlf.isPrefixOf rest = true := fun hhere ↦
      hfree (List.isPrefixOf_iff_prefix.mp hhere).isInfix
    rw [if_neg (by simp), List.take_left, List.drop_left, if_neg hnot]
    exact ⟨_, dechunkFrom_of_not_crlf U _ hfree⟩

/-- A body that is cut off before its last size line is complete is refused. -/
theorem dechunkFrom_of_cut_body (U : Unicode) (out : Bytes) (chunks : List Chunk) {last : SizeLine}
    {cut : Bytes} (hcut : cut <+: chunks.flatMap Chunk.bytes ++ last.bytes)
    (hlength : cut.length < (chunks.flatMap Chunk.bytes ++ last.bytes).length) :
    ∃ error, dechunkFrom U out cut = .error error := by
  induction chunks generalizing out cut with
  | nil => exact dechunkFrom_of_cut_line U out hcut hlength
  | cons chunk rest ih =>
    rw [List.flatMap_cons, List.append_assoc] at hcut hlength
    rcases prefix_append_cases hcut with ⟨hshort, hchunk⟩ | ⟨behind, rfl, hbehind⟩
    · exact dechunkFrom_of_cut_chunk U out hchunk hshort
    · rw [dechunkFrom_chunk]
      rw [List.length_append, List.length_append] at hlength
      exact ih _ hbehind (by omega)

/-! ### The slices of the loop -/

/-- The bytes before an index; nothing when the index is out of range. -/
def sliceTo (bytes : Bytes) (n : ℕ) : Option Bytes :=
  if n ≤ bytes.length then some (bytes.take n) else none

/-- The bytes from an index on; nothing when the index is out of range. -/
def sliceFrom (bytes : Bytes) (n : ℕ) : Option Bytes :=
  if n ≤ bytes.length then some (bytes.drop n) else none

/-- The loop that reassembles a chunked body, with every slice of the source checked and a bound on
the rounds. There is no result when a slice is out of range or the rounds run out. -/
def dechunkLoop (U : Unicode) : ℕ → Bytes → Bytes → Option (Except AttestorError Bytes)
  | 0, _, _ => none
  | rounds + 1, out, body =>
    match position crlf body with
    | none => some (.error (.unavailable (str "chunked body: no chunk header")))
    | some eol => do
      let line ← sliceTo body eol
      let hex := trim ((fromUtf8Lossy line).takeWhile (· ≠ ';'))
      match fromStrRadix16 hex with
      | none => some (.error (.unavailable (str "chunked body: bad length " ++ U.debug hex)))
      | some len =>
        let body ← sliceFrom body (eol + 2)
        if len = 0 then some (.ok out)
        else if body.length < len then
          some (.error (.unavailable (str "chunked body: truncated chunk")))
        else
          let data ← sliceTo body len
          let body ← sliceFrom body len
          let body ← if crlf.isPrefixOf body then sliceFrom body 2 else some body
          dechunkLoop U rounds (out ++ data) body

/-- With one round for each byte and one more, the loop ends and no slice is out of range. -/
theorem dechunkLoop_eq_some (U : Unicode) {rounds : ℕ} {out body : Bytes}
    (hrounds : body.length < rounds) :
    dechunkLoop U rounds out body = some (dechunkFrom U out body) := by
  induction rounds generalizing out body with
  | zero => omega
  | succ rounds ih =>
    rw [dechunkLoop, dechunkFrom_eq]
    cases hposition : position crlf body with
    | none => rfl
    | some eol =>
      have hinside : eol + 2 ≤ body.length := position_add_length_le hposition
      have hline : sliceTo body eol = some (body.take eol) := if_pos (by omega)
      have hbody : sliceFrom body (eol + 2) = some (body.drop (eol + 2)) := if_pos hinside
      dsimp only
      rw [hline, Option.bind_eq_bind, Option.bind_some]
      split
      · rfl
      · rename_i len hradix
        rw [hbody, Option.bind_some]
        by_cases hzero : len = 0
        · rw [if_pos hzero, if_pos hzero]
        by_cases hshort : (body.drop (eol + 2)).length < len
        · rw [if_neg hzero, if_neg hzero, if_pos hshort, if_pos hshort]
        have hlong : len ≤ (body.drop (eol + 2)).length := Nat.le_of_not_lt hshort
        have hdata : sliceTo (body.drop (eol + 2)) len = some ((body.drop (eol + 2)).take len) :=
          if_pos hlong
        have hrest : sliceFrom (body.drop (eol + 2)) len = some ((body.drop (eol + 2)).drop len) :=
          if_pos hlong
        have hdrop : ((body.drop (eol + 2)).drop len).length ≤ body.length - 2 := by
          simp only [List.length_drop]
          omega
        rw [if_neg hzero, if_neg hzero, if_neg hshort, if_neg hshort, hdata, Option.bind_some,
          hrest, Option.bind_some]
        generalize (body.drop (eol + 2)).drop len = rest at hdrop
        by_cases hcrlf : crlf.isPrefixOf rest = true
        · have htwo : 2 ≤ rest.length := (List.isPrefixOf_iff_prefix.mp hcrlf).length_le
          have hskip : sliceFrom rest 2 = some (rest.drop 2) := if_pos htwo
          rw [if_pos hcrlf, if_pos hcrlf, hskip, Option.bind_some]
          exact ih (by rw [List.length_drop]; omega)
        · rw [if_neg hcrlf, if_neg hcrlf, Option.bind_some]
          exact ih (by omega)

/-- Reassembling undoes the chunked coding and notices a body that was cut off. For any chunks, any
size line of zero behind them and any trailers, the result is the data of the chunks in order; what
is cut off so that the line of size zero is not whole is refused; and on any bytes the loop of the
source ends, within a round for each byte and one more, without a slice out of range. -/
theorem dechunk_undoes_chunking (U : Unicode) :
    (∀ (chunks : List Chunk) (last : SizeLine) (trailers : Bytes), last.size = 0 →
      dechunk U (chunks.flatMap Chunk.bytes ++ (last.bytes ++ trailers)) =
        .ok (chunks.flatMap Chunk.data) ∧
      ∀ cut, cut <+: chunks.flatMap Chunk.bytes ++ (last.bytes ++ trailers) →
        ¬chunks.flatMap Chunk.bytes ++ last.bytes <+: cut →
          ∃ error, dechunk U cut = .error error) ∧
    ∀ body : Bytes, dechunkLoop U (body.length + 1) [] body = some (dechunk U body) := by
  refine ⟨fun chunks last trailers hlast ↦ ⟨?_, fun cut hcut hopen ↦ ?_⟩, fun body ↦ ?_⟩
  · have hread := dechunkFrom_chunks U [] chunks hlast trailers
    rwa [List.nil_append] at hread
  · rw [← List.append_assoc] at hcut
    rcases prefix_append_cases hcut with ⟨hshort, hfront⟩ | ⟨rest, rfl, -⟩
    · exact dechunkFrom_of_cut_body U [] chunks hfront hshort
    · exact absurd (List.prefix_append _ _) hopen
  · exact dechunkLoop_eq_some U (Nat.lt_succ_self _)

end Hire.Attestors.Tailscale
