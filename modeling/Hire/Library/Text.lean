import Mathlib.Data.List.Basic
import Mathlib.Data.List.DropRight
import Mathlib.Data.List.Infix

/-!
# Text as sequences of scalar values

A string is the list of its Unicode scalar values, so that concatenation, cutting and comparison are
those of lists. `splitOnce` cuts at the first separator, and `splitOnce_eq_some_iff` is its
specification: the left part is free of the separator. `notMem_of_mem_splitOn` says the same of
every piece of a list cut at all its separators, `splitOn_append` cuts a concatenation, and
`segments` cuts a list at the elements that start a record. `utf8` is the byte form, and
`utf8_injective` says that two strings with the same bytes are equal; `mem_utf8_of_mem` finds the
bytes of a character in the bytes of a string that contains it. The bytes of an ASCII text are its
characters (`utf8_of_isAscii`), and a text whose bytes are all bytes of an ASCII alphabet is written
in that alphabet (`mem_of_utf8_subset`). `position` finds a window of a list, and
`position_add_length_le` keeps it inside. `lines` and `splitWhitespace` are the two tokenizers of
the Rust standard library, by their documented rules.

Nothing here names a particular program.
-/

set_option autoImplicit false
set_option relaxedAutoImplicit false

namespace Hire.Library

/-- A string, as the list of its Unicode scalar values. -/
abbrev Str := List Char

/-- The characters of a literal. Kept irreducible, so that only `str_eq` looks inside one. -/
@[irreducible] def str (literal : String) : Str := literal.toList

@[simp] theorem str_eq (literal : String) : str literal = literal.toList := by
  unfold str
  rfl

/-- A byte string. -/
abbrev Bytes := List UInt8

/-- A byte array of a fixed length. -/
abbrev ByteArr (n : ℕ) := {bytes : Bytes // bytes.length = n}

/-- The byte array of a fixed length with one byte everywhere. -/
def fill (n : ℕ) (b : UInt8) : ByteArr n := ⟨List.replicate n b, List.length_replicate⟩

/-- A byte string as an array of a fixed length, if it has that length. -/
def toByteArr (n : ℕ) (bytes : Bytes) : Option (ByteArr n) :=
  if h : bytes.length = n then some ⟨bytes, h⟩ else none

/-! ### Cutting at the first separator -/

section Split

variable {α : Type*} [DecidableEq α]

/-- The parts before and after the first occurrence of a separator, if there is one. -/
def splitOnce (sep : α) : List α → Option (List α × List α)
  | [] => none
  | a :: rest =>
    if a = sep then some ([], rest)
    else (splitOnce sep rest).map fun parts ↦ (a :: parts.1, parts.2)

/-- A string cut at the first separator is the left part, the separator and the right part, and
the left part is free of the separator. -/
theorem splitOnce_eq_some_iff {sep : α} {s left right : List α} :
    splitOnce sep s = some (left, right) ↔ s = left ++ sep :: right ∧ sep ∉ left := by
  induction s generalizing left with
  | nil => simp [splitOnce]
  | cons a rest ih =>
    unfold splitOnce
    by_cases hsep : a = sep
    · subst hsep
      rw [if_pos rfl]
      constructor
      · intro h
        obtain ⟨rfl, rfl⟩ := Prod.mk.inj (Option.some.inj h)
        simp
      · rintro ⟨hcat, hfree⟩
        cases left with
        | nil => simpa using hcat
        | cons b left =>
          have hhead : a = b := (List.cons.inj hcat).1
          exact absurd (hhead ▸ List.mem_cons_self) hfree
    · rw [if_neg hsep, Option.map_eq_some_iff]
      constructor
      · rintro ⟨⟨l, r⟩, hparts, heq⟩
        obtain ⟨rfl, rfl⟩ := Prod.mk.inj heq
        obtain ⟨hcat, hfree⟩ := ih.mp hparts
        refine ⟨by rw [hcat]; rfl, ?_⟩
        simp only [List.mem_cons, not_or]
        exact ⟨fun h ↦ hsep h.symm, hfree⟩
      · rintro ⟨hcat, hfree⟩
        cases left with
        | nil => exact absurd (List.cons.inj hcat).1 hsep
        | cons b left =>
          obtain ⟨rfl, hrest⟩ := List.cons.inj hcat
          refine ⟨(left, right), ih.mpr ⟨hrest, ?_⟩, rfl⟩
          exact fun h ↦ hfree (List.mem_cons_of_mem _ h)

/-- A string is not cut exactly when it does not contain the separator. -/
theorem splitOnce_eq_none_iff {sep : α} {s : List α} : splitOnce sep s = none ↔ sep ∉ s := by
  induction s with
  | nil => simp [splitOnce]
  | cons a rest ih =>
    unfold splitOnce
    by_cases hsep : a = sep
    · simp [hsep]
    · rw [if_neg hsep, Option.map_eq_none_iff, ih, List.mem_cons, not_or]
      exact ⟨fun h ↦ ⟨fun heq ↦ hsep heq.symm, h⟩, And.right⟩

/-- Two concatenations around a separator that neither left part contains agree part by part. -/
theorem append_sep_inj {sep : α} {left left' right right' : List α} (hleft : sep ∉ left)
    (hleft' : sep ∉ left') (h : left ++ sep :: right = left' ++ sep :: right') :
    left = left' ∧ right = right' := by
  have hcut : splitOnce sep (left ++ sep :: right) = some (left, right) :=
    splitOnce_eq_some_iff.mpr ⟨rfl, hleft⟩
  have hcut' : splitOnce sep (left ++ sep :: right) = some (left', right') :=
    splitOnce_eq_some_iff.mpr ⟨h, hleft'⟩
  exact Prod.mk.inj (Option.some.inj (hcut.symm.trans hcut'))

omit [DecidableEq α] in
/-- Two concatenations around one separating text agree exactly when the separator of one is that of
the other moved over a text: what it is moved over on the left comes back on the right. -/
theorem append_append_eq_append_append_iff {sep left left' right right' : List α} :
    left ++ (sep ++ right) = left' ++ (sep ++ right') ↔
      (∃ moved back, sep ++ back = moved ++ sep ∧ left' = left ++ moved ∧ right = back ++ right') ∨
        ∃ moved back,
          sep ++ back = moved ++ sep ∧ left = left' ++ moved ∧ right' = back ++ right := by
  -- One direction of the shift, with the two sides in the places of the first disjunct.
  have hshift : ∀ {moved right right' : List α}, sep ++ right = moved ++ (sep ++ right') →
      ∃ back, sep ++ back = moved ++ sep ∧ right = back ++ right' := by
    intro moved right right' h
    have hlength := congrArg List.length h
    simp only [List.length_append] at hlength
    have hwhole : right' <:+ sep ++ right := by
      rw [h, ← List.append_assoc]
      exact List.suffix_append _ _
    obtain ⟨back, rfl⟩ : right' <:+ right :=
      List.suffix_of_suffix_length_le hwhole (List.suffix_append _ _) (by omega)
    rw [← List.append_assoc, ← List.append_assoc] at h
    exact ⟨back, List.append_cancel_right h, rfl⟩
  constructor
  · intro h
    rcases List.append_eq_append_iff.mp h with ⟨moved, hleft, hright⟩ | ⟨moved, hleft, hright⟩
    · obtain ⟨back, hsep, hback⟩ := hshift hright
      exact .inl ⟨moved, back, hsep, hleft, hback⟩
    · obtain ⟨back, hsep, hback⟩ := hshift hright
      exact .inr ⟨moved, back, hsep, hleft, hback⟩
  · rintro (⟨moved, back, hsep, rfl, rfl⟩ | ⟨moved, back, hsep, rfl, rfl⟩)
    · rw [List.append_assoc, ← List.append_assoc sep, hsep, List.append_assoc]
    · rw [List.append_assoc, ← List.append_assoc sep back, hsep, List.append_assoc]

omit [DecidableEq α] in
/-- A beginning of a concatenation ends inside the first part or goes on into the second. -/
theorem prefix_append_cases {cut front back : List α} (h : cut <+: front ++ back) :
    (cut.length < front.length ∧ cut <+: front) ∨ ∃ rest, cut = front ++ rest ∧ rest <+: back := by
  rcases Nat.lt_or_ge cut.length front.length with hshort | hlong
  · exact .inl ⟨hshort, List.prefix_of_prefix_length_le h (List.prefix_append _ _) hshort.le⟩
  · obtain ⟨rest, rfl⟩ := List.prefix_of_prefix_length_le (List.prefix_append front back) h hlong
    exact .inr ⟨rest, rfl, (List.prefix_append_right_inj front).mp h⟩

/-- No piece of a list cut at a separator contains the separator. -/
theorem notMem_of_mem_splitOn {sep : α} {s piece : List α} (h : piece ∈ s.splitOn sep) :
    sep ∉ piece := by
  induction s generalizing piece with
  | nil =>
    rw [List.splitOn_nil, List.mem_singleton] at h
    simp [h]
  | cons a rest ih =>
    rw [List.splitOn_cons_eq_if_modifyHead] at h
    split_ifs at h with hsep
    · rcases List.mem_cons.mp h with rfl | h
      · exact List.not_mem_nil
      · exact ih h
    · obtain ⟨first, others, hcut⟩ := List.exists_cons_of_ne_nil (List.splitOn_ne_nil sep rest)
      rw [hcut] at h ih
      rcases List.mem_cons.mp h with rfl | h
      · rw [List.mem_cons, not_or]
        exact ⟨fun heq ↦ hsep (by simp [heq]), ih List.mem_cons_self⟩
      · exact ih (List.mem_cons_of_mem _ h)

/-- A concatenation is cut where its parts are cut: the last piece of the first part and the first
piece of the second make one piece. -/
theorem splitOn_append (sep : α) (front back : List α) :
    (front ++ back).splitOn sep = (front.splitOn sep).dropLast ++
      ((front.splitOn sep).getLastD [] ++ (back.splitOn sep).headD []) ::
        (back.splitOn sep).tail := by
  induction front with
  | nil =>
    obtain ⟨first, others, hcut⟩ := List.exists_cons_of_ne_nil (List.splitOn_ne_nil sep back)
    simp [hcut]
  | cons a rest ih =>
    obtain ⟨first, others, hcut⟩ := List.exists_cons_of_ne_nil (List.splitOn_ne_nil sep rest)
    rw [List.cons_append, List.splitOn_cons_eq_if_modifyHead, List.splitOn_cons_eq_if_modifyHead,
      ih, hcut]
    split_ifs with hsep
    · cases others <;> simp
    · cases others <;> simp

omit [DecidableEq α] in
/-- The segments of a list: each element that a test marks, with the elements up to the next one.
What comes before the first marked element is in no segment. -/
def segments (mark : α → Bool) : List α → List (α × List α)
  | [] => []
  | a :: rest =>
    if mark a then (a, rest.takeWhile fun b ↦ !mark b) :: segments mark rest
    else segments mark rest

/-- The rest of a string after a fixed beginning, if it begins so. -/
def stripPrefix (beginning s : List α) : Option (List α) :=
  s.dropPrefix? beginning

/-- Stripping a beginning succeeds exactly on the strings that have it. -/
theorem stripPrefix_eq_some_iff {beginning s rest : List α} :
    stripPrefix beginning s = some rest ↔ s = beginning ++ rest := by
  unfold stripPrefix
  rw [List.dropPrefix?_eq_some_iff]
  constructor
  · rintro ⟨p, hcat, hp⟩
    rw [hcat, eq_of_beq hp]
  · intro hcat
    exact ⟨beginning, hcat, beq_self_eq_true beginning⟩

/-- The index of the first occurrence of a window in a list. -/
def position (window : List α) : List α → Option ℕ
  | [] => if window = [] then some 0 else none
  | a :: rest =>
    if window.isPrefixOf (a :: rest) then some 0
    else (position window rest).map (· + 1)

/-- A window that was found ends inside the list. -/
theorem position_add_length_le {window l : List α} {i : ℕ} (h : position window l = some i) :
    i + window.length ≤ l.length := by
  induction l generalizing i with
  | nil =>
    unfold position at h
    split_ifs at h with hwindow
    cases h
    simp [hwindow]
  | cons a rest ih =>
    unfold position at h
    split_ifs at h with hhere
    · cases h
      rw [Nat.zero_add]
      exact (List.isPrefixOf_iff_prefix.mp hhere).length_le
    · obtain ⟨j, hj, rfl⟩ := Option.map_eq_some_iff.mp h
      have hinside := ih hj
      rw [List.length_cons]
      omega

/-- A window is not found exactly when it does not occur. -/
theorem position_eq_none_iff {window l : List α} : position window l = none ↔ ¬window <:+: l := by
  induction l with
  | nil => simp [position]
  | cons a rest ih =>
    unfold position
    rw [List.infix_cons_iff, not_or, ← ih]
    by_cases hhere : window.isPrefixOf (a :: rest)
    · simp [hhere, List.isPrefixOf_iff_prefix.mp hhere]
    · have hnot : ¬window <+: a :: rest := fun h ↦ hhere (List.isPrefixOf_iff_prefix.mpr h)
      simp [hhere, hnot]

end Split

/-! ### Bytes of a string -/

/-- The UTF-8 bytes of a string. -/
def utf8 (s : Str) : Bytes := s.flatMap String.utf8EncodeChar

/-- Two strings with the same bytes are equal. -/
theorem utf8_injective : Function.Injective utf8 := by
  intro s t h
  have hbytes : (String.ofList s).toByteArray = (String.ofList t).toByteArray := by
    rw [String.toByteArray_ofList, String.toByteArray_ofList, List.utf8Encode, List.utf8Encode]
    exact congrArg List.toByteArray h
  exact String.ofList_injective (String.toByteArray_inj.mp hbytes)

/-- The bytes of a character of a string occur among the bytes of the string. -/
theorem mem_utf8_of_mem {c : Char} {s : Str} (hc : c ∈ s) {b : UInt8}
    (hb : b ∈ String.utf8EncodeChar c) : b ∈ utf8 s :=
  List.mem_flatMap.mpr ⟨c, hc, hb⟩

/-! ### ASCII text -/

/-- A character is ASCII. -/
def IsAscii (c : Char) : Prop := c.val.toNat < 0x80

instance : DecidablePred IsAscii := fun c ↦ Nat.decLt c.val.toNat 0x80

/-- The byte of an ASCII character. -/
def asciiByte (c : Char) : UInt8 := UInt8.ofNat c.val.toNat

/-- The bytes of a character are below 128 only when the character is ASCII. -/
theorem isAscii_of_utf8EncodeChar {c : Char}
    (h : ∀ b ∈ String.utf8EncodeChar c, b.toNat < 0x80) : IsAscii c := by
  unfold IsAscii
  by_contra hlarge
  have hhead : ∀ n : ℕ, 0x80 ≤ n → n < 0x100 → ¬ (UInt8.ofNat n).toNat < 0x80 := by
    intro n hlow hhigh
    rw [UInt8.toNat_ofNat', Nat.mod_eq_of_lt hhigh]
    omega
  unfold String.utf8EncodeChar at h
  simp only [] at h
  split_ifs at h
  · omega
  · exact hhead _ (by omega) (by omega) (h _ List.mem_cons_self)
  · exact hhead _ (by omega) (by omega) (h _ List.mem_cons_self)
  · exact hhead _ (by omega) (by omega) (h _ List.mem_cons_self)

theorem utf8EncodeChar_of_isAscii {c : Char} (h : IsAscii c) :
    String.utf8EncodeChar c = [asciiByte c] := by
  have hle : c.val.toNat ≤ 0x7f := Nat.le_of_lt_succ h
  unfold String.utf8EncodeChar asciiByte
  exact if_pos hle

theorem asciiByte_toNat {c : Char} (h : IsAscii c) : (asciiByte c).toNat = c.val.toNat := by
  unfold IsAscii at h
  unfold asciiByte
  rw [UInt8.toNat_ofNat', Nat.mod_eq_of_lt (by omega)]

theorem asciiByte_inj {c d : Char} (hc : IsAscii c) (hd : IsAscii d)
    (h : asciiByte c = asciiByte d) : c = d := by
  have hval : c.val.toNat = d.val.toNat := by
    rw [← asciiByte_toNat hc, ← asciiByte_toNat hd, h]
  exact Char.ext (UInt32.toNat_inj.mp hval)

/-- The bytes of an ASCII text are its characters. -/
theorem utf8_of_isAscii {s : Str} (h : ∀ c ∈ s, IsAscii c) : utf8 s = s.map asciiByte := by
  unfold utf8
  induction s with
  | nil => rfl
  | cons c rest ih =>
    rw [List.flatMap_cons, utf8EncodeChar_of_isAscii (h c List.mem_cons_self),
      ih fun d hd ↦ h d (List.mem_cons_of_mem c hd), List.map_cons, List.singleton_append]

/-- An ASCII character stands at the same place among characters and among their bytes. -/
theorem idxOf_map_asciiByte {alphabet : Str} (halphabet : ∀ c ∈ alphabet, IsAscii c) {c : Char}
    (hc : IsAscii c) : (alphabet.map asciiByte).idxOf (asciiByte c) = alphabet.idxOf c := by
  induction alphabet with
  | nil => rfl
  | cons d rest ih =>
    rw [List.map_cons, List.idxOf_cons, List.idxOf_cons,
      ih fun e he ↦ halphabet e (List.mem_cons_of_mem d he)]
    by_cases hcd : d = c
    · rw [hcd, beq_self_eq_true, beq_self_eq_true]
    · have hbyte : asciiByte d ≠ asciiByte c := fun heq ↦
        hcd (asciiByte_inj (halphabet d List.mem_cons_self) hc heq)
      rw [beq_false_of_ne hcd, beq_false_of_ne hbyte]

/-- A text whose bytes are bytes of an ASCII alphabet is written in that alphabet. -/
theorem mem_of_utf8_subset {alphabet s : Str} (halphabet : ∀ c ∈ alphabet, IsAscii c)
    (h : ∀ b ∈ utf8 s, b ∈ utf8 alphabet) : ∀ c ∈ s, c ∈ alphabet := by
  intro c hc
  rw [utf8_of_isAscii halphabet] at h
  have hascii : IsAscii c := by
    apply isAscii_of_utf8EncodeChar
    intro b hb
    obtain ⟨d, hd, rfl⟩ := List.mem_map.mp (h b (mem_utf8_of_mem hc hb))
    rw [asciiByte_toNat (halphabet d hd)]
    exact halphabet d hd
  have hbyte : asciiByte c ∈ String.utf8EncodeChar c := by
    rw [utf8EncodeChar_of_isAscii hascii]
    exact List.mem_singleton_self _
  obtain ⟨d, hd, heq⟩ := List.mem_map.mp (h _ (mem_utf8_of_mem hc hbyte))
  rwa [← asciiByte_inj (halphabet d hd) hascii heq]

/-! ### Tokenizers -/

/-- The lines of a text. A line ends with a newline or with a carriage return and a newline, and
the last ending is optional. -/
def lines (s : Str) : List Str :=
  let pieces := s.splitOn '\n'
  (pieces.dropLast.map fun line ↦ (line.dropSuffix? ['\r']).getD line) ++
    (pieces.getLast?.toList.filter (· ≠ []))

/-- Whether a character has the Unicode property `White_Space`. -/
def isWhitespace (c : Char) : Bool :=
  let n := c.toNat
  (0x09 ≤ n && n ≤ 0x0d) || (0x2000 ≤ n && n ≤ 0x200a) ||
    [0x20, 0x85, 0xa0, 0x1680, 0x2028, 0x2029, 0x202f, 0x205f, 0x3000].contains n

/-- The pieces of a text between runs of whitespace. -/
def splitWhitespace (s : Str) : List Str := (s.splitOnP isWhitespace).filter (· ≠ [])

/-- A text without the whitespace at its two ends. -/
def trim (s : Str) : Str := (s.dropWhile isWhitespace).rdropWhile isWhitespace

/-- A text without whitespace is left as it is. -/
theorem trim_eq_self {s : Str} (h : ∀ c ∈ s, isWhitespace c = false) : trim s = s := by
  have hfront : s.dropWhile isWhitespace = s := by
    cases s with
    | nil => rfl
    | cons c rest => rw [List.dropWhile_cons_of_neg (by simp [h c List.mem_cons_self])]
  unfold trim
  rw [hfront, List.rdropWhile_eq_self_iff]
  intro hne
  simp [h _ (List.getLast_mem hne)]

/-- Whether two texts are equal up to the case of ASCII letters. -/
def eqIgnoreAsciiCase (s t : Str) : Bool := s.map Char.toLower == t.map Char.toLower

end Hire.Library
