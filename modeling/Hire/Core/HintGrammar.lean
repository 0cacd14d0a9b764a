import Hire.Core.Hint
import Hire.Library.Checked
import Mathlib.Data.List.Perm.Basic

/-!
# The grammar of a hint

`SvidHint.fromStr` is a loop over the pieces of a text that fills four fields, each at most once,
and asks for all four at the end. Here the loop is read as a grammar. `Fills` says what the pieces
of one key do to their field, and a text is read from one accumulator to another exactly when its
pieces, in any order, are those of the four keys put together (`foldlM_readParam_eq_ok_iff`). From
the empty accumulator to a full one that is one piece for each key (`fromStr_eq_ok_iff`).

`SvidHint.fromStr_grammar` states the grammar and both round trips. A source may not be well
behaved: rendering escapes nothing, so it may carry separators and whole forged fields. Whatever is
read back from such a text still has the genuine assurance, presence and age
(`SvidHint.fromStr_display_genuine`).
-/

set_option autoImplicit false
set_option relaxedAutoImplicit false

namespace Hire.Core.SvidHint

open Hire.Library

/-! ### One piece -/

theorem setOnce_eq_ok_iff {α : Type} {key : Str} {field after : Option α} {value : α} :
    setOnce key field value = .ok after ↔ field = none ∧ after = some value := by
  cases field with
  | none => simp [setOnce, eq_comm]
  | some old => simp [setOnce]

theorem hintValue_eq_ok_iff {α : Type} {key value : Str} {read : Option α} {parsed : α} :
    hintValue key value read = .ok parsed ↔ read = some parsed := by
  cases read with
  | none => simp [hintValue]
  | some other => simp [hintValue]

/-- A key with a vocabulary is read exactly when its value is in the vocabulary and its field was
empty. -/
theorem readField_eq_ok_iff {α : Type} {key value : Str} {read field : Option α}
    {update : Option α → HintAcc} {acc' : HintAcc} :
    (do
      let parsed ← hintValue key value read
      let after ← setOnce key field parsed
      pure (update after)) = Except.ok acc' ↔
      ∃ parsed, read = some parsed ∧ field = none ∧ acc' = update (some parsed) := by
  rw [bind_eq_ok_iff]
  simp only [bind_eq_ok_iff, hintValue_eq_ok_iff, setOnce_eq_ok_iff, pure, Except.pure,
    Except.ok.injEq]
  constructor
  · rintro ⟨parsed, hread, after, ⟨hempty, rfl⟩, hacc⟩
    exact ⟨parsed, hread, hempty, hacc.symm⟩
  · rintro ⟨parsed, hread, hempty, hacc⟩
    exact ⟨parsed, hread, _, ⟨hempty, rfl⟩, hacc.symm⟩

theorem readParam_source {acc acc' : HintAcc} {value : Str} :
    readParam acc (str "source=" ++ value) = .ok acc' ↔
      acc.source = none ∧ acc' = { acc with source := some value } := by
  have hcut : splitOnce '=' (str "source=" ++ value) = some (str "source", value) :=
    splitOnce_eq_some_iff.mpr (by simp)
  unfold readParam
  simp only [hcut, if_true, bind_eq_ok_iff, setOnce_eq_ok_iff, pure, Except.pure, Except.ok.injEq]
  constructor
  · rintro ⟨after, ⟨hempty, rfl⟩, hacc⟩
    exact ⟨hempty, hacc.symm⟩
  · rintro ⟨hempty, hacc⟩
    exact ⟨_, ⟨hempty, rfl⟩, hacc.symm⟩

theorem readParam_identityAssurance {acc acc' : HintAcc} {value : Str} :
    readParam acc (str "identity_assurance=" ++ value) = .ok acc' ↔
      ∃ parsed, IdentityAssurance.fromStr value = some parsed ∧ acc.identityAssurance = none ∧
        acc' = { acc with identityAssurance := some parsed } := by
  have hcut : splitOnce '=' (str "identity_assurance=" ++ value) =
      some (str "identity_assurance", value) := splitOnce_eq_some_iff.mpr (by simp)
  unfold readParam
  rw [hcut]
  simpa using readField_eq_ok_iff

theorem readParam_presence {acc acc' : HintAcc} {value : Str} :
    readParam acc (str "presence=" ++ value) = .ok acc' ↔
      ∃ parsed, PresenceLevel.fromStr value = some parsed ∧ acc.presence = none ∧
        acc' = { acc with presence := some parsed } := by
  have hcut : splitOnce '=' (str "presence=" ++ value) = some (str "presence", value) :=
    splitOnce_eq_some_iff.mpr (by simp)
  unfold readParam
  rw [hcut]
  simpa using readField_eq_ok_iff

theorem readParam_age {acc acc' : HintAcc} {value : Str} :
    readParam acc (str "age=" ++ value) = .ok acc' ↔
      ∃ parsed, u64FromStr value = some parsed ∧ acc.age = none ∧
        acc' = { acc with age := some parsed } := by
  have hcut : splitOnce '=' (str "age=" ++ value) = some (str "age", value) :=
    splitOnce_eq_some_iff.mpr (by simp)
  unfold readParam
  rw [hcut]
  simpa using readField_eq_ok_iff

/-- A piece that is read has one of the four keys, up to its first `=`. -/
theorem exists_key_of_readParam {acc acc' : HintAcc} {param : Str}
    (h : readParam acc param = .ok acc') :
    ∃ value, param = str "source=" ++ value ∨ param = str "identity_assurance=" ++ value ∨
      param = str "presence=" ++ value ∨ param = str "age=" ++ value := by
  unfold readParam at h
  split at h
  · simp at h
  · rename_i key value hcut
    obtain ⟨rfl, -⟩ := splitOnce_eq_some_iff.mp hcut
    refine ⟨value, ?_⟩
    split_ifs at h with hsource hassurance hpresence hage
    · exact .inl (by simp [hsource])
    · exact .inr (.inl (by simp [hassurance]))
    · exact .inr (.inr (.inl (by simp [hpresence])))
    · exact .inr (.inr (.inr (by simp [hage])))

/-! ### All pieces -/

/-- What the pieces of one key do to the field of that key: no piece leaves it as it was, and one
piece fills it when it was empty. -/
def Fills {α : Type} (key : Str) (parse : Str → Option α) (pieces : List Str)
    (before after : Option α) : Prop :=
  pieces = [] ∧ after = before ∨
    ∃ value parsed, pieces = [key ++ value] ∧ parse value = some parsed ∧ before = none ∧
      after = some parsed

/-- A field that gets no piece stays as it was. -/
theorem Fills.of_nil {α : Type} {key : Str} {parse : Str → Option α} {before after : Option α}
    (h : Fills key parse [] before after) : after = before := by
  rcases h with ⟨_, hafter⟩ | ⟨_, _, hpieces, _⟩
  · exact hafter
  · cases hpieces

/-- A field that was filled gets no other piece. -/
theorem Fills.of_some {α : Type} {key : Str} {parse : Str → Option α} {pieces : List Str}
    {value : α} {after : Option α} (h : Fills key parse pieces (some value) after) :
    pieces = [] ∧ after = some value := by
  rcases h with h | ⟨_, _, _, _, hnone, _⟩
  · exact h
  · cases hnone

/-- A field that is filled from empty got exactly one piece. -/
theorem Fills.of_none {α : Type} {key : Str} {parse : Str → Option α} {pieces : List Str}
    {parsed : α} (h : Fills key parse pieces none (some parsed)) :
    ∃ value, pieces = [key ++ value] ∧ parse value = some parsed := by
  rcases h with ⟨_, hnone⟩ | ⟨value, parsed', hpieces, hparse, _, hsome⟩
  · cases hnone
  · rw [Option.some.inj hsome]
    exact ⟨value, hpieces, hparse⟩

/-- The pieces of a text are those of the four keys, in any order, and each key does to its field
what its pieces say. -/
def FillsAll (pieces : List Str) (acc acc' : HintAcc) : Prop :=
  ∃ sources assurances presences ages,
    pieces.Perm (sources ++ (assurances ++ (presences ++ ages))) ∧
    Fills (str "source=") some sources acc.source acc'.source ∧
    Fills (str "identity_assurance=") IdentityAssurance.fromStr assurances acc.identityAssurance
      acc'.identityAssurance ∧
    Fills (str "presence=") PresenceLevel.fromStr presences acc.presence acc'.presence ∧
    Fills (str "age=") u64FromStr ages acc.age acc'.age

/-- A piece that is read, before pieces that are. -/
theorem FillsAll.cons {param : Str} {rest : List Str} {acc mid acc' : HintAcc}
    (hread : readParam acc param = .ok mid) (h : FillsAll rest mid acc') :
    FillsAll (param :: rest) acc acc' := by
  obtain ⟨sources, assurances, presences, ages, hperm, hsource, hassurance, hpresence, hage⟩ := h
  obtain ⟨value, rfl | rfl | rfl | rfl⟩ := exists_key_of_readParam hread
  · obtain ⟨hempty, rfl⟩ := readParam_source.mp hread
    obtain ⟨rfl, hafter⟩ := hsource.of_some
    exact ⟨_, assurances, presences, ages, hperm.cons _,
      .inr ⟨value, value, rfl, rfl, hempty, hafter⟩, hassurance, hpresence, hage⟩
  · obtain ⟨parsed, hparse, hempty, rfl⟩ := readParam_identityAssurance.mp hread
    obtain ⟨rfl, hafter⟩ := hassurance.of_some
    exact ⟨sources, _, presences, ages, (hperm.cons _).trans List.perm_middle.symm, hsource,
      .inr ⟨value, parsed, rfl, hparse, hempty, hafter⟩, hpresence, hage⟩
  · obtain ⟨parsed, hparse, hempty, rfl⟩ := readParam_presence.mp hread
    obtain ⟨rfl, hafter⟩ := hpresence.of_some
    refine ⟨sources, assurances, _, ages, ?_, hsource, hassurance,
      .inr ⟨value, parsed, rfl, hparse, hempty, hafter⟩, hage⟩
    rw [← List.append_assoc] at hperm ⊢
    exact (hperm.cons _).trans List.perm_middle.symm
  · obtain ⟨parsed, hparse, hempty, rfl⟩ := readParam_age.mp hread
    obtain ⟨rfl, hafter⟩ := hage.of_some
    refine ⟨sources, assurances, presences, _, ?_, hsource, hassurance, hpresence,
      .inr ⟨value, parsed, rfl, hparse, hempty, hafter⟩⟩
    rw [← List.append_assoc, ← List.append_assoc] at hperm ⊢
    exact (hperm.cons _).trans List.perm_middle.symm

/-- The piece of a key that has one. -/
theorem Fills.of_mem {α : Type} {key param : Str} {parse : Str → Option α} {pieces : List Str}
    {before after : Option α} (h : Fills key parse pieces before after) (hparam : param ∈ pieces) :
    ∃ value parsed, pieces = [param] ∧ param = key ++ value ∧ parse value = some parsed ∧
      before = none ∧ after = some parsed := by
  rcases h with ⟨rfl, _⟩ | ⟨value, parsed, rfl, hparse, hempty, hafter⟩
  · cases hparam
  · rw [List.mem_singleton.mp hparam]
    exact ⟨value, parsed, rfl, rfl, hparse, hempty, hafter⟩

/-- The first piece of such a text is read, and leaves such a text. -/
theorem FillsAll.uncons {param : Str} {rest : List Str} {acc acc' : HintAcc}
    (h : FillsAll (param :: rest) acc acc') :
    ∃ mid, readParam acc param = .ok mid ∧ FillsAll rest mid acc' := by
  obtain ⟨sources, assurances, presences, ages, hperm, hsource, hassurance, hpresence, hage⟩ := h
  have hmem := hperm.mem_iff.mp List.mem_cons_self
  simp only [List.mem_append] at hmem
  rcases hmem with hmem | hmem | hmem | hmem
  · obtain ⟨value, parsed, rfl, rfl, hparse, hempty, hafter⟩ := hsource.of_mem hmem
    cases Option.some.inj hparse
    exact ⟨_, readParam_source.mpr ⟨hempty, rfl⟩, [], assurances, presences, ages, hperm.cons_inv,
      .inl ⟨rfl, hafter⟩, hassurance, hpresence, hage⟩
  · obtain ⟨value, parsed, rfl, rfl, hparse, hempty, hafter⟩ := hassurance.of_mem hmem
    exact ⟨_, readParam_identityAssurance.mpr ⟨parsed, hparse, hempty, rfl⟩, sources, [], presences,
      ages, (hperm.trans List.perm_middle).cons_inv, hsource, .inl ⟨rfl, hafter⟩, hpresence, hage⟩
  · obtain ⟨value, parsed, rfl, rfl, hparse, hempty, hafter⟩ := hpresence.of_mem hmem
    refine ⟨_, readParam_presence.mpr ⟨parsed, hparse, hempty, rfl⟩, sources, assurances, [], ages,
      ?_, hsource, hassurance, .inl ⟨rfl, hafter⟩, hage⟩
    rw [← List.append_assoc] at hperm ⊢
    exact (hperm.trans List.perm_middle).cons_inv
  · obtain ⟨value, parsed, rfl, rfl, hparse, hempty, hafter⟩ := hage.of_mem hmem
    refine ⟨_, readParam_age.mpr ⟨parsed, hparse, hempty, rfl⟩, sources, assurances, presences, [],
      ?_, hsource, hassurance, hpresence, .inl ⟨rfl, hafter⟩⟩
    rw [← List.append_assoc, ← List.append_assoc] at hperm ⊢
    exact (hperm.trans List.perm_middle).cons_inv

/-- Pieces are read from one accumulator to another exactly when they are those of the four keys. -/
theorem foldlM_readParam_eq_ok_iff {pieces : List Str} {acc acc' : HintAcc} :
    pieces.foldlM readParam acc = .ok acc' ↔ FillsAll pieces acc acc' := by
  induction pieces generalizing acc with
  | nil =>
    constructor
    · intro h
      cases h
      exact ⟨[], [], [], [], .refl _, .inl ⟨rfl, rfl⟩, .inl ⟨rfl, rfl⟩, .inl ⟨rfl, rfl⟩,
        .inl ⟨rfl, rfl⟩⟩
    · rintro ⟨sources, assurances, presences, ages, hperm, hsource, hassurance, hpresence, hage⟩
      have hnil := hperm.symm.eq_nil
      simp only [List.append_eq_nil_iff] at hnil
      obtain ⟨rfl, rfl, rfl, rfl⟩ := hnil
      have hsame : acc = acc' := by
        rw [HintAcc.mk.injEq]
        exact ⟨hsource.of_nil.symm, hassurance.of_nil.symm, hpresence.of_nil.symm, hage.of_nil.symm⟩
      rw [hsame]
      rfl
  | cons param rest ih =>
    rw [foldlM_cons_eq_ok_iff]
    constructor
    · rintro ⟨mid, hread, hrest⟩
      exact .cons hread (ih.mp hrest)
    · intro h
      obtain ⟨mid, hread, hrest⟩ := h.uncons
      exact ⟨mid, hread, ih.mpr hrest⟩

/-! ### The text -/

/-- The pieces of a text, without the empty ones. -/
def pieces (raw : Str) : List Str := (raw.splitOn '&').filter (· ≠ [])

theorem required_eq_ok_iff {α : Type} {key : Str} {field : Option α} {value : α} :
    required key field = .ok value ↔ field = some value := by
  cases field with
  | none => simp [required]
  | some other => simp [required]

/-- Reading a text is reading its pieces from an empty accumulator to a full one. -/
theorem fromStr_eq_ok_iff_fillsAll {raw : Str} {hint : SvidHint} :
    fromStr raw = .ok hint ↔ FillsAll (pieces raw) ⟨none, none, none, none⟩
      ⟨some hint.source, some hint.identityAssurance, some hint.presence, some hint.age⟩ := by
  rw [← foldlM_readParam_eq_ok_iff]
  unfold fromStr
  rw [bind_eq_ok_iff]
  simp only [bind_eq_ok_iff, required_eq_ok_iff, pure, Except.pure, Except.ok.injEq]
  constructor
  · rintro ⟨⟨_, _, _, _⟩, hread, _, rfl, _, rfl, _, rfl, _, rfl, rfl⟩
    exact hread
  · intro hread
    exact ⟨_, hread, _, rfl, _, rfl, _, rfl, _, rfl, rfl⟩

/-- A text is read as a hint exactly when its pieces are, in some order, one for each of the four
keys, and the values of the last three are in their vocabularies. -/
theorem fromStr_eq_ok_iff {raw : Str} {hint : SvidHint} :
    fromStr raw = .ok hint ↔ ∃ assurance presence age,
      (pieces raw).Perm [str "source=" ++ hint.source, str "identity_assurance=" ++ assurance,
        str "presence=" ++ presence, str "age=" ++ age] ∧
      IdentityAssurance.fromStr assurance = some hint.identityAssurance ∧
      PresenceLevel.fromStr presence = some hint.presence ∧ u64FromStr age = some hint.age := by
  rw [fromStr_eq_ok_iff_fillsAll]
  constructor
  · rintro ⟨sources, assurances, presences, ages, hperm, hsource, hassurance, hpresence, hage⟩
    obtain ⟨source, rfl, hvalue⟩ := hsource.of_none
    obtain ⟨assurance, rfl, hlevel⟩ := hassurance.of_none
    obtain ⟨presence, rfl, hgate⟩ := hpresence.of_none
    obtain ⟨age, rfl, hsecs⟩ := hage.of_none
    rw [Option.some.inj hvalue] at hperm
    exact ⟨assurance, presence, age, hperm, hlevel, hgate, hsecs⟩
  · rintro ⟨assurance, presence, age, hperm, hassurance, hpresence, hage⟩
    exact ⟨_, _, _, _, hperm, .inr ⟨_, _, rfl, rfl, rfl, rfl⟩,
      .inr ⟨_, _, rfl, hassurance, rfl, rfl⟩,
      .inr ⟨_, _, rfl, hpresence, rfl, rfl⟩, .inr ⟨_, _, rfl, hage, rfl, rfl⟩⟩

/-- A hint that was read has a source without a separator and an age of sixty-four bits. -/
theorem wellFormed_of_fromStr {raw : Str} {hint : SvidHint} (h : fromStr raw = .ok hint) :
    '&' ∉ hint.source ∧ hint.age ≤ u64Max := by
  obtain ⟨assurance, presence, age, hperm, -, -, hage⟩ := fromStr_eq_ok_iff.mp h
  have hmem : str "source=" ++ hint.source ∈ pieces raw :=
    hperm.mem_iff.mpr List.mem_cons_self
  have hfree := notMem_of_mem_splitOn (List.mem_of_mem_filter hmem)
  exact ⟨fun hsep ↦ hfree (List.mem_append_right _ hsep), le_u64Max_of_u64FromStr hage⟩

/-- The hint format. A text is read as a hint exactly when its pieces between separators that are
not empty are, in some order, one for the source, one for the assurance, one for the presence and
one for the age, and the hint has the values these write; a rendered hint is read back when its
source has no separator, the age being a 64-bit integer; and a hint that was read from any text is
read back from its own rendering. -/
theorem fromStr_grammar :
    (∀ (raw : Str) (hint : SvidHint), fromStr raw = .ok hint ↔ ∃ assurance presence age,
      ((raw.splitOn '&').filter (· ≠ [])).Perm
        [str "source=" ++ hint.source, str "identity_assurance=" ++ assurance,
          str "presence=" ++ presence, str "age=" ++ age] ∧
      IdentityAssurance.fromStr assurance = some hint.identityAssurance ∧
      PresenceLevel.fromStr presence = some hint.presence ∧ u64FromStr age = some hint.age) ∧
    (∀ hint : SvidHint, '&' ∉ hint.source → hint.age ≤ u64Max → fromStr hint.display = .ok hint) ∧
    ∀ (raw : Str) (hint : SvidHint), fromStr raw = .ok hint → fromStr hint.display = .ok hint := by
  refine ⟨fun raw hint ↦ fromStr_eq_ok_iff, fun hint hsource hage ↦ fromStr_display hsource hage,
    fun raw hint h ↦ ?_⟩
  obtain ⟨hsource, hage⟩ := wellFormed_of_fromStr h
  exact fromStr_display hsource hage

/-! ### Sources that carry separators -/

@[simp] theorem pieces_nil : pieces [] = [] := by
  simp [pieces]

/-- A separator cuts a text into the pieces on both sides of it. -/
theorem pieces_append_cons (left right : Str) :
    pieces (left ++ '&' :: right) = pieces left ++ pieces right := by
  unfold pieces
  rw [List.splitOn_append_cons_self, List.filter_append]

/-- A text without a separator is one piece. -/
theorem pieces_of_notMem {text : Str} (hsep : '&' ∉ text) (hne : text ≠ []) :
    pieces text = [text] := by
  unfold pieces
  rw [List.splitOn_eq_singleton hsep]
  simp [hne]

/-- A text without pieces is made of separators. -/
theorem eq_replicate_of_pieces_eq_nil {text : Str} (h : pieces text = []) :
    ∃ n, text = List.replicate n '&' := by
  induction text with
  | nil => exact ⟨0, rfl⟩
  | cons c rest ih =>
    by_cases hc : c = '&'
    · subst hc
      have hrest := pieces_append_cons [] rest
      rw [List.nil_append, pieces_nil, List.nil_append] at hrest
      obtain ⟨n, hn⟩ := ih (hrest ▸ h)
      exact ⟨n + 1, by rw [hn, List.replicate_succ]⟩
    · exfalso
      -- The piece that starts with the character is not empty.
      obtain ⟨first, others, hcut⟩ := List.exists_cons_of_ne_nil (List.splitOn_ne_nil '&' rest)
      unfold pieces at h
      rw [List.splitOn_cons_eq_if_modifyHead, if_neg (by simpa using hc), hcut] at h
      simp at h

/-- The pieces of a rendered hint are those of its source field and the three others. -/
theorem pieces_display (hint : SvidHint) :
    pieces hint.display = pieces (str "source=" ++ hint.source) ++ hint.params.tail := by
  have hdisplay : hint.display = str "source=" ++ hint.source ++ '&' ::
      List.intercalate ['&'] hint.params.tail := by
    simp [display, params, List.intercalate, List.intersperse]
  have htail : pieces (List.intercalate ['&'] hint.params.tail) = hint.params.tail := by
    unfold pieces
    rw [List.splitOn_intercalate '&' (notMem_params_tail hint) (by simp [params])]
    simp [params]
  rw [hdisplay, pieces_append_cons, htail]

/-- The pieces of a source field: the source up to its first separator, and those of what follows.
-/
theorem pieces_source (source : Str) :
    ∃ first rest, source = first ++ rest ∧
      pieces (str "source=" ++ source) = (str "source=" ++ first) :: pieces rest := by
  cases hcut : splitOnce '&' source with
  | none =>
    have hfree := splitOnce_eq_none_iff.mp hcut
    refine ⟨source, [], (List.append_nil _).symm, ?_⟩
    rw [pieces_nil, pieces_of_notMem (by simp [hfree]) (by simp)]
  | some parts =>
    obtain ⟨rfl, hfree⟩ := splitOnce_eq_some_iff.mp hcut
    refine ⟨parts.1, '&' :: parts.2, rfl, ?_⟩
    have hrest := pieces_append_cons [] parts.2
    rw [List.nil_append, pieces_nil, List.nil_append] at hrest
    rw [← List.append_assoc, pieces_append_cons, pieces_of_notMem (by simp [hfree]) (by simp),
      hrest, List.singleton_append]

/-- Whatever the source of a rendered hint carries, a hint that is read back from the text has the
same assurance, presence and age, and the source is the one read back followed by separators. -/
theorem fromStr_display_genuine {hint hint' : SvidHint} (h : fromStr hint.display = .ok hint') :
    hint'.identityAssurance = hint.identityAssurance ∧ hint'.presence = hint.presence ∧
      hint'.age = hint.age ∧ ∃ n, hint.source = hint'.source ++ List.replicate n '&' := by
  obtain ⟨assurance, presence, age, hperm, hassurance, hpresence, hage⟩ := fromStr_eq_ok_iff.mp h
  obtain ⟨first, rest, hsource, hpieces⟩ := pieces_source hint.source
  rw [pieces_display, hpieces, List.cons_append] at hperm
  -- Four pieces are read and four are genuine, so the source has no piece beyond its first.
  have hrest : pieces rest = [] := by
    have hlength := hperm.length_eq
    simp only [params, List.tail_cons, List.length_cons, List.length_append,
      List.length_nil] at hlength
    exact List.length_eq_zero_iff.mp (by omega)
  obtain ⟨n, rfl⟩ := eq_replicate_of_pieces_eq_nil hrest
  rw [hrest, List.nil_append] at hperm
  have hmem : ∀ param ∈ [str "source=" ++ hint'.source, str "identity_assurance=" ++ assurance,
      str "presence=" ++ presence, str "age=" ++ age],
      param ∈ (str "source=" ++ first) :: hint.params.tail := fun param ↦ hperm.mem_iff.mpr
  simp only [List.forall_mem_cons] at hmem
  obtain ⟨hmemSource, hmemAssurance, hmemPresence, hmemAge, -⟩ := hmem
  -- The four keys differ, so each piece that is read is the genuine one of its key.
  have hsource' : hint'.source = first := by simpa [params] using hmemSource
  have hassurance' : assurance = hint.identityAssurance.display := by
    simpa [params] using hmemAssurance
  have hpresence' : presence = hint.presence.display := by simpa [params] using hmemPresence
  have hage' : age = Nat.toDigits 10 hint.age := by simpa [params] using hmemAge
  rw [hassurance', IdentityAssurance.fromStr_display] at hassurance
  rw [hpresence', PresenceLevel.fromStr_eq_some_iff.mpr rfl] at hpresence
  rw [hage', u64FromStr_toDigits_eq_ite] at hage
  refine ⟨(Option.some.inj hassurance).symm, (Option.some.inj hpresence).symm, ?_, n, ?_⟩
  · split_ifs at hage
    exact (Option.some.inj hage).symm
  · rw [hsource, hsource']

/-- A source with two separators behind it is read back without them. -/
theorem fromStr_display_genuine_trailing :
    ∃ hint hint' : SvidHint, fromStr hint.display = .ok hint' ∧ hint.source = str "gpg&&" ∧
      hint'.identityAssurance = hint.identityAssurance ∧ hint'.presence = hint.presence ∧
      hint'.age = hint.age ∧ ∃ n, hint.source = hint'.source ++ List.replicate n '&' := by
  have hread : fromStr (display ⟨str "gpg&&", .iaa2, .session, 7⟩) =
      .ok ⟨str "gpg", .iaa2, .session, 7⟩ := by
    with_unfolding_all decide
  exact ⟨_, _, hread, rfl, fromStr_display_genuine hread⟩

/-- A source that forges an age is refused for the age that follows. -/
example : fromStr (display ⟨str "gpg&age=0", .iaa2, .session, 7⟩) =
    .error (.repeatedKey (str "age")) := by
  with_unfolding_all decide

end Hire.Core.SvidHint
