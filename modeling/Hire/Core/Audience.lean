import Hire.Core.Assurance
import Mathlib.Order.Bounds.Basic
import Mathlib.Order.MinMax

/-!
# Audience extensions

`hire-core/src/audience.rs`. An audience string may carry policy in its query: a required presence
level and a bound on the age of the observation. The `hire_` names are reserved and closed, so
every one of them is either read here or refused, and the two policy names written without the
prefix are refused as well. What is not policy stays in the audience that is signed.

`parseParam_eq_ok_iff` says what one parameter can do, and `parseParams_spec` what a list of them
does to the three accumulators, whatever its order. `AudienceExtensions.parse_is_exact` is the
language of the parser and its meaning: which strings it accepts, which policy and which audience
it reads off them, that the audience it returns reads back as itself with no policy, and that
policy parameters can only make the result stricter.
-/

set_option autoImplicit false
set_option relaxedAutoImplicit false

namespace Hire.Core

open Hire.Library

/-- The policy an audience string names, and the audience without it. -/
structure AudienceExtensions where
  audience : Str
  requirePresence : PresenceLevel
  maxAge : Option Duration
  deriving DecidableEq, Repr

/-- Why an audience string does not parse. -/
inductive AudienceParseError
  | unknownPresence (value : Str)
  | unprefixedExtension (name : Str)
  | invalidMaxAge (value : Str)
  | unsupportedExtension (name : Str)
  deriving DecidableEq, Repr

/-- The message of a parse error. -/
def AudienceParseError.toStr : AudienceParseError → Str
  | .unknownPresence value => str "unknown hire_require_presence value: " ++ value
  | .unprefixedExtension name =>
    name ++ str " must be written hire_" ++ name ++
      str "; refusing to ignore a presence requirement"
  | .invalidMaxAge value => str "hire_max_age must be a whole number of seconds: " ++ value
  | .unsupportedExtension name => str "unsupported hire extension: " ++ name

/-- The name of a query parameter: what stands before the first equals sign. -/
def paramName (param : Str) : Str :=
  match splitOnce '=' param with
  | some (name, _) => name
  | none => param

/-- Whether a parameter is a policy name written without its prefix. -/
def isUnprefixedPolicyName (param : Str) : Bool :=
  paramName param == str "require_presence" || paramName param == str "max_age"

/-- What the parser has read so far: the strictest level, the tightest bound, and the ordinary
parameters in order. -/
structure AudienceAcc where
  requirePresence : PresenceLevel
  maxAge : Option Duration
  keptParams : List Str
  deriving DecidableEq, Repr

/-- Read one query parameter. -/
def parseParam (acc : AudienceAcc) (param : Str) : Except AudienceParseError AudienceAcc :=
  match stripPrefix (str "hire_require_presence=") param with
  | some val =>
    match PresenceLevel.fromStr val with
    | some level => .ok { acc with requirePresence := max acc.requirePresence level }
    | none => .error (.unknownPresence val)
  | none =>
    match stripPrefix (str "hire_max_age=") param with
    | some val =>
      match u64FromStr val with
      | some secs =>
        let named := Duration.fromSecs secs
        .ok { acc with maxAge := some (acc.maxAge.elim named (min · named)) }
      | none => .error (.invalidMaxAge val)
    | none =>
      if (str "hire_").isPrefixOf param then .error (.unsupportedExtension (paramName param))
      else if isUnprefixedPolicyName param then .error (.unprefixedExtension (paramName param))
      else .ok { acc with keptParams := acc.keptParams ++ [param] }

/-- Read the query parameters in order; the first that is refused refuses the string. -/
def parseParams (acc : AudienceAcc) : List Str → Except AudienceParseError AudienceAcc
  | [] => .ok acc
  | param :: rest =>
    match parseParam acc param with
    | .error e => .error e
    | .ok acc' => parseParams acc' rest

/-- Parse an audience string. -/
def AudienceExtensions.parse (raw : Str) : Except AudienceParseError AudienceExtensions :=
  let (base, query) := match splitOnce '?' raw with
    | some (b, q) => (b, some q)
    | none => (raw, none)
  let params := match query with
    | some q => (q.splitOn '&').filter (· ≠ [])
    | none => []
  match parseParams ⟨.none, none, []⟩ params with
  | .error e => .error e
  | .ok acc =>
    let audience := if acc.keptParams = [] then base
      else base ++ str "?" ++ List.intercalate (str "&") acc.keptParams
    .ok ⟨audience, acc.requirePresence, acc.maxAge⟩

/-! ### The language of the parser -/

/-- The parameter that requires a presence level. -/
def presenceParam (level : PresenceLevel) : Str := str "hire_require_presence=" ++ level.display

/-- A parameter names an age bound: `hire_max_age=` and a number of seconds. -/
def NamesMaxAge (param : Str) (bound : Duration) : Prop :=
  ∃ val secs, param = str "hire_max_age=" ++ val ∧ u64FromStr val = some secs ∧
    bound = Duration.fromSecs secs

/-- A parameter that is no policy: it is not in the reserved namespace, and it is not a policy name
without its prefix. -/
def isOrdinary (param : Str) : Bool :=
  !(str "hire_").isPrefixOf param && !isUnprefixedPolicyName param

/-- The part of an audience string before its query. -/
def audienceBase (raw : Str) : Str :=
  match splitOnce '?' raw with
  | some (base, _) => base
  | none => raw

/-- The query parameters of an audience string, without the empty ones. -/
def audienceParams (raw : Str) : List Str :=
  match splitOnce '?' raw with
  | some (_, query) => (query.splitOn '&').filter (· ≠ [])
  | none => []

/-- A parameter that begins with a policy prefix is not ordinary. -/
theorem isOrdinary_append {val : Str} {beginning : Str} (h : str "hire_" <+: beginning) :
    isOrdinary (beginning ++ val) = false := by
  have hreserved : (str "hire_").isPrefixOf (beginning ++ val) = true :=
    List.isPrefixOf_iff_prefix.mpr (h.trans (List.prefix_append beginning val))
  simp only [isOrdinary, hreserved, Bool.not_true, Bool.false_and]

theorem isOrdinary_presenceParam (level : PresenceLevel) :
    isOrdinary (presenceParam level) = false :=
  isOrdinary_append (by simp)

theorem isOrdinary_of_namesMaxAge {param : Str} {bound : Duration} (h : NamesMaxAge param bound) :
    isOrdinary param = false := by
  obtain ⟨val, -, rfl, -, -⟩ := h
  exact isOrdinary_append (by simp)

/-- A parameter requires at most one level. -/
theorem presenceParam_injective : Function.Injective presenceParam := by
  intro first second h
  have hdisplay := List.append_cancel_left h
  have hread := PresenceLevel.fromStr_eq_some_iff.mpr hdisplay
  rw [PresenceLevel.fromStr_eq_some_iff.mpr rfl] at hread
  exact Option.some.inj hread

/-- A parameter names at most one bound. -/
theorem NamesMaxAge.unique {param : Str} {first second : Duration}
    (hfirst : NamesMaxAge param first) (hsecond : NamesMaxAge param second) : first = second := by
  obtain ⟨val, secs, rfl, hsecs, rfl⟩ := hfirst
  obtain ⟨val', secs', hval, hsecs', rfl⟩ := hsecond
  rw [← List.append_cancel_left hval, hsecs] at hsecs'
  rw [Option.some.inj hsecs']

/-- A parameter that requires a level names no bound. -/
theorem not_namesMaxAge_presenceParam {level : PresenceLevel} {bound : Duration} :
    ¬ NamesMaxAge (presenceParam level) bound := by
  rintro ⟨val, secs, hval, -⟩
  simp [presenceParam] at hval

/-- Everything an accepted parameter can do: raise the level, tighten the bound, or be kept. -/
theorem parseParam_eq_ok_iff {acc acc' : AudienceAcc} {param : Str} :
    parseParam acc param = .ok acc' ↔
      (∃ level, param = presenceParam level ∧
        acc' = { acc with requirePresence := max acc.requirePresence level }) ∨
      (∃ bound, NamesMaxAge param bound ∧
        acc' = { acc with maxAge := some (acc.maxAge.elim bound (min · bound)) }) ∨
      (isOrdinary param = true ∧ acc' = { acc with keptParams := acc.keptParams ++ [param] }) := by
  constructor
  · intro h
    unfold parseParam at h
    split at h
    · rename_i val hstrip
      split at h
      · rename_i level hlevel
        cases h
        refine Or.inl ⟨level, ?_, rfl⟩
        rw [presenceParam, ← PresenceLevel.fromStr_eq_some_iff.mp hlevel]
        exact stripPrefix_eq_some_iff.mp hstrip
      · cases h
    · split at h
      · rename_i val hstrip
        split at h
        · rename_i secs hsecs
          cases h
          exact Or.inr (Or.inl ⟨_, ⟨val, secs, stripPrefix_eq_some_iff.mp hstrip, hsecs, rfl⟩, rfl⟩)
        · cases h
      · split_ifs at h with hreserved hunprefixed
        cases h
        refine Or.inr (Or.inr ⟨?_, rfl⟩)
        simp only [isOrdinary, Bool.not_eq_true] at *
        simp only [hreserved, hunprefixed, Bool.not_false, Bool.and_self]
  · rintro (⟨level, rfl, rfl⟩ | ⟨bound, ⟨val, secs, rfl, hsecs, rfl⟩, rfl⟩ | ⟨hordinary, rfl⟩)
    · have hstrip : stripPrefix (str "hire_require_presence=") (presenceParam level) =
          some level.display := stripPrefix_eq_some_iff.mpr rfl
      have hlevel : PresenceLevel.fromStr level.display = some level :=
        PresenceLevel.fromStr_eq_some_iff.mpr rfl
      simp only [parseParam, hstrip, hlevel]
    · have hother : stripPrefix (str "hire_require_presence=") (str "hire_max_age=" ++ val) =
          none := by
        rw [Option.eq_none_iff_forall_ne_some]
        intro rest hrest
        simpa using stripPrefix_eq_some_iff.mp hrest
      have hstrip : stripPrefix (str "hire_max_age=") (str "hire_max_age=" ++ val) = some val :=
        stripPrefix_eq_some_iff.mpr rfl
      simp only [parseParam, hother, hstrip, hsecs]
    · have hnone : ∀ beginning : Str, str "hire_" <+: beginning →
          stripPrefix beginning param = none := by
        intro beginning hbeginning
        rw [Option.eq_none_iff_forall_ne_some]
        intro rest hrest
        rw [stripPrefix_eq_some_iff.mp hrest, isOrdinary_append hbeginning] at hordinary
        cases hordinary
      simp only [isOrdinary, Bool.and_eq_true, Bool.not_eq_true'] at hordinary
      simp only [parseParam, hnone (str "hire_require_presence=") (by simp),
        hnone (str "hire_max_age=") (by simp), hordinary.1, hordinary.2, if_neg, Bool.false_eq_true,
        not_false_eq_true]

/-- The parameters the parser accepts: a required level, an age bound, or an ordinary parameter. -/
def AcceptedParam (param : Str) : Prop :=
  (∃ level, param = presenceParam level) ∨ (∃ bound, NamesMaxAge param bound) ∨
    isOrdinary param = true

/-- A parameter is read exactly when it is one the parser accepts. -/
theorem exists_parseParam_iff {acc : AudienceAcc} {param : Str} :
    (∃ acc', parseParam acc param = .ok acc') ↔ AcceptedParam param := by
  simp only [parseParam_eq_ok_iff]
  constructor
  · rintro ⟨acc', ⟨level, h, -⟩ | ⟨bound, h, -⟩ | ⟨h, -⟩⟩
    · exact Or.inl ⟨level, h⟩
    · exact Or.inr (Or.inl ⟨bound, h⟩)
    · exact Or.inr (Or.inr h)
  · rintro (⟨level, h⟩ | ⟨bound, h⟩ | h)
    · exact ⟨_, Or.inl ⟨level, h, rfl⟩⟩
    · exact ⟨_, Or.inr (Or.inl ⟨bound, h, rfl⟩)⟩
    · exact ⟨_, Or.inr (Or.inr ⟨h, rfl⟩)⟩

/-- A list of parameters that is read starts with one that is. -/
theorem parseParams_cons_eq_ok {acc acc' : AudienceAcc} {param : Str} {rest : List Str}
    (h : parseParams acc (param :: rest) = .ok acc') :
    ∃ next, parseParam acc param = .ok next ∧ parseParams next rest = .ok acc' := by
  unfold parseParams at h
  split at h
  · cases h
  · rename_i next hnext
    exact ⟨next, hnext, h⟩

/-- A list of parameters is read exactly when each of them is accepted. -/
theorem exists_parseParams_iff {acc : AudienceAcc} {params : List Str} :
    (∃ acc', parseParams acc params = .ok acc') ↔ ∀ param ∈ params, AcceptedParam param := by
  induction params generalizing acc with
  | nil => exact ⟨fun _ param hparam ↦ (by cases hparam), fun _ ↦ ⟨acc, rfl⟩⟩
  | cons param rest ih =>
    rw [List.forall_mem_cons]
    constructor
    · rintro ⟨acc', h⟩
      obtain ⟨next, hnext, hrest⟩ := parseParams_cons_eq_ok h
      exact ⟨exists_parseParam_iff.mp ⟨next, hnext⟩, ih.mp ⟨acc', hrest⟩⟩
    · rintro ⟨hparam, hrest⟩
      obtain ⟨next, hnext⟩ := exists_parseParam_iff.mpr hparam
      obtain ⟨acc', hacc'⟩ := ih.mpr hrest
      exact ⟨acc', by rw [parseParams, hnext]; exact hacc'⟩

/-- What a list of parameters does to the accumulators: the level rises to every level it names, the
bound sinks to every bound it names, and its ordinary parameters are kept in order. -/
theorem parseParams_spec {acc acc' : AudienceAcc} {params : List Str}
    (h : parseParams acc params = .ok acc') :
    (∀ level, level ≤ acc'.requirePresence ↔
      level ≤ acc.requirePresence ∨ ∃ named, presenceParam named ∈ params ∧ level ≤ named) ∧
    (∀ bound, (∃ b, acc'.maxAge = some b ∧ b ≤ bound) ↔
      (∃ b, acc.maxAge = some b ∧ b ≤ bound) ∨
        ∃ param ∈ params, ∃ b, NamesMaxAge param b ∧ b ≤ bound) ∧
    acc'.keptParams = acc.keptParams ++ params.filter isOrdinary := by
  induction params generalizing acc with
  | nil =>
    cases h
    simp
  | cons param rest ih =>
    obtain ⟨next, hnext, hrest⟩ := parseParams_cons_eq_ok h
    obtain ⟨hlevel, hbound, hkept⟩ := ih hrest
    rcases parseParam_eq_ok_iff.mp hnext with ⟨named, rfl, rfl⟩ | ⟨named, hnamed, rfl⟩ |
      ⟨hordinary, rfl⟩
    · refine ⟨fun level ↦ ?_, fun bound ↦ ?_, ?_⟩
      · rw [hlevel]
        simp only [le_max_iff, List.mem_cons, presenceParam_injective.eq_iff, or_assoc]
        simp only [or_and_right, exists_or, exists_eq_left]
      · rw [hbound]
        simp [not_namesMaxAge_presenceParam]
      · rw [hkept, List.filter_cons_of_neg (by simp [isOrdinary_presenceParam])]
    · refine ⟨fun level ↦ ?_, fun bound ↦ ?_, ?_⟩
      · rw [hlevel]
        have hne : ∀ level, presenceParam level ≠ param := by
          rintro level rfl
          exact not_namesMaxAge_presenceParam hnamed
        simp [hne]
      · rw [hbound]
        have hfirst : (∃ b, NamesMaxAge param b ∧ b ≤ bound) ↔ named ≤ bound :=
          ⟨fun ⟨b, hb, hle⟩ ↦ hnamed.unique hb ▸ hle, fun hle ↦ ⟨named, hnamed, hle⟩⟩
        have hacc : (∃ b, some (acc.maxAge.elim named (min · named)) = some b ∧ b ≤ bound) ↔
            (∃ b, acc.maxAge = some b ∧ b ≤ bound) ∨ named ≤ bound := by
          cases acc.maxAge <;> simp
        simp only [hacc, List.exists_mem_cons_iff, hfirst, or_assoc]
      · rw [hkept, List.filter_cons_of_neg (by simp [isOrdinary_of_namesMaxAge hnamed])]
    · refine ⟨fun level ↦ ?_, fun bound ↦ ?_, ?_⟩
      · rw [hlevel]
        have hne : ∀ level, presenceParam level ≠ param := by
          rintro level rfl
          rw [isOrdinary_presenceParam] at hordinary
          cases hordinary
        simp [hne]
      · rw [hbound]
        have hnot : ∀ b, ¬ NamesMaxAge param b := by
          intro b hb
          rw [isOrdinary_of_namesMaxAge hb] at hordinary
          cases hordinary
        simp [hnot]
      · rw [hkept, List.filter_cons_of_pos hordinary, List.append_assoc, List.singleton_append]

namespace AudienceExtensions

/-- The audience of a base and ordinary parameters. -/
def rejoin (base : Str) (kept : List Str) : Str :=
  if kept = [] then base else base ++ str "?" ++ List.intercalate (str "&") kept

/-- Parsing reads the parameters of the string and puts the ordinary ones back behind its base. -/
theorem parse_eq_ok_iff {raw : Str} {ext : AudienceExtensions} :
    parse raw = .ok ext ↔ ∃ acc, parseParams ⟨.none, none, []⟩ (audienceParams raw) = .ok acc ∧
      ext = ⟨rejoin (audienceBase raw) acc.keptParams, acc.requirePresence, acc.maxAge⟩ := by
  unfold parse audienceParams audienceBase rejoin
  cases splitOnce '?' raw with
  | none => simp [parseParams, eq_comm]
  | some parts =>
    obtain ⟨base, query⟩ := parts
    dsimp only
    cases parseParams ⟨.none, none, []⟩ ((query.splitOn '&').filter (· ≠ [])) with
    | error e => simp
    | ok acc => simp [eq_comm]

/-- The base of an audience string contains no question mark. -/
theorem notMem_audienceBase (raw : Str) : '?' ∉ audienceBase raw := by
  unfold audienceBase
  cases hcut : splitOnce '?' raw with
  | none => exact splitOnce_eq_none_iff.mp hcut
  | some parts => exact (splitOnce_eq_some_iff.mp hcut).2

/-- A parameter is not empty and contains no separator. -/
theorem of_mem_audienceParams {raw param : Str} (h : param ∈ audienceParams raw) :
    param ≠ [] ∧ '&' ∉ param := by
  unfold audienceParams at h
  split at h
  · rw [List.mem_filter] at h
    exact ⟨by simpa using h.2, notMem_of_mem_splitOn h.1⟩
  · cases h

/-- A base and parameters that are put together are taken apart again. Assumes: the base contains no
question mark, and the parameters are not empty and contain no separator. -/
theorem rejoin_reads_back {base : Str} (kept : List Str) (hbase : '?' ∉ base)
    (hkept : ∀ param ∈ kept, param ≠ [] ∧ '&' ∉ param) :
    audienceBase (rejoin base kept) = base ∧ audienceParams (rejoin base kept) = kept := by
  unfold rejoin
  by_cases hnil : kept = []
  · subst hnil
    rw [if_pos rfl]
    simp [audienceBase, audienceParams, splitOnce_eq_none_iff.mpr hbase]
  · rw [if_neg hnil]
    have hcut : splitOnce '?' (base ++ str "?" ++ List.intercalate (str "&") kept) =
        some (base, List.intercalate (str "&") kept) :=
      splitOnce_eq_some_iff.mpr ⟨by simp, hbase⟩
    have hpieces : (List.intercalate (str "&") kept).splitOn '&' = kept := by
      rw [show str "&" = ['&'] by simp]
      exact List.splitOn_intercalate '&' (fun param hparam ↦ (hkept param hparam).2) hnil
    have hfilter : kept.filter (· ≠ []) = kept :=
      List.filter_eq_self.mpr fun param hparam ↦ by simpa using (hkept param hparam).1
    simp only [audienceBase, audienceParams, hcut, hpieces, hfilter, and_self]

/-- The audience that is returned reads back as itself and names no policy. -/
theorem parse_audience {raw : Str} {ext : AudienceExtensions} (h : parse raw = .ok ext) :
    parse ext.audience = .ok ⟨ext.audience, .none, none⟩ := by
  obtain ⟨acc, hacc, rfl⟩ := parse_eq_ok_iff.mp h
  have hkept : acc.keptParams = (audienceParams raw).filter isOrdinary := by
    simpa using (parseParams_spec hacc).2.2
  obtain ⟨hbase, hparams⟩ := rejoin_reads_back acc.keptParams (notMem_audienceBase raw)
    fun param hparam ↦ of_mem_audienceParams (List.mem_filter.mp (hkept ▸ hparam)).1
  have hordinary : ∀ param ∈ acc.keptParams, isOrdinary param = true := by
    intro param hparam
    rw [hkept] at hparam
    exact (List.mem_filter.mp hparam).2
  obtain ⟨again, hagain⟩ : ∃ again, parseParams ⟨.none, none, []⟩ acc.keptParams = .ok again :=
    exists_parseParams_iff.mpr fun param hparam ↦ Or.inr (Or.inr (hordinary param hparam))
  obtain ⟨hlevel, hbound, hsame⟩ := parseParams_spec hagain
  have hlevel' : again.requirePresence = .none := by
    refine le_antisymm ?_ (PresenceLevel.none_le _)
    refine ((hlevel _).mp le_rfl).resolve_right ?_
    rintro ⟨named, hnamed, -⟩
    have hpolicy := hordinary _ hnamed
    rw [isOrdinary_presenceParam] at hpolicy
    cases hpolicy
  have hbound' : again.maxAge = none := by
    cases hage : again.maxAge with
    | none => rfl
    | some age =>
      rcases (hbound age).mp ⟨age, hage, le_rfl⟩ with ⟨b, hb, -⟩ | ⟨param, hparam, b, hb, -⟩
      · cases hb
      · have hpolicy := hordinary _ hparam
        rw [isOrdinary_of_namesMaxAge hb] at hpolicy
        cases hpolicy
  refine parse_eq_ok_iff.mpr ⟨again, by rw [hparams]; exact hagain, ?_⟩
  rw [hbase, hlevel', hbound', hsame, List.nil_append, List.filter_eq_self.mpr hordinary]

/-- What a string that parses names: the greatest level, the least bound, and an audience of its
base and its ordinary parameters. -/
theorem policy_of_parse {raw : Str} {ext : AudienceExtensions} (h : parse raw = .ok ext) :
    IsGreatest {level | level = .none ∨ presenceParam level ∈ audienceParams raw}
      ext.requirePresence ∧
    (∀ bound, ext.maxAge = some bound →
      IsLeast {b | ∃ param ∈ audienceParams raw, NamesMaxAge param b} bound) ∧
    (ext.maxAge = none → ∀ param ∈ audienceParams raw, ∀ b, ¬ NamesMaxAge param b) ∧
    ext.audience = rejoin (audienceBase raw) ((audienceParams raw).filter isOrdinary) := by
  obtain ⟨acc, hacc, rfl⟩ := parse_eq_ok_iff.mp h
  obtain ⟨hlevel, hbound, hkept⟩ := parseParams_spec hacc
  simp only [reduceCtorEq, false_and, exists_false, false_or] at hbound
  refine ⟨⟨?_, ?_⟩, fun bound hage ↦ ⟨?_, ?_⟩, fun hage param hparam b hb ↦ ?_, ?_⟩
  · rcases (hlevel acc.requirePresence).mp le_rfl with hnone | ⟨named, hnamed, hle⟩
    · exact Or.inl (le_antisymm hnone (PresenceLevel.none_le _))
    · have heq : acc.requirePresence = named :=
        le_antisymm hle ((hlevel named).mpr (Or.inr ⟨named, hnamed, le_rfl⟩))
      exact Or.inr (heq ▸ hnamed)
  · rintro level (rfl | hnamed)
    · exact PresenceLevel.none_le _
    · exact (hlevel level).mpr (Or.inr ⟨level, hnamed, le_rfl⟩)
  · obtain ⟨param, hparam, b, hb, hle⟩ := (hbound bound).mp ⟨bound, hage, le_rfl⟩
    obtain ⟨bound', hage', hle'⟩ := (hbound b).mpr ⟨param, hparam, b, hb, le_rfl⟩
    obtain rfl : bound = bound' := Option.some.inj (hage.symm.trans hage')
    exact ⟨param, hparam, le_antisymm hle' hle ▸ hb⟩
  · rintro b ⟨param, hparam, hb⟩
    obtain ⟨bound', hage', hle'⟩ := (hbound b).mpr ⟨param, hparam, b, hb, le_rfl⟩
    obtain rfl : bound = bound' := Option.some.inj (hage.symm.trans hage')
    exact hle'
  · obtain ⟨bound', hage', -⟩ := (hbound b).mpr ⟨param, hparam, b, hb, le_rfl⟩
    cases hage.symm.trans hage'
  · rw [hkept, List.nil_append]

/-- A string that names every policy of another is at least as strict. Assumes: every parameter of
the first string that is policy is a parameter of the second. -/
theorem stricter_of_subset {raw raw' : Str} {ext ext' : AudienceExtensions}
    (h : parse raw = .ok ext) (h' : parse raw' = .ok ext')
    (hsubset : ∀ param ∈ audienceParams raw, isOrdinary param = false →
      param ∈ audienceParams raw') :
    ext.requirePresence ≤ ext'.requirePresence ∧
      ∀ bound, ext.maxAge = some bound → ∃ bound' ≤ bound, ext'.maxAge = some bound' := by
  obtain ⟨hgreatest, hleast, -, -⟩ := policy_of_parse h
  obtain ⟨hgreatest', hleast', hnone', -⟩ := policy_of_parse h'
  constructor
  · refine hgreatest'.2 (hgreatest.1.imp_right fun hnamed ↦ ?_)
    exact hsubset _ hnamed (isOrdinary_presenceParam _)
  · intro bound hbound
    obtain ⟨param, hparam, hnamed⟩ := (hleast bound hbound).1
    have hparam' := hsubset param hparam (isOrdinary_of_namesMaxAge hnamed)
    cases hage' : ext'.maxAge with
    | none => exact absurd hnamed (hnone' hage' param hparam' bound)
    | some bound' => exact ⟨bound', (hleast' bound' hage').2 ⟨param, hparam', hnamed⟩, rfl⟩

/-- An ordinary parameter, written out. -/
theorem isOrdinary_eq_true_iff {param : Str} :
    isOrdinary param = true ↔ ¬ str "hire_" <+: param ∧ paramName param ≠ str "require_presence" ∧
      paramName param ≠ str "max_age" := by
  simp only [isOrdinary, isUnprefixedPolicyName, Bool.and_eq_true, Bool.not_eq_true',
    ← Bool.not_eq_true, List.isPrefixOf_iff_prefix, Bool.or_eq_true, beq_iff_eq, not_or]

/-- An accepted parameter, written out. -/
theorem acceptedParam_iff {param : Str} :
    AcceptedParam param ↔
      (∃ level ∈ [str "none", str "session", str "software", str "hardware"],
        param = str "hire_require_presence=" ++ level) ∨
      (∃ val secs, param = str "hire_max_age=" ++ val ∧ u64FromStr val = some secs) ∨
      (¬ str "hire_" <+: param ∧ paramName param ≠ str "require_presence" ∧
        paramName param ≠ str "max_age") := by
  refine or_congr ?_ (or_congr ?_ ?_)
  · constructor
    · rintro ⟨level, rfl⟩
      exact ⟨level.display, by cases level <;> simp [PresenceLevel.display], rfl⟩
    · rintro ⟨level, hlevel, rfl⟩
      simp only [List.mem_cons, List.not_mem_nil, or_false] at hlevel
      rcases hlevel with rfl | rfl | rfl | rfl
      · exact ⟨.none, rfl⟩
      · exact ⟨.session, rfl⟩
      · exact ⟨.software, rfl⟩
      · exact ⟨.hardware, rfl⟩
  · constructor
    · rintro ⟨_, val, secs, hparam, hsecs, -⟩
      exact ⟨val, secs, hparam, hsecs⟩
    · rintro ⟨val, secs, hparam, hsecs⟩
      exact ⟨_, val, secs, hparam, hsecs, rfl⟩
  · exact isOrdinary_eq_true_iff

/-- A string parses exactly when each of its parameters is accepted. -/
theorem exists_parse_iff {raw : Str} :
    (∃ ext, parse raw = .ok ext) ↔ ∀ param ∈ audienceParams raw, AcceptedParam param := by
  simp only [parse_eq_ok_iff]
  rw [← @exists_parseParams_iff ⟨.none, none, []⟩ _]
  exact ⟨fun ⟨_, acc, hacc, _⟩ ↦ ⟨acc, hacc⟩, fun ⟨acc, hacc⟩ ↦ ⟨_, acc, hacc, rfl⟩⟩

/-- The parser accepts exactly its language, and the reserved namespace is closed. A string parses
exactly when each of its parameters is a required level, an age bound, or neither reserved nor a
policy name without its prefix. Then the level is the greatest that is named, the bound the least,
and the audience is the base with the ordinary parameters in order; it reads back as itself and
names no policy. A string whose parameters are parameters of one that parses parses, and a string
that names every policy of another, in any order and any number of times, is at least as strict. -/
theorem parse_is_exact (raw : Str) :
    ((∃ ext, parse raw = .ok ext) ↔ ∀ param ∈ audienceParams raw,
      (∃ level ∈ [str "none", str "session", str "software", str "hardware"],
        param = str "hire_require_presence=" ++ level) ∨
      (∃ val secs, param = str "hire_max_age=" ++ val ∧ u64FromStr val = some secs) ∨
      (¬ str "hire_" <+: param ∧ paramName param ≠ str "require_presence" ∧
        paramName param ≠ str "max_age")) ∧
    (∀ ext, parse raw = .ok ext →
      IsGreatest {level | level = .none ∨
        str "hire_require_presence=" ++ level.display ∈ audienceParams raw} ext.requirePresence ∧
      (∀ bound, ext.maxAge = some bound →
        IsLeast {b | ∃ val secs, str "hire_max_age=" ++ val ∈ audienceParams raw ∧
          u64FromStr val = some secs ∧ b = Duration.fromSecs secs} bound) ∧
      (ext.maxAge = none → ∀ val, str "hire_max_age=" ++ val ∈ audienceParams raw →
        u64FromStr val = none) ∧
      ext.audience = rejoin (audienceBase raw) ((audienceParams raw).filter isOrdinary) ∧
      parse ext.audience = .ok ⟨ext.audience, .none, none⟩) ∧
    (∀ raw', audienceParams raw' ⊆ audienceParams raw →
      (∃ ext, parse raw = .ok ext) → ∃ ext', parse raw' = .ok ext') ∧
    (∀ raw' ext ext', parse raw = .ok ext → parse raw' = .ok ext' →
      (∀ param ∈ audienceParams raw, isOrdinary param = false → param ∈ audienceParams raw') →
      ext.requirePresence ≤ ext'.requirePresence ∧
        ∀ bound, ext.maxAge = some bound → ∃ bound' ≤ bound, ext'.maxAge = some bound') := by
  refine ⟨?_, fun ext h ↦ ?_, fun raw' hsubset hparse ↦ ?_,
    fun raw' ext ext' h h' hsubset ↦ stricter_of_subset h h' hsubset⟩
  · rw [exists_parse_iff]
    simp only [acceptedParam_iff]
  · obtain ⟨hgreatest, hleast, hnone, haudience⟩ := policy_of_parse h
    have hset : {b | ∃ val secs, str "hire_max_age=" ++ val ∈ audienceParams raw ∧
        u64FromStr val = some secs ∧ b = Duration.fromSecs secs} =
          {b | ∃ param ∈ audienceParams raw, NamesMaxAge param b} := by
      ext b
      constructor
      · rintro ⟨val, secs, hmem, hsecs, rfl⟩
        exact ⟨_, hmem, val, secs, rfl, hsecs, rfl⟩
      · rintro ⟨_, hmem, val, secs, rfl, hsecs, rfl⟩
        exact ⟨val, secs, hmem, hsecs, rfl⟩
    refine ⟨hgreatest, fun bound hbound ↦ hset ▸ hleast bound hbound, fun hage val hmem ↦ ?_,
      haudience, parse_audience h⟩
    cases hsecs : u64FromStr val with
    | none => rfl
    | some secs => exact absurd ⟨val, secs, rfl, hsecs, rfl⟩ (hnone hage _ hmem _)
  · rw [exists_parse_iff] at hparse ⊢
    exact fun param hparam ↦ hparse param (hsubset hparam)

end AudienceExtensions

end Hire.Core
