import Mathlib.Data.List.Basic
import Mathlib.Data.List.Infix

/-!
# Items framed one behind another

A writer puts an item on a sequence of symbols; a reader takes one item off the front, or finds
none. The reader is `Exact` for the writer when it finds an item precisely where the writer has put
one that may be written. Exact readers compose: `Exact.pair` reads an item and another behind it,
and `Exact.counted` as many symbols as a number in front of them says.

`readRun` takes items off the front for as long as there are any, up to a limit.
`Exact.longestRun_readRun` says that it returns the longest run within the limit, and
`Exact.readRun_eq` how to recognise that run. Every sequence is a run of items and a rest in front
of which there is none (`Exact.exists_run`).

Nothing here names a particular program.
-/

set_option autoImplicit false
set_option relaxedAutoImplicit false

namespace Hire.Library

variable {α β γ : Type*}

/-- A reader accepts exactly what a writer puts in front, for the items that may be written. -/
def Exact (valid : α → Prop) (write : α → List β) (read : List β → Option (α × List β)) : Prop :=
  ∀ buf item rest, read buf = some (item, rest) ↔ buf = write item ++ rest ∧ valid item

/-! ### Readers -/

/-- A number of symbols and those behind them; nothing when there are not that many. -/
def cutAt (n : ℕ) (buf : List β) : Option (List β × List β) :=
  if n ≤ buf.length then some (buf.take n, buf.drop n) else none

theorem cutAt_eq_some_iff {n : ℕ} {buf front back : List β} :
    cutAt n buf = some (front, back) ↔ buf = front ++ back ∧ front.length = n := by
  unfold cutAt
  constructor
  · intro h
    split_ifs at h with hfits
    obtain ⟨rfl, rfl⟩ := Prod.mk.inj (Option.some.inj h)
    exact ⟨(List.take_append_drop n buf).symm, List.length_take_of_le hfits⟩
  · rintro ⟨rfl, rfl⟩
    rw [if_pos (by simp), List.take_left, List.drop_left]

theorem cutAt_eq_none_iff {n : ℕ} {buf : List β} : cutAt n buf = none ↔ buf.length < n := by
  unfold cutAt
  split_ifs with hfits
  · simpa using hfits
  · simpa using hfits

/-- Read an item and another behind it. -/
def readPair (read : List β → Option (α × List β)) (read' : List β → Option (γ × List β))
    (buf : List β) : Option ((α × γ) × List β) :=
  match read buf with
  | none => none
  | some (item, rest) =>
    match read' rest with
    | none => none
    | some (item', rest) => some ((item, item'), rest)

/-- Read a number, and as many symbols as it says. -/
def readCounted (readCount : List β → Option (ℕ × List β)) (buf : List β) :
    Option (List β × List β) :=
  match readCount buf with
  | none => none
  | some (n, rest) => cutAt n rest

/-- Take items off the front for as long as there are any, up to a limit. -/
def readRun (read : List β → Option (α × List β)) : ℕ → List β → List α × List β
  | 0, buf => ([], buf)
  | limit + 1, buf =>
    match read buf with
    | none => ([], buf)
    | some (item, rest) => (item :: (readRun read limit rest).1, (readRun read limit rest).2)

theorem readRun_of_none {read : List β → Option (α × List β)} {buf : List β}
    (hread : read buf = none) (limit : ℕ) : readRun read limit buf = ([], buf) := by
  cases limit with
  | zero => rfl
  | succ limit => rw [readRun, hread]

/-- A sequence is a run of items, each of which may be written, and a rest. -/
structure Run (valid : α → Prop) (write : α → List β) (buf : List β) (items : List α)
    (rest : List β) : Prop where
  buf_eq : buf = items.flatMap write ++ rest
  valid : ∀ item ∈ items, valid item

theorem Run.nil {valid : α → Prop} {write : α → List β} (buf : List β) :
    Run valid write buf [] buf :=
  ⟨rfl, fun _ hitem ↦ absurd hitem List.not_mem_nil⟩

theorem Run.cons {valid : α → Prop} {write : α → List β} {item : α} {items : List α}
    {buf rest : List β} (hitem : valid item) (hrun : Run valid write buf items rest) :
    Run valid write (write item ++ buf) (item :: items) rest where
  buf_eq := by rw [hrun.buf_eq, List.flatMap_cons, List.append_assoc]
  valid := List.forall_mem_cons.mpr ⟨hitem, hrun.valid⟩

/-- Items are the longest run in front of a sequence, within a limit. -/
structure LongestRun (valid : α → Prop) (write : α → List β) (limit : ℕ) (buf : List β)
    (items : List α) : Prop where
  front : ∃ rest, Run valid write buf items rest
  length_le : items.length ≤ limit
  longest : ∀ items' rest, Run valid write buf items' rest → items'.length ≤ limit →
    items' <+: items

/-! ### What exact readers read -/

namespace Exact

variable {valid : α → Prop} {write : α → List β} {read : List β → Option (α × List β)}

/-- An item is read back, whatever follows. -/
theorem read_append (h : Exact valid write read) {item : α} (hitem : valid item) (rest : List β) :
    read (write item ++ rest) = some (item, rest) :=
  (h _ _ _).mpr ⟨rfl, hitem⟩

/-- Two exact readers one after the other are exact for the two items. -/
theorem pair (h : Exact valid write read) {valid' : γ → Prop} {write' : γ → List β}
    {read' : List β → Option (γ × List β)} (h' : Exact valid' write' read') :
    Exact (fun items ↦ valid items.1 ∧ valid' items.2)
      (fun items ↦ write items.1 ++ write' items.2) (readPair read read') := by
  rintro buf ⟨item, item'⟩ rest
  constructor
  · intro hread
    unfold readPair at hread
    split at hread
    · cases hread
    · rename_i first middle hfirst
      split at hread
      · cases hread
      · rename_i second behind hsecond
        obtain ⟨hitems, rfl⟩ := Prod.mk.inj (Option.some.inj hread)
        obtain ⟨rfl, rfl⟩ := Prod.mk.inj hitems
        obtain ⟨rfl, hvalid⟩ := (h _ _ _).mp hfirst
        obtain ⟨rfl, hvalid'⟩ := (h' _ _ _).mp hsecond
        exact ⟨(List.append_assoc _ _ _).symm, hvalid, hvalid'⟩
  · rintro ⟨rfl, hvalid, hvalid'⟩
    simp only [readPair, List.append_assoc, h.read_append hvalid, h'.read_append hvalid']

/-- Symbols behind their number are read exactly, for the numbers that may be written. -/
theorem counted {valid : ℕ → Prop} {write : ℕ → List β} {read : List β → Option (ℕ × List β)}
    (h : Exact valid write read) :
    Exact (fun s : List β ↦ valid s.length) (fun s ↦ write s.length ++ s) (readCounted read) := by
  intro buf s rest
  constructor
  · intro hread
    unfold readCounted at hread
    split at hread
    · cases hread
    · rename_i n behind hcount
      obtain ⟨rfl, hvalid⟩ := (h _ _ _).mp hcount
      obtain ⟨rfl, rfl⟩ := cutAt_eq_some_iff.mp hread
      exact ⟨(List.append_assoc _ _ _).symm, hvalid⟩
  · rintro ⟨rfl, hvalid⟩
    simp only [readCounted, List.append_assoc, h.read_append hvalid]
    exact cutAt_eq_some_iff.mpr ⟨rfl, rfl⟩

theorem readRun_append (h : Exact valid write read) {item : α} (hitem : valid item) (limit : ℕ)
    (rest : List β) :
    readRun read (limit + 1) (write item ++ rest) =
      (item :: (readRun read limit rest).1, (readRun read limit rest).2) := by
  rw [readRun, h.read_append hitem]

/-- What is taken off the front is a run of items within the limit, and stops below the limit only
where there is no item in front. -/
theorem run_readRun (h : Exact valid write read) (limit : ℕ) (buf : List β) :
    Run valid write buf (readRun read limit buf).1 (readRun read limit buf).2 ∧
      (readRun read limit buf).1.length ≤ limit ∧
      ((readRun read limit buf).1.length < limit → read (readRun read limit buf).2 = none) := by
  induction limit generalizing buf with
  | zero => exact ⟨.nil buf, le_rfl, fun hlt ↦ absurd hlt (lt_irrefl _)⟩
  | succ limit ih =>
    cases hread : read buf with
    | none =>
      rw [readRun_of_none hread]
      exact ⟨.nil buf, Nat.zero_le _, fun _ ↦ hread⟩
    | some front =>
      obtain ⟨hbuf, hitem⟩ := (h _ _ _).mp hread
      rw [hbuf, h.readRun_append hitem]
      obtain ⟨hrun, hlength, hstop⟩ := ih front.2
      exact ⟨hrun.cons hitem, Nat.succ_le_succ hlength,
        fun hlt ↦ hstop (Nat.lt_of_succ_lt_succ hlt)⟩

/-- A run of items is what is taken off the front when it reaches the limit or ends where there is
no item in front. -/
theorem readRun_eq (h : Exact valid write read) {limit : ℕ} {buf rest : List β} {items : List α}
    (hrun : Run valid write buf items rest) (hlength : items.length ≤ limit)
    (hstop : items.length < limit → read rest = none) :
    readRun read limit buf = (items, rest) := by
  induction items generalizing limit buf with
  | nil =>
    obtain rfl : buf = rest := hrun.buf_eq
    cases limit with
    | zero => rfl
    | succ limit => exact readRun_of_none (hstop (Nat.succ_pos limit)) _
  | cons item items ih =>
    obtain ⟨limit, rfl⟩ := Nat.exists_eq_add_of_le' (Nat.one_le_of_lt hlength)
    obtain ⟨hitem, hitems⟩ := List.forall_mem_cons.mp hrun.valid
    have hrest := ih ⟨rfl, hitems⟩ (Nat.le_of_succ_le_succ hlength)
      fun hlt ↦ hstop (Nat.succ_lt_succ hlt)
    rw [hrun.buf_eq, List.flatMap_cons, List.append_assoc, h.readRun_append hitem, hrest]

/-- What is taken off the front is the longest run of items within the limit. -/
theorem longestRun_readRun (h : Exact valid write read) (limit : ℕ) (buf : List β) :
    LongestRun valid write limit buf (readRun read limit buf).1 where
  front := ⟨_, (h.run_readRun limit buf).1⟩
  length_le := (h.run_readRun limit buf).2.1
  longest := by
    intro items rest hrun hlength
    induction items generalizing limit buf with
    | nil => exact List.nil_prefix
    | cons item items ih =>
      obtain ⟨limit, rfl⟩ := Nat.exists_eq_add_of_le' (Nat.one_le_of_lt hlength)
      obtain ⟨hitem, hitems⟩ := List.forall_mem_cons.mp hrun.valid
      rw [hrun.buf_eq, List.flatMap_cons, List.append_assoc, h.readRun_append hitem]
      exact (List.prefix_cons_inj item).mpr
        (ih limit _ ⟨rfl, hitems⟩ (Nat.le_of_succ_le_succ hlength))

end Exact

/-- Items that each take a number of symbols take as many times that number together. -/
theorem length_mul_le_length_flatMap {write : α → List β} {width : ℕ}
    (hwidth : ∀ item, width ≤ (write item).length) (items : List α) :
    items.length * width ≤ (items.flatMap write).length := by
  induction items with
  | nil => simp
  | cons item items ih =>
    have hitem := hwidth item
    rw [List.flatMap_cons, List.length_append, List.length_cons, Nat.succ_mul]
    omega

/-- Every sequence is a run of items and a rest in front of which there is none. -/
theorem Exact.exists_run {valid : α → Prop} {write : α → List β}
    {read : List β → Option (α × List β)} (h : Exact valid write read)
    (hwidth : ∀ item, 1 ≤ (write item).length) (buf : List β) :
    ∃ items rest, Run valid write buf items rest ∧ read rest = none := by
  obtain ⟨hrun, -, hstop⟩ := h.run_readRun (buf.length + 1) buf
  have hfew := length_mul_le_length_flatMap hwidth (readRun read (buf.length + 1) buf).1
  have hlength := congrArg List.length hrun.buf_eq
  rw [List.length_append] at hlength
  exact ⟨_, _, hrun, hstop (by omega)⟩

end Hire.Library
