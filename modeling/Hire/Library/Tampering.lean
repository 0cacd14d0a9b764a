import Hire.Library.FileSystem

/-!
# What another user can do to a file system

Another user acts on directories and inodes directly, as one who holds descriptors can. They may
create, link, remove, rename and exchange entries where the directory lets them write and, if it is
sticky, where the entry or the directory is theirs; and they may change the mode and the group of
what they own (`Fs.tamper`). The kernel has further refusals, such as moving a directory below
itself; to leave one out only makes that user stronger.

`Fs.Interferes` says once what any of these can do to a file system, and `Fs.interferes_of_tamper`
that each of them is of this kind. What follows is stated of that: attributes of others stay
(`Fs.Interferes.attrs_of_ne`), a directory the user may not write keeps its entries
(`Fs.Interferes.lookup_of_not_mayWrite`), and an entry they may not remove stays
(`Fs.Interferes.lookup_of_not_mayRemove`).

Nothing here names a particular program.
-/

set_option autoImplicit false
set_option relaxedAutoImplicit false

namespace Hire.Library

/-- An operation of another user. -/
inductive Tamper
  | create (d : Inode) (n : Str) (mode : ℕ) (kind : Kind)
  | link (d : Inode) (n : Str) (i : Inode)
  | unlink (d : Inode) (n : Str)
  | rename (d : Inode) (n : Str) (d' : Inode) (n' : Str)
  | exchange (d : Inode) (n : Str) (d' : Inode) (n' : Str)
  | chmod (i : Inode) (mode : ℕ)
  | chgrp (i : Inode) (gid : ℕ)

namespace Fs

/-- Whether an inode is allocated and a directory. -/
def isDirectory (fs : Fs) (i : Inode) : Bool := (fs.attrs i).any fun a ↦ decide (a.kind = .dir)

/-- Whether an inode may be removed: a directory only when it is empty. -/
def removable (fs : Fs) (i : Inode) : Bool :=
  !fs.isDirectory i || (fs.entries i).entries.isEmpty

/-- Whether a user may enter an inode under a name: the name is free, or what it names may be
removed and is a directory as the inode is. -/
def mayEnter (fs : Fs) (cred : Cred) (i d : Inode) (n : Str) : Bool :=
  match fs.lookup d n with
  | none => fs.mayWrite cred d
  | some j =>
    fs.mayRemove cred d j && fs.removable j && decide (fs.isDirectory i = fs.isDirectory j)

/-- Whether a user may move an inode between two directories: moving a directory writes it. -/
def mayMove (fs : Fs) (cred : Cred) (i d d' : Inode) : Bool :=
  !fs.isDirectory i || decide (d = d') || (fs.attrs i).any (·.permits cred write)

/-- What an operation does, if the user is permitted to perform it. -/
def tamper (fs : Fs) (cred : Cred) : Tamper → Option Fs
  | .create d n mode kind =>
    if fs.mayWrite cred d = true ∧ fs.lookup d n = none then
      some (fs.allocate d n ⟨cred.uid, cred.gid, mode, kind⟩)
    else none
  | .link d n i =>
    if fs.mayWrite cred d = true ∧ fs.lookup d n = none ∧ fs.isDirectory i = false then
      some (fs.setEntry d n (some i))
    else none
  | .unlink d n =>
    match fs.lookup d n with
    | none => none
    | some i =>
      if fs.mayRemove cred d i = true ∧ fs.removable i = true then some (fs.setEntry d n none)
      else none
  | .rename d n d' n' =>
    match fs.lookup d n with
    | none => none
    | some i =>
      if fs.mayRemove cred d i = true ∧ fs.mayEnter cred i d' n' = true ∧
          fs.mayMove cred i d d' = true then
        some (((fs.setEntry d n none).setEntry d' n' (some i)).setParent i d')
      else none
  | .exchange d n d' n' =>
    match fs.lookup d n, fs.lookup d' n' with
    | some i, some j =>
      if fs.mayRemove cred d i = true ∧ fs.mayRemove cred d' j = true ∧
          fs.mayMove cred i d d' = true ∧ fs.mayMove cred j d' d = true then
        some ((((fs.setEntry d n (some j)).setEntry d' n' (some i)).setParent i d').setParent j d)
      else none
    | _, _ => none
  | .chmod i mode =>
    if (fs.attrs i).any (fun a ↦ decide (cred.uid = a.owner)) = true then
      some (fs.setAttrs i fun a ↦ { a with mode })
    else none
  | .chgrp i gid =>
    if (fs.attrs i).any (fun a ↦ decide (cred.uid = a.owner)) = true ∧ cred.inGroup gid = true then
      some (fs.setAttrs i fun a ↦ { a with group := gid })
    else none

/-! ### What an operation can do -/

/-- What another user can do to a file system. Owners and kinds stay, and everything about what is
not theirs; an entry changes only where they may write and, if there was one, remove it; and what an
entry newly names is no directory, or one whose entry they may remove. -/
structure Interferes (cred : Cred) (fs fs' : Fs) : Prop where
  root : fs'.root = fs.root
  attrs : ∀ i a, fs.attrs i = some a → ∃ a', fs'.attrs i = some a' ∧ a'.owner = a.owner ∧
    a'.kind = a.kind ∧ (a.owner ≠ cred.uid → a' = a)
  entry : ∀ d n, fs'.lookup d n ≠ fs.lookup d n → fs.mayWrite cred d = true ∧
    ∀ i, fs.lookup d n = some i → fs.mayRemove cred d i = true
  target : ∀ d n i, fs'.lookup d n = some i → fs.lookup d n = some i ∨ ¬ fs.IsDir i ∨
    ∃ e m, fs.lookup e m = some i ∧ fs.mayRemove cred e i = true

section Interferes

variable {fs fs' : Fs} {cred : Cred}

theorem isDirectory_iff {i : Inode} : fs.isDirectory i = true ↔ fs.IsDir i := by
  unfold isDirectory IsDir
  rw [Option.any_eq_true]
  simp only [decide_eq_true_iff]

theorem mayWrite_of_mayRemove {d i : Inode} (h : fs.mayRemove cred d i = true) :
    fs.mayWrite cred d = true := by
  unfold mayRemove at h
  exact (Bool.and_eq_true _ _ ▸ h : _ ∧ _).1

/-- Entering a name that is free. -/
theorem mayWrite_of_mayEnter {i d : Inode} {n : Str} (h : fs.mayEnter cred i d n = true) :
    fs.mayWrite cred d = true ∧ ∀ j, fs.lookup d n = some j → fs.mayRemove cred d j = true := by
  unfold mayEnter at h
  split at h
  · rename_i hfree
    refine ⟨h, fun j hj ↦ ?_⟩
    rw [hfree] at hj
    exact absurd hj (by simp)
  · rename_i j hj
    rw [Bool.and_eq_true, Bool.and_eq_true] at h
    refine ⟨mayWrite_of_mayRemove h.1.1, fun j' hj' ↦ ?_⟩
    rw [hj] at hj'
    obtain rfl := Option.some.inj hj'
    exact h.1.1

/-- Operations on entries leave the attributes alone. -/
theorem Interferes.of_attrs_eq (hroot : fs'.root = fs.root) (hattrs : fs'.attrs = fs.attrs)
    (hentry : ∀ d n, fs'.lookup d n ≠ fs.lookup d n → fs.mayWrite cred d = true ∧
      ∀ i, fs.lookup d n = some i → fs.mayRemove cred d i = true)
    (htarget : ∀ d n i, fs'.lookup d n = some i → fs.lookup d n = some i ∨ ¬ fs.IsDir i ∨
      ∃ e m, fs.lookup e m = some i ∧ fs.mayRemove cred e i = true) :
    Interferes cred fs fs' :=
  ⟨hroot, fun _ a ha ↦ ⟨a, hattrs ▸ ha, rfl, rfl, fun _ ↦ rfl⟩, hentry, htarget⟩

/-- Changing the attributes of what a user owns. -/
theorem interferes_setAttrs {i : Inode} {f : Attrs → Attrs}
    (howner : (fs.attrs i).any (fun a ↦ decide (cred.uid = a.owner)) = true)
    (hf : ∀ a, (f a).owner = a.owner ∧ (f a).kind = a.kind) :
    Interferes cred fs (fs.setAttrs i f) := by
  refine ⟨rfl, fun j a ha ↦ ?_, fun d n h ↦ absurd rfl h, fun d n j h ↦ Or.inl h⟩
  rw [setAttrs_attrs]
  by_cases hij : j = i
  · rw [if_pos hij, ha]
    refine ⟨f a, rfl, (hf a).1, (hf a).2, fun hne ↦ absurd ?_ hne⟩
    rw [← hij, ha] at howner
    exact (decide_eq_true_iff.mp howner).symm
  · rw [if_neg hij]
    exact ⟨a, ha, rfl, rfl, fun _ ↦ rfl⟩

/-- Changing one entry that a user may change. -/
theorem interferes_setEntry {d : Inode} {n : Str} {target : Option Inode}
    (hwrite : fs.mayWrite cred d = true)
    (hremove : ∀ i, fs.lookup d n = some i → fs.mayRemove cred d i = true)
    (htarget : ∀ i, target = some i → ¬ fs.IsDir i) :
    Interferes cred fs (fs.setEntry d n target) := by
  have hlookup : ∀ e m, (fs.setEntry d n target).lookup e m =
      if e = d ∧ m = n then target else fs.lookup e m :=
    fun e m ↦ setEntry_lookup (isDir_of_mayWrite hwrite).lt_next
  refine .of_attrs_eq rfl rfl (fun e m hne ↦ ?_) (fun e m i hi ↦ ?_)
  · by_cases hhere : e = d ∧ m = n
    · rw [hhere.1, hhere.2]
      exact ⟨hwrite, hremove⟩
    · rw [hlookup, if_neg hhere] at hne
      exact absurd rfl hne
  · by_cases hhere : e = d ∧ m = n
    · rw [hlookup, if_pos hhere] at hi
      exact Or.inr (Or.inl (htarget i hi))
    · rw [hlookup, if_neg hhere] at hi
      exact Or.inl hi

/-- Changing two entries that a user may change, to inodes that they named. -/
theorem interferes_setEntry_setEntry {d d' : Inode} {n n' : Str} {target : Option Inode} {i : Inode}
    (hentry : fs.lookup d n = some i) (hremove : fs.mayRemove cred d i = true)
    (hwrite' : fs.mayWrite cred d' = true)
    (hremove' : ∀ j, fs.lookup d' n' = some j → fs.mayRemove cred d' j = true)
    (htarget : ∀ j, target = some j → fs.lookup d' n' = some j) :
    Interferes cred fs ((fs.setEntry d n target).setEntry d' n' (some i)) := by
  have hwrite := mayWrite_of_mayRemove hremove
  have hlookup : ∀ e m, ((fs.setEntry d n target).setEntry d' n' (some i)).lookup e m =
      if e = d' ∧ m = n' then some i else if e = d ∧ m = n then target else fs.lookup e m := by
    intro e m
    have hd' : d' < (fs.setEntry d n target).next := (isDir_of_mayWrite hwrite').lt_next
    rw [setEntry_lookup hd', setEntry_lookup (isDir_of_mayWrite hwrite).lt_next]
  refine .of_attrs_eq rfl rfl (fun e m hne ↦ ?_) (fun e m j hj ↦ ?_)
  · by_cases hthere : e = d' ∧ m = n'
    · rw [hthere.1, hthere.2]
      exact ⟨hwrite', hremove'⟩
    · by_cases hhere : e = d ∧ m = n
      · rw [hhere.1, hhere.2]
        refine ⟨hwrite, fun k hk ↦ ?_⟩
        rw [← Option.some.inj (hentry.symm.trans hk)]
        exact hremove
      · rw [hlookup, if_neg hthere, if_neg hhere] at hne
        exact absurd rfl hne
  · by_cases hthere : e = d' ∧ m = n'
    · rw [hlookup, if_pos hthere] at hj
      obtain rfl := Option.some.inj hj
      exact Or.inr (Or.inr ⟨d, n, hentry, hremove⟩)
    · by_cases hhere : e = d ∧ m = n
      · rw [hlookup, if_neg hthere, if_pos hhere] at hj
        have hold := htarget j hj
        exact Or.inr (Or.inr ⟨d', n', hold, hremove' j hold⟩)
      · rw [hlookup, if_neg hthere, if_neg hhere] at hj
        exact Or.inl hj

/-- Moving a directory is not seen in entries and attributes. -/
theorem Interferes.setParent (h : Interferes cred fs fs') (i d : Inode) :
    Interferes cred fs (fs'.setParent i d) := ⟨h.root, h.attrs, h.entry, h.target⟩

/-- Creating an inode where a user may write. -/
theorem interferes_allocate {d : Inode} {n : Str} {a : Attrs} (hwrite : fs.mayWrite cred d = true)
    (hfree : fs.lookup d n = none) : Interferes cred fs (fs.allocate d n a) := by
  have hlookup : ∀ e m, (fs.allocate d n a).lookup e m =
      if e = d ∧ m = n then some fs.next else fs.lookup e m :=
    fun e m ↦ allocate_lookup (isDir_of_mayWrite hwrite).lt_next
  refine ⟨rfl, fun i b hb ↦ ⟨b, allocate_attrs_of_some hb, rfl, rfl, fun _ ↦ rfl⟩, fun e m hne ↦ ?_,
    fun e m i hi ↦ ?_⟩
  · by_cases hhere : e = d ∧ m = n
    · rw [hhere.1, hhere.2, hfree]
      exact ⟨hwrite, fun i hi ↦ absurd hi (by simp)⟩
    · rw [hlookup, if_neg hhere] at hne
      exact absurd rfl hne
  · by_cases hhere : e = d ∧ m = n
    · rw [hlookup, if_pos hhere] at hi
      refine Or.inr (Or.inl fun hdir ↦ ?_)
      rw [← Option.some.inj hi] at hdir
      exact absurd hdir.lt_next (lt_irrefl _)
    · rw [hlookup, if_neg hhere] at hi
      exact Or.inl hi

/-- Every operation is of this kind. -/
theorem interferes_of_tamper {op : Tamper} (h : fs.tamper cred op = some fs') :
    Interferes cred fs fs' := by
  cases op with
  | create d n mode kind =>
    rw [tamper] at h
    split_ifs at h with hmay
    obtain rfl := Option.some.inj h
    exact interferes_allocate hmay.1 hmay.2
  | link d n i =>
    rw [tamper] at h
    split_ifs at h with hmay
    obtain rfl := Option.some.inj h
    refine interferes_setEntry hmay.1 (fun j hj ↦ ?_) (fun j hj hdir ↦ ?_)
    · rw [hmay.2.1] at hj
      exact absurd hj (by simp)
    · rw [← Option.some.inj hj, ← isDirectory_iff, hmay.2.2] at hdir
      exact absurd hdir (by simp)
  | unlink d n =>
    rw [tamper] at h
    split at h
    · simp at h
    · rename_i i hentry
      split_ifs at h with hmay
      obtain rfl := Option.some.inj h
      refine interferes_setEntry (mayWrite_of_mayRemove hmay.1) (fun j hj ↦ ?_) (by simp)
      rw [← Option.some.inj (hentry.symm.trans hj)]
      exact hmay.1
  | rename d n d' n' =>
    rw [tamper] at h
    split at h
    · simp at h
    · rename_i i hentry
      split_ifs at h with hmay
      obtain rfl := Option.some.inj h
      obtain ⟨hwrite', hremove'⟩ := mayWrite_of_mayEnter hmay.2.1
      exact (interferes_setEntry_setEntry hentry hmay.1 hwrite' hremove' (by simp)).setParent _ _
  | exchange d n d' n' =>
    rw [tamper] at h
    split at h
    · rename_i i j hentry hentry'
      split_ifs at h with hmay
      obtain rfl := Option.some.inj h
      refine ((interferes_setEntry_setEntry hentry hmay.1 (mayWrite_of_mayRemove hmay.2.1)
        (fun k hk ↦ ?_) (fun k hk ↦ ?_)).setParent _ _).setParent _ _
      · rw [← Option.some.inj (hentry'.symm.trans hk)]
        exact hmay.2.1
      · rw [← Option.some.inj hk]
        exact hentry'
    · simp at h
  | chmod i mode =>
    rw [tamper] at h
    split_ifs at h with howner
    obtain rfl := Option.some.inj h
    exact interferes_setAttrs howner fun a ↦ ⟨rfl, rfl⟩
  | chgrp i gid =>
    rw [tamper] at h
    split_ifs at h with hmay
    obtain rfl := Option.some.inj h
    exact interferes_setAttrs hmay.1 fun a ↦ ⟨rfl, rfl⟩

/-! ### What stays -/

/-- What is not theirs keeps its attributes. -/
theorem Interferes.attrs_of_ne (h : Interferes cred fs fs') {i : Inode} {a : Attrs}
    (ha : fs.attrs i = some a) (hne : a.owner ≠ cred.uid) : fs'.attrs i = some a := by
  obtain ⟨a', ha', -, -, hsame⟩ := h.attrs i a ha
  rw [ha', hsame hne]

/-- A directory the user may not write keeps its entries. -/
theorem Interferes.lookup_of_not_mayWrite (h : Interferes cred fs fs') {d : Inode}
    (hd : fs.mayWrite cred d = false) (n : Str) : fs'.lookup d n = fs.lookup d n := by
  by_contra hne
  have hwrite := (h.entry d n hne).1
  rw [hd] at hwrite
  exact absurd hwrite (by simp)

/-- An entry the user may not remove stays. -/
theorem Interferes.lookup_of_not_mayRemove (h : Interferes cred fs fs') {d i : Inode} {n : Str}
    (hentry : fs.lookup d n = some i) (hi : fs.mayRemove cred d i = false) :
    fs'.lookup d n = some i := by
  by_contra hne
  rw [← hentry] at hne
  have hremove := (h.entry d n hne).2 i hentry
  rw [hi] at hremove
  exact absurd hremove (by simp)

/-- A user may not write a directory of another user that grants nothing to the group and to the
others. Assumes: the user is not root. -/
theorem mayWrite_of_private {d : Inode} {a : Attrs} (ha : fs.attrs d = some a)
    (hroot : cred.uid ≠ 0) (howner : a.owner ≠ cred.uid) (hmode : a.mode &&& 0o022 = 0) :
    fs.mayWrite cred d = false := by
  have hbit : ∀ k, Nat.testBit 0o022 k = true → a.mode.testBit k = false := by
    intro k hk
    have hand : (a.mode &&& 0o022).testBit k = false := by
      rw [hmode]
      exact Nat.zero_testBit k
    rw [Nat.testBit_and, hk, Bool.and_true] at hand
    exact hand
  have hpermits : a.permits cred write = false := by
    unfold Attrs.permits
    rw [if_neg hroot, if_neg fun h ↦ howner h.symm]
    split_ifs
    · exact hbit _ (by decide)
    · exact hbit _ (by decide)
  unfold mayWrite
  rw [ha, Option.any_some, hpermits, Bool.and_false, Bool.false_and]

/-- A user may not remove what belongs to another from a sticky directory of a third. Assumes: the
user is not root. -/
theorem mayRemove_of_sticky {d i : Inode} {a b : Attrs} (ha : fs.attrs d = some a)
    (hb : fs.attrs i = some b) (hroot : cred.uid ≠ 0) (hsticky : a.sticky = true)
    (hdir : a.owner ≠ cred.uid) (howner : b.owner ≠ cred.uid) :
    fs.mayRemove cred d i = false := by
  unfold mayRemove
  rw [ha, hb, Option.any_some, Option.any_some, hsticky, decide_eq_false hroot,
    decide_eq_false fun h ↦ hdir h.symm, decide_eq_false fun h ↦ howner h.symm]
  exact Bool.and_false _

end Interferes

end Fs

end Hire.Library
