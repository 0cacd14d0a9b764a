import Hire.Library.Text
import Mathlib.Data.List.AList
import Mathlib.Data.Nat.Bitwise

/-!
# A file system with several users

A file system is a table of inodes. An inode has an owner, a group, a mode and a kind, and a
directory has named entries. Inodes are allocated in order and not reused, which no operation here
observes. `Fs.locate` resolves a path for a user as POSIX does: every directory on the way needs
search permission, a symbolic link is expanded where it stands, at most forty times, and the last
component is followed only if the call follows it.

The calls of a program take paths: `Fs.stat`, `Fs.chmod`, `Fs.create`, `Fs.openCreate` and
`Fs.unlink`. Each has a lemma that says everything it can do (`Fs.chmod_cases`, `Fs.create_cases`,
`Fs.openCreate_grows`, `Fs.unlink_cases`), and `Fs.walkWith_dir`, `Fs.walkWith_free` and
`Fs.walkWith_entry` follow a path through directories that are known.

Nothing here names a particular program.
-/

set_option autoImplicit false
set_option relaxedAutoImplicit false

namespace Hire.Library

/-! ### Inodes and users -/

/-- The number of an inode. -/
abbrev Inode := ℕ

/-- A component of the target of a symbolic link. -/
inductive Component
  | parent
  | name (name : Str)
  deriving DecidableEq

/-- What an inode is. -/
inductive Kind
  | dir
  | link (absolute : Bool) (target : List Component)
  | file
  | socket
  deriving DecidableEq

/-- Whether it is a symbolic link. -/
def Kind.isLink : Kind → Bool
  | .link _ _ => true
  | _ => false

/-- The owner, the group, the mode and the kind of an inode. -/
structure Attrs where
  owner : ℕ
  group : ℕ
  mode : ℕ
  kind : Kind
  deriving DecidableEq

/-- Who makes a call: a user, the group of what they create, and the groups they are in. -/
structure Cred where
  uid : ℕ
  gid : ℕ
  inGroup : ℕ → Bool

/-- Whether the sticky bit is set. -/
def Attrs.sticky (attrs : Attrs) : Bool := attrs.mode.testBit 9

/-- Whether a user has a permission: the bits of the owner, of the group or of the others decide,
and nothing is refused to root. -/
def Attrs.permits (attrs : Attrs) (cred : Cred) (bit : ℕ) : Bool :=
  if cred.uid = 0 then true
  else if cred.uid = attrs.owner then attrs.mode.testBit (6 + bit)
  else if cred.inGroup attrs.group then attrs.mode.testBit (3 + bit)
  else attrs.mode.testBit bit

/-- The permission bit for searching a directory. -/
def search : ℕ := 0

/-- The permission bit for writing. -/
def write : ℕ := 1

/-- Why a call fails. -/
inductive Errno
  | noEnt
  | acces
  | perm
  | notDir
  | isDir
  | exist
  | addrInUse
  | noDevice
  | loop
  | wouldBlock
  | other
  deriving DecidableEq, Repr

/-- A file system. What was not allocated has no attributes and no entries. -/
structure Fs where
  root : Inode
  next : Inode
  attrs : Inode → Option Attrs
  entries : Inode → AList fun _ : Str ↦ Inode
  parent : Inode → Inode
  unused : ∀ i, next ≤ i → attrs i = none ∧ entries i = ∅

namespace Fs

/-- What a directory has under a name. -/
def lookup (fs : Fs) (d : Inode) (n : Str) : Option Inode := (fs.entries d).lookup n

/-- An inode is allocated and a directory. -/
def IsDir (fs : Fs) (i : Inode) : Prop := ∃ a, fs.attrs i = some a ∧ a.kind = .dir

/-- An inode is a symbolic link. -/
def IsLink (fs : Fs) (i : Inode) : Prop := ∃ a, fs.attrs i = some a ∧ a.kind.isLink = true

instance (fs : Fs) (i : Inode) : Decidable (fs.IsLink i) :=
  decidable_of_iff _ (Option.any_eq_true (fun a : Attrs ↦ a.kind.isLink) (fs.attrs i))

/-- Whether a user may add entries to a directory. -/
def mayWrite (fs : Fs) (cred : Cred) (d : Inode) : Bool :=
  (fs.attrs d).any fun a ↦ decide (a.kind = .dir) && a.permits cred write && a.permits cred search

/-- Whether a user may remove or rename an entry of a directory. -/
def mayRemove (fs : Fs) (cred : Cred) (d child : Inode) : Bool :=
  fs.mayWrite cred d && (fs.attrs d).any fun a ↦
    !a.sticky || decide (cred.uid = 0) || decide (cred.uid = a.owner) ||
      (fs.attrs child).any fun c ↦ decide (cred.uid = c.owner)

/-! ### Changes -/

/-- Change one entry of a directory. What was not allocated has no entries to change. -/
def setEntry (fs : Fs) (d : Inode) (n : Str) (target : Option Inode) : Fs where
  root := fs.root
  next := fs.next
  attrs := fs.attrs
  entries i :=
    if i = d ∧ i < fs.next then
      target.elim ((fs.entries d).erase n) ((fs.entries d).insert n)
    else fs.entries i
  parent := fs.parent
  unused i hi := by
    rw [if_neg fun h ↦ absurd h.2 (not_lt.mpr hi)]
    exact fs.unused i hi

/-- Change the attributes of one inode, if it was allocated. -/
def setAttrs (fs : Fs) (i : Inode) (f : Attrs → Attrs) : Fs where
  root := fs.root
  next := fs.next
  attrs j := if j = i then (fs.attrs j).map f else fs.attrs j
  entries := fs.entries
  parent := fs.parent
  unused j hj := by
    obtain ⟨hattrs, hentries⟩ := fs.unused j hj
    rw [hattrs]
    exact ⟨ite_self none, hentries⟩

/-- Allocate an inode and enter it in a directory. -/
def allocate (fs : Fs) (d : Inode) (n : Str) (a : Attrs) : Fs :=
  setEntry
    { root := fs.root
      next := fs.next + 1
      attrs := Function.update fs.attrs fs.next (some a)
      entries := fs.entries
      parent := Function.update fs.parent fs.next d
      unused := by
        intro i hi
        have hne : i ≠ fs.next := fun h ↦ absurd hi (by rw [h]; exact Nat.not_succ_le_self _)
        rw [Function.update_of_ne hne]
        exact fs.unused i (Nat.le_of_succ_le hi) }
    d n (some fs.next)

/-- Record that a directory was moved. -/
def setParent (fs : Fs) (i d : Inode) : Fs := { fs with parent := Function.update fs.parent i d }

section Changes

variable (fs : Fs) (d e i j : Inode) (n m : Str) (target : Option Inode) (a : Attrs)
  (f : Attrs → Attrs)

@[simp] theorem setEntry_root : (fs.setEntry d n target).root = fs.root := rfl

theorem setEntry_entries : (fs.setEntry d n target).entries i = if i = d ∧ i < fs.next then
    target.elim ((fs.entries d).erase n) ((fs.entries d).insert n) else fs.entries i := rfl

@[simp] theorem setAttrs_root : (fs.setAttrs i f).root = fs.root := rfl

theorem setAttrs_attrs :
    (fs.setAttrs i f).attrs j = if j = i then (fs.attrs j).map f else fs.attrs j := rfl

@[simp] theorem allocate_root : (fs.allocate d n a).root = fs.root := rfl

variable {fs d e i j n m target a f}

/-- What has attributes was allocated. -/
theorem lt_next_of_attrs (h : fs.attrs i = some a) : i < fs.next := by
  by_contra hge
  have hnone := (fs.unused i (not_lt.mp hge)).1
  rw [hnone] at h
  exact absurd h (by simp)

/-- Changing an entry changes that entry alone. -/
theorem setEntry_lookup (hd : d < fs.next) :
    (fs.setEntry d n target).lookup e m = if e = d ∧ m = n then target else fs.lookup e m := by
  unfold lookup
  rw [setEntry_entries]
  by_cases he : e = d
  · rw [he, if_pos ⟨rfl, hd⟩]
    by_cases hm : m = n
    · rw [if_pos ⟨rfl, hm⟩, hm]
      cases target with
      | none => exact AList.lookup_erase _ _
      | some i => exact AList.lookup_insert _
    · rw [if_neg fun h ↦ hm h.2]
      cases target with
      | none => exact AList.lookup_erase_ne hm
      | some i => exact AList.lookup_insert_ne hm
  · rw [if_neg fun h ↦ he h.1, if_neg fun h ↦ he h.1]

theorem allocate_lookup (hd : d < fs.next) :
    (fs.allocate d n a).lookup e m = if e = d ∧ m = n then some fs.next else fs.lookup e m :=
  setEntry_lookup (Nat.lt_succ_of_lt hd)

theorem allocate_attrs_next : (fs.allocate d n a).attrs fs.next = some a :=
  Function.update_self _ _ _

/-- Allocating leaves what was allocated as it was. -/
theorem allocate_attrs_of_some {b : Attrs} (h : fs.attrs i = some b) :
    (fs.allocate d n a).attrs i = some b := by
  have hne : i ≠ fs.next := (lt_next_of_attrs h).ne
  show Function.update fs.attrs fs.next (some a) i = some b
  rw [Function.update_of_ne hne, h]

end Changes

/-! ### Resolving a path -/

/-- Where a path leads: the directory and the name of its last component, and the inode that is
there, if any. A path that ends above a name, such as the root, has no name. -/
structure Place where
  dir : Inode
  name : Option Str
  found : Option Inode
  deriving DecidableEq

/-- The root of the file system. -/
def top (fs : Fs) : Place := ⟨fs.root, none, some fs.root⟩

/-- Walk down the components of a path. `expand` goes on where a symbolic link points. -/
def walkWith (fs : Fs) (cred : Cred) (followLast : Bool)
    (expand : Place → List Component → Except Errno Place) :
    Place → List Component → Except Errno Place
  | here, [] => .ok here
  | here, component :: rest =>
    match here.found with
    | none => .error .noEnt
    | some cur =>
      match fs.attrs cur with
      | none => .error .noEnt
      | some a =>
        if a.kind ≠ .dir then .error .notDir
        else if !a.permits cred search then .error .acces
        else
          match component with
          | .parent =>
            walkWith fs cred followLast expand ⟨fs.parent cur, none, some (fs.parent cur)⟩ rest
          | .name n =>
            match fs.lookup cur n with
            | none => walkWith fs cred followLast expand ⟨cur, some n, none⟩ rest
            | some i =>
              match (fs.attrs i).map Attrs.kind with
              | some (.link absolute target) =>
                if rest = [] ∧ followLast = false then .ok ⟨cur, some n, some i⟩
                else expand (if absolute then fs.top else ⟨cur, none, some cur⟩) (target ++ rest)
              | _ => walkWith fs cred followLast expand ⟨cur, some n, some i⟩ rest

/-- Walk down the components of a path, expanding at most so many symbolic links. -/
def walk (fs : Fs) (cred : Cred) (followLast : Bool) :
    ℕ → Place → List Component → Except Errno Place
  | 0 => fs.walkWith cred followLast fun _ _ ↦ .error .loop
  | links + 1 => fs.walkWith cred followLast (fs.walk cred followLast links)

/-- Where an absolute path leads for a user. -/
def locate (fs : Fs) (cred : Cred) (followLast : Bool) (path : List Str) : Except Errno Place :=
  fs.walk cred followLast 40 fs.top (path.map .name)

section Walk

variable {fs : Fs} {cred : Cred} {followLast : Bool}
  {expand : Place → List Component → Except Errno Place} {here : Place} {cur i : Inode} {n : Str}
  {rest : List Component} {a : Attrs}

/-- Below a directory a user may search, the walk looks at the entry. -/
theorem walkWith_name (hhere : here.found = some cur) (hcur : fs.attrs cur = some a)
    (hdir : a.kind = .dir) :
    fs.walkWith cred followLast expand here (.name n :: rest) = .error .acces ∨
      fs.walkWith cred followLast expand here (.name n :: rest) =
        match fs.lookup cur n with
        | none => fs.walkWith cred followLast expand ⟨cur, some n, none⟩ rest
        | some i =>
          match (fs.attrs i).map Attrs.kind with
          | some (.link absolute target) =>
            if rest = [] ∧ followLast = false then .ok ⟨cur, some n, some i⟩
            else expand (if absolute then fs.top else ⟨cur, none, some cur⟩) (target ++ rest)
          | _ => fs.walkWith cred followLast expand ⟨cur, some n, some i⟩ rest := by
  rw [walkWith]
  simp only [hhere, hcur, hdir, ne_eq, not_true_eq_false, if_false]
  by_cases hsearch : a.permits cred search = true
  · right
    rw [hsearch]
    rfl
  · left
    rw [Bool.not_eq_true] at hsearch
    rw [hsearch]
    rfl

/-- The walk goes through a directory, if the user may search the one above it. -/
theorem walkWith_dir (hhere : here.found = some cur) (hcur : fs.IsDir cur)
    (hentry : fs.lookup cur n = some i) (hi : fs.IsDir i) :
    fs.walkWith cred followLast expand here (.name n :: rest) = .error .acces ∨
      fs.walkWith cred followLast expand here (.name n :: rest) =
        fs.walkWith cred followLast expand ⟨cur, some n, some i⟩ rest := by
  obtain ⟨a, hcur, hdir⟩ := hcur
  obtain ⟨b, hi, hkind⟩ := hi
  refine (walkWith_name hhere hcur hdir).imp_right fun h ↦ ?_
  rw [h, hentry]
  simp only [hi, Option.map_some, hkind]

/-- The walk ends at a name that is free. -/
theorem walkWith_free (hhere : here.found = some cur) (hcur : fs.IsDir cur)
    (hentry : fs.lookup cur n = none) :
    fs.walkWith cred followLast expand here [.name n] = .error .acces ∨
      fs.walkWith cred followLast expand here [.name n] = .ok ⟨cur, some n, none⟩ := by
  obtain ⟨a, hcur, hdir⟩ := hcur
  refine (walkWith_name hhere hcur hdir).imp_right fun h ↦ ?_
  rw [h, hentry]
  rfl

/-- The walk ends at an entry, if links are not followed or the entry is none. -/
theorem walkWith_entry (hhere : here.found = some cur) (hcur : fs.IsDir cur)
    (hentry : fs.lookup cur n = some i) (hend : followLast = false ∨ ¬ fs.IsLink i) :
    fs.walkWith cred followLast expand here [.name n] = .error .acces ∨
      fs.walkWith cred followLast expand here [.name n] = .ok ⟨cur, some n, some i⟩ := by
  obtain ⟨a, hcur, hdir⟩ := hcur
  refine (walkWith_name hhere hcur hdir).imp_right fun h ↦ ?_
  rw [h, hentry]
  dsimp only
  split
  · rename_i absolute target hlink
    rcases hend with hnofollow | hnotLink
    · rw [if_pos ⟨rfl, hnofollow⟩]
    · obtain ⟨b, hb, hkind⟩ := Option.map_eq_some_iff.mp hlink
      exact absurd ⟨b, hb, by rw [hkind, Kind.isLink]⟩ hnotLink
  · rfl

/-- A path that leads to a place unless the user is refused leads a user who is not refused there.
-/
theorem place_eq_of_refused_or {result : Except Errno Place} {place : Place}
    (h : result = .error .acces ∨ result = .ok here) (hplace : result = .ok place) :
    here = place := by
  rcases h with hacces | hhere
  · rw [hacces] at hplace
    exact absurd hplace (by simp)
  · rw [hhere] at hplace
    exact Except.ok.inj hplace

/-- A place says what is under its name. -/
def Place.Honest (fs : Fs) (place : Place) : Prop :=
  ∀ n, place.name = some n → fs.lookup place.dir n = place.found

theorem honest_of_walkWith
    (hexpand : ∀ here target place, here.Honest fs → expand here target = .ok place →
      place.Honest fs) {components : List Component} {place : Place} (hhere : here.Honest fs)
    (h : fs.walkWith cred followLast expand here components = .ok place) : place.Honest fs := by
  have hunnamed : ∀ d, Place.Honest fs ⟨d, none, some d⟩ := fun d n hn ↦ absurd hn (by simp)
  have hentry : ∀ d n found, fs.lookup d n = found → Place.Honest fs ⟨d, some n, found⟩ := by
    intro d n found hfound m hm
    obtain rfl := Option.some.inj hm
    exact hfound
  induction components generalizing here with
  | nil =>
    obtain rfl := Except.ok.inj h
    exact hhere
  | cons component rest ih =>
    rw [walkWith] at h
    split at h
    · simp at h
    · rename_i cur _
      split at h
      · simp at h
      · split at h
        · simp at h
        · split at h
          · simp at h
          · split at h
            · exact ih (hunnamed _) h
            · split at h
              · exact ih (hentry _ _ _ ‹_›) h
              · split at h
                · split at h
                  · obtain rfl := Except.ok.inj h
                    exact hentry _ _ _ ‹_›
                  · refine hexpand _ _ _ ?_ h
                    split_ifs
                    · exact hunnamed _
                    · exact hunnamed _
                · exact ih (hentry _ _ _ ‹_›) h

/-- A path leads to a place that says what is there. -/
theorem honest_of_locate {path : List Str} {place : Place}
    (h : fs.locate cred followLast path = .ok place) : place.Honest fs := by
  have hwalk : ∀ links here components place, here.Honest fs →
      fs.walk cred followLast links here components = .ok place → place.Honest fs := by
    intro links
    induction links with
    | zero => exact fun here components place hhere ↦ honest_of_walkWith (by simp) hhere
    | succ links ih => exact fun here components place hhere ↦ honest_of_walkWith ih hhere
  exact hwalk 40 fs.top _ place (fun n hn ↦ absurd hn (by simp [top])) h

end Walk

/-! ### The calls of a program -/

section Calls

variable (fs : Fs) (cred : Cred)

/-- The attributes of what a path leads to, links followed. -/
def stat (path : List Str) : Except Errno Attrs :=
  match fs.locate cred true path with
  | .error e => .error e
  | .ok place =>
    match place.found.bind fs.attrs with
    | none => .error .noEnt
    | some a => .ok a

/-- Set the mode of what a path leads to, links followed. -/
def chmod (path : List Str) (mode : ℕ) : Except Errno Unit × Fs :=
  match fs.locate cred true path with
  | .error e => (.error e, fs)
  | .ok place =>
    match place.found with
    | none => (.error .noEnt, fs)
    | some i =>
      match fs.attrs i with
      | none => (.error .noEnt, fs)
      | some a =>
        if cred.uid = 0 ∨ cred.uid = a.owner then
          (.ok (), fs.setAttrs i fun a ↦ { a with mode })
        else (.error .perm, fs)

/-- Make a new inode of a kind at a path whose last component is not followed. -/
def create (path : List Str) (mode : ℕ) (kind : Kind) (taken : Errno) : Except Errno Unit × Fs :=
  match fs.locate cred false path with
  | .error e => (.error e, fs)
  | .ok ⟨d, some n, none⟩ =>
    if fs.mayWrite cred d then (.ok (), fs.allocate d n ⟨cred.uid, cred.gid, mode, kind⟩)
    else (.error .acces, fs)
  | .ok _ => (.error taken, fs)

/-- Open a file for writing, links followed, and create it if it is not there. -/
def openCreate (path : List Str) (mode : ℕ) : Except Errno Unit × Fs :=
  match fs.locate cred true path with
  | .error e => (.error e, fs)
  | .ok ⟨d, some n, none⟩ =>
    if fs.mayWrite cred d then (.ok (), fs.allocate d n ⟨cred.uid, cred.gid, mode, .file⟩)
    else (.error .acces, fs)
  | .ok ⟨_, _, none⟩ => (.error .noEnt, fs)
  | .ok ⟨_, _, some i⟩ =>
    match fs.attrs i with
    | none => (.error .noEnt, fs)
    | some a =>
      if a.kind = .dir then (.error .isDir, fs)
      else if a.kind = .socket then (.error .noDevice, fs)
      else if a.permits cred write then (.ok (), fs)
      else (.error .acces, fs)

/-- Remove the entry a path leads to, links not followed. -/
def unlink (path : List Str) : Except Errno Unit × Fs :=
  match fs.locate cred false path with
  | .error e => (.error e, fs)
  | .ok ⟨d, some n, some i⟩ =>
    if (fs.attrs i).any fun a ↦ decide (a.kind = .dir) then (.error .isDir, fs)
    else if fs.mayRemove cred d i then (.ok (), fs.setEntry d n none)
    else (.error .acces, fs)
  | .ok ⟨_, _, none⟩ => (.error .noEnt, fs)
  | .ok _ => (.error .isDir, fs)

end Calls

/-! ### What the calls do -/

section Effects

variable {fs : Fs} {cred : Cred} {path : List Str} {mode : ℕ}

theorem isDir_of_mayWrite {d : Inode} (h : fs.mayWrite cred d = true) : fs.IsDir d := by
  obtain ⟨a, ha, hwrite⟩ := (Option.any_eq_true _ _).mp h
  rw [Bool.and_eq_true, Bool.and_eq_true, decide_eq_true_iff] at hwrite
  exact ⟨a, ha, hwrite.1.1⟩

theorem IsDir.lt_next {d : Inode} (h : fs.IsDir d) : d < fs.next := by
  obtain ⟨a, ha, -⟩ := h
  exact lt_next_of_attrs ha

/-- A file system is left alone, or gets one new inode under a name that was free. -/
inductive Grows (fs : Fs) (cred : Cred) : Fs → Prop
  | same : Grows fs cred fs
  | more (d : Inode) (n : Str) (mode : ℕ) (kind : Kind) (hfree : fs.lookup d n = none)
      (hd : fs.IsDir d) : Grows fs cred (fs.allocate d n ⟨cred.uid, cred.gid, mode, kind⟩)

/-- What has attributes for a path is what the path leads to. -/
theorem locate_of_stat {a : Attrs} (h : fs.stat cred path = .ok a) :
    ∃ place i, fs.locate cred true path = .ok place ∧ place.found = some i ∧
      fs.attrs i = some a := by
  unfold stat at h
  split at h
  · simp at h
  · rename_i place hplace
    split at h
    · simp at h
    · rename_i b hb
      obtain ⟨i, hi, hattrs⟩ := Option.bind_eq_some_iff.mp hb
      rw [Except.ok.inj h] at hattrs
      exact ⟨place, i, hplace, hi, hattrs⟩

/-- Setting a mode fails and does nothing, or sets the mode of what the path leads to. -/
theorem chmod_cases (fs : Fs) (cred : Cred) (path : List Str) (mode : ℕ) :
    (∃ e, fs.chmod cred path mode = (.error e, fs)) ∨
      ∃ place i a, fs.locate cred true path = .ok place ∧ place.found = some i ∧
        fs.attrs i = some a ∧
        fs.chmod cred path mode = (.ok (), fs.setAttrs i fun a ↦ { a with mode }) := by
  unfold chmod
  split
  · exact Or.inl ⟨_, rfl⟩
  · rename_i place hplace
    split
    · exact Or.inl ⟨_, rfl⟩
    · rename_i i hi
      split
      · exact Or.inl ⟨_, rfl⟩
      · rename_i a ha
        split_ifs
        · exact Or.inr ⟨place, i, a, hplace, hi, ha, rfl⟩
        · exact Or.inl ⟨_, rfl⟩

/-- Making an inode fails and does nothing, or allocates it where the path leads. -/
theorem create_cases (fs : Fs) (cred : Cred) (path : List Str) (mode : ℕ) (kind : Kind)
    (taken : Errno) :
    (∃ e, fs.create cred path mode kind taken = (.error e, fs) ∧
        (e = .noEnt → taken = .noEnt ∨ fs.locate cred false path = .error .noEnt)) ∨
      ∃ d n, fs.locate cred false path = .ok ⟨d, some n, none⟩ ∧ fs.mayWrite cred d = true ∧
        fs.create cred path mode kind taken =
          (.ok (), fs.allocate d n ⟨cred.uid, cred.gid, mode, kind⟩) := by
  unfold create
  split
  · rename_i e he
    exact Or.inl ⟨e, rfl, fun h ↦ Or.inr (by rw [he, h])⟩
  · rename_i d n hplace
    split_ifs with hwrite
    · exact Or.inr ⟨d, n, hplace, hwrite, rfl⟩
    · exact Or.inl ⟨_, rfl, fun h ↦ absurd h (by simp)⟩
  · exact Or.inl ⟨_, rfl, fun h ↦ Or.inl h⟩

/-- Opening a file for writing makes at most a new file. -/
theorem openCreate_grows (fs : Fs) (cred : Cred) (path : List Str) (mode : ℕ) :
    fs.Grows cred (fs.openCreate cred path mode).2 := by
  unfold openCreate
  split
  · exact .same
  · rename_i d n hplace
    split_ifs with hwrite
    · exact .more d n mode .file (honest_of_locate hplace n rfl) (isDir_of_mayWrite hwrite)
    · exact .same
  · exact .same
  · split
    · exact .same
    · split_ifs
      · exact .same
      · exact .same
      · exact .same
      · exact .same

/-- Removing an entry fails and does nothing, or removes what the path leads to. -/
theorem unlink_cases (fs : Fs) (cred : Cred) (path : List Str) :
    (∃ e, fs.unlink cred path = (.error e, fs)) ∨
      ∃ d n i, fs.locate cred false path = .ok ⟨d, some n, some i⟩ ∧
        fs.mayRemove cred d i = true ∧ fs.unlink cred path = (.ok (), fs.setEntry d n none) := by
  unfold unlink
  split
  · exact Or.inl ⟨_, rfl⟩
  · rename_i d n i hplace
    split_ifs with hdir hremove
    · exact Or.inl ⟨_, rfl⟩
    · exact Or.inr ⟨d, n, i, hplace, hremove, rfl⟩
    · exact Or.inl ⟨_, rfl⟩
  · exact Or.inl ⟨_, rfl⟩
  · exact Or.inl ⟨_, rfl⟩

end Effects

end Fs

end Hire.Library
