import Hire.Grpc.Socket

/-!
# The socket directory is private

The fallback path lies below a directory that everyone may write. `Layout` is what the system
promises: the root directory and `/tmp` belong to root, `/tmp` is sticky, and no directory has two
entries. `PrivateEntry` is what `prepare_socket_dir` is for: the entry of `/tmp` is a directory of
this user that grants nothing to the group and to the others. Once it is there nobody else can undo
it, and neither can they undo the socket in it (`stable_private`, `stable_bound`).

The function looks at the directory through `metadata`, which follows symbolic links, and it
forgives a failed `mkdir` when the path is a directory by then. `socket_dir_private` states that
these are the ways to go wrong: in every run in which they are not taken, the entry is private when
the listener is bound, and the path leads to this user's socket ever after. `socket_dir_taken` is a
run in which the first is taken.
-/

set_option autoImplicit false
set_option relaxedAutoImplicit false

namespace Hire.Grpc

open Hire.Library

/-! ### What the system promises -/

/-- The file system as the system sets it up: the root directory and `/tmp` are directories of root,
only root writes the first, the second is sticky, and neither has another entry. -/
structure Layout (tmp : Inode) (fs : Fs) : Prop where
  root : ∃ a, fs.attrs fs.root = some a ∧ a.kind = .dir ∧ a.owner = 0 ∧ a.mode &&& 0o022 = 0
  shared : ∃ a, fs.attrs tmp = some a ∧ a.kind = .dir ∧ a.owner = 0 ∧ a.sticky = true
  entry : fs.lookup fs.root (str "tmp") = some tmp
  alone : ∀ d n, fs.lookup d n = some tmp → d = fs.root ∧ n = str "tmp"
  top : ∀ d n, fs.lookup d n ≠ some fs.root

/-- An entry of a directory is itself a directory of a user. -/
structure OwnDir (uid : ℕ) (t : Inode) (n : Str) (fs : Fs) (d : Inode) (a : Attrs) : Prop where
  entry : fs.lookup t n = some d
  attrs : fs.attrs d = some a
  kind : a.kind = .dir
  owner : a.owner = uid

/-- The entry of a directory is itself a directory of a user. -/
def OwnEntry (uid : ℕ) (t : Inode) (n : Str) (fs : Fs) : Prop := ∃ d a, OwnDir uid t n fs d a

/-- The entry of a directory is itself a directory of a user, and grants nothing to the group and to
the others. -/
def PrivateEntry (uid : ℕ) (t : Inode) (n : Str) (fs : Fs) : Prop :=
  ∃ d a, OwnDir uid t n fs d a ∧ a.mode &&& 0o077 = 0

/-- The private directory holds a socket of the user under a name. -/
def BoundEntry (uid : ℕ) (t : Inode) (n sock : Str) (fs : Fs) : Prop :=
  ∃ d a, (OwnDir uid t n fs d a ∧ a.mode &&& 0o077 = 0) ∧
    ∃ s b, fs.lookup d sock = some s ∧ fs.attrs s = some b ∧ b.kind = .socket ∧ b.owner = uid

theorem BoundEntry.private {uid : ℕ} {t : Inode} {n sock : Str} {fs : Fs}
    (h : BoundEntry uid t n sock fs) : PrivateEntry uid t n fs := by
  obtain ⟨d, a, hprivate, -⟩ := h
  exact ⟨d, a, hprivate⟩

section Stability

variable {us them : Cred} {tmp : Inode} {n sock : Str} {fs fs' : Fs}

/-- What grants nothing to the group and the others does not let them write. -/
theorem and_022_of_and_077 {mode : ℕ} (h : mode &&& 0o077 = 0) : mode &&& 0o022 = 0 := by
  have hpart : (0o022 : ℕ) = 0o077 &&& 0o022 := by decide
  rw [hpart, ← Nat.land_assoc, h]
  exact Nat.zero_and _

theorem Layout.isDir_root (h : Layout tmp fs) : fs.IsDir fs.root := by
  obtain ⟨a, ha, hkind, -⟩ := h.root
  exact ⟨a, ha, hkind⟩

theorem Layout.isDir_tmp (h : Layout tmp fs) : fs.IsDir tmp := by
  obtain ⟨a, ha, hkind, -⟩ := h.shared
  exact ⟨a, ha, hkind⟩

theorem Layout.tmp_ne_root (h : Layout tmp fs) : tmp ≠ fs.root := by
  intro heq
  have hentry := h.entry
  rw [heq] at hentry
  exact h.top _ _ hentry

/-- Nobody but root removes an entry of the root directory. -/
theorem Layout.mayWrite_root (h : Layout tmp fs) (hthem : them.uid ≠ 0) :
    fs.mayWrite them fs.root = false := by
  obtain ⟨a, ha, -, howner, hmode⟩ := h.root
  exact Fs.mayWrite_of_private ha hthem (by rw [howner]; exact hthem.symm) hmode

/-- Another user cannot undo the layout. Assumes: they are not root. -/
theorem Layout.of_interferes (h : Layout tmp fs) (hthem : them.uid ≠ 0)
    (hop : Fs.Interferes them fs fs') : Layout tmp fs' := by
  have hwrite := h.mayWrite_root hthem
  have hnew : ∀ i, fs.IsDir i → (∀ d m, fs.lookup d m = some i → d = fs.root) → ∀ d m,
      fs'.lookup d m = some i → fs.lookup d m = some i := by
    intro i hdir honly d m hentry
    rcases hop.target d m i hentry with hold | hnotDir | ⟨e, k, hold, hremove⟩
    · exact hold
    · exact absurd hdir hnotDir
    · rw [honly e k hold] at hremove
      have hmay := Fs.mayWrite_of_mayRemove hremove
      rw [hwrite] at hmay
      exact absurd hmay (by simp)
  obtain ⟨a, ha, hkind, howner, hmode⟩ := h.root
  obtain ⟨b, hb, hkind', howner', hsticky⟩ := h.shared
  refine ⟨⟨a, ?_, hkind, howner, hmode⟩, ⟨b, ?_, hkind', howner', hsticky⟩, ?_, ?_, ?_⟩
  · rw [hop.root]
    exact hop.attrs_of_ne ha (by rw [howner]; exact hthem.symm)
  · exact hop.attrs_of_ne hb (by rw [howner']; exact hthem.symm)
  · rw [hop.root, hop.lookup_of_not_mayWrite hwrite]
    exact h.entry
  · intro d m hentry
    rw [hop.root]
    exact h.alone d m (hnew tmp h.isDir_tmp (fun d m hm ↦ (h.alone d m hm).1) d m hentry)
  · intro d m hentry
    rw [hop.root] at hentry
    refine h.top d m (hnew fs.root h.isDir_root (fun d m hm ↦ absurd hm (h.top d m)) d m hentry)

/-- Another user cannot take a directory of this user out of `/tmp`. Assumes: they are not root, and
not this user. -/
theorem OwnDir.of_interferes {d : Inode} {a : Attrs} (h : OwnDir us.uid tmp n fs d a)
    (hlayout : Layout tmp fs) (hthem : them.uid ≠ 0) (hother : us.uid ≠ them.uid)
    (hop : Fs.Interferes them fs fs') : OwnDir us.uid tmp n fs' d a := by
  obtain ⟨b, hb, -, howner, hsticky⟩ := hlayout.shared
  have hours : a.owner ≠ them.uid := by
    rw [h.owner]
    exact hother
  refine ⟨?_, hop.attrs_of_ne h.attrs hours, h.kind, h.owner⟩
  exact hop.lookup_of_not_mayRemove h.entry
    (Fs.mayRemove_of_sticky hb h.attrs hthem hsticky (by rw [howner]; exact hthem.symm) hours)

variable {umask : ℕ}

theorem stable_layout (hthem : them.uid ≠ 0) : (posix us them umask).Stable (Layout tmp) := by
  intro fs op fs' h hop
  exact h.of_interferes hthem (Fs.interferes_of_tamper hop)

theorem stable_own (hthem : them.uid ≠ 0) (hother : us.uid ≠ them.uid) :
    (posix us them umask).Stable fun fs ↦ Layout tmp fs ∧ OwnEntry us.uid tmp n fs := by
  rintro fs op fs' ⟨hlayout, d, a, hown⟩ hop
  have hinterferes := Fs.interferes_of_tamper hop
  exact ⟨hlayout.of_interferes hthem hinterferes, d, a,
    hown.of_interferes hlayout hthem hother hinterferes⟩

theorem stable_private (hthem : them.uid ≠ 0) (hother : us.uid ≠ them.uid) :
    (posix us them umask).Stable fun fs ↦ Layout tmp fs ∧ PrivateEntry us.uid tmp n fs := by
  rintro fs op fs' ⟨hlayout, d, a, hown, hmode⟩ hop
  have hinterferes := Fs.interferes_of_tamper hop
  exact ⟨hlayout.of_interferes hthem hinterferes, d, a,
    hown.of_interferes hlayout hthem hother hinterferes, hmode⟩

theorem stable_bound (hthem : them.uid ≠ 0) (hother : us.uid ≠ them.uid) :
    (posix us them umask).Stable fun fs ↦ Layout tmp fs ∧ BoundEntry us.uid tmp n sock fs := by
  rintro fs op fs' ⟨hlayout, d, a, ⟨hown, hmode⟩, s, b, hentry, hb, hkind, howner⟩ hop
  have hinterferes := Fs.interferes_of_tamper hop
  have hours : ∀ c : Attrs, c.owner = us.uid → c.owner ≠ them.uid := by
    intro c hc
    rw [hc]
    exact hother
  have hkeeps := hinterferes.lookup_of_not_mayWrite
    (Fs.mayWrite_of_private hown.attrs hthem (hours a hown.owner) (and_022_of_and_077 hmode)) sock
  refine ⟨hlayout.of_interferes hthem hinterferes, d, a,
    ⟨hown.of_interferes hlayout hthem hother hinterferes, hmode⟩, s, b, ?_,
    hinterferes.attrs_of_ne hb (hours b howner), hkind, howner⟩
  rw [hkeeps]
  exact hentry

end Stability

/-! ### What the system calls of the daemon do -/

section Steps

variable {us : Cred} {tmp d : Inode} {n sock : Str} {fs fs' : Fs} {a : Attrs} {uid : ℕ}

theorem Layout.locate_tmp (h : Layout tmp fs) (cred : Cred) (follow : Bool) (rest : List Str) :
    fs.locate cred follow (str "tmp" :: rest) = .error .acces ∨
      fs.locate cred follow (str "tmp" :: rest) =
        fs.walkWith cred follow (fs.walk cred follow 39) ⟨fs.root, some (str "tmp"), some tmp⟩
          (rest.map .name) := by
  have hstart : fs.locate cred follow (str "tmp" :: rest) =
      fs.walkWith cred follow (fs.walk cred follow 39) fs.top
        (.name (str "tmp") :: rest.map .name) := rfl
  rw [hstart]
  exact Fs.walkWith_dir (show fs.top.found = some fs.root from rfl) h.isDir_root h.entry h.isDir_tmp

/-- A path ends at a free name in `/tmp`. -/
theorem Layout.locate_free (h : Layout tmp fs) (cred : Cred) (follow : Bool)
    (hfree : fs.lookup tmp n = none) :
    fs.locate cred follow [str "tmp", n] = .error .acces ∨
      fs.locate cred follow [str "tmp", n] = .ok ⟨tmp, some n, none⟩ := by
  rcases h.locate_tmp cred follow [n] with hacces | hwalk
  · exact Or.inl hacces
  · rw [hwalk]
    exact Fs.walkWith_free rfl h.isDir_tmp hfree

/-- A path ends at an entry of `/tmp` that is not followed. -/
theorem Layout.locate_entry (h : Layout tmp fs) (cred : Cred) (follow : Bool)
    (hentry : fs.lookup tmp n = some d) (hend : follow = false ∨ ¬ fs.IsLink d) :
    fs.locate cred follow [str "tmp", n] = .error .acces ∨
      fs.locate cred follow [str "tmp", n] = .ok ⟨tmp, some n, some d⟩ := by
  rcases h.locate_tmp cred follow [n] with hacces | hwalk
  · exact Or.inl hacces
  · rw [hwalk]
    exact Fs.walkWith_entry rfl h.isDir_tmp hentry hend

theorem OwnDir.isDir (h : OwnDir uid tmp n fs d a) : fs.IsDir d := ⟨a, h.attrs, h.kind⟩

theorem OwnDir.not_link (h : OwnDir uid tmp n fs d a) : ¬ fs.IsLink d := by
  rintro ⟨b, hb, hlink⟩
  rw [← Option.some.inj (h.attrs.symm.trans hb), h.kind] at hlink
  exact absurd hlink (by decide)

theorem OwnDir.ne_root (h : OwnDir uid tmp n fs d a) (hlayout : Layout tmp fs) : d ≠ fs.root := by
  intro heq
  have hentry := h.entry
  rw [heq] at hentry
  exact hlayout.top _ _ hentry

theorem OwnDir.ne_tmp (h : OwnDir uid tmp n fs d a) (hlayout : Layout tmp fs) : d ≠ tmp := by
  intro heq
  have hentry := h.entry
  rw [heq] at hentry
  exact hlayout.tmp_ne_root (hlayout.alone _ _ hentry).1

/-- A path goes through the directory of this user. -/
theorem OwnDir.locate_below (h : OwnDir uid tmp n fs d a) (hlayout : Layout tmp fs) (cred : Cred)
    (follow : Bool) :
    fs.locate cred follow [str "tmp", n, sock] = .error .acces ∨
      fs.locate cred follow [str "tmp", n, sock] =
        fs.walkWith cred follow (fs.walk cred follow 39) ⟨tmp, some n, some d⟩ [.name sock] := by
  rcases hlayout.locate_tmp cred follow [n, sock] with hacces | hwalk
  · exact Or.inl hacces
  · rw [hwalk]
    exact Fs.walkWith_dir rfl hlayout.isDir_tmp h.entry h.isDir

/-- A path that does not follow its last component ends below the directory of this user. -/
theorem OwnDir.locate_nofollow (h : OwnDir uid tmp n fs d a) (hlayout : Layout tmp fs)
    (cred : Cred) :
    fs.locate cred false [str "tmp", n, sock] = .error .acces ∨
      fs.locate cred false [str "tmp", n, sock] = .ok ⟨d, some sock, fs.lookup d sock⟩ := by
  rcases h.locate_below hlayout cred false with hacces | hwalk
  · exact Or.inl hacces
  · rw [hwalk]
    cases hentry : fs.lookup d sock with
    | none => exact Fs.walkWith_free rfl h.isDir hentry
    | some i => exact Fs.walkWith_entry rfl h.isDir hentry (Or.inl rfl)

/-- Setting the mode of what is neither `/` nor `/tmp` keeps the layout. -/
theorem Layout.setAttrs (h : Layout tmp fs) {i : Inode} (f : Attrs → Attrs) (hroot : i ≠ fs.root)
    (htmp : i ≠ tmp) : Layout tmp (fs.setAttrs i f) := by
  obtain ⟨b, hb, hkind, howner, hmode⟩ := h.root
  obtain ⟨c, hc, hkind', howner', hsticky⟩ := h.shared
  refine ⟨⟨b, ?_, hkind, howner, hmode⟩, ⟨c, ?_, hkind', howner', hsticky⟩, h.entry, h.alone, h.top⟩
  · rw [Fs.setAttrs_root, Fs.setAttrs_attrs, if_neg hroot.symm]
    exact hb
  · rw [Fs.setAttrs_attrs, if_neg htmp.symm]
    exact hc

/-- A new inode under a free name keeps the layout. -/
theorem Layout.of_grows (h : Layout tmp fs) (hgrows : fs.Grows us fs') : Layout tmp fs' := by
  cases hgrows with
  | same => exact h
  | more e m mode kind hfree hdir =>
    obtain ⟨b, hb, hkind, howner, hmode⟩ := h.root
    obtain ⟨c, hc, hkind', howner', hsticky⟩ := h.shared
    have hlookup : ∀ i k, (fs.allocate e m ⟨us.uid, us.gid, mode, kind⟩).lookup i k =
        if i = e ∧ k = m then some fs.next else fs.lookup i k :=
      fun i k ↦ Fs.allocate_lookup hdir.lt_next
    have hold : ∀ i k j, fs.IsDir j →
        (fs.allocate e m ⟨us.uid, us.gid, mode, kind⟩).lookup i k = some j →
        fs.lookup i k = some j := by
      intro i k j hj hentry
      rw [hlookup] at hentry
      split_ifs at hentry
      · rw [← Option.some.inj hentry] at hj
        exact absurd hj.lt_next (lt_irrefl _)
      · exact hentry
    refine ⟨⟨b, Fs.allocate_attrs_of_some hb, hkind, howner, hmode⟩,
      ⟨c, Fs.allocate_attrs_of_some hc, hkind', howner', hsticky⟩, ?_, ?_, ?_⟩
    · rw [Fs.allocate_root, hlookup, if_neg]
      · exact h.entry
      · rintro ⟨rfl, rfl⟩
        rw [h.entry] at hfree
        exact absurd hfree (by simp)
    · intro i k hentry
      exact h.alone i k (hold i k tmp h.isDir_tmp hentry)
    · intro i k hentry
      exact h.top i k (hold i k fs.root h.isDir_root hentry)

theorem OwnDir.of_grows (h : OwnDir uid tmp n fs d a) (hgrows : fs.Grows us fs') :
    OwnDir uid tmp n fs' d a := by
  cases hgrows with
  | same => exact h
  | more e m mode kind hfree hdir =>
    refine ⟨?_, Fs.allocate_attrs_of_some h.attrs, h.kind, h.owner⟩
    rw [Fs.allocate_lookup hdir.lt_next, if_neg]
    · exact h.entry
    · rintro ⟨rfl, rfl⟩
      rw [h.entry] at hfree
      exact absurd hfree (by simp)

/-- Removing an entry below the directory of this user keeps the layout and the directory. -/
theorem OwnDir.unlink_below (h : OwnDir uid tmp n fs d a) (hlayout : Layout tmp fs) :
    Layout tmp (fs.setEntry d sock none) ∧ OwnDir uid tmp n (fs.setEntry d sock none) d a := by
  have hlookup : ∀ i k, (fs.setEntry d sock none).lookup i k =
      if i = d ∧ k = sock then none else fs.lookup i k :=
    fun i k ↦ Fs.setEntry_lookup h.isDir.lt_next
  have hother : ∀ i k, i ≠ d → (fs.setEntry d sock none).lookup i k = fs.lookup i k := by
    intro i k hne
    rw [hlookup, if_neg fun heq ↦ hne heq.1]
  have hold : ∀ i k j, (fs.setEntry d sock none).lookup i k = some j → fs.lookup i k = some j := by
    intro i k j hentry
    rw [hlookup] at hentry
    split_ifs at hentry
    exact hentry
  refine ⟨⟨hlayout.root, hlayout.shared, ?_, ?_, ?_⟩, ⟨?_, h.attrs, h.kind, h.owner⟩⟩
  · rw [Fs.setEntry_root, hother _ _ (h.ne_root hlayout).symm]
    exact hlayout.entry
  · exact fun i k hentry ↦ hlayout.alone i k (hold i k tmp hentry)
  · exact fun i k hentry ↦ hlayout.top i k (hold i k fs.root hentry)
  · rw [hother _ _ (h.ne_tmp hlayout).symm]
    exact h.entry

end Steps

/-! ### What the calls of the program establish -/

section Calls

variable {us : Cred} {tmp d : Inode} {n sock : Str} {fs fs' : Fs} {a : Attrs} {uid mode : ℕ}

/-- What `mkdir` is asked for grants nothing to the group and to the others under any mask. -/
theorem masked_and_077 (umask : ℕ) : masked umask 0o700 &&& 0o077 = 0 := by
  unfold masked
  rw [Nat.land_comm 0o700, Nat.land_assoc]
  exact Nat.and_zero _

/-- A path that does not follow its last component ends at an entry of `/tmp`. -/
theorem Layout.locate_nofollow (h : Layout tmp fs) (cred : Cred) (n : Str) :
    fs.locate cred false [str "tmp", n] = .error .acces ∨
      fs.locate cred false [str "tmp", n] = .ok ⟨tmp, some n, fs.lookup tmp n⟩ := by
  cases hentry : fs.lookup tmp n with
  | none => exact h.locate_free cred false hentry
  | some d => exact h.locate_entry cred false hentry (Or.inl rfl)

/-- Where `metadata` finds a directory of this user and the entry is no link, the entry is it. -/
theorem Layout.ownDir_of_stat (h : Layout tmp fs) {md : Attrs}
    (hstat : fs.stat us [str "tmp", n] = .ok md) (hkind : md.kind = .dir) (howner : md.owner = uid)
    (hlink : ∀ d, fs.lookup tmp n = some d → ¬ fs.IsLink d) : ∃ d, OwnDir uid tmp n fs d md := by
  obtain ⟨place, i, hplace, hi, hattrs⟩ := Fs.locate_of_stat hstat
  cases hentry : fs.lookup tmp n with
  | none =>
    rw [← Fs.place_eq_of_refused_or (h.locate_free us true hentry) hplace] at hi
    exact absurd hi (by simp)
  | some d =>
    have hhere := h.locate_entry us true hentry (Or.inr (hlink d hentry))
    rw [← Fs.place_eq_of_refused_or hhere hplace] at hi
    rw [← Option.some.inj hi] at hattrs
    exact ⟨d, hentry, hattrs, hkind, howner⟩

/-- Setting the mode of this user's directory to `0700` makes it private. -/
theorem OwnDir.private_of_chmod (h : OwnDir uid tmp n fs d a) (hlayout : Layout tmp fs)
    (hok : (fs.chmod us [str "tmp", n] 0o700).1 = .ok ()) :
    Layout tmp (fs.chmod us [str "tmp", n] 0o700).2 ∧
      PrivateEntry uid tmp n (fs.chmod us [str "tmp", n] 0o700).2 := by
  rcases fs.chmod_cases us [str "tmp", n] 0o700 with ⟨e, heq⟩ | ⟨place, i, b, hplace, hi, hb, heq⟩
  · rw [heq] at hok
    exact absurd hok (by simp)
  · have hhere := hlayout.locate_entry us true h.entry (Or.inr h.not_link)
    rw [← Fs.place_eq_of_refused_or hhere hplace] at hi
    rw [heq, ← Option.some.inj hi]
    refine ⟨hlayout.setAttrs _ (h.ne_root hlayout) (h.ne_tmp hlayout), d, { a with mode := 0o700 },
      ⟨h.entry, ?_, h.kind, h.owner⟩, (by decide : (0o700 : ℕ) &&& 0o077 = 0)⟩
    rw [Fs.setAttrs_attrs, if_pos rfl, h.attrs]
    rfl

/-- A `mkdir` in `/tmp` that succeeds makes a private directory of this user. Assumes: its mode
grants nothing to the group and to the others. -/
theorem Layout.private_of_mkdir (h : Layout tmp fs) (hmode : mode &&& 0o077 = 0)
    (hok : (fs.create us [str "tmp", n] mode .dir .exist).1 = .ok ()) :
    Layout tmp (fs.create us [str "tmp", n] mode .dir .exist).2 ∧
      PrivateEntry us.uid tmp n (fs.create us [str "tmp", n] mode .dir .exist).2 := by
  rcases fs.create_cases us [str "tmp", n] mode .dir .exist with
    ⟨e, heq, -⟩ | ⟨t, m, hplace, -, heq⟩
  · rw [heq] at hok
    exact absurd hok (by simp)
  · have hsame := Fs.place_eq_of_refused_or (h.locate_nofollow us n) hplace
    have ht : tmp = t := congrArg Fs.Place.dir hsame
    have hm : n = m := Option.some.inj (congrArg Fs.Place.name hsame)
    have hfree : fs.lookup tmp n = none := congrArg Fs.Place.found hsame
    rw [heq, ← ht, ← hm]
    refine ⟨h.of_grows (.more tmp n mode .dir hfree h.isDir_tmp), fs.next, _,
      ⟨?_, Fs.allocate_attrs_next, rfl, rfl⟩, hmode⟩
    rw [Fs.allocate_lookup h.isDir_tmp.lt_next, if_pos ⟨rfl, rfl⟩]

/-- A `mkdir` in `/tmp` does not fail for want of a directory above. -/
theorem Layout.mkdir_ne_noEnt (h : Layout tmp fs) :
    (fs.create us [str "tmp", n] mode .dir .exist).1 ≠ .error .noEnt := by
  rcases fs.create_cases us [str "tmp", n] mode .dir .exist with
    ⟨e, heq, hcause⟩ | ⟨t, m, -, -, heq⟩
  · rw [heq]
    intro hnoEnt
    rcases hcause (Except.error.inj hnoEnt) with hexist | hlocate
    · exact absurd hexist (by decide)
    · rcases h.locate_nofollow us n with hacces | hhere
      · rw [hacces] at hlocate
        exact absurd hlocate (by simp)
      · rw [hhere] at hlocate
        exact absurd hlocate (by simp)
  · rw [heq]
    simp

/-- Making or opening a file keeps the private directory. -/
theorem PrivateEntry.of_grows (h : PrivateEntry uid tmp n fs) (hgrows : fs.Grows us fs') :
    PrivateEntry uid tmp n fs' := by
  obtain ⟨d, a, hown, hmode⟩ := h
  exact ⟨d, a, hown.of_grows hgrows, hmode⟩

/-- Removing the stale socket keeps the private directory. -/
theorem PrivateEntry.of_unlink (h : PrivateEntry uid tmp n fs) (hlayout : Layout tmp fs)
    (us : Cred) (sock : Str) :
    Layout tmp (fs.unlink us [str "tmp", n, sock]).2 ∧
      PrivateEntry uid tmp n (fs.unlink us [str "tmp", n, sock]).2 := by
  obtain ⟨d, a, hown, hmode⟩ := h
  rcases fs.unlink_cases us [str "tmp", n, sock] with ⟨e, heq⟩ | ⟨t, m, i, hplace, -, heq⟩
  · rw [heq]
    exact ⟨hlayout, d, a, hown, hmode⟩
  · have hsame := Fs.place_eq_of_refused_or (hown.locate_nofollow hlayout us) hplace
    have ht : d = t := congrArg Fs.Place.dir hsame
    have hm : sock = m := Option.some.inj (congrArg Fs.Place.name hsame)
    rw [heq, ← ht, ← hm]
    obtain ⟨hkept, hdir⟩ := hown.unlink_below hlayout
    exact ⟨hkept, d, a, hdir, hmode⟩

/-- A socket that was bound below the private directory is this user's. -/
theorem PrivateEntry.bound_of_create (h : PrivateEntry us.uid tmp n fs) (hlayout : Layout tmp fs)
    (hok : (fs.create us [str "tmp", n, sock] mode .socket .addrInUse).1 = .ok ()) :
    Layout tmp (fs.create us [str "tmp", n, sock] mode .socket .addrInUse).2 ∧
      BoundEntry us.uid tmp n sock
        (fs.create us [str "tmp", n, sock] mode .socket .addrInUse).2 := by
  obtain ⟨d, a, hown, hmode⟩ := h
  rcases fs.create_cases us [str "tmp", n, sock] mode .socket .addrInUse with
    ⟨e, heq, -⟩ | ⟨t, m, hplace, -, heq⟩
  · rw [heq] at hok
    exact absurd hok (by simp)
  · have hsame := Fs.place_eq_of_refused_or (hown.locate_nofollow hlayout us) hplace
    have ht : d = t := congrArg Fs.Place.dir hsame
    have hm : sock = m := Option.some.inj (congrArg Fs.Place.name hsame)
    have hfree : fs.lookup d sock = none := congrArg Fs.Place.found hsame
    rw [heq, ← ht, ← hm]
    have hgrows : fs.Grows us _ := .more d sock mode .socket hfree hown.isDir
    refine ⟨hlayout.of_grows hgrows, d, a, ⟨hown.of_grows hgrows, hmode⟩, fs.next, _, ?_,
      Fs.allocate_attrs_next, rfl, rfl⟩
    rw [Fs.allocate_lookup hown.isDir.lt_next, if_pos ⟨rfl, rfl⟩]

/-- Where a bound socket is, the path leads to it. -/
theorem OwnDir.locate_socket (h : OwnDir uid tmp n fs d a) (hlayout : Layout tmp fs) {s : Inode}
    {b : Attrs} (hentry : fs.lookup d sock = some s) (hb : fs.attrs s = some b)
    (hkind : b.kind = .socket) (cred : Cred) :
    fs.locate cred true [str "tmp", n, sock] = .error .acces ∨
      fs.locate cred true [str "tmp", n, sock] = .ok ⟨d, some sock, some s⟩ := by
  rcases h.locate_below hlayout cred true with hacces | hwalk
  · exact Or.inl hacces
  · rw [hwalk]
    refine Fs.walkWith_entry rfl h.isDir hentry (Or.inr ?_)
    rintro ⟨c, hc, hlink⟩
    rw [← Option.some.inj (hb.symm.trans hc), hkind] at hlink
    exact absurd hlink (by decide)

/-- Setting the mode of the bound socket keeps it. -/
theorem BoundEntry.of_chmod (h : BoundEntry uid tmp n sock fs) (hlayout : Layout tmp fs) :
    Layout tmp (fs.chmod us [str "tmp", n, sock] mode).2 ∧
      BoundEntry uid tmp n sock (fs.chmod us [str "tmp", n, sock] mode).2 := by
  obtain ⟨d, a, ⟨hown, hmode⟩, s, b, hentry, hb, hkind, howner⟩ := h
  rcases fs.chmod_cases us [str "tmp", n, sock] mode with
    ⟨e, heq⟩ | ⟨place, i, c, hplace, hi, -, heq⟩
  · rw [heq]
    exact ⟨hlayout, d, a, ⟨hown, hmode⟩, s, b, hentry, hb, hkind, howner⟩
  · have hhere := hown.locate_socket hlayout hentry hb hkind us
    rw [← Fs.place_eq_of_refused_or hhere hplace] at hi
    -- The socket is none of the directories on the way.
    have hne : ∀ e, fs.IsDir e → s ≠ e := by
      rintro e ⟨c, hc, hdir⟩ rfl
      rw [← Option.some.inj (hb.symm.trans hc), hkind] at hdir
      exact absurd hdir (by simp)
    rw [heq, ← Option.some.inj hi]
    refine ⟨hlayout.setAttrs _ (hne _ hlayout.isDir_root) (hne _ hlayout.isDir_tmp), d, a,
      ⟨⟨hown.entry, ?_, hown.kind, hown.owner⟩, hmode⟩, s, { b with mode }, hentry, ?_, hkind,
      howner⟩
    · rw [Fs.setAttrs_attrs, if_neg (hne _ hown.isDir).symm]
      exact hown.attrs
    · rw [Fs.setAttrs_attrs, if_pos rfl, hb]
      rfl

/-- Whoever follows the path to the bound socket finds a socket of this user. -/
theorem BoundEntry.socket_of_locate (h : BoundEntry uid tmp n sock fs) (hlayout : Layout tmp fs)
    {cred : Cred} {place : Fs.Place}
    (hplace : fs.locate cred true [str "tmp", n, sock] = .ok place) :
    ∃ s b, place.found = some s ∧ fs.attrs s = some b ∧ b.kind = .socket ∧ b.owner = uid := by
  obtain ⟨d, a, ⟨hown, -⟩, s, b, hentry, hb, hkind, howner⟩ := h
  have hhere := hown.locate_socket hlayout hentry hb hkind cred
  rw [← Fs.place_eq_of_refused_or hhere hplace]
  exact ⟨s, b, rfl, hb, hkind, howner⟩

end Calls

/-! ### The program under interference -/

section Interference

variable {us them : Cred} {umask : ℕ} {tmp : Inode} {fs : Fs}

/-- The socket directory is what the calls take it for. Where `metadata` finds a directory that is
accepted, it is this user's, and the entry of `/tmp` is no symbolic link to it. Where `mkdir`
failed, the path is not a directory. -/
def Expected (us : Cred) (tmp : Inode) : Syscall → Fs → Prop
  | .metadata path, fs => ∀ md, fs.stat us path = .ok md → md.kind = .dir →
      acceptsDir us.uid md = true →
      md.owner = us.uid ∧ ∀ d, fs.lookup tmp (hireDir us.uid) = some d → ¬ fs.IsLink d
  | .isDir path, fs => ∀ md, fs.stat us path = .ok md → md.kind ≠ .dir
  | _, _ => True

/-- A failed call ends the program, and a condition that the call establishes is carried on. -/
theorem wp_orFail {P : Fs → Prop} {wrap : Errno → ServeError} {result : Except Errno Unit}
    (hP : (posix us them umask).Stable P) (hok : result = .ok () → P fs) :
    Program.wp (posix us them umask) (Expected us tmp) (fun _ fs ↦ P fs)
      (orFail wrap result) fs := by
  match result, hok with
  | .error e, _ => trivial
  | .ok (), hok => exact Program.wp_ret hP (hok rfl) fun _ h ↦ h

/-- A failed `mkdir` is not forgiven. -/
theorem wp_forgive {Q : Unit → Fs → Prop} {wrap : Errno → ServeError} {path : List Str}
    {e : Errno} :
    Program.wp (posix us them umask) (Expected us tmp) Q (forgive wrap path e) fs := by
  have htrue : (posix us them umask).Stable fun _ ↦ True := fun _ _ _ _ _ ↦ trivial
  refine Program.wp_perform htrue trivial fun fs _ hexpected oracle ↦ ?_
  have hno : ((posix us them umask).serve (.isDir path) oracle fs).1 = false := by
    show (fs.stat us path).toOption.any (fun a ↦ decide (a.kind = .dir)) = false
    cases hstat : fs.stat us path with
    | error e => rfl
    | ok md => exact decide_eq_false (hexpected md hstat)
  rw [hno]
  trivial

/-- After `mkdir` in `/tmp` the directory is private, or the program has failed. -/
theorem wp_createDirAll (hthem : them.uid ≠ 0) (hother : us.uid ≠ them.uid) (n : Str)
    (wrap : Errno → ServeError) (hlayout : Layout tmp fs) :
    Program.wp (posix us them umask) (Expected us tmp)
      (fun _ fs ↦ Layout tmp fs ∧ PrivateEntry us.uid tmp n fs)
      (createDirAll wrap 0o700 [n, str "tmp"]) fs := by
  refine Program.wp_perform (stable_layout hthem) hlayout fun fs hlayout _ oracle ↦ ?_
  have hserve : (posix us them umask).serve (.mkdir [n, str "tmp"].reverse 0o700) oracle fs =
      fs.create us [str "tmp", n] (masked umask 0o700) .dir .exist := rfl
  rw [hserve]
  split
  · rename_i hok
    exact Program.wp_ret (stable_private hthem hother)
      (hlayout.private_of_mkdir (masked_and_077 umask) hok) fun _ h ↦ h
  · rename_i hnoEnt
    exact absurd hnoEnt hlayout.mkdir_ne_noEnt
  · exact wp_forgive

/-- After the socket's parent directory was prepared it is private, or the program has failed. -/
theorem wp_prepareSocketDir (hthem : them.uid ≠ 0) (hother : us.uid ≠ them.uid)
    (hlayout : Layout tmp fs) :
    Program.wp (posix us them umask) (Expected us tmp)
      (fun _ fs ↦ Layout tmp fs ∧ PrivateEntry us.uid tmp (hireDir us.uid) fs)
      (prepareSocketDir us.uid [str "tmp", hireDir us.uid]) fs := by
  have hstable : (posix us them umask).Stable fun fs ↦
      Layout tmp fs ∧ PrivateEntry us.uid tmp (hireDir us.uid) fs := stable_private hthem hother
  refine Program.wp_perform (stable_layout hthem) hlayout fun fs hlayout hexpected oracle ↦ ?_
  have hserve : (posix us them umask).serve (.metadata [str "tmp", hireDir us.uid]) oracle fs =
      (fs.stat us [str "tmp", hireDir us.uid], fs) := rfl
  rw [hserve]
  split
  · rename_i md hstat
    have hdirs : md.kind = .dir → acceptsDir us.uid md = true →
        ∃ d, OwnDir us.uid tmp (hireDir us.uid) fs d md := by
      intro hkind haccepts
      obtain ⟨howner, hlink⟩ := hexpected md hstat hkind haccepts
      exact hlayout.ownDir_of_stat hstat hkind howner hlink
    split_ifs with hkind howner hmode hsticky
    · trivial
    · -- The mode grants something to others, and is set before anything is put there.
      obtain ⟨d, hown⟩ := hdirs (not_not.mp hkind) (by simp [acceptsDir, howner])
      refine Program.wp_perform (stable_own hthem hother) ⟨hlayout, d, md, hown⟩ ?_
      rintro fs ⟨hlayout, d, a, hown⟩ - oracle
      exact wp_orFail hstable fun hok ↦ hown.private_of_chmod hlayout hok
    · obtain ⟨d, hown⟩ := hdirs (not_not.mp hkind) (by simp [acceptsDir, howner])
      exact Program.wp_ret hstable ⟨hlayout, d, md, hown, not_not.mp hmode⟩ fun _ h ↦ h
    · trivial
    · have haccepts : acceptsDir us.uid md = true := by
        rw [acceptsDir, Bool.or_eq_true]
        right
        rwa [Bool.not_eq_true, Bool.not_eq_false'] at hsticky
      exact absurd (hexpected md hstat (not_not.mp hkind) haccepts).1 howner
  · exact wp_createDirAll hthem hother _ _ hlayout
  · trivial

/-- The lock keeps the private directory. -/
theorem wp_acquireLock (hthem : them.uid ≠ 0) (hother : us.uid ≠ them.uid) {n sock : Str}
    (hfs : Layout tmp fs ∧ PrivateEntry us.uid tmp n fs) :
    Program.wp (posix us them umask) (Expected us tmp)
      (fun _ fs ↦ Layout tmp fs ∧ PrivateEntry us.uid tmp n fs)
      (acquireLock [str "tmp", n, sock]) fs := by
  have hstable : (posix us them umask).Stable fun fs ↦
      Layout tmp fs ∧ PrivateEntry us.uid tmp n fs := stable_private hthem hother
  refine Program.wp_perform hstable hfs fun fs hfs _ _ ↦ ?_
  have hgrows := fs.openCreate_grows us (lockPath [str "tmp", n, sock]) (masked umask 0o600)
  have hkept := And.intro (hfs.1.of_grows hgrows) (hfs.2.of_grows hgrows)
  refine Program.wp_bind (wp_orFail hstable fun _ ↦ hkept) fun _ fs hfs ↦ ?_
  refine Program.wp_perform hstable hfs fun fs hfs _ oracle ↦ ?_
  have hserve : (posix us them umask).serve .flock oracle fs = (oracle, fs) := rfl
  rw [hserve]
  split
  · exact Program.wp_ret hstable hfs fun _ h ↦ h
  · trivial
  · trivial

/-- Binding the socket in the private directory leaves a socket of this user there. -/
theorem wp_bind_socket (hthem : them.uid ≠ 0) (hother : us.uid ≠ them.uid)
    (hfs : Layout tmp fs ∧ PrivateEntry us.uid tmp (hireDir us.uid) fs) :
    Program.wp (posix us them umask) (Expected us tmp)
      (fun _ fs ↦ Layout tmp fs ∧
        BoundEntry us.uid tmp (hireDir us.uid) (str "workload.sock") fs)
      (do
        orFail (.bind (socketUnder none us.uid)) (← sys (.bind (socketUnder none us.uid)))
        orFail (.permissions (socketUnder none us.uid))
          (← sys (.setPermissions (socketUnder none us.uid) 0o600))) fs := by
  have hbound : (posix us them umask).Stable fun fs ↦
      Layout tmp fs ∧ BoundEntry us.uid tmp (hireDir us.uid) (str "workload.sock") fs :=
    stable_bound hthem hother
  refine Program.wp_perform (stable_private hthem hother) hfs fun fs hfs _ _ ↦ ?_
  refine Program.wp_bind (wp_orFail hbound fun hok ↦ hfs.2.bound_of_create hfs.1 hok) ?_
  intro _ fs hfs
  refine Program.wp_perform hbound hfs fun fs hfs _ _ ↦ ?_
  exact wp_orFail hbound fun _ ↦ hfs.2.of_chmod hfs.1

/-- When the listener is bound, the private directory holds a socket of this user. -/
theorem wp_bindListener (hthem : them.uid ≠ 0) (hother : us.uid ≠ them.uid)
    (hlayout : Layout tmp fs) :
    Program.wp (posix us them umask) (Expected us tmp)
      (fun _ fs ↦ Layout tmp fs ∧
        BoundEntry us.uid tmp (hireDir us.uid) (str "workload.sock") fs)
      (bindListener us.uid (socketUnder none us.uid)) fs := by
  refine Program.wp_bind (wp_prepareSocketDir hthem hother hlayout) fun _ fs hfs ↦ ?_
  refine Program.wp_bind (wp_acquireLock hthem hother hfs) fun _ fs hfs ↦ ?_
  refine Program.wp_perform (stable_private hthem hother) hfs fun fs hfs _ oracle ↦ ?_
  -- Whatever became of a stale socket, the directory is still private.
  have hkept := hfs.2.of_unlink hfs.1 us (str "workload.sock")
  split
  · exact wp_bind_socket hthem hother hkept
  · exact wp_bind_socket hthem hother hkept
  · trivial

/-! ### Every run -/

/-- The entry of `/tmp` on the socket path is a private directory of this user, and whoever follows
the path is led to a socket of this user. -/
structure Controlled (us : Cred) (tmp : Inode) (fs : Fs) : Prop where
  entry : PrivateEntry us.uid tmp (hireDir us.uid) fs
  socket : ∀ cred place, fs.locate cred true (socketUnder none us.uid) = .ok place →
    ∃ s a, place.found = some s ∧ fs.attrs s = some a ∧ a.kind = .socket ∧ a.owner = us.uid

/-- Whatever another user does before, between and after the calls, in every run in which the socket
directory is what the calls take it for, the socket path is under this user's control from the
moment the listener is bound. Assumes: the other user is neither root nor this user, and the layout
of the system. -/
theorem socket_dir_private (hthem : them.uid ≠ 0) (hother : us.uid ≠ them.uid)
    (hlayout : Layout tmp fs) {moves : List (Move (Except Errno Unit) Tamper)}
    {transitions : List (Transition (Config Syscall.Answer ServeError Unit Fs)
      (Move (Except Errno Unit) Tamper))}
    (hrun : run (posix us them umask).step
      ⟨fs, bindListener us.uid (socketUnder none us.uid)⟩ moves = some transitions)
    (hexpected : ∀ t ∈ transitions, Kernel.Guarded (Expected us tmp) t.source t.label) :
    ∀ cfg ∈ visited ⟨fs, bindListener us.uid (socketUnder none us.uid)⟩ transitions,
      cfg.program = .ret () → Controlled us tmp cfg.state := by
  intro cfg hcfg hret
  obtain ⟨hkept, hbound⟩ :=
    Program.wp_run (wp_bindListener hthem hother hlayout) hrun hexpected cfg hcfg () hret
  exact ⟨hbound.private, fun _ _ hplace ↦ hbound.socket_of_locate hkept hplace⟩

end Interference

/-! ### Two runs -/

section Runs

instance (us : Cred) (tmp : Inode) : ∀ c fs, Decidable (Expected us tmp c fs)
  | .metadata path, fs =>
    match h : fs.stat us path with
    | .ok md =>
      decidable_of_iff (md.kind = .dir → acceptsDir us.uid md = true → md.owner = us.uid ∧
          ∀ d ∈ fs.lookup tmp (hireDir us.uid), ¬ fs.IsLink d)
        ⟨fun hmd _ heq ↦ Except.ok.inj (h.symm.trans heq) ▸ hmd, fun hall ↦ hall md h⟩
    | .error _ => isTrue fun _ heq ↦ absurd (h.symm.trans heq) (by simp)
  | .isDir path, fs =>
    match h : fs.stat us path with
    | .ok md =>
      decidable_of_iff (md.kind ≠ .dir)
        ⟨fun hmd _ heq ↦ Except.ok.inj (h.symm.trans heq) ▸ hmd, fun hall ↦ hall md h⟩
    | .error _ => isTrue fun _ heq ↦ absurd (h.symm.trans heq) (by simp)
  | .setPermissions _ _, _ => isTrue trivial
  | .mkdir _ _, _ => isTrue trivial
  | .openCreate _ _, _ => isTrue trivial
  | .flock, _ => isTrue trivial
  | .removeFile _, _ => isTrue trivial
  | .bind _, _ => isTrue trivial

/-- A file system with `/tmp` and a home directory of user 1000. -/
def freshSystem : Fs where
  root := 0
  next := 3
  attrs
    | 0 => some ⟨0, 0, 0o755, .dir⟩
    | 1 => some ⟨0, 0, 0o1777, .dir⟩
    | 2 => some ⟨1000, 1000, 0o700, .dir⟩
    | _ => none
  entries
    | 0 => ((∅ : AList fun _ : Str ↦ Inode).insert (str "home") 2).insert (str "tmp") 1
    | _ => ∅
  parent _ := 0
  unused
    | 0, h | 1, h | 2, h => absurd h (by decide)
    | _ + 3, _ => ⟨rfl, rfl⟩

/-- The user the daemon runs as. -/
def daemonUser : Cred := ⟨1000, 1000, fun g ↦ decide (g = 1000)⟩

/-- Another user. -/
def otherUser : Cred := ⟨1001, 1001, fun g ↦ decide (g = 1001)⟩

theorem freshSystem_lookup {d i : Inode} {n : Str} (h : freshSystem.lookup d n = some i) :
    d = 0 ∧ (n = str "tmp" ∧ i = 1 ∨ n = str "home" ∧ i = 2) := by
  match d with
  | 0 =>
    refine ⟨rfl, ?_⟩
    by_cases htmp : n = str "tmp"
    · have hfound : freshSystem.lookup 0 (str "tmp") = some 1 := by with_unfolding_all decide
      rw [htmp, hfound] at h
      exact Or.inl ⟨htmp, (Option.some.inj h).symm⟩
    · by_cases hhome : n = str "home"
      · have hfound : freshSystem.lookup 0 (str "home") = some 2 := by with_unfolding_all decide
        rw [hhome, hfound] at h
        exact Or.inr ⟨hhome, (Option.some.inj h).symm⟩
      · have hnone : freshSystem.lookup 0 n = none := by
          show AList.lookup n ((AList.insert _ 2 ∅).insert _ 1) = none
          rw [AList.lookup_insert_ne htmp, AList.lookup_insert_ne hhome]
          rfl
        rw [hnone] at h
        exact absurd h (by simp)
  | d + 1 => exact absurd h (by simp [Fs.lookup, freshSystem])

theorem layout_freshSystem : Layout 1 freshSystem := by
  refine ⟨⟨_, rfl, rfl, rfl, by decide⟩, ⟨_, rfl, rfl, rfl, by decide⟩, ?_, ?_, ?_⟩
  · with_unfolding_all decide
  · intro d n h
    obtain ⟨hd, ⟨hn, -⟩ | ⟨-, hi⟩⟩ := freshSystem_lookup h
    · exact ⟨hd, hn⟩
    · exact absurd hi (by decide)
  · intro d n h
    obtain ⟨-, ⟨-, hi⟩ | ⟨-, hi⟩⟩ := freshSystem_lookup h
    · exact absurd hi (by decide)
    · exact absurd hi (by decide)

/-- The daemon makes its seven calls, and the other user has a directory of their own in `/tmp`
meanwhile. -/
def undisturbed : List (Move (Except Errno Unit) Tamper) :=
  .other (.create 1 (str "theirs") 0o777 .dir) :: List.replicate 7 (.own (.ok ())) ++
    [.other (.unlink 1 (str "theirs"))]

theorem socket_dir_private_undisturbed : ∃ transitions,
    run (posix daemonUser otherUser 0o022).step
      ⟨freshSystem, bindListener daemonUser.uid (socketUnder none daemonUser.uid)⟩ undisturbed =
        some transitions ∧
    (∃ t ∈ transitions, t.target.program.returned = some ()) ∧
    ∀ cfg ∈ visited ⟨freshSystem, bindListener daemonUser.uid (socketUnder none daemonUser.uid)⟩
      transitions, cfg.program = .ret () → Controlled daemonUser 1 cfg.state := by
  have hruns : ∃ transitions ∈ run (posix daemonUser otherUser 0o022).step
      ⟨freshSystem, bindListener daemonUser.uid (socketUnder none daemonUser.uid)⟩ undisturbed,
      (∃ t ∈ transitions, t.target.program.returned = some ()) ∧
      ∀ t ∈ transitions, Kernel.Guarded (Expected daemonUser 1) t.source t.label := by
    with_unfolding_all decide
  obtain ⟨transitions, hrun, hreturned, hexpected⟩ := hruns
  exact ⟨transitions, hrun, hreturned,
    socket_dir_private (by decide) (by decide) layout_freshSystem hrun hexpected⟩

/-- The other user puts a symbolic link to a directory of user 1000 where the socket directory goes,
lets the daemon make its six calls, and puts a directory and a socket of their own there. -/
def takeover : List (Move (Except Errno Unit) Tamper) :=
  .other (.create 1 (hireDir 1000) 0o777 (.link true [.name (str "home")])) ::
    List.replicate 6 (.own (.ok ())) ++
    [.other (.unlink 1 (hireDir 1000)), .other (.create 1 (hireDir 1000) 0o755 .dir),
      .other (.create 6 (str "workload.sock") 0o777 .socket)]

/-- Not every run leaves the socket path under this user's control: `metadata` follows the link of
another user, who then takes it away. -/
theorem socket_dir_taken : ¬ ∀ (us them : Cred) (umask : ℕ) (tmp : Inode) (fs : Fs)
    (moves : List (Move (Except Errno Unit) Tamper))
    (transitions : List (Transition (Config Syscall.Answer ServeError Unit Fs)
      (Move (Except Errno Unit) Tamper))),
    them.uid ≠ 0 → us.uid ≠ them.uid → Layout tmp fs →
    run (posix us them umask).step ⟨fs, bindListener us.uid (socketUnder none us.uid)⟩ moves =
      some transitions →
    ∀ cfg ∈ visited ⟨fs, bindListener us.uid (socketUnder none us.uid)⟩ transitions,
      cfg.program = .ret () → Controlled us tmp cfg.state := by
  intro h
  have htaken : ∃ transitions ∈ run (posix daemonUser otherUser 0o022).step
      ⟨freshSystem, bindListener daemonUser.uid (socketUnder none daemonUser.uid)⟩ takeover,
      ∃ t ∈ transitions, t.target.program.returned = some () ∧
        t.target.state.stat daemonUser (socketUnder none daemonUser.uid) =
          .ok ⟨1001, 1001, 0o777, .socket⟩ := by
    with_unfolding_all decide
  obtain ⟨transitions, hrun, t, ht, hreturned, hstat⟩ := htaken
  have hcontrolled := h daemonUser otherUser 0o022 1 freshSystem takeover transitions (by decide)
    (by decide) layout_freshSystem hrun t.target (List.mem_cons_of_mem _ (List.mem_map_of_mem ht))
    (Program.eq_ret_of_returned hreturned)
  obtain ⟨place, i, hplace, hi, hattrs⟩ := Fs.locate_of_stat hstat
  obtain ⟨s, a, hs, ha, -, howner⟩ := hcontrolled.socket daemonUser place hplace
  rw [← Option.some.inj (hi.symm.trans hs), hattrs] at ha
  rw [← Option.some.inj ha] at howner
  exact absurd howner (by decide)

end Runs

end Hire.Grpc
