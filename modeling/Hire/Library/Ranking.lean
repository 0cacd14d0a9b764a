import Mathlib.Data.List.MinMax
import Mathlib.Data.List.Sort
import Mathlib.Data.List.Forall2
import Mathlib.Order.Bounds.Basic

/-!
# Ranking a list and keeping the first of each key

`sortBest` orders a list by decreasing rank and keeps the given order among equals. `retainNew`
drops every element whose key was seen before. The two in sequence, `bestPerKey`, keep one element
of each key, and `mem_bestPerKey_iff` names it: the first of those with the highest rank.

`isGreatest_foldl` is about a fold that keeps the larger of two elements under a rank: the rank it
ends with is the greatest there was. `nodup_map_bestPerKey` says that no key is left twice.
`forall₂_bestPerKey` is the relational form: two lists that agree on ranks and on which keys
coincide, element by element, are ranked and thinned out in the same way.

For the order among equals every element carries a place, and the places increase along the list.
`Outranks` compares by rank and then by place; what is left is strictly ordered by it
(`pairwise_outranks_bestPerKey`), and whatever was dropped was outranked by an element of its key
(`exists_outranks_of_mem`).

Nothing here names a particular program.
-/

set_option autoImplicit false
set_option relaxedAutoImplicit false

namespace Hire.Library

variable {α β κ κ' ρ : Type*} [DecidableEq κ] [DecidableEq κ'] [LinearOrder ρ]

/-- The list by decreasing rank, equals in the given order. -/
def sortBest (rank : α → ρ) (l : List α) : List α := l.insertionSort fun a b ↦ rank b ≤ rank a

/-- The list without the elements whose key was seen, in `seen` or earlier in the list. -/
def retainNew (key : α → κ) : List κ → List α → List α
  | _, [] => []
  | seen, a :: rest =>
    if key a ∈ seen then retainNew key seen rest else a :: retainNew key (key a :: seen) rest

/-- One element of each key, by decreasing rank. -/
def bestPerKey (key : α → κ) (rank : α → ρ) (l : List α) : List α :=
  retainNew key [] (sortBest rank l)

/-! ### Keeping the greatest -/

/-- A fold whose step keeps the larger of two ranks ends with the greatest rank of the list.
Assumes: the rank of a step is the larger of the two. -/
theorem isGreatest_foldl {op : α → α → α} {rank : α → ρ}
    (hop : ∀ a b, rank (op a b) = max (rank a) (rank b)) (first : α) (rest : List α) :
    IsGreatest {r | ∃ a ∈ first :: rest, rank a = r} (rank (rest.foldl op first)) := by
  induction rest generalizing first with
  | nil =>
    refine ⟨⟨first, List.mem_cons_self, rfl⟩, ?_⟩
    rintro r ⟨a, ha, rfl⟩
    rw [List.mem_singleton.mp ha]
    exact le_rfl
  | cons next rest ih =>
    obtain ⟨⟨best, hbest, heq⟩, hupper⟩ := ih (op first next)
    have hstep := hupper ⟨op first next, List.mem_cons_self, rfl⟩
    rw [hop, max_le_iff] at hstep
    refine ⟨?_, ?_⟩
    · rw [List.foldl_cons, ← heq]
      rcases List.mem_cons.mp hbest with rfl | hrest
      · rcases max_choice (rank first) (rank next) with hmax | hmax
        · exact ⟨first, List.mem_cons_self, by rw [hop, hmax]⟩
        · exact ⟨next, by simp, by rw [hop, hmax]⟩
      · exact ⟨best, by simp [hrest], rfl⟩
    · rintro r ⟨a, ha, rfl⟩
      simp only [List.mem_cons] at ha
      rcases ha with rfl | rfl | hrest
      · exact hstep.1
      · exact hstep.2
      · exact hupper ⟨a, List.mem_cons_of_mem _ hrest, rfl⟩

/-! ### Who survives -/

/-- Decreasing rank is transitive and total, which is what sorting needs. -/
theorem pairwise_sortBest (rank : α → ρ) (l : List α) :
    (sortBest rank l).Pairwise fun a b ↦ rank b ≤ rank a := by
  have : IsTrans α fun a b ↦ rank b ≤ rank a := ⟨fun _ _ _ hab hbc ↦ hbc.trans hab⟩
  have : Std.Total fun a b : α ↦ rank b ≤ rank a := ⟨fun a b ↦ le_total (rank b) (rank a)⟩
  exact List.pairwise_insertionSort _ l

/-- An element inserted in rank order is found first among those with a property exactly when no
element of higher rank has it. Assumes: the list is in rank order. -/
theorem find?_orderedInsert (rank : α → ρ) (p : α → Bool) (a : α) {l : List α}
    (hl : l.Pairwise fun a b ↦ rank b ≤ rank a) :
    (l.orderedInsert (fun a b ↦ rank b ≤ rank a) a).find? p =
      if p a then
        (l.find? p).elim (some a) fun m ↦ if rank a < rank m then some m else some a
      else l.find? p := by
  induction l with
  | nil =>
    by_cases hp : p a <;> simp [hp]
  | cons b rest ih =>
    obtain ⟨hb, hrest⟩ := List.pairwise_cons.mp hl
    by_cases hab : rank b ≤ rank a
    · rw [List.orderedInsert_cons_of_le _ rest hab, List.find?_cons]
      by_cases hp : p a
      · rw [hp, if_pos rfl]
        cases hfind : (b :: rest).find? p with
        | none => rfl
        | some m =>
          have hm : rank m ≤ rank b := by
            rcases List.mem_cons.mp (List.mem_of_find?_eq_some hfind) with rfl | hm
            · exact le_rfl
            · exact hb m hm
          simp [not_lt.mpr (hm.trans hab)]
      · simp [hp]
    · rw [List.orderedInsert_of_not_le _ rest hab, List.find?_cons, List.find?_cons]
      by_cases hp : p b
      · by_cases hpa : p a <;> simp [hp, hpa, not_le.mp hab]
      · simp only [hp, ih hrest]

/-- The first element with a property in rank order is the first of those with the highest rank. -/
theorem find?_sortBest (rank : α → ρ) (p : α → Bool) (l : List α) :
    (sortBest rank l).find? p = (l.filter p).argmax rank := by
  induction l with
  | nil => rfl
  | cons a rest ih =>
    have hsorted := pairwise_sortBest rank rest
    unfold sortBest at ih hsorted ⊢
    rw [List.insertionSort_cons, find?_orderedInsert rank p a hsorted, ih]
    by_cases hp : p a
    · rw [if_pos hp, List.filter_cons_of_pos hp, List.argmax_cons]
      cases (rest.filter p).argmax rank <;> rfl
    · rw [if_neg hp, List.filter_cons_of_neg hp]

/-- An element is retained exactly when its key was not seen and it is the first of its key. -/
theorem mem_retainNew_iff (key : α → κ) {seen : List κ} {l : List α} {a : α} :
    a ∈ retainNew key seen l ↔
      key a ∉ seen ∧ l.find? (fun b ↦ decide (key b = key a)) = some a := by
  induction l generalizing seen with
  | nil => simp [retainNew]
  | cons b rest ih =>
    unfold retainNew
    rw [List.find?_cons]
    by_cases hseen : key b ∈ seen
    · rw [if_pos hseen, ih]
      by_cases hkey : key b = key a
      · simp [← hkey, hseen]
      · simp [hkey]
    · rw [if_neg hseen, List.mem_cons, ih, List.mem_cons, not_or]
      by_cases hkey : key b = key a
      · simp only [hkey, decide_true, Option.some.injEq, not_true_eq_false, false_and, or_false]
        rw [hkey] at hseen
        exact ⟨fun h ↦ ⟨hseen, h.symm⟩, fun h ↦ h.2.symm⟩
      · have hne : a ≠ b := fun h ↦ hkey (h ▸ rfl)
        have hkey' : key a ≠ key b := fun h ↦ hkey h.symm
        simp [hkey, hne, hkey']

/-- What is left of a key is the first of its elements with the highest rank. -/
theorem mem_bestPerKey_iff (key : α → κ) (rank : α → ρ) {l : List α} {a : α} :
    a ∈ bestPerKey key rank l ↔
      (l.filter fun b ↦ decide (key b = key a)).argmax rank = some a := by
  unfold bestPerKey
  rw [mem_retainNew_iff, find?_sortBest]
  simp

/-- Nothing is invented: what is left was there. -/
theorem mem_of_mem_bestPerKey {key : α → κ} {rank : α → ρ} {l : List α} {a : α}
    (ha : a ∈ bestPerKey key rank l) : a ∈ l :=
  (List.mem_filter.mp (List.argmax_mem ((mem_bestPerKey_iff key rank).mp ha))).1

/-- No key is left twice. -/
theorem nodup_map_retainNew (key : α → κ) (seen : List κ) (l : List α) :
    ((retainNew key seen l).map key).Nodup := by
  induction l generalizing seen with
  | nil => exact List.nodup_nil
  | cons a rest ih =>
    unfold retainNew
    split_ifs with hseen
    · exact ih seen
    · rw [List.map_cons, List.nodup_cons]
      refine ⟨?_, ih _⟩
      rintro hmem
      obtain ⟨b, hb, hkey⟩ := List.mem_map.mp hmem
      exact ((mem_retainNew_iff key).mp hb).1 (hkey ▸ List.mem_cons_self)

theorem nodup_map_bestPerKey (key : α → κ) (rank : α → ρ) (l : List α) :
    ((bestPerKey key rank l).map key).Nodup :=
  nodup_map_retainNew key [] (sortBest rank l)

/-- The first match of a list that is ordered by a relation is any given match, or comes before it.
-/
theorem find?_of_pairwise {R : α → α → Prop} {l : List α} (hl : l.Pairwise R) {p : α → Bool}
    {a first : α} (ha : a ∈ l) (hp : p a = true) (hfirst : l.find? p = some first) :
    first = a ∨ R first a := by
  obtain ⟨-, before, after, rfl, hbefore⟩ := List.find?_eq_some_iff_append.mp hfirst
  rcases List.mem_append.mp ha with hearlier | hlater
  · have hnot := hbefore a hearlier
    rw [hp] at hnot
    cases hnot
  · rcases List.mem_cons.mp hlater with rfl | hlater
    · exact .inl rfl
    · exact .inr ((List.pairwise_cons.mp (List.pairwise_append.mp hl).2.1).1 a hlater)

/-! ### The order among equals -/

section Places

variable {ι : Type*} [Preorder ι]

/-- A placed element comes before another: by a higher rank, or by an earlier place at the same
rank. -/
def Outranks (rank : α → ρ) (p q : α × ι) : Prop :=
  rank q.1 < rank p.1 ∨ rank p.1 = rank q.1 ∧ p.2 < q.2

theorem Outranks.rank_le {rank : α → ρ} {p q : α × ι} (h : Outranks rank p q) :
    rank q.1 ≤ rank p.1 := by
  rcases h with hlt | ⟨heq, -⟩
  · exact hlt.le
  · exact heq.ge

/-- An element from before a ranked list is inserted at its place. -/
theorem pairwise_outranks_orderedInsert {rank : α → ρ} {p : α × ι} {l : List (α × ι)}
    (hplace : ∀ q ∈ l, p.2 < q.2) (hl : l.Pairwise (Outranks rank)) :
    (l.orderedInsert (fun a b ↦ rank b.1 ≤ rank a.1) p).Pairwise (Outranks rank) := by
  induction l with
  | nil => exact List.pairwise_singleton _ _
  | cons q rest ih =>
    obtain ⟨hq, hrest⟩ := List.pairwise_cons.mp hl
    by_cases hle : rank q.1 ≤ rank p.1
    · rw [List.orderedInsert_cons_of_le _ rest hle, List.pairwise_cons]
      refine ⟨fun r hr ↦ ?_, hl⟩
      have hrank : rank r.1 ≤ rank p.1 := by
        rcases List.mem_cons.mp hr with rfl | hr'
        · exact hle
        · exact (hq r hr').rank_le.trans hle
      rcases hrank.lt_or_eq with hlt | heq
      · exact Or.inl hlt
      · exact Or.inr ⟨heq.symm, hplace r hr⟩
    · rw [List.orderedInsert_of_not_le _ rest hle, List.pairwise_cons]
      refine ⟨fun r hr ↦ ?_, ih (fun r hr ↦ hplace r (List.mem_cons_of_mem q hr)) hrest⟩
      rcases List.mem_cons.mp ((List.perm_orderedInsert _ p rest).mem_iff.mp hr) with rfl | hr'
      · exact Or.inl (not_le.mp hle)
      · exact hq r hr'

/-- Sorting is stable: a list with increasing places is sorted by rank and then by place. -/
theorem pairwise_outranks_sortBest (rank : α → ρ) {l : List (α × ι)}
    (hl : l.Pairwise fun p q ↦ p.2 < q.2) :
    (sortBest (fun p ↦ rank p.1) l).Pairwise (Outranks rank) := by
  induction l with
  | nil => exact .nil
  | cons p rest ih =>
    obtain ⟨hp, hrest⟩ := List.pairwise_cons.mp hl
    unfold sortBest at ih ⊢
    rw [List.insertionSort_cons]
    refine pairwise_outranks_orderedInsert (fun q hq ↦ ?_) (ih hrest)
    exact hp q ((List.perm_insertionSort _ rest).mem_iff.mp hq)

theorem retainNew_sublist (key : α → κ) (seen : List κ) (l : List α) :
    (retainNew key seen l).Sublist l := by
  induction l generalizing seen with
  | nil => exact .slnil
  | cons a rest ih =>
    unfold retainNew
    split_ifs with hseen
    · exact (ih seen).cons a
    · exact (ih _).cons_cons a

/-- Of a list that is ordered by a relation, every element is retained, has a key that was seen, or
comes after an element of its key that is retained. -/
theorem exists_mem_retainNew {R : α → α → Prop} (key : α → κ) (seen : List κ) {l : List α} {a : α}
    (hl : l.Pairwise R) (ha : a ∈ l) :
    key a ∈ seen ∨ ∃ b ∈ retainNew key seen l, key b = key a ∧ (b = a ∨ R b a) := by
  induction l generalizing seen with
  | nil => exact absurd ha List.not_mem_nil
  | cons first rest ih =>
    obtain ⟨hfirst, hrest⟩ := List.pairwise_cons.mp hl
    unfold retainNew
    by_cases hseen : key first ∈ seen
    · rw [if_pos hseen]
      rcases List.mem_cons.mp ha with rfl | ha'
      · exact Or.inl hseen
      · exact ih seen hrest ha'
    · rw [if_neg hseen]
      rcases List.mem_cons.mp ha with rfl | ha'
      · exact Or.inr ⟨a, List.mem_cons_self, rfl, Or.inl rfl⟩
      · rcases ih (key first :: seen) hrest ha' with hnew | ⟨b, hb, hkey, hba⟩
        · rcases List.mem_cons.mp hnew with heq | hold
          · exact Or.inr ⟨first, List.mem_cons_self, heq.symm, Or.inr (hfirst a ha')⟩
          · exact Or.inl hold
        · exact Or.inr ⟨b, List.mem_cons_of_mem _ hb, hkey, hba⟩

/-- Of every key there was, an element is left. -/
theorem exists_mem_bestPerKey (key : α → κ) (rank : α → ρ) {l : List α} {a : α} (ha : a ∈ l) :
    ∃ b ∈ bestPerKey key rank l, key b = key a := by
  have hmem : a ∈ sortBest rank l := (List.perm_insertionSort _ l).mem_iff.mpr ha
  have hany : (sortBest rank l).Pairwise fun _ _ ↦ True := List.pairwise_of_forall fun _ _ ↦ trivial
  rcases exists_mem_retainNew key [] hany hmem with hseen | ⟨b, hb, hkey, -⟩
  · exact absurd hseen List.not_mem_nil
  · exact ⟨b, hb, hkey⟩

variable (key : α → κ) (rank : α → ρ) {l : List (α × ι)}

/-- What is left of a list with increasing places is ordered by rank and then by place. -/
theorem pairwise_outranks_bestPerKey (hl : l.Pairwise fun p q ↦ p.2 < q.2) :
    (bestPerKey (fun p ↦ key p.1) (fun p ↦ rank p.1) l).Pairwise (Outranks rank) :=
  (pairwise_outranks_sortBest rank hl).sublist (retainNew_sublist _ _ _)

/-- Whatever was there is left, or was outranked by an element of its key that is left. -/
theorem exists_outranks_of_mem (hl : l.Pairwise fun p q ↦ p.2 < q.2) {p : α × ι} (hp : p ∈ l) :
    ∃ q ∈ bestPerKey (fun p ↦ key p.1) (fun p ↦ rank p.1) l,
      key q.1 = key p.1 ∧ (q = p ∨ Outranks rank q p) := by
  have hmem : p ∈ sortBest (fun p ↦ rank p.1) l := (List.perm_insertionSort _ l).mem_iff.mpr hp
  rcases exists_mem_retainNew (fun p ↦ key p.1) [] (pairwise_outranks_sortBest rank hl) hmem with
    hseen | hleft
  · exact absurd hseen List.not_mem_nil
  · exact hleft

end Places

/-! ### Two lists ranked alike -/

section Forall₂

variable {R : α → β → Prop}

theorem forall₂_orderedInsert {rank : α → ρ} {rank' : β → ρ}
    (hrank : ∀ a b, R a b → rank a = rank' b) {a : α} {b : β} (hab : R a b) {l : List α}
    {l' : List β} (hl : List.Forall₂ R l l') :
    List.Forall₂ R (l.orderedInsert (fun a b ↦ rank b ≤ rank a) a)
      (l'.orderedInsert (fun a b ↦ rank' b ≤ rank' a) b) := by
  induction hl with
  | nil => exact .cons hab .nil
  | @cons c d rest rest' hcd hrest ih =>
    simp only [List.orderedInsert_cons, hrank a b hab, hrank c d hcd]
    split_ifs
    · exact .cons hab (.cons hcd hrest)
    · exact .cons hcd ih

theorem forall₂_sortBest {rank : α → ρ} {rank' : β → ρ} (hrank : ∀ a b, R a b → rank a = rank' b)
    {l : List α} {l' : List β} (hl : List.Forall₂ R l l') :
    List.Forall₂ R (sortBest rank l) (sortBest rank' l') := by
  induction hl with
  | nil => exact .nil
  | cons hab _ ih => exact forall₂_orderedInsert hrank hab ih

theorem forall₂_retainNew {key : α → κ} {key' : β → κ'}
    (hkey : ∀ a b c d, R a b → R c d → (key a = key c ↔ key' b = key' d))
    {seen : List κ} {seen' : List κ'}
    (hseen : ∀ a b, R a b → (key a ∈ seen ↔ key' b ∈ seen'))
    {l : List α} {l' : List β} (hl : List.Forall₂ R l l') :
    List.Forall₂ R (retainNew key seen l) (retainNew key' seen' l') := by
  induction hl generalizing seen seen' with
  | nil => exact .nil
  | @cons a b rest rest' hab _ ih =>
    unfold retainNew
    by_cases hmem : key a ∈ seen
    · rw [if_pos hmem, if_pos ((hseen a b hab).mp hmem)]
      exact ih hseen
    · rw [if_neg hmem, if_neg fun h ↦ hmem ((hseen a b hab).mpr h)]
      refine .cons hab (ih ?_)
      intro c d hcd
      rw [List.mem_cons, List.mem_cons, hseen c d hcd, hkey c d a b hcd hab]

/-- Two lists that agree, element by element, on ranks and on which keys coincide are ranked and
thinned out alike. -/
theorem forall₂_bestPerKey {key : α → κ} {key' : β → κ'} {rank : α → ρ} {rank' : β → ρ}
    (hrank : ∀ a b, R a b → rank a = rank' b)
    (hkey : ∀ a b c d, R a b → R c d → (key a = key c ↔ key' b = key' d))
    {l : List α} {l' : List β} (hl : List.Forall₂ R l l') :
    List.Forall₂ R (bestPerKey key rank l) (bestPerKey key' rank' l') :=
  forall₂_retainNew hkey (fun _ _ _ ↦ by simp) (forall₂_sortBest hrank hl)

end Forall₂

/-- Forgetting the places commutes with keeping the best of each key. -/
theorem map_fst_bestPerKey {ι : Type*} (key : α → κ) (rank : α → ρ) (l : List (α × ι)) :
    (bestPerKey (fun p ↦ key p.1) (fun p ↦ rank p.1) l).map Prod.fst =
      bestPerKey key rank (l.map Prod.fst) := by
  have hplaced : List.Forall₂ (fun (p : α × ι) a ↦ p.1 = a) l (l.map Prod.fst) :=
    List.forall₂_map_right_iff.mpr (List.forall₂_same.mpr fun _ _ ↦ rfl)
  have hbest : List.Forall₂ (fun (p : α × ι) a ↦ p.1 = a)
      (bestPerKey (fun p ↦ key p.1) (fun p ↦ rank p.1) l) (bestPerKey key rank (l.map Prod.fst)) :=
    forall₂_bestPerKey (fun p a hpa ↦ by rw [hpa]) (fun p a q b hpa hqb ↦ by rw [hpa, hqb]) hplaced
  have hmap : List.Forall₂ Eq
      ((bestPerKey (fun p ↦ key p.1) (fun p ↦ rank p.1) l).map Prod.fst)
      (bestPerKey key rank (l.map Prod.fst)) := List.forall₂_map_left_iff.mpr hbest
  rwa [List.forall₂_eq_eq_eq] at hmap

end Hire.Library
