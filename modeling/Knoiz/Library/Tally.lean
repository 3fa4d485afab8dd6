import Mathlib.Data.List.Dedup
import Mathlib.Data.List.Perm.Basic
import Mathlib.Order.Lattice

/-!
# Counting tables and their top entries

`tally` counts the elements of a list in a table whose keys stay in the order of their first
occurrence.  `SortBy` is a sort of which no more is known than that it permutes and orders by the
key: ties may come out in any order.  What does not depend on the ties is proved here: how many
entries the top `k` has, that nothing outside it has a smaller key, and which keys it has.
-/

/-! ### Counting tables -/

namespace Tally

variable {α : Type*} [DecidableEq α]

/-- `table[a] += 1`, in a table where a key that is not there counts zero. -/
def increment (a : α) : List (α × ℕ) → List (α × ℕ)
  | [] => [(a, 1)]
  | (b, n) :: table => if b = a then (b, n + 1) :: table else (b, n) :: increment a table

/-- The table after all the elements, one after another. -/
def tally (xs : List α) : List (α × ℕ) := xs.foldl (fun table a => increment a table) []

/-- The table has each element of the list once, with the number of its occurrences. -/
structure Counts (table : List (α × ℕ)) (xs : List α) : Prop where
  nodup : (table.map Prod.fst).Nodup
  count : ∀ p ∈ table, p.2 = xs.count p.1
  keys : ∀ a, a ∈ table.map Prod.fst ↔ a ∈ xs

theorem mem_keys_increment (a b : α) (table : List (α × ℕ)) :
    b ∈ (increment a table).map Prod.fst ↔ b = a ∨ b ∈ table.map Prod.fst := by
  induction table with
  | nil => simp [increment]
  | cons p table ih =>
      obtain ⟨c, n⟩ := p
      by_cases hc : c = a
      · subst hc
        simp [increment]
      · rw [increment, if_neg hc, List.map_cons, List.mem_cons, ih, List.map_cons, List.mem_cons]
        exact or_left_comm

theorem nodup_keys_increment (a : α) {table : List (α × ℕ)} (h : (table.map Prod.fst).Nodup) :
    ((increment a table).map Prod.fst).Nodup := by
  induction table with
  | nil => exact List.nodup_singleton a
  | cons p table ih =>
      obtain ⟨c, n⟩ := p
      obtain ⟨hc, htable⟩ := List.nodup_cons.mp h
      by_cases hca : c = a
      · rw [increment, if_pos hca]
        exact h
      · rw [increment, if_neg hca]
        refine List.nodup_cons.mpr ⟨fun hmem => ?_, ih htable⟩
        rcases (mem_keys_increment a c table).mp hmem with he | hold
        · exact hca he
        · exact hc hold

/-- An entry of the table after it is an old one of another key, or the one of `a`. -/
theorem mem_increment {a : α} {p : α × ℕ} {table : List (α × ℕ)} (h : (table.map Prod.fst).Nodup)
    (hp : p ∈ increment a table) :
    (p.1 ≠ a ∧ p ∈ table) ∨ (p.1 = a ∧ ((a, p.2 - 1) ∈ table ∧ 0 < p.2 ∨
      a ∉ table.map Prod.fst ∧ p.2 = 1)) := by
  induction table with
  | nil =>
      rw [List.mem_singleton.mp hp]
      exact .inr ⟨rfl, .inr ⟨List.not_mem_nil, rfl⟩⟩
  | cons q table ih =>
      obtain ⟨c, n⟩ := q
      obtain ⟨hc, htable⟩ := List.nodup_cons.mp h
      by_cases hca : c = a
      · subst hca
        rw [increment, if_pos rfl] at hp
        rcases List.mem_cons.mp hp with rfl | hp
        · refine .inr ⟨rfl, .inl ⟨?_, Nat.succ_pos n⟩⟩
          exact List.mem_cons_self
        · refine .inl ⟨fun he => hc ?_, List.mem_cons_of_mem _ hp⟩
          exact List.mem_map.mpr ⟨p, hp, he⟩
      · rw [increment, if_neg hca] at hp
        rcases List.mem_cons.mp hp with rfl | hp
        · exact .inl ⟨hca, List.mem_cons_self⟩
        · rcases ih htable hp with ⟨hne, hmem⟩ | ⟨he, ⟨hmem, hpos⟩ | ⟨hnot, hone⟩⟩
          · exact .inl ⟨hne, List.mem_cons_of_mem _ hmem⟩
          · exact .inr ⟨he, .inl ⟨List.mem_cons_of_mem _ hmem, hpos⟩⟩
          · refine .inr ⟨he, .inr ⟨?_, hone⟩⟩
            rw [List.map_cons, List.mem_cons, not_or]
            exact ⟨fun hac => hca hac.symm, hnot⟩

/-- One more element, one more in its count. -/
theorem Counts.increment {table : List (α × ℕ)} {xs : List α} (h : Counts table xs) (a : α) :
    Counts (increment a table) (xs ++ [a]) := by
  refine ⟨nodup_keys_increment a h.nodup, fun p hp => ?_, fun b => ?_⟩
  · rw [List.count_append, List.count_singleton]
    rcases mem_increment h.nodup hp with ⟨hne, hmem⟩ | ⟨he, ⟨hmem, hpos⟩ | ⟨hnot, hone⟩⟩
    · have hcount := h.count p hmem
      rw [if_neg (by simpa using hne.symm)]
      omega
    · have hcount : p.2 - 1 = xs.count a := h.count _ hmem
      rw [he, if_pos (by simp)]
      omega
    · have hzero : xs.count a = 0 :=
        List.count_eq_zero.mpr fun hmem => hnot ((h.keys a).mpr hmem)
      rw [he, if_pos (by simp)]
      omega
  · rw [mem_keys_increment, h.keys, List.mem_append, List.mem_singleton]
    exact or_comm

theorem counts_foldl {table : List (α × ℕ)} {xs : List α} (h : Counts table xs) (ys : List α) :
    Counts (ys.foldl (fun table a => Tally.increment a table) table) (xs ++ ys) := by
  induction ys generalizing table xs with
  | nil =>
      rw [List.append_nil]
      exact h
  | cons a ys ih =>
      rw [List.append_cons]
      exact ih (h.increment a)

/-- **The table counts.** -/
theorem counts_tally (xs : List α) : Counts (tally xs) xs := by
  have hempty : Counts ([] : List (α × ℕ)) [] :=
    ⟨List.nodup_nil, fun _ hp => absurd hp List.not_mem_nil, fun _ => Iff.rfl⟩
  exact counts_foldl hempty xs

/-- The keys are the distinct elements. -/
theorem keys_tally_perm (xs : List α) : ((tally xs).map Prod.fst).Perm xs.dedup := by
  have h := counts_tally xs
  refine (List.perm_ext_iff_of_nodup h.nodup (List.nodup_dedup xs)).mpr fun a => ?_
  rw [h.keys, List.mem_dedup]

theorem length_tally (xs : List α) : (tally xs).length = xs.dedup.length := by
  have hlength := (keys_tally_perm xs).length_eq
  rw [List.length_map] at hlength
  exact hlength

/-- The entries are the distinct elements, each with its count. -/
theorem tally_perm (xs : List α) : (tally xs).Perm (xs.dedup.map fun a => (a, xs.count a)) := by
  have hentries : ((tally xs).map Prod.fst).map (fun a => (a, xs.count a)) = tally xs := by
    rw [List.map_map]
    refine (List.map_congr_left fun p hp => ?_).trans (List.map_id _)
    show (p.1, xs.count p.1) = p
    rw [← (counts_tally xs).count p hp]
  rw [← hentries]
  exact (keys_tally_perm xs).map _

/-- The order of the elements does not matter. -/
theorem tally_congr {xs ys : List α} (h : xs.Perm ys) : (tally xs).Perm (tally ys) := by
  have hcount : (fun a => (a, xs.count a)) = fun a => (a, ys.count a) := by
    funext a
    rw [h.count_eq]
  have hmap := (h.dedup).map fun a => (a, xs.count a)
  refine (tally_perm xs).trans (hmap.trans ?_)
  rw [hcount]
  exact (tally_perm ys).symm

end Tally

/-! ### Sorting by a key, with ties in any order -/

/-- `sort_by`: a permutation that is ordered by the key, and not known to be stable. -/
structure SortBy {β κ : Type*} [LE κ] (key : β → κ) where
  sort : List β → List β
  perm : ∀ l, (sort l).Perm l
  sorted : ∀ l, (sort l).Pairwise fun p q => key p ≤ key q

namespace SortBy

section Order

variable {β κ : Type*} [LE κ] {key : β → κ}

/-- `sort_by { … }.take(k)`. -/
def top (sortBy : SortBy key) (k : ℕ) (l : List β) : List β := (sortBy.sort l).take k

variable (sortBy : SortBy key) (k : ℕ)

theorem length_top (l : List β) : (sortBy.top k l).length = min k l.length := by
  unfold top
  rw [List.length_take, (sortBy.perm l).length_eq]

theorem mem_of_mem_top {l : List β} {p : β} (h : p ∈ sortBy.top k l) : p ∈ l :=
  (sortBy.perm l).mem_iff.mp (List.mem_of_mem_take h)

theorem pairwise_top (l : List β) : (sortBy.top k l).Pairwise fun p q => key p ≤ key q :=
  (sortBy.sorted l).sublist (List.take_sublist k _)

theorem nodup_map_top {α : Type*} {f : β → α} {l : List β} (h : (l.map f).Nodup) :
    ((sortBy.top k l).map f).Nodup := by
  have hsort : ((sortBy.sort l).map f).Nodup := ((sortBy.perm l).map f).nodup_iff.mpr h
  exact hsort.sublist ((List.take_sublist k _).map f)

/-- **Nothing better is left out.** -/
theorem le_of_not_mem_top {l : List β} {p q : β} (hp : p ∈ sortBy.top k l) (hq : q ∈ l)
    (hout : q ∉ sortBy.top k l) : key p ≤ key q := by
  have hsorted := sortBy.sorted l
  rw [← List.take_append_drop k (sortBy.sort l), List.pairwise_append] at hsorted
  have hmem : q ∈ (sortBy.sort l).take k ++ (sortBy.sort l).drop k := by
    rw [List.take_append_drop]
    exact (sortBy.perm l).mem_iff.mpr hq
  rcases List.mem_append.mp hmem with hin | hdrop
  · exact absurd hin hout
  · exact hsorted.2.2 p hp q hdrop

end Order

/-- **The keys of the top do not depend on the ties**, nor on the order of the list. -/
theorem map_key_top {β κ : Type*} [PartialOrder κ] {key : β → κ} (sortBy sortBy' : SortBy key)
    (k : ℕ) {l l' : List β} (h : l.Perm l') :
    (sortBy.top k l).map key = (sortBy'.top k l').map key := by
  have hperm : ((sortBy.sort l).map key).Perm ((sortBy'.sort l').map key) :=
    ((sortBy.perm l).trans (h.trans (sortBy'.perm l').symm)).map key
  have hsorted : ∀ (s : SortBy key) (l : List β), ((s.sort l).map key).Pairwise (· ≤ ·) :=
    fun s l => List.pairwise_map.mpr (s.sorted l)
  have heq : (sortBy.sort l).map key = (sortBy'.sort l').map key :=
    hperm.eq_of_pairwise (fun _ _ _ _ hle hge => le_antisymm hle hge) (hsorted _ l) (hsorted _ l')
  unfold top
  rw [List.map_take, List.map_take, heq]

end SortBy
