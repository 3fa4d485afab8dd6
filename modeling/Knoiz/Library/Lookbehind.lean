import Mathlib.Tactic.Common

/-!
# Filtering a list by an element and the one before it

`withBehind prev xs` puts its predecessor beside every element of `xs`; in front of the list stands
`prev`.  A filter that looks one element back keeps a sublist, and the whole list exactly when it
keeps every element.
-/

namespace Lookbehind

variable {α : Type*} {keep : Option α → α → Bool}

/-- Every element with its predecessor; `prev` stands in front of the list. -/
def withBehind (prev : Option α) (xs : List α) : List (Option α × α) :=
  (prev :: xs.map some).zip xs

@[simp] theorem withBehind_cons (prev : Option α) (x : α) (xs : List α) :
    withBehind prev (x :: xs) = (prev, x) :: withBehind (some x) xs := rfl

@[simp] theorem map_snd_withBehind (prev : Option α) (xs : List α) :
    (withBehind prev xs).map Prod.snd = xs := by
  induction xs generalizing prev with
  | nil => rfl
  | cons x xs ih => rw [withBehind_cons, List.map_cons, ih]

theorem mem_of_mem_withBehind {prev : Option α} {xs : List α} {p : Option α × α}
    (h : p ∈ withBehind prev xs) : p.2 ∈ xs := by
  have hmem := List.mem_map_of_mem (f := Prod.snd) h
  rwa [map_snd_withBehind] at hmem

/-- A predecessor stands in the list too, or in front of it. -/
theorem behind_mem {prev : Option α} {xs : List α} {x y : α}
    (h : (some y, x) ∈ withBehind prev xs) : prev = some y ∨ y ∈ xs := by
  have hmem := (List.of_mem_zip h).1
  rcases List.mem_cons.mp hmem with hprev | hxs
  · exact .inl hprev.symm
  · exact .inr (by simpa using hxs)

/-- The elements that `keep` lets stay, given what stands before them. -/
def filterBehind (keep : Option α → α → Bool) (prev : Option α) (xs : List α) : List α :=
  ((withBehind prev xs).filter fun p => keep p.1 p.2).map Prod.snd

theorem filterBehind_cons_of_pos {prev : Option α} {x : α} (h : keep prev x = true)
    (xs : List α) : filterBehind keep prev (x :: xs) = x :: filterBehind keep (some x) xs := by
  unfold filterBehind
  rw [withBehind_cons, List.filter_cons, if_pos h, List.map_cons]

theorem filterBehind_cons_of_neg {prev : Option α} {x : α} (h : ¬ keep prev x = true)
    (xs : List α) : filterBehind keep prev (x :: xs) = filterBehind keep (some x) xs := by
  unfold filterBehind
  rw [withBehind_cons, List.filter_cons, if_neg h]

theorem filterBehind_sublist (prev : Option α) (xs : List α) :
    (filterBehind keep prev xs).Sublist xs := by
  have hsub := (List.filter_sublist (p := fun p => keep p.1 p.2)
    (l := withBehind prev xs)).map Prod.snd
  rwa [map_snd_withBehind] at hsub

/-- What stays has passed the filter. -/
theorem exists_behind_of_mem {prev : Option α} {xs : List α} {x : α}
    (h : x ∈ filterBehind keep prev xs) : ∃ before, keep before x = true := by
  obtain ⟨⟨before, y⟩, hp, rfl⟩ := List.mem_map.mp h
  exact ⟨before, (List.mem_filter.mp hp).2⟩

theorem filterBehind_eq_self {prev : Option α} {xs : List α}
    (h : ∀ p ∈ withBehind prev xs, keep p.1 p.2 = true) : filterBehind keep prev xs = xs := by
  unfold filterBehind
  rw [List.filter_eq_self.mpr h, map_snd_withBehind]

end Lookbehind
