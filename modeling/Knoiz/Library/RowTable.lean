import Mathlib.Tactic.Common

/-!
# Tables of rows with a foreign key

A table is the list of its rows, each with the key it belongs to, in the order they were
inserted.  A key may have no row, one, or several; a lookup answers the first, and an update
amends the first.  Reading is `List.lookup`; this file adds the update and how the two meet.
-/

namespace RowTable

variable {κ ρ : Type*} [DecidableEq κ]

/-- The rows of a table, each with the key of its owner. -/
abbrev Table (κ ρ : Type*) := List (κ × ρ)

/-- Amend the first row of `k`; a table without such a row is left as it is. -/
def amend (k : κ) (f : ρ → ρ) : Table κ ρ → Table κ ρ
  | [] => []
  | (j, r) :: t => if j = k then (j, f r) :: t else (j, r) :: amend k f t

/-- How many rows belong to `k`. -/
def rowsOf (k : κ) (t : Table κ ρ) : ℕ := (t.map Prod.fst).count k

@[simp] theorem lookup_amend_self (k : κ) (f : ρ → ρ) (t : Table κ ρ) :
    (amend k f t).lookup k = (t.lookup k).map f := by
  induction t with
  | nil => rfl
  | cons p t ih =>
      obtain ⟨j, r⟩ := p
      by_cases hj : j = k
      · subst hj
        simp [amend]
      · have hk : (k == j) = false := by simpa using Ne.symm hj
        simp [amend, hj, List.lookup_cons, hk, ih]

theorem lookup_amend_of_ne {j k : κ} (h : j ≠ k) (f : ρ → ρ) (t : Table κ ρ) :
    (amend k f t).lookup j = t.lookup j := by
  induction t with
  | nil => rfl
  | cons p t ih =>
      obtain ⟨i, r⟩ := p
      by_cases hi : i = k
      · subst hi
        have hj : (j == i) = false := by simpa using h
        simp [amend, List.lookup_cons, hj]
      · simp [amend, hi, List.lookup_cons, ih]

/-- What is read after an update. -/
theorem lookup_amend (j k : κ) (f : ρ → ρ) (t : Table κ ρ) :
    (amend k f t).lookup j = if j = k then (t.lookup k).map f else t.lookup j := by
  by_cases h : j = k
  · subst h
    rw [if_pos rfl, lookup_amend_self]
  · rw [if_neg h, lookup_amend_of_ne h]

/-- Two updates of one row are one. -/
theorem amend_amend (k : κ) (f g : ρ → ρ) (t : Table κ ρ) :
    amend k g (amend k f t) = amend k (fun r => g (f r)) t := by
  induction t with
  | nil => rfl
  | cons p t ih =>
      obtain ⟨j, r⟩ := p
      by_cases hj : j = k
      · simp [amend, hj]
      · simp [amend, hj, ih]

/-- An update looks at the row that it amends only. -/
theorem amend_congr {k : κ} {f g : ρ → ρ} {r : ρ} {t : Table κ ρ} (h : t.lookup k = some r)
    (hfg : f r = g r) : amend k f t = amend k g t := by
  induction t with
  | nil => rfl
  | cons p t ih =>
      obtain ⟨j, q⟩ := p
      by_cases hj : j = k
      · subst hj
        rw [List.lookup_cons_self] at h
        cases h
        simp [amend, hfg]
      · have hk : (k == j) = false := by simpa using Ne.symm hj
        rw [List.lookup_cons, hk] at h
        simp [amend, hj, ih h]

/-- An update changes no key. -/
@[simp] theorem map_fst_amend (k : κ) (f : ρ → ρ) (t : Table κ ρ) :
    (amend k f t).map Prod.fst = t.map Prod.fst := by
  induction t with
  | nil => rfl
  | cons p t ih =>
      obtain ⟨j, r⟩ := p
      by_cases hj : j = k <;> simp [amend, hj, ih]

@[simp] theorem rowsOf_amend (j k : κ) (f : ρ → ρ) (t : Table κ ρ) :
    rowsOf j (amend k f t) = rowsOf j t := by
  simp only [rowsOf, map_fst_amend]

theorem rowsOf_append_map (j k : κ) (rs : List ρ) (t : Table κ ρ) :
    rowsOf j (t ++ rs.map (Prod.mk k)) = rowsOf j t + if k = j then rs.length else 0 := by
  have hkeys : (rs.map (Prod.mk k)).map Prod.fst = List.replicate rs.length k := by
    rw [List.map_map]
    exact List.map_const'
  unfold rowsOf
  rw [List.map_append, List.count_append, hkeys, List.count_replicate]
  simp only [beq_iff_eq]

theorem lookup_isSome_of_rowsOf {k : κ} {t : Table κ ρ} (h : 0 < rowsOf k t) :
    (t.lookup k).isSome = true := by
  obtain ⟨p, hp, hk⟩ := List.mem_map.mp (List.count_pos_iff.mp h)
  rw [Option.isSome_iff_ne_none]
  intro hnone
  have hne := (List.lookup_eq_none_iff.mp hnone) p hp
  rw [hk] at hne
  simp at hne

/-- Inserting at the end leaves every row that can be read already. -/
theorem lookup_append_of_some {k : κ} {r : ρ} {t : Table κ ρ} (h : t.lookup k = some r)
    (u : Table κ ρ) : (t ++ u).lookup k = some r := by
  rw [List.lookup_append, h, Option.some_or]

theorem lookup_append_of_none {k : κ} {t : Table κ ρ} (h : t.lookup k = none)
    (u : Table κ ρ) : (t ++ u).lookup k = u.lookup k := by
  rw [List.lookup_append, h, Option.none_or]

/-- Rewriting every row. -/
theorem lookup_map_rows {σ : Type*} (f : ρ → σ) (k : κ) (t : Table κ ρ) :
    (t.map fun p => (p.1, f p.2)).lookup k = (t.lookup k).map f := by
  induction t with
  | nil => rfl
  | cons p t ih =>
      obtain ⟨j, r⟩ := p
      simp only [List.map_cons, List.lookup_cons, ih]
      cases k == j <;> rfl

end RowTable
