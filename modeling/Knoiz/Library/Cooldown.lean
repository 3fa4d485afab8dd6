import Mathlib.Order.Basic
import Mathlib.Tactic.Common

/-!
# A cooldown kept in a stamp

Every key has a stamp, the time at which it was last admitted, or a later one.  A key is admitted at
a time `t` when its stamp is before `limit t`, and is stamped afresh.  Then any two admissions of one
key are as far apart as the limit says, whatever the keys of the admissions in between; all that is
used of the stamps is that they cover the admissions so far.
-/

namespace Cooldown

variable {κ τ : Type*}

/-- Of two admissions of one key the earlier is before the limit of the later. -/
def Apart [LT τ] (limit : τ → τ) (admitted : List (κ × τ)) : Prop :=
  admitted.Pairwise fun p q => p.1 = q.1 → p.2 < limit q.2

/-- The stamp of a key is not before any of its admissions. -/
def Covers [LE τ] (stamp : κ → Option τ) (admitted : List (κ × τ)) : Prop :=
  ∀ p ∈ admitted, ∃ w, stamp p.1 = some w ∧ p.2 ≤ w

variable [Preorder τ] {limit : τ → τ} {stamp stamp' : κ → Option τ} {admitted : List (κ × τ)} {k : κ}
  {t w : τ}

theorem apart_nil : Apart limit ([] : List (κ × τ)) := List.Pairwise.nil

theorem covers_nil : Covers stamp ([] : List (κ × τ)) := by
  intro p hp
  exact absurd hp List.not_mem_nil

/-- **Admission.**  A stamp that covers the admissions so far keeps the next one apart. -/
theorem Apart.concat (h : Apart limit admitted) (hcovers : Covers stamp admitted)
    (hstamp : stamp k = some w) (hlimit : w < limit t) : Apart limit (admitted ++ [(k, t)]) := by
  unfold Apart
  rw [List.pairwise_append]
  refine ⟨h, List.pairwise_singleton _ _, fun p hp q hq hkey => ?_⟩
  rw [List.mem_singleton.mp hq] at hkey ⊢
  obtain ⟨w', hw', hle⟩ := hcovers p hp
  rw [hkey, hstamp] at hw'
  cases hw'
  exact lt_of_le_of_lt hle hlimit

/-- Later stamps cover what earlier ones did. -/
theorem Covers.mono (h : Covers stamp admitted)
    (hlater : ∀ j w, stamp j = some w → ∃ w', stamp' j = some w' ∧ w ≤ w') :
    Covers stamp' admitted := by
  intro p hp
  obtain ⟨w, hw, hle⟩ := h p hp
  obtain ⟨w', hw', hle'⟩ := hlater p.1 w hw
  exact ⟨w', hw', hle.trans hle'⟩

/-- A stamp that is not before the admission covers it too. -/
theorem Covers.concat (h : Covers stamp admitted) (hstamp : stamp k = some w) (hle : t ≤ w) :
    Covers stamp (admitted ++ [(k, t)]) := by
  intro p hp
  rcases List.mem_append.mp hp with hp | hp
  · exact h p hp
  · rw [List.mem_singleton.mp hp]
    exact ⟨w, hstamp, hle⟩

/-- **One admission.**  The key that is admitted is stamped afresh, and the others keep their
stamps. -/
theorem apart_covers_concat {u : τ} (h : Apart limit admitted) (hcovers : Covers stamp admitted)
    (hstamp : stamp k = some w) (hlimit : w < limit t)
    (hkept : ∀ j v, j ≠ k → stamp j = some v → stamp' j = some v) (hnew : stamp' k = some u)
    (hw : w ≤ u) (ht : t ≤ u) :
    Apart limit (admitted ++ [(k, t)]) ∧ Covers stamp' (admitted ++ [(k, t)]) := by
  have hlater : ∀ j v, stamp j = some v → ∃ v', stamp' j = some v' ∧ v ≤ v' := by
    intro j v hv
    by_cases hj : j = k
    · subst hj
      cases hstamp.symm.trans hv
      exact ⟨u, hnew, hw⟩
    · exact ⟨v, hkept j v hj hv, le_rfl⟩
  exact ⟨h.concat hcovers hstamp hlimit, (hcovers.mono hlater).concat hnew ht⟩

end Cooldown
