import Mathlib.Order.Lattice
import Mathlib.Tactic.Common

/-!
# Leases that expire lazily

A lease is a deadline that may be present.  Nothing happens when the deadline passes: the lease
is dropped by the next *check* that runs after it.  What a reader finds is therefore decided by
two instants alone, the deadline of the latest grant and the latest check, as long as checks
come in order and no grant is made with a deadline in the past.
-/

namespace LazyLease

variable {τ : Type*} [LinearOrder τ]

/-- A check at `now` drops a lease whose deadline has passed. -/
def check (now : τ) : Option τ → Option τ
  | some d => if d < now then none else some d
  | none => none

/-- The lease that the latest granted deadline and the latest check leave. -/
def expected (granted checked : Option τ) : Option τ :=
  match checked with
  | some now => check now granted
  | none => granted

@[simp] theorem expected_none (checked : Option τ) : expected none checked = none := by
  cases checked <;> rfl

/-- A check that is not earlier than the checks before it decides alone. -/
theorem check_expected {granted checked : Option τ} {now : τ}
    (h : ∀ c, checked = some c → c ≤ now) :
    check now (expected granted checked) = expected granted (some now) := by
  cases checked with
  | none => rfl
  | some c =>
      have hc := h c rfl
      cases granted with
      | none => rfl
      | some d =>
          simp only [expected, check]
          by_cases hd : d < c
          · simp [hd, lt_of_lt_of_le hd hc]
          · simp [hd]

/-- A deadline granted not before the latest check stands. -/
theorem expected_granted {checked : Option τ} {d : τ} (h : ∀ c, checked = some c → c ≤ d) :
    expected (some d) checked = some d := by
  cases checked with
  | none => rfl
  | some c => simp [expected, check, h c rfl]

/-- Where no check came after `d`, a lease until `d` stands exactly when it is the latest grant. -/
theorem expected_eq_some_iff_of_le {granted checked : Option τ} {d : τ}
    (h : ∀ c, checked = some c → c ≤ d) :
    expected granted checked = some d ↔ granted = some d := by
  cases checked with
  | none => rfl
  | some c =>
      have hc := h c rfl
      cases granted with
      | none => rfl
      | some e =>
          simp only [expected, check]
          by_cases he : e < c
          · have hne : e ≠ d := ne_of_lt (lt_of_lt_of_le he hc)
            simp [he, hne]
          · simp [he]

/-- **Exact window.**  After a check at `now` there is a lease exactly when the latest granted
deadline has not passed. -/
theorem expected_eq_some_iff {granted : Option τ} {now d : τ} :
    expected granted (some now) = some d ↔ granted = some d ∧ now ≤ d := by
  cases granted with
  | none => simp
  | some e =>
      simp only [expected, check, Option.some.injEq]
      by_cases h : e < now
      · simp only [h, if_true, reduceCtorEq, false_iff, not_and, not_le]
        rintro rfl
        exact h
      · simp only [h, if_false, Option.some.injEq]
        constructor
        · rintro rfl
          exact ⟨rfl, not_lt.mp h⟩
        · exact fun he => he.1

end LazyLease
