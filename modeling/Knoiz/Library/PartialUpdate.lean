import Mathlib.Tactic.Common

/-!
# Partial updates of a shared record

A client loads a record, changes its own copy and saves it.  A *partial* save writes a column
only when the copy's current value differs from the value loaded; every other column keeps
whatever is stored by then, which may be another client's later write.
-/

namespace PartialUpdate

variable {α : Type*} [DecidableEq α]

/-- The value of one column after a save: `stored` is what the database holds at the save. -/
def writeColumn (loaded current stored : α) : α :=
  if current = loaded then stored else current

/-- A column that the client did not change keeps what is stored. -/
@[simp] theorem writeColumn_unchanged (v stored : α) : writeColumn v v stored = stored := by
  simp [writeColumn]

theorem writeColumn_changed {loaded current : α} (h : current ≠ loaded) (stored : α) :
    writeColumn loaded current stored = current := by
  simp [writeColumn, h]

/-- A copy that is still fresh is saved as it is. -/
@[simp] theorem writeColumn_fresh (loaded current : α) :
    writeColumn loaded current loaded = current := by
  by_cases h : current = loaded <;> simp [writeColumn, h]

end PartialUpdate
