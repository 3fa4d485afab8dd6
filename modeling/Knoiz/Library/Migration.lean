import Knoiz.Library.RowTable

/-!
# Migrations of a table

A stored table has its rows, and the row that an INSERT without values appends.  A migration works on
both: a column that is added without a default is `NULL` everywhere, a column that is removed is gone
everywhere, and a change of the default is seen by later INSERTs only.
-/

namespace Migration

open RowTable

variable {κ ρ σ α : Type*}

/-- A table with the row that an INSERT without values appends. -/
structure Stored (κ ρ : Type*) where
  rows : Table κ ρ
  default : ρ

/-- `add_column` without a default; `extend` is a row with a value of the new column. -/
def addColumn (extend : ρ → Option α → σ) (t : Stored κ ρ) : Stored κ σ :=
  ⟨t.rows.map fun p => (p.1, extend p.2 none), extend t.default none⟩

/-- `remove_column`. -/
def removeColumn (drop : ρ → σ) (t : Stored κ ρ) : Stored κ σ :=
  ⟨t.rows.map fun p => (p.1, drop p.2), drop t.default⟩

/-- `change_column_default`. -/
def changeColumnDefault (set : ρ → ρ) (t : Stored κ ρ) : Stored κ ρ :=
  { t with default := set t.default }

/-- The rows that exist do not see a new default. -/
@[simp] theorem rows_changeColumnDefault (set : ρ → ρ) (t : Stored κ ρ) :
    (changeColumnDefault set t).rows = t.rows := rfl

variable [DecidableEq κ]

/-- The rows that exist have no value in the new column. -/
@[simp] theorem lookup_addColumn (extend : ρ → Option α → σ) (t : Stored κ ρ) (k : κ) :
    (addColumn extend t).rows.lookup k = (t.rows.lookup k).map fun row => extend row none :=
  lookup_map_rows (fun row => extend row none) k t.rows

@[simp] theorem lookup_removeColumn (drop : ρ → σ) (t : Stored κ ρ) (k : κ) :
    (removeColumn drop t).rows.lookup k = (t.rows.lookup k).map drop :=
  lookup_map_rows drop k t.rows

end Migration
