import Mathlib.Tactic.Common

/-!
# Event logs

A log lists events in the order in which they happened and only ever grows at its end.  Two
notions are all that is needed to speak about the past of an event: the latest value that some
events carry, and a property of every event in the light of the events before it.
-/

namespace EventLog

variable {α β : Type*}

/-- The value carried by the latest event from which `f` reads one. -/
def latest (f : α → Option β) (log : List α) : Option β := (log.filterMap f).getLast?

@[simp] theorem latest_nil (f : α → Option β) : latest f [] = none := rfl

/-- The later part of a log decides when it carries a value at all. -/
theorem latest_append (f : α → Option β) (log es : List α) :
    latest f (log ++ es) = (latest f es).or (latest f log) := by
  unfold latest
  rw [List.filterMap_append, List.getLast?_append]

theorem latest_concat (f : α → Option β) (log : List α) (e : α) :
    latest f (log ++ [e]) = (f e).or (latest f log) := by
  rw [latest_append]
  congr 1
  unfold latest
  cases h : f e <;> simp [h]

theorem latest_concat_of_none {f : α → Option β} {e : α} (h : f e = none) (log : List α) :
    latest f (log ++ [e]) = latest f log := by
  rw [latest_concat, h, Option.none_or]

theorem latest_concat_of_some {f : α → Option β} {e : α} {b : β} (h : f e = some b)
    (log : List α) : latest f (log ++ [e]) = some b := by
  rw [latest_concat, h, Option.some_or]

/-- Events that carry no value leave the latest one in place. -/
theorem latest_append_of_none {f : α → Option β} {es : List α} (h : ∀ e ∈ es, f e = none)
    (log : List α) : latest f (log ++ es) = latest f log := by
  have hes : es.filterMap f = [] := List.filterMap_eq_nil_iff.mpr h
  rw [latest_append, latest, hes, List.getLast?_nil, Option.none_or]

/-- The latest value was carried by an event of the log. -/
theorem exists_of_latest {f : α → Option β} {log : List α} {b : β} (h : latest f log = some b) :
    ∃ e ∈ log, f e = some b :=
  List.mem_filterMap.mp (List.mem_of_getLast? h)

/-- Every event of the log satisfies `P`, given the events before it. -/
def Throughout (P : List α → α → Prop) (log : List α) : Prop :=
  ∀ pre e post, log = pre ++ e :: post → P pre e

theorem throughout_nil (P : List α → α → Prop) : Throughout P [] := by
  intro pre e post h
  exact absurd h.symm (by simp)

/-- A log grows by an event that satisfies `P` in the light of the log so far. -/
theorem Throughout.concat {P : List α → α → Prop} {log : List α} {e : α} (h : Throughout P log)
    (he : P log e) : Throughout P (log ++ [e]) := by
  intro pre x post hsplit
  rcases List.eq_nil_or_concat post with rfl | ⟨post', y, rfl⟩
  · obtain ⟨rfl, hx⟩ := List.append_inj' hsplit rfl
    cases hx
    exact he
  · have hlog : log ++ [e] = (pre ++ x :: post') ++ [y] := by
      rw [hsplit, List.append_assoc, List.cons_append, List.concat_eq_append]
    exact h pre x post' (List.append_inj' hlog rfl).1

end EventLog
