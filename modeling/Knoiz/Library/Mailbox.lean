import Mathlib.Tactic.Common

/-!
# A box that holds the latest messages

Messages that are posted take the place of those that still wait, and whoever collects empties the
box.  So every message is delivered at most once and in order, and one is lost exactly when another is
posted over it.
-/

namespace Mailbox

variable {α : Type*}

/-- What has been posted, what waits, and what has been delivered. -/
structure Box (α : Type*) where
  posted : List α
  waiting : List α
  delivered : List α

/-- An empty box. -/
def Box.empty : Box α := ⟨[], [], []⟩

def Box.post (box : Box α) (messages : List α) : Box α :=
  ⟨box.posted ++ messages, messages, box.delivered⟩

def Box.collect (box : Box α) : Box α :=
  ⟨box.posted, [], box.delivered ++ box.waiting⟩

/-- None is delivered twice or out of order. -/
def Box.InOrder (box : Box α) : Prop := (box.delivered ++ box.waiting).Sublist box.posted

/-- None is lost. -/
def Box.Complete (box : Box α) : Prop := box.delivered ++ box.waiting = box.posted

/-- One is lost. -/
def Box.Lossy (box : Box α) : Prop := (box.delivered ++ box.waiting).length < box.posted.length

variable {box : Box α}

theorem Box.complete_empty : (Box.empty : Box α).Complete := rfl

theorem Box.Complete.inOrder (h : box.Complete) : box.InOrder := by
  unfold Box.Complete at h
  simp [Box.InOrder, h]

theorem Box.InOrder.post (h : box.InOrder) (messages : List α) : (box.post messages).InOrder :=
  ((List.sublist_append_left _ _).trans h).append (List.Sublist.refl messages)

theorem Box.InOrder.collect (h : box.InOrder) : box.collect.InOrder := by
  show (_ ++ []).Sublist _
  rw [List.append_nil]
  exact h

theorem Box.Complete.post (h : box.Complete) (hnone : box.waiting = []) (messages : List α) :
    (box.post messages).Complete := by
  unfold Box.Complete at h
  rw [hnone, List.append_nil] at h
  show box.delivered ++ messages = box.posted ++ messages
  rw [h]

theorem Box.Complete.collect (h : box.Complete) : box.collect.Complete := by
  show (_ ++ []) = _
  rw [List.append_nil]
  exact h

/-- **Overwriting.**  A message that waits is lost when others are posted. -/
theorem Box.InOrder.lossy_post (h : box.InOrder) (hsome : box.waiting ≠ []) (messages : List α) :
    (box.post messages).Lossy := by
  have hlength := h.length_le
  have hpos := List.length_pos_iff.mpr hsome
  rw [List.length_append] at hlength
  show (box.delivered ++ messages).length < (box.posted ++ messages).length
  rw [List.length_append, List.length_append]
  omega

/-- A message that is lost stays lost. -/
theorem Box.Lossy.post (h : box.Lossy) (messages : List α) : (box.post messages).Lossy := by
  unfold Box.Lossy at h
  rw [List.length_append] at h
  show (box.delivered ++ messages).length < (box.posted ++ messages).length
  rw [List.length_append, List.length_append]
  omega

theorem Box.Lossy.collect (h : box.Lossy) : box.collect.Lossy := by
  show (_ ++ []).length < _
  rw [List.append_nil]
  exact h

theorem Box.Lossy.not_complete (h : box.Lossy) : ¬box.Complete := by
  intro hcomplete
  unfold Box.Lossy at h
  rw [hcomplete] at h
  exact Nat.lt_irrefl _ h

end Mailbox
