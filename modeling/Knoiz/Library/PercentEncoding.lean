import Mathlib.Tactic.Common

/-!
# Percent-encoding of ASCII characters

The decoder replaces every escape of an ASCII character by the character and leaves everything
else.  `Encodes xs ys` says that `xs` decodes to `ys` whatever text follows it, so that encodings can
be put together piece by piece.
-/

namespace PercentEncoding

/-- The value of a hexadecimal digit. -/
def hexValue (c : Char) : Option ℕ :=
  if '0' ≤ c ∧ c ≤ '9' then some (c.toNat - '0'.toNat)
  else if 'A' ≤ c ∧ c ≤ 'F' then some (c.toNat - 'A'.toNat + 10)
  else if 'a' ≤ c ∧ c ≤ 'f' then some (c.toNat - 'a'.toNat + 10)
  else none

/-- The ASCII character behind an escape. -/
def unescape (high low : Char) : Option Char :=
  match hexValue high, hexValue low with
  | some h, some l => if 16 * h + l < 128 then some (Char.ofNat (16 * h + l)) else none
  | _, _ => none

def decode : List Char → List Char
  | [] => []
  | c :: high :: low :: cs =>
      match if c = '%' then unescape high low else none with
      | some d => d :: decode cs
      | none => c :: decode (high :: low :: cs)
  | c :: cs => c :: decode cs

/-- `xs` decodes to `ys` in front of any text. -/
def Encodes (xs ys : List Char) : Prop := ∀ cs, decode (xs ++ cs) = ys ++ decode cs

theorem Encodes.decode {xs ys : List Char} (h : Encodes xs ys) : decode xs = ys := by
  have hnil := h []
  rw [List.append_nil] at hnil
  exact hnil.trans (List.append_nil ys)

theorem encodes_nil : Encodes [] [] := fun _ => rfl

theorem Encodes.append {xs ys xs' ys' : List Char} (h : Encodes xs ys) (h' : Encodes xs' ys') :
    Encodes (xs ++ xs') (ys ++ ys') := by
  intro cs
  rw [List.append_assoc, h, h', List.append_assoc]

/-- A character other than the percent sign stands for itself. -/
theorem decode_cons {c : Char} (h : c ≠ '%') (cs : List Char) :
    PercentEncoding.decode (c :: cs) = c :: PercentEncoding.decode cs := by
  match cs with
  | [] => rfl
  | [_] => rfl
  | _ :: _ :: _ => simp only [PercentEncoding.decode, if_neg h]

theorem encodes_plain {xs : List Char} (h : '%' ∉ xs) : Encodes xs xs := by
  induction xs with
  | nil => exact encodes_nil
  | cons c xs ih =>
      intro cs
      have hc : c ≠ '%' := fun he => h (he ▸ List.mem_cons_self)
      rw [List.cons_append, decode_cons hc, ih fun hmem => h (List.mem_cons_of_mem c hmem)]
      rfl

theorem encodes_escape {high low c : Char} (h : unescape high low = some c) :
    Encodes ['%', high, low] [c] := by
  intro cs
  show PercentEncoding.decode ('%' :: high :: low :: cs) = c :: PercentEncoding.decode cs
  simp only [PercentEncoding.decode, if_true, h]

/-- A join of encodings with an encoded separator encodes the join. -/
theorem Encodes.intercalate {α : Type*} {sep sep' : List Char} (hsep : Encodes sep sep')
    (enc dec : α → List Char) (items : List α) (h : ∀ a ∈ items, Encodes (enc a) (dec a)) :
    Encodes (sep.intercalate (items.map enc)) (sep'.intercalate (items.map dec)) := by
  induction items with
  | nil => exact encodes_nil
  | cons a items ih =>
      have ha := h a List.mem_cons_self
      have hitems := ih fun b hb => h b (List.mem_cons_of_mem a hb)
      cases items with
      | nil =>
          simp only [List.map_cons, List.map_nil, List.intercalate_singleton]
          exact ha
      | cons b items =>
          simp only [List.map_cons, List.intercalate_cons_cons] at hitems ⊢
          exact (ha.append hsep).append hitems

end PercentEncoding
