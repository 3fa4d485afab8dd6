import Knoiz.Library.ProgramLogic

/-!
# Two runs side by side

A program that may see only part of its state must not behave differently on two states that agree
on that part.  `Matches E` compares two results: both return the same value, or both raise the same
exception, and the final states are related by `E`.  `Alike E m n` says it of two programs from all
`E`-related states; the rules follow the constructs of `EStateM`.  With `m = n` it is the
statement that the program sees no more than `E` does.
-/

namespace ProgramLogic

variable {ε σ α β : Type} {E : σ → σ → Prop}

/-- The same value or the same exception, in related states. -/
inductive Matches (E : σ → σ → Prop) : EStateM.Result ε σ α → EStateM.Result ε σ α → Prop
  | ok {a : α} {s t : σ} (h : E s t) : Matches E (.ok a s) (.ok a t)
  | error {e : ε} {s t : σ} (h : E s t) : Matches E (.error e s) (.error e t)

/-- From related states the two programs have matching results. -/
def Alike (E : σ → σ → Prop) (m n : EStateM ε σ α) : Prop :=
  ∀ s t, E s t → Matches E (m.run s) (n.run t)

theorem Matches.final {m n : EStateM ε σ α} {s t : σ} (h : Matches E (m.run s) (n.run t)) :
    E (final m s) (final n t) := by
  generalize hm : m.run s = r at h
  generalize hn : n.run t = r' at h
  cases h with
  | ok h => rwa [final_of_ok hm, final_of_ok hn]
  | error h => rwa [final_of_error hm, final_of_error hn]

theorem Alike.pure (a : α) : Alike E (Pure.pure a : EStateM ε σ α) (Pure.pure a) :=
  fun _ _ h => .ok h

theorem Alike.raise (e : ε) : Alike E (throw e : EStateM ε σ α) (throw e) :=
  fun _ _ h => .error h

/-- Sequencing: the second parts start in related states, with one value. -/
theorem Alike.bind {m n : EStateM ε σ α} {f g : α → EStateM ε σ β} (hm : Alike E m n)
    (hf : ∀ a, Alike E (f a) (g a)) : Alike E (m >>= f) (n >>= g) := by
  intro s t hst
  have hmatch := hm s t hst
  simp only [EStateM.run_bind]
  generalize m.run s = r at hmatch
  generalize n.run t = r' at hmatch
  cases hmatch with
  | @ok a s' t' h => exact hf a s' t' h
  | error h => exact .error h

/-- Two programs that read their whole state first are compared on related states. -/
theorem Alike.get_bind {f g : σ → EStateM ε σ β} (h : ∀ s t, E s t → Alike E (f s) (g t)) :
    Alike E (get >>= f) (get >>= g) :=
  fun s t hst => h s t hst s t hst

/-- The same, where what was read is still the state. -/
theorem Alike.get_run {f g : σ → EStateM ε σ β}
    (h : ∀ s t, E s t → Matches E ((f s).run s) ((g t).run t)) :
    Alike E (get >>= f) (get >>= g) :=
  fun s t hst => h s t hst

theorem Alike.update {f g : σ → σ} (h : ∀ s t, E s t → E (f s) (g t)) :
    Alike E (modify f : EStateM ε σ PUnit) (modify g) :=
  fun s t hst => .ok (h s t hst)

theorem Alike.ite {c : Prop} [Decidable c] {m m' n n' : EStateM ε σ α} (hm : Alike E m n)
    (hm' : Alike E m' n') : Alike E (if c then m else m') (if c then n else n') := by
  split
  · exact hm
  · exact hm'

theorem Alike.rescue {m n : EStateM ε σ α} {h h' : ε → EStateM ε σ α} (hm : Alike E m n)
    (hh : ∀ e, Alike E (h e) (h' e)) : Alike E (tryCatch m h) (tryCatch n h') := by
  intro s t hst
  have hmatch := hm s t hst
  simp only [run_tryCatch]
  generalize m.run s = r at hmatch
  generalize n.run t = r' at hmatch
  cases hmatch with
  | ok h => exact .ok h
  | @error e s' t' h => exact hh e s' t' h

end ProgramLogic
