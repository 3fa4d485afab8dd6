import Mathlib.Order.Defs.Unbundled
import Mathlib.Tactic.Common

/-!
# A program logic for state and exceptions

Programs are `EStateM ε σ α`: they read and write a state and may raise, and the state at the
point of the raise is kept.  `Spec R P m Q` reads: from every state that satisfies `P`, the
program `m` ends in an `R`-related state *whether it returns or raises*, and when it returns `a`
the final state satisfies `Q a`.  `R` is a preorder of the allowed effects, so that the rules for
sequencing and for rescuing an exception compose.
-/

namespace ProgramLogic

variable {ε σ α β : Type} {R : σ → σ → Prop} {P P' : σ → Prop} {Q Q' : α → σ → Prop}

/-- The state a program ends in, whether it returns or raises. -/
def final (m : EStateM ε σ α) (s : σ) : σ :=
  match m.run s with
  | .ok _ t => t
  | .error _ t => t

/-- The program raises. -/
def raises (m : EStateM ε σ α) (s : σ) : Bool :=
  match m.run s with
  | .ok _ _ => false
  | .error _ _ => true

theorem raises_of_ok {m : EStateM ε σ α} {s t : σ} {a : α} (h : m.run s = .ok a t) :
    raises m s = false := by
  unfold raises
  rw [h]

theorem raises_of_error {m : EStateM ε σ α} {s t : σ} {e : ε} (h : m.run s = .error e t) :
    raises m s = true := by
  unfold raises
  rw [h]

theorem final_of_ok {m : EStateM ε σ α} {s t : σ} {a : α} (h : m.run s = .ok a t) :
    final m s = t := by
  unfold final
  rw [h]

theorem final_of_error {m : EStateM ε σ α} {s t : σ} {e : ε} (h : m.run s = .error e t) :
    final m s = t := by
  unfold final
  rw [h]

theorem final_bind_ok {m : EStateM ε σ α} {f : α → EStateM ε σ β} {s t : σ} {a : α}
    (h : m.run s = .ok a t) : final (m >>= f) s = final (f a) t := by
  unfold final
  rw [EStateM.run_bind, h]

theorem final_bind_error {m : EStateM ε σ α} {f : α → EStateM ε σ β} {s t : σ} {e : ε}
    (h : m.run s = .error e t) : final (m >>= f) s = t := by
  unfold final
  rw [EStateM.run_bind, h]

theorem final_congr {m n : EStateM ε σ α} {s t : σ} (h : m.run s = n.run t) :
    final m s = final n t := by
  unfold final
  rw [h]

theorem run_tryCatch (m : EStateM ε σ α) (h : ε → EStateM ε σ α) (s : σ) :
    (tryCatch m h).run s =
      match m.run s with
      | .ok a t => .ok a t
      | .error e t => (h e).run t := by
  change EStateM.tryCatch m h s = _
  unfold EStateM.tryCatch EStateM.run
  cases m s <;> rfl

/-- A rescue that does nothing ends where the program ended, and returns. -/
theorem run_rescue_return (m : EStateM ε σ Unit) (s : σ) :
    (tryCatch m fun _ => pure ()).run s = .ok () (final m s) := by
  rw [run_tryCatch]
  unfold final
  cases m.run s <;> rfl

/-- A program that writes nothing, whether it returns or raises. -/
def Reads (m : EStateM ε σ α) : Prop :=
  ∀ s, (∃ a, m.run s = .ok a s) ∨ ∃ e, m.run s = .error e s

theorem Reads.pure (a : α) : Reads (Pure.pure a : EStateM ε σ α) := fun _ => .inl ⟨a, rfl⟩

theorem Reads.raise (e : ε) : Reads (throw e : EStateM ε σ α) := fun _ => .inr ⟨e, rfl⟩

theorem Reads.bind {m : EStateM ε σ α} {f : α → EStateM ε σ β} (hm : Reads m)
    (hf : ∀ a, Reads (f a)) : Reads (m >>= f) := by
  intro s
  rw [EStateM.run_bind]
  rcases hm s with ⟨a, ha⟩ | ⟨e, he⟩
  · rw [ha]
    exact hf a s
  · rw [he]
    exact .inr ⟨e, rfl⟩

theorem Reads.final {m : EStateM ε σ α} (h : Reads m) (s : σ) : final m s = s := by
  rcases h s with ⟨a, hrun⟩ | ⟨e, hrun⟩
  · exact final_of_ok hrun
  · exact final_of_error hrun

/-- The result of a run from `s` is allowed: the effect in both cases, `Q` on a return. -/
def Ends (R : σ → σ → Prop) (Q : α → σ → Prop) (s : σ) : EStateM.Result ε σ α → Prop
  | .ok a t => R s t ∧ Q a t
  | .error _ t => R s t

/-- From every state in `P`, `m` has only effects allowed by `R`, and returns into `Q`. -/
def Spec (R : σ → σ → Prop) (P : σ → Prop) (m : EStateM ε σ α) (Q : α → σ → Prop) : Prop :=
  ∀ s, P s → Ends R Q s (m.run s)

theorem Ends.imp {s : σ} {r : EStateM.Result ε σ α} (h : Ends R Q s r)
    (hQ : ∀ a t, R s t → Q a t → Q' a t) : Ends R Q' s r := by
  cases r with
  | ok a t => exact ⟨h.1, hQ a t h.1 h.2⟩
  | error e t => exact h

theorem Ends.after [IsTrans σ R] {s t : σ} {r : EStateM.Result ε σ α} (hst : R s t)
    (h : Ends R Q t r) : Ends R Q s r := by
  cases r with
  | ok a u => exact ⟨IsTrans.trans _ _ _ hst h.1, h.2⟩
  | error e u => exact IsTrans.trans _ _ _ hst h

theorem Spec.final_related {m : EStateM ε σ α} (h : Spec R P m Q) {s : σ} (hs : P s) :
    R s (final m s) := by
  have hm := h s hs
  unfold final
  cases hr : m.run s with
  | ok a t =>
      rw [hr] at hm
      exact hm.1
  | error e t =>
      rw [hr] at hm
      exact hm

theorem Spec.of_ok {m : EStateM ε σ α} (h : Spec R P m Q) {s t : σ} {a : α} (hs : P s)
    (hr : m.run s = .ok a t) : R s t ∧ Q a t := by
  have hm := h s hs
  rw [hr] at hm
  exact hm

theorem Spec.of_error {m : EStateM ε σ α} (h : Spec R P m Q) {s t : σ} {e : ε} (hs : P s)
    (hr : m.run s = .error e t) : R s t := by
  have hm := h s hs
  rw [hr] at hm
  exact hm

/-! ### Structural rules -/

theorem Spec.consequence {m : EStateM ε σ α} (h : Spec R P m Q) (hP : ∀ s, P' s → P s)
    (hQ : ∀ a s, Q a s → Q' a s) : Spec R P' m Q' :=
  fun s hs => (h s (hP s hs)).imp fun a t _ => hQ a t

/-- A larger effect relation allows at least as much. -/
theorem Spec.weaken {R' : σ → σ → Prop} {m : EStateM ε σ α} (h : Spec R P m Q)
    (hR : ∀ s t, R s t → R' s t) : Spec R' P m Q := by
  intro s hs
  have hm := h s hs
  cases hr : m.run s with
  | ok a t =>
      rw [hr] at hm
      exact ⟨hR _ _ hm.1, hm.2⟩
  | error e t =>
      rw [hr] at hm
      exact hR _ _ hm

/-- **Frame rule.**  A fact that every allowed effect preserves is carried through. -/
theorem Spec.frame {F : σ → Prop} (hF : ∀ s t, R s t → F s → F t) {m : EStateM ε σ α}
    (h : Spec R P m Q) : Spec R (fun s => P s ∧ F s) m (fun a s => Q a s ∧ F s) :=
  fun s hs => (h s hs.1).imp fun _ t hst hq => ⟨hq, hF s t hst hs.2⟩

/-- Reading the whole state first fixes it for what follows. -/
theorem Spec.get_bind {f : σ → EStateM ε σ β} {S : β → σ → Prop}
    (h : ∀ s, P s → Spec R (fun t => t = s) (f s) S) : Spec R P (get >>= f) S :=
  fun s hs => h s hs s rfl

/-- A state update is allowed when its effect is. -/
theorem Spec.update {f : σ → σ} {S : PUnit → σ → Prop} (h : ∀ s, P s → R s (f s) ∧ S ⟨⟩ (f s)) :
    Spec R P (modify f : EStateM ε σ PUnit) S :=
  fun s hs => h s hs

/-! ### Sequencing and exceptions -/

section Preorder

variable [IsPreorder σ R]

theorem Spec.pure {a : α} (h : ∀ s, P s → Q a s) :
    Spec R P (Pure.pure a : EStateM ε σ α) Q :=
  fun s hs => ⟨refl s, h s hs⟩

theorem Spec.raise {e : ε} : Spec R P (throw e : EStateM ε σ α) Q :=
  fun s _ => refl (r := R) s

/-- Sequencing: the effects compose by transitivity of `R`. -/
theorem Spec.bind {m : EStateM ε σ α} {f : α → EStateM ε σ β} {S : β → σ → Prop}
    (hm : Spec R P m Q) (hf : ∀ a, Spec R (Q a) (f a) S) : Spec R P (m >>= f) S := by
  intro s hs
  rw [EStateM.run_bind]
  cases hr : m.run s with
  | error e t => exact hm.of_error hs hr
  | ok a t =>
      obtain ⟨hst, hq⟩ := hm.of_ok hs hr
      exact (hf a t hq).after hst

/-- Rescuing: the handler starts in some state that the effects so far allow. -/
theorem Spec.rescue {m : EStateM ε σ α} {h : ε → EStateM ε σ α} (hm : Spec R P m Q)
    (hh : ∀ e, Spec R (fun t => ∃ s, P s ∧ R s t) (h e) Q) :
    Spec R P (tryCatch m h) Q := by
  intro s hs
  rw [run_tryCatch]
  cases hr : m.run s with
  | ok a t => exact hm.of_ok hs hr
  | error e t =>
      have hst := hm.of_error hs hr
      exact (hh e t ⟨s, hs, hst⟩).after hst

end Preorder

/-! ### Programs of which only the effect matters -/

/-- Whatever the program does, from whatever state, is allowed by `R`. -/
def Within (R : σ → σ → Prop) (m : EStateM ε σ α) : Prop :=
  Spec R (fun _ => True) m fun _ _ => True

theorem Within.of_spec {m : EStateM ε σ α} (h : Spec R (fun _ => True) m Q) : Within R m :=
  h.consequence (fun _ hs => hs) fun _ _ _ => trivial

theorem Within.final {m : EStateM ε σ α} (h : Within R m) (s : σ) : R s (final m s) :=
  h.final_related trivial

theorem Within.get_bind {f : σ → EStateM ε σ β} (hf : ∀ s, Within R (f s)) :
    Within R (get >>= f) :=
  Spec.get_bind fun s _ => (hf s).consequence (fun _ _ => trivial) fun _ _ ht => ht

theorem Within.update {f : σ → σ} (h : ∀ s, R s (f s)) :
    Within R (modify f : EStateM ε σ PUnit) :=
  Spec.update fun s _ => ⟨h s, trivial⟩

theorem Within.ite {c : Prop} [Decidable c] {m n : EStateM ε σ α} (hm : Within R m)
    (hn : Within R n) : Within R (if c then m else n) := by
  split
  · exact hm
  · exact hn

section Preorder

variable [IsPreorder σ R]

theorem Within.pure (a : α) : Within R (Pure.pure a : EStateM ε σ α) := Spec.pure fun _ hs => hs

theorem Within.raise (e : ε) : Within R (throw e : EStateM ε σ α) := Spec.raise

theorem Within.of_reads {m : EStateM ε σ α} (h : Reads m) : Within R m := by
  intro s _
  rcases h s with ⟨a, ha⟩ | ⟨e, he⟩
  · rw [ha]
    exact ⟨refl s, trivial⟩
  · rw [he]
    exact refl (r := R) s

theorem Within.bind {m : EStateM ε σ α} {f : α → EStateM ε σ β} (hm : Within R m)
    (hf : ∀ a, Within R (f a)) : Within R (m >>= f) := Spec.bind hm hf

theorem Within.rescue {m : EStateM ε σ α} {h : ε → EStateM ε σ α} (hm : Within R m)
    (hh : ∀ e, Within R (h e)) : Within R (tryCatch m h) :=
  Spec.rescue hm fun e => (hh e).consequence (fun _ _ => trivial) fun _ _ ht => ht

end Preorder

end ProgramLogic
