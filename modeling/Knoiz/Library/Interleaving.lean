import Knoiz.Library.StepRun
import Mathlib.Logic.Function.Basic

/-!
# Processes interleaved over a shared store

A process is a local state, its program counter and the copies it holds, and `next` says which
atomic step it takes on the shared store.  A step of the whole names a process and an input for it;
a run is any interleaving.  The rule at the end is the one for assertions: what each process claims
about the store is established by its own steps and must not be disturbed by those of the others.
-/

namespace Interleaving

open StepRun

variable {ι σ π α : Type*} [DecidableEq ι]

/-- The shared store and the local state of each process. -/
structure Config (ι σ π : Type*) where
  store : σ
  locals : ι → π

/-- Process `a.1` takes its next step, with input `a.2`. -/
def step (next : ι → σ → π → α → Option (σ × π)) (c : Config ι σ π) (a : ι × α) :
    Option (Config ι σ π) :=
  (next a.1 c.store (c.locals a.1) a.2).map fun p => ⟨p.1, Function.update c.locals a.1 p.2⟩

variable {next : ι → σ → π → α → Option (σ × π)} {c c' : Config ι σ π}

/-- What a step of process `i` does: its own local state and the store change, nothing else. -/
theorem step_eq_some {i : ι} {a : α} (h : step next c (i, a) = some c') :
    ∃ s' l', next i c.store (c.locals i) a = some (s', l') ∧ c'.store = s' ∧
      c'.locals i = l' ∧ ∀ j, j ≠ i → c'.locals j = c.locals j := by
  obtain ⟨⟨s', l'⟩, hnext, rfl⟩ := Option.map_eq_some_iff.mp h
  exact ⟨s', l', hnext, rfl, Function.update_self .., fun j hj => Function.update_of_ne hj ..⟩

/-- A process alone: the store and its own local state. -/
def soloStep (next : ι → σ → π → α → Option (σ × π)) (i : ι) (p : σ × π) (a : α) :
    Option (σ × π) := next i p.1 p.2 a

/-- **Alone.**  The steps of one process, with none of another in between, are its own program. -/
theorem run_solo {i : ι} {as : List α} {p p' : σ × π} (hp : p = (c.store, c.locals i))
    (hrun : StepRun.run (soloStep next i) p as = some p') :
    ∃ c', StepRun.run (step next) c (as.map fun a => (i, a)) = some c' ∧ c'.store = p'.1 ∧
      c'.locals i = p'.2 ∧ ∀ j, j ≠ i → c'.locals j = c.locals j := by
  induction as generalizing p c with
  | nil =>
      cases hrun
      subst hp
      exact ⟨c, rfl, rfl, rfl, fun _ _ => rfl⟩
  | cons a as ih =>
      obtain ⟨m, hm, hrest⟩ := run_cons_eq_some.mp hrun
      subst hp
      have hstep : step next c (i, a) = some ⟨m.1, Function.update c.locals i m.2⟩ := by
        unfold step
        rw [show next i c.store (c.locals i) a = some m from hm, Option.map_some]
      have hm' : m = (m.1, Function.update c.locals i m.2 i) := by
        rw [Function.update_self]
      obtain ⟨c', hc', hstore, hself, hothers⟩ :=
        ih (c := ⟨m.1, Function.update c.locals i m.2⟩) hm' hrest
      refine ⟨c', run_cons_eq_some.mpr ⟨_, hstep, hc'⟩, hstore, hself, fun j hj => ?_⟩
      rw [hothers j hj]
      exact Function.update_of_ne hj ..

/-- **A phase.**  Processes that stand at one place each take their next step, one after another. -/
theorem run_phase {P : σ → Prop} {f : ι → σ → σ} {l l' : π} {a : α}
    (hnext : ∀ i s, P s → next i s l a = some (f i s, l')) (hP : ∀ i s, P s → P (f i s))
    {is : List ι} (hnodup : is.Nodup) (his : ∀ i ∈ is, c.locals i = l) (hc : P c.store) :
    ∃ c', StepRun.run (step next) c (is.map fun i => (i, a)) = some c' ∧
      (∀ i ∈ is, c'.locals i = l') ∧ (∀ i, i ∉ is → c'.locals i = c.locals i) ∧
      c'.store = is.foldl (fun s i => f i s) c.store ∧ P c'.store := by
  induction is generalizing c with
  | nil => exact ⟨c, rfl, by simp, fun _ _ => rfl, rfl, hc⟩
  | cons i is ih =>
      obtain ⟨hnot, hrest⟩ := List.nodup_cons.mp hnodup
      have hstep : step next c (i, a) = some ⟨f i c.store, Function.update c.locals i l'⟩ := by
        unfold step
        rw [his i List.mem_cons_self, hnext i c.store hc, Option.map_some]
      have hothers : ∀ j ∈ is, Function.update c.locals i l' j = l := by
        intro j hj
        have hji : j ≠ i := fun h => hnot (h ▸ hj)
        rw [Function.update_of_ne hji, his j (List.mem_cons_of_mem i hj)]
      obtain ⟨c', hrun, hdone, hkept, hstore, hend⟩ :=
        ih (c := ⟨f i c.store, Function.update c.locals i l'⟩) hrest hothers (hP i c.store hc)
      refine ⟨c', run_cons_eq_some.mpr ⟨_, hstep, hrun⟩, fun j hj => ?_, fun j hj => ?_, hstore, hend⟩
      · rcases List.mem_cons.mp hj with rfl | hmem
        · rw [hkept j hnot]
          exact Function.update_self ..
        · exact hdone j hmem
      · rw [List.mem_cons, not_or] at hj
        rw [hkept j hj.2]
        exact Function.update_of_ne hj.1 ..

/-- The store satisfies `I`, and every process what it claims of the store in its local state. -/
def Holds (I : σ → Prop) (A : ι → σ → π → Prop) (c : Config ι σ π) : Prop :=
  I c.store ∧ ∀ i, A i c.store (c.locals i)

/-- **Assertion rule.**  Own steps establish a process's claim, the steps of others keep it. -/
theorem holds_step {I : σ → Prop} {A : ι → σ → π → Prop} {i : ι} {a : α}
    (own : ∀ s' l', I c.store → A i c.store (c.locals i) →
      next i c.store (c.locals i) a = some (s', l') → I s' ∧ A i s' l')
    (others : ∀ s' l' j, j ≠ i → I c.store → A i c.store (c.locals i) →
      A j c.store (c.locals j) → next i c.store (c.locals i) a = some (s', l') →
      A j s' (c.locals j))
    (hc : Holds I A c) (hstep : step next c (i, a) = some c') : Holds I A c' := by
  obtain ⟨s', l', hnext, hstore, hself, hrest⟩ := step_eq_some hstep
  obtain ⟨hI, hA⟩ := own s' l' hc.1 (hc.2 i) hnext
  refine ⟨hstore ▸ hI, fun j => ?_⟩
  by_cases hj : j = i
  · subst hj
    rw [hstore, hself]
    exact hA
  · rw [hstore, hrest j hj]
    exact others s' l' j hj hc.1 (hc.2 i) (hc.2 j) hnext

/-! ### Serial schedules -/

/-- The blocks one after another, each the whole of one process, numbered from `n`. -/
def serial (n : ℕ) : List (List α) → List (ℕ × α)
  | [] => []
  | as :: blocks => as.map (fun a => (n, a)) ++ serial (n + 1) blocks

theorem serial_concat (n : ℕ) (blocks : List (List α)) (as : List α) :
    serial n (blocks ++ [as]) = serial n blocks ++ as.map fun a => (n + blocks.length, a) := by
  induction blocks generalizing n with
  | nil => simp [serial]
  | cons bs blocks ih =>
      have hnumber : n + 1 + blocks.length = n + (bs :: blocks).length := by
        rw [List.length_cons]
        omega
      rw [List.cons_append, serial, serial, ih, hnumber, List.append_assoc]

/-- **One more.**  After a serial schedule, the next process runs alone. -/
theorem run_serial_concat {next : ℕ → σ → π → α → Option (σ × π)} {c₀ c : Config ℕ σ π}
    {blocks : List (List α)} {as : List α} {p : σ × π}
    (hrun : StepRun.run (step next) c₀ (serial 0 blocks) = some c)
    (hsolo : StepRun.run (soloStep next blocks.length) (c.store, c.locals blocks.length) as = some p) :
    ∃ c', StepRun.run (step next) c₀ (serial 0 (blocks ++ [as])) = some c' ∧ c'.store = p.1 ∧
      c'.locals blocks.length = p.2 ∧ ∀ j, j ≠ blocks.length → c'.locals j = c.locals j := by
  obtain ⟨c', hc', hends⟩ := run_solo rfl hsolo
  refine ⟨c', ?_, hends⟩
  rw [serial_concat, Nat.zero_add]
  exact run_append_eq_some.mpr ⟨c, hrun, hc'⟩

end Interleaving
