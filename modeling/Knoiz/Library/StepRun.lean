import Mathlib.Tactic.Common
import Mathlib.Data.List.Induction

/-!
# Runs of a partial step function

A system is a step function `σ → α → Option σ`: a label is enabled in a state when the step
answers `some`.  `run` plays a list of labels, `Along` says that every step of a run meets a
guard in the state it starts from, and the two invariant rules turn a fact about one step into
a fact about whole runs, with or without a guard.
-/

namespace StepRun

variable {σ α : Type*} {step : σ → α → Option σ}

/-- Play the labels one after another; `none` as soon as one of them is not enabled. -/
def run (step : σ → α → Option σ) : σ → List α → Option σ
  | s, [] => some s
  | s, a :: as => (step s a).bind fun t => run step t as

@[simp] theorem run_nil (s : σ) : run step s [] = some s := rfl

theorem run_cons (s : σ) (a : α) (as : List α) :
    run step s (a :: as) = (step s a).bind fun t => run step t as := rfl

theorem run_cons_eq_some {s t : σ} {a : α} {as : List α} :
    run step s (a :: as) = some t ↔ ∃ m, step s a = some m ∧ run step m as = some t := by
  rw [run_cons, Option.bind_eq_some_iff]

theorem run_append (s : σ) (as bs : List α) :
    run step s (as ++ bs) = (run step s as).bind fun t => run step t bs := by
  induction as generalizing s with
  | nil => rfl
  | cons a as ih =>
      simp only [List.cons_append, run_cons]
      cases step s a with
      | none => rfl
      | some m => simpa using ih m

theorem run_append_eq_some {s t : σ} {as bs : List α} :
    run step s (as ++ bs) = some t ↔ ∃ m, run step s as = some m ∧ run step m bs = some t := by
  rw [run_append, Option.bind_eq_some_iff]

/-- Every step of the run meets `G` in the state it starts from. -/
def Along (step : σ → α → Option σ) (G : σ → α → Prop) : σ → List α → Prop
  | _, [] => True
  | s, a :: as => G s a ∧ ∀ t, step s a = some t → Along step G t as

theorem Along.imp {G H : σ → α → Prop} (h : ∀ s a, G s a → H s a) {s : σ} {as : List α}
    (ha : Along step G s as) : Along step H s as := by
  induction as generalizing s with
  | nil => trivial
  | cons a as ih => exact ⟨h s a ha.1, fun t ht => ih (ha.2 t ht)⟩

/-- A run in two parts meets the guard when each part does. -/
theorem Along.append {G : σ → α → Prop} {s : σ} {as bs : List α} (ha : Along step G s as)
    (hb : ∀ m, run step s as = some m → Along step G m bs) : Along step G s (as ++ bs) := by
  induction as generalizing s with
  | nil => exact hb s rfl
  | cons a as ih =>
      refine ⟨ha.1, fun t ht => ih (ha.2 t ht) fun m hm => hb m ?_⟩
      exact run_cons_eq_some.mpr ⟨t, ht, hm⟩

/-- A fact about the labels of a run joins the guard. -/
theorem Along.and_labels {G : σ → α → Prop} {H : α → Prop} {s : σ} {as : List α}
    (hg : Along step G s as) (hH : ∀ a ∈ as, H a) :
    Along step (fun s a => G s a ∧ H a) s as := by
  induction as generalizing s with
  | nil => trivial
  | cons a as ih =>
      refine ⟨⟨hg.1, hH a List.mem_cons_self⟩, fun t ht => ih (hg.2 t ht) fun b hb => ?_⟩
      exact hH b (List.mem_cons_of_mem a hb)

theorem along_of_labels {H : α → Prop} {s : σ} {as : List α} (h : ∀ a ∈ as, H a) :
    Along step (fun _ a => H a) s as := by
  induction as generalizing s with
  | nil => trivial
  | cons a as ih =>
      exact ⟨h a List.mem_cons_self, fun t _ => ih fun b hb => h b (List.mem_cons_of_mem a hb)⟩

/-- **Guarded invariant rule.**  What one guarded step preserves, a guarded run preserves. -/
theorem run_invariant_along {I : σ → Prop} {G : σ → α → Prop}
    (hstep : ∀ s a t, I s → G s a → step s a = some t → I t) {s t : σ} {as : List α}
    (hs : I s) (hg : Along step G s as) (hr : run step s as = some t) : I t := by
  induction as generalizing s with
  | nil =>
      cases hr
      exact hs
  | cons a as ih =>
      obtain ⟨m, hm, hr⟩ := run_cons_eq_some.mp hr
      exact ih (hstep s a m hs hg.1 hm) (hg.2 m hm) hr

/-- The same rule for a guard on the labels alone. -/
theorem run_invariant_of_labels {I : σ → Prop} {H : α → Prop}
    (hstep : ∀ s a t, I s → H a → step s a = some t → I t) {s t : σ} {as : List α}
    (hs : I s) (hH : ∀ a ∈ as, H a) (hr : run step s as = some t) : I t :=
  run_invariant_along hstep hs (along_of_labels hH) hr

/-- **Invariant rule.**  What every step preserves, every run preserves. -/
theorem run_invariant {I : σ → Prop} (hstep : ∀ s a t, I s → step s a = some t → I t)
    {s t : σ} {as : List α} (hs : I s) (hr : run step s as = some t) : I t := by
  induction as generalizing s with
  | nil =>
      cases hr
      exact hs
  | cons a as ih =>
      obtain ⟨m, hm, hr⟩ := run_cons_eq_some.mp hr
      exact ih (hstep s a m hs hm) hr

/-- **Mark rule.**  When a step that violates the guard leaves a mark, and no later step takes it
away, a run that ends without the mark has met the guard.  `H` is what is known of every step. -/
theorem along_of_unmarked {I M : σ → Prop} {G H : σ → α → Prop}
    (hkeep : ∀ s a t, I s → H s a → G s a → step s a = some t → I t)
    (hmark : ∀ s a t, I s → H s a → ¬ G s a → step s a = some t → M t)
    (hstay : ∀ s a t, M s → H s a → step s a = some t → M t) {s t : σ} {as : List α}
    (hs : I s) (hH : Along step H s as) (hr : run step s as = some t) (hend : ¬ M t) :
    Along step G s as := by
  induction as generalizing s with
  | nil => trivial
  | cons a as ih =>
      obtain ⟨m, hm, hr⟩ := run_cons_eq_some.mp hr
      have hrest := hH.2 m hm
      by_cases hg : G s a
      · refine ⟨hg, fun m' hm' => ?_⟩
        cases hm.symm.trans hm'
        exact ih (hkeep s a m hs hH.1 hg hm) hrest hr
      · have hmarked := hmark s a m hs hH.1 hg hm
        exact absurd (run_invariant_along hstay hmarked hrest hr) hend

/-- The same rule for an invariant: what every step keeps or marks as lost is kept by a run that ends
without the mark. -/
theorem run_invariant_unmarked {I M : σ → Prop}
    (hkeep : ∀ s a t, I s → step s a = some t → M t ∨ I t)
    (hstay : ∀ s a t, M s → step s a = some t → M t) {s t : σ} {as : List α} (hs : I s)
    (hr : run step s as = some t) (hend : ¬ M t) : I t := by
  have hor : M t ∨ I t := by
    refine run_invariant (I := fun s => M s ∨ I s) (fun s a t h hst => ?_) (.inr hs) hr
    rcases h with h | h
    · exact .inl (hstay s a t h hst)
    · exact hkeep s a t h hst
  exact hor.resolve_left hend

/-- **Origin rule.**  When a fact can only come true by a step that meets `P`, a run that ends with
the fact, and did not begin with it, has a last such step, and the fact holds ever since. -/
theorem exists_origin {Q : σ → Prop} {P : σ → α → σ → Prop}
    (hcause : ∀ s a t, step s a = some t → Q t → Q s ∨ P s a t) {s t : σ} {as : List α}
    (hs : ¬ Q s) (hr : run step s as = some t) (ht : Q t) :
    ∃ pre a post m m', as = pre ++ a :: post ∧ run step s pre = some m ∧ step m a = some m' ∧
      P m a m' ∧ ∀ pre' n, pre' <+: post → run step m' pre' = some n → Q n := by
  induction as using List.reverseRecOn generalizing t with
  | nil =>
      cases hr
      exact absurd ht hs
  | append_singleton as a ih =>
      obtain ⟨m, hm, hlast⟩ := run_append_eq_some.mp hr
      obtain ⟨t', hstep, hnil⟩ := run_cons_eq_some.mp hlast
      cases hnil
      by_cases hq : Q m
      · obtain ⟨pre, b, post, n, n', rfl, hpre, hb, hp, hsince⟩ := ih hm hq
        refine ⟨pre, b, post ++ [a], n, n', by simp, hpre, hb, hp, fun pre' k hprefix hk => ?_⟩
        rcases List.prefix_concat_iff.mp hprefix with rfl | hprefix
        · -- the whole of the later part: it ends in `t`
          have hwhole : run step s (pre ++ b :: (post ++ [a])) = some k :=
            run_append_eq_some.mpr ⟨n, hpre, run_cons_eq_some.mpr ⟨n', hb, hk⟩⟩
          rw [List.append_assoc, List.cons_append] at hr
          cases hwhole.symm.trans hr
          exact ht
        · exact hsince pre' k hprefix hk
      · refine ⟨as, a, [], m, t, rfl, hm, hstep, (hcause m a t hstep ht).resolve_left hq, ?_⟩
        intro pre' n hprefix hn
        rw [List.prefix_nil.mp hprefix] at hn
        cases hn
        exact ht

/-! ### Parts of a system -/

section Project

variable {τ β : Type*} {step' : τ → β → Option τ} {f : σ → τ} {part : α → Option β}

/-- A part of a system takes its own steps, and is left alone by the others. -/
structure Projects (step : σ → α → Option σ) (step' : τ → β → Option τ) (f : σ → τ)
    (part : α → Option β) : Prop where
  own : ∀ s a t b, step s a = some t → part a = some b → step' (f s) b = some (f t)
  others : ∀ s a t, step s a = some t → part a = none → f t = f s

/-- **Projection rule.**  A run of the system is a run of its part. -/
theorem Projects.run (h : Projects step step' f part) {s t : σ} {as : List α}
    (hr : StepRun.run step s as = some t) :
    StepRun.run step' (f s) (as.filterMap part) = some (f t) := by
  induction as generalizing s with
  | nil =>
      cases hr
      rfl
  | cons a as ih =>
      obtain ⟨m, hm, hrest⟩ := run_cons_eq_some.mp hr
      cases hpart : part a with
      | none =>
          rw [List.filterMap_cons_none hpart, ← h.others s a m hm hpart]
          exact ih hrest
      | some b =>
          rw [List.filterMap_cons_some hpart]
          exact run_cons_eq_some.mpr ⟨f m, h.own s a m b hm hpart, ih hrest⟩

end Project

/-! ### Weights -/

/-- The weights of the steps of a run, added up. -/
def total (step : σ → α → Option σ) (weight : σ → α → ℕ) : σ → List α → ℕ
  | _, [] => 0
  | s, a :: as => weight s a + ((step s a).map fun t => total step weight t as).getD 0

theorem total_cons_of_some {weight : σ → α → ℕ} {s t : σ} {a : α} (h : step s a = some t)
    (as : List α) : total step weight s (a :: as) = weight s a + total step weight t as := by
  rw [total, h]
  rfl

/-- **Ledger rule.**  A quantity that each step raises by its weight is raised by a run by their
sum. -/
theorem run_total {I : σ → Prop} {q : σ → ℕ} {weight : σ → α → ℕ}
    (hstep : ∀ s a t, I s → step s a = some t → I t ∧ q t = q s + weight s a)
    {s t : σ} {as : List α} (hs : I s) (hr : run step s as = some t) :
    q t = q s + total step weight s as := by
  induction as generalizing s with
  | nil =>
      cases hr
      rfl
  | cons a as ih =>
      obtain ⟨m, hm, hr⟩ := run_cons_eq_some.mp hr
      obtain ⟨hi, hquantity⟩ := hstep s a m hs hm
      rw [ih hi hr, hquantity, total_cons_of_some hm, Nat.add_assoc]

end StepRun
