import Mathlib.Tactic.Common

/-!
# Jobs that are rerun when they raise

A job is executed from its beginning until an execution returns, at most `retries` times after the
first.  A pool holds the jobs that have been handed in; an execution picks one of those that are
pending.  What the proofs need of a pool is how many of its jobs are pending and how many have been
given up.
-/

namespace Retry

/-- Where a job stands, with the reruns that it has left. -/
inductive Status where
  | pending (retries : ℕ)
  | done
  | dead
  deriving DecidableEq, Repr

namespace Status

def isPending : Status → Bool
  | .pending _ => true
  | _ => false

def isDead : Status → Bool
  | .dead => true
  | _ => false

/-- The status after an execution; only a pending job is executed. -/
def next (raised : Bool) : Status → Option Status
  | .pending retries =>
      if raised then
        match retries with
        | 0 => some .dead
        | n + 1 => some (.pending n)
      else some .done
  | _ => none

/-- What an execution makes of a pending job. -/
theorem next_eq_some {raised : Bool} {s s' : Status} (h : s.next raised = some s') :
    s.isPending = true ∧ s.isDead = false ∧
      if raised then s'.isPending = true ∧ s'.isDead = false ∨
          s'.isPending = false ∧ s'.isDead = true
        else s' = .done := by
  cases s with
  | pending retries =>
      refine ⟨rfl, rfl, ?_⟩
      cases raised with
      | false =>
          cases h
          rfl
      | true =>
          cases retries with
          | zero =>
              cases h
              exact .inr ⟨rfl, rfl⟩
          | succ n =>
              cases h
              exact .inl ⟨rfl, rfl⟩
  | done => cases h
  | dead => cases h

end Status

/-- The jobs handed in so far, each with its arguments. -/
abbrev Pool (α : Type*) := List (α × Status)

variable {α : Type*} {pool pool' : Pool α} {k : ℕ} {raised : Bool}

/-- The pool after an execution of job `k`. -/
def execute (k : ℕ) (raised : Bool) (pool : Pool α) : Option (Pool α) :=
  match pool[k]? with
  | some job => (job.2.next raised).map fun status => pool.set k (job.1, status)
  | none => none

def pendingCount (pool : Pool α) : ℕ := pool.countP fun job => job.2.isPending

def deadCount (pool : Pool α) : ℕ := pool.countP fun job => job.2.isDead

/-- Handing a job in. -/
theorem pendingCount_concat (pool : Pool α) (a : α) (retries : ℕ) :
    pendingCount (pool ++ [(a, .pending retries)]) = pendingCount pool + 1 := by
  unfold pendingCount
  rw [List.countP_append]
  rfl

theorem deadCount_concat (pool : Pool α) (a : α) (retries : ℕ) :
    deadCount (pool ++ [(a, .pending retries)]) = deadCount pool := by
  unfold deadCount
  rw [List.countP_append]
  rfl

/-- An execution changes the status of its job only. -/
theorem countP_execute (h : execute k raised pool = some pool') :
    ∃ s s', s.next raised = some s' ∧ ∀ p : Status → Bool,
      pool'.countP (fun job => p job.2) + (if p s then 1 else 0) =
        pool.countP (fun job => p job.2) + if p s' then 1 else 0 := by
  unfold execute at h
  cases hjob : pool[k]? with
  | none =>
      rw [hjob] at h
      cases h
  | some job =>
      rw [hjob] at h
      obtain ⟨s', hs', rfl⟩ := Option.map_eq_some_iff.mp h
      obtain ⟨hk, hget⟩ := List.getElem?_eq_some_iff.mp hjob
      refine ⟨job.2, s', hs', fun p => ?_⟩
      have hle : (if p pool[k].2 then 1 else 0) ≤ pool.countP fun job => p job.2 :=
        List.boole_getElem_le_countP (p := fun job : α × Status => p job.2) hk
      have hset := List.countP_set (p := fun job : α × Status => p job.2) (a := (job.1, s')) hk
      simp only [hget] at hle hset
      omega

/-- A job that returns is no longer pending. -/
theorem execute_returned (h : execute k false pool = some pool') :
    pendingCount pool' + 1 = pendingCount pool ∧ deadCount pool' = deadCount pool := by
  obtain ⟨s, s', hs, hcount⟩ := countP_execute h
  obtain ⟨hpending, hdead, hdone⟩ := Status.next_eq_some hs
  have hs' : s' = .done := hdone
  have hp := hcount Status.isPending
  have hd := hcount Status.isDead
  rw [hpending, hs'] at hp
  rw [hdead, hs'] at hd
  exact ⟨hp, hd⟩

/-- A job that raises stays pending or is given up. -/
theorem execute_raised (h : execute k true pool = some pool') :
    pendingCount pool' = pendingCount pool ∧ deadCount pool' = deadCount pool ∨
      pendingCount pool' + 1 = pendingCount pool ∧ deadCount pool' = deadCount pool + 1 := by
  obtain ⟨s, s', hs, hcount⟩ := countP_execute h
  obtain ⟨hpending, hdead, hs'⟩ := Status.next_eq_some hs
  have hp := hcount Status.isPending
  have hd := hcount Status.isDead
  rw [hpending] at hp
  rw [hdead] at hd
  rcases hs' with ⟨hpending', hdead'⟩ | ⟨hpending', hdead'⟩
  · rw [hpending'] at hp
    rw [hdead'] at hd
    exact .inl ⟨Nat.add_right_cancel hp, hd⟩
  · rw [hpending'] at hp
    rw [hdead'] at hd
    exact .inr ⟨hp, hd⟩

end Retry
