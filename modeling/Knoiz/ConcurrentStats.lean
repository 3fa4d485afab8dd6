import Knoiz.StatsSpacing
import Knoiz.Library.Interleaving
import Knoiz.Library.PartialUpdate
import Mathlib.Data.Finset.Card
import Mathlib.Tactic.Ring

/-!
# Stats jobs among concurrent requests

Several requests of one user run in different threads.  Each loads the `spotifydata` of the user,
looks at the time stamp of its copy twice, in the concern and again in the service, hands a job to
the queue, reads the clock and stamps the row, each in a statement of its own.  Requests that have
loaded the row before it is stamped hand in a job each; and a request that is late with its own
stamp writes an old time over a new one, after which the next requests hand in a job each.

A request is in flight from its load to its stamp.  With at most `n` requests in flight at a time,
at most `1 + 2 + … + n` jobs are handed in within any 24 hours, and so many can be.
-/

namespace Knoiz.ConcurrentStats

open Calendar Interleaving PartialUpdate

/-- The stored time stamp of the user, and the jobs that have reached the queue, each with its request
and its time. -/
structure Store (ι : Type) where
  clock : ℤ
  timestamp : Option ℤ
  jobs : List (ι × ℤ)

/-- Where a request stands, with the time stamp of its copy. -/
inductive Local where
  | idle
  | loaded (timestamp : Option ℤ)
  | required (timestamp : ℤ)
  | due (timestamp : ℤ)
  | enqueued (timestamp : ℤ)
  | stamping (timestamp now : ℤ)
  | done
  deriving DecidableEq, Repr

/-- The request has loaded the row and may yet stamp it. -/
def Local.inFlight : Local → Bool
  | .idle | .done => false
  | _ => true

/-- What a step meets: how long it takes, and whether its statement raises. -/
structure Input where
  delay : ℕ
  raises : Bool := false
  deriving DecidableEq, Repr

section Model

variable {ι : Type}

/-- One atomic step of request `i`.  The service swallows what its statements raise. -/
def next (i : ι) (s : Store ι) (l : Local) (input : Input) : Option (Store ι × Local) :=
  let s := { s with clock := s.clock + input.delay }
  match l with
  | .idle => some (s, .loaded s.timestamp)
  | .loaded none => some (s, .done)
  | .loaded (some timestamp) =>
      some (s, if statsDue timestamp s.clock then .required timestamp else .done)
  | .required timestamp =>
      some (s, if statsDue timestamp s.clock then .due timestamp else .done)
  | .due timestamp =>
      some (if input.raises then (s, .done)
        else ({ s with jobs := s.jobs ++ [(i, s.clock)] }, .enqueued timestamp))
  | .enqueued timestamp => some (s, .stamping timestamp s.clock)
  | .stamping timestamp now =>
      some (if input.raises then s
        else { s with timestamp := writeColumn (some timestamp) (some now) s.timestamp }, .done)
  | .done => none

/-- A run of the requests, in any order. -/
def run [DecidableEq ι] (c : Config ι (Store ι) Local) (schedule : List (ι × Input)) :
    Option (Config ι (Store ι) Local) :=
  StepRun.run (Interleaving.step next) c schedule

end Model

/-- Every request is still to come. -/
def start {ι : Type} (clock : ℤ) (timestamp : Option ℤ) : Config ι (Store ι) Local :=
  ⟨⟨clock, timestamp, []⟩, fun _ => .idle⟩

/-- The jobs handed in within 24 hours from `t` on. -/
def Store.window {ι : Type} (s : Store ι) (t : ℤ) : List (ι × ℤ) :=
  s.jobs.filter fun job => t ≤ job.2 ∧ job.2 < t + 24 * hour

/-! ### What a step does -/

section Change

variable {ι : Type} {i : ι} {s s' : Store ι} {l l' : Local} {input : Input}

/-- The time stamp of the copy that a request has before it hands in its job. -/
def Local.copy : Local → Option ℤ
  | .loaded timestamp => timestamp
  | .required timestamp | .due timestamp => some timestamp
  | _ => none

/-- The job has been handed in, and the stamp is to come. -/
def Local.handed : Local → Bool
  | .enqueued _ | .stamping _ _ => true
  | _ => false

/-- The request is about to write a time from before `t`. -/
def Local.stale (t : ℤ) : Local → Bool
  | .stamping _ now => now < t
  | _ => false

/-- Only the clock has moved. -/
structure Waited (s s' : Store ι) : Prop where
  clock : s.clock ≤ s'.clock
  timestamp : s'.timestamp = s.timestamp
  jobs : s'.jobs = s.jobs

theorem statsDue_iff {timestamp now : ℤ} :
    statsDue timestamp now = true ↔ timestamp + 24 * hour ≤ now := by
  unfold statsDue
  rw [decide_eq_true_iff]
  omega

/-- What a step of request `i` does. -/
inductive Change (i : ι) (s s' : Store ι) : Local → Local → Prop
  | load (hs : Waited s s') : Change i s s' .idle (.loaded s.timestamp)
  | leave {l : Local} (hs : Waited s s') (hl : l.handed = false) : Change i s s' l .done
  | require {timestamp : ℤ} (hs : Waited s s') (hdue : timestamp + 24 * hour ≤ s'.clock) :
      Change i s s' (.loaded (some timestamp)) (.required timestamp)
  | pass {timestamp : ℤ} (hs : Waited s s') : Change i s s' (.required timestamp) (.due timestamp)
  | enqueue {timestamp : ℤ} (hclock : s.clock ≤ s'.clock) (hstamp : s'.timestamp = s.timestamp)
      (hjobs : s'.jobs = s.jobs ++ [(i, s'.clock)]) :
      Change i s s' (.due timestamp) (.enqueued timestamp)
  | read {timestamp : ℤ} (hs : Waited s s') :
      Change i s s' (.enqueued timestamp) (.stamping timestamp s'.clock)
  | stamp {timestamp now : ℤ} (hclock : s.clock ≤ s'.clock)
      (hstamp : s'.timestamp = writeColumn (some timestamp) (some now) s.timestamp)
      (hjobs : s'.jobs = s.jobs) : Change i s s' (.stamping timestamp now) .done

/-- The UPDATE of the time stamp, if this step is one, goes through. -/
def StampWritten (l : Local) (input : Input) : Prop :=
  ∀ timestamp now, l = .stamping timestamp now → input.raises = false

theorem next_change (hwritten : StampWritten l input)
    (hnext : next i s l input = some (s', l')) : Change i s s' l l' := by
  have hclock : s.clock ≤ s.clock + input.delay := by omega
  have hwaited : Waited s { s with clock := s.clock + input.delay } := ⟨hclock, rfl, rfl⟩
  cases l with
  | idle =>
      cases hnext
      exact .load hwaited
  | loaded timestamp =>
      cases timestamp with
      | none =>
          cases hnext
          exact .leave hwaited rfl
      | some timestamp =>
          cases hnext
          split
          · rename_i hdue
            exact .require hwaited (statsDue_iff.mp hdue)
          · exact .leave hwaited rfl
  | required timestamp =>
      cases hnext
      split
      · exact .pass hwaited
      · exact .leave hwaited rfl
  | due timestamp =>
      simp only [next, Option.some.injEq] at hnext
      split at hnext
      · cases hnext
        exact .leave hwaited rfl
      · cases hnext
        exact .enqueue hclock rfl rfl
  | enqueued timestamp =>
      cases hnext
      exact .read hwaited
  | stamping timestamp now =>
      have hraises := hwritten timestamp now rfl
      simp only [next, hraises] at hnext
      cases hnext
      exact .stamp hclock rfl rfl
  | done => cases hnext

/-! ### One request alone -/

/-- The UPDATE writes the time, which is not the one that was loaded. -/
theorem write_stamp {timestamp now : ℤ} (h : timestamp + 24 * hour ≤ now) (stored : Option ℤ) :
    writeColumn (some timestamp) (some now) stored = some now := by
  apply writeColumn_changed
  have hhour : (0 : ℤ) < hour := by decide
  simp only [ne_eq, Option.some.injEq]
  omega

/-- The clock moves from `a` to `b`. -/
def wait (a b : ℤ) : Input := ⟨(b - a).toNat, false⟩

theorem add_wait {a b : ℤ} (h : a ≤ b) : a + ((wait a b).delay : ℤ) = b := by
  simp only [wait]
  omega

section Alone

variable {ι : Type} (i : ι) {s n m t : Ctx} {id : ℕ} {stamp : ℤ}

/-- The checks of the filter are the first steps of the request. -/
theorem solo_checks (hstamp : statsStamp s.toServer id = some stamp) (hid : s.currentUser = some id)
    (hdue : Due s n id) (inputs : List Input) :
    ∃ q, StepRun.run (soloStep next i) (⟨s.clock, some stamp, []⟩, .idle)
        (⟨0, false⟩ :: wait s.clock q :: wait q n.clock :: inputs) =
      StepRun.run (soloStep next i) (⟨n.clock, some stamp, []⟩, .due stamp) inputs := by
  obtain ⟨m, hrequired, hneeds⟩ := hdue.checks
  obtain ⟨m', hrequired', hsm⟩ := statsCollectionRequired_of_stamp hid hstamp
  rw [hrequired] at hrequired'
  injection hrequired' with hfirst hm
  subst hm
  have hidm : m.currentUser = some id := hsm.currentUser.trans hid
  have hstampm : statsStamp m.toServer id = some stamp := by
    unfold statsStamp
    rw [hsm.db]
    exact hstamp
  obtain ⟨n', hneeds', hmn⟩ := statsNeedsUpdating_run hidm hstampm
  rw [hneeds] at hneeds'
  injection hneeds' with hsecond hn
  subst hn
  refine ⟨m.clock, ?_⟩
  simp only [StepRun.run_cons, soloStep, next, Nat.cast_zero, add_zero, Option.bind_some,
    add_wait hsm.clock, add_wait hmn.clock, ← hfirst, ← hsecond, if_true]

/-- The job goes into the queue. -/
theorem solo_enqueue {store : Store ι} {b : ℤ} (h : store.clock ≤ b) :
    soloStep next i (store, .due stamp) (wait store.clock b) =
      some ({ store with clock := b, jobs := store.jobs ++ [(i, b)] }, .enqueued stamp) := by
  simp only [soloStep, next, add_wait h]
  rfl

/-- The clock is read. -/
theorem solo_read {store : Store ι} {b : ℤ} (h : store.clock ≤ b) :
    soloStep next i (store, .enqueued stamp) (wait store.clock b) =
      some ({ store with clock := b }, .stamping stamp b) := by
  simp only [soloStep, next, add_wait h]

/-- The row is stamped. -/
theorem solo_stamp {store : Store ι} {b : ℤ} (hdue : stamp + 24 * hour ≤ b) :
    soloStep next i (store, .stamping stamp b) ⟨0, false⟩ =
      some ({ store with timestamp := some b }, .done) := by
  simp only [soloStep, next, write_stamp hdue, Nat.cast_zero, add_zero]
  rfl

theorem eq_of_due (hdue : Due s n id) {id' : ℕ} (hid : s.currentUser = some id') : id = id' :=
  Option.some.inj (hdue.user.symm.trans (hdue.quiet.currentUser.trans hid))

/-- **Alone.**  The filter is a request that runs by itself: the same jobs, the same stamp. -/
theorem collect_refines (hid : s.currentUser = some id)
    (hstamp : statsStamp s.toServer id = some stamp) :
    ∃ t new inputs, collectStats.run s = .ok () t ∧ statsJobs t.log = statsJobs s.log ++ new ∧
      StepRun.run (soloStep next i) (⟨s.clock, some stamp, []⟩, .idle) inputs =
        some (⟨t.clock, statsStamp t.toServer id, new.map fun job => (i, job.2)⟩, .done) := by
  obtain ⟨t, hrun, hcollects⟩ := collectStats_run s
  have hquiet : ∀ {t}, Quiet s t → statsStamp t.toServer id = some stamp := by
    intro t hq
    unfold statsStamp
    rw [hq.db]
    exact hstamp
  cases hcollects with
  | idle required quiet =>
      obtain ⟨t', hrequired, hst⟩ := statsCollectionRequired_of_stamp hid hstamp
      rw [required] at hrequired
      injection hrequired with hdue ht
      subst ht
      refine ⟨t, [], [⟨0, false⟩, wait s.clock t.clock], hrun, ?_, ?_⟩
      · rw [quiet.log, List.append_nil]
      · rw [hquiet quiet]
        simp only [StepRun.run_cons, StepRun.run_nil, soloStep, next, Nat.cast_zero, add_zero,
          Option.bind_some, add_wait quiet.clock, ← hdue]
        rfl
  | raised due raises =>
      cases eq_of_due due hid
      obtain ⟨q, hchecks⟩ := solo_checks i hstamp hid due [⟨0, true⟩]
      refine ⟨t, [], _, hrun, ?_, hchecks.trans ?_⟩
      · rw [due.quiet.log, List.append_nil]
      · rw [hquiet due.quiet]
        simp [StepRun.run_cons, StepRun.run_nil, soloStep, next]
  | @unstamped n m _ _ content due clean before after raises =>
      cases eq_of_due due hid
      obtain ⟨q, hchecks⟩ := solo_checks i hstamp hid due
        [wait n.clock m.clock, wait m.clock t.clock, ⟨0, true⟩]
      have hpushed : (m.pushed content id).log
          = s.log ++ [.enqueued (.stats content id) m.clock] := by
        show m.log ++ _ = _
        rw [before.log, due.quiet.log]
      refine ⟨t, [(id, m.clock)], _, hrun, ?_, hchecks.trans ?_⟩
      · rw [after.log, hpushed, statsJobs_append]
        rfl
      · have hkept : statsStamp t.toServer id = some stamp := by
          unfold statsStamp
          rw [after.db]
          exact hquiet (t := m) (due.quiet.trans before)
        rw [hkept, StepRun.run_cons, solo_enqueue i before.clock, Option.bind_some,
          StepRun.run_cons, solo_read i after.clock, Option.bind_some]
        simp only [StepRun.run_cons, StepRun.run_nil, soloStep, next, Option.bind_some,
          Nat.cast_zero, add_zero, if_true]
        rfl
  | @stamped n m t _ content due clean before after =>
      cases eq_of_due due hid
      obtain ⟨q, hchecks⟩ := solo_checks i hstamp hid due
        [wait n.clock m.clock, wait m.clock t.clock, ⟨0, false⟩]
      have hpushed : (m.pushed content id).log
          = s.log ++ [.enqueued (.stats content id) m.clock] := by
        show m.log ++ _ = _
        rw [before.log, due.quiet.log]
      refine ⟨_, [(id, m.clock)], _, hrun, ?_, hchecks.trans ?_⟩
      · rw [after.log, hpushed, statsJobs_append]
        rfl
      · have hkept : statsStamp t.toServer id = some stamp := by
          unfold statsStamp
          rw [after.db]
          exact hquiet (t := m) (due.quiet.trans before)
        have hwritten : statsStamp { t with db := t.db.amendSpotifydata id fun row =>
            { row with timestamp := some t.clock } }.toServer id = some t.clock := by
          obtain ⟨row, hrow, -⟩ := Option.bind_eq_some_iff.mp hkept
          show ((RowTable.amend id _ t.db.spotifydata).lookup id).bind _ = _
          rw [RowTable.lookup_amend_self, hrow]
          rfl
        have hdue : stamp + 24 * hour ≤ t.clock := by
          obtain ⟨stamp', hstamp', hle⟩ := due.stamp
          cases hstamp.symm.trans hstamp'
          have hbefore := before.clock
          have hafter : m.clock ≤ t.clock := after.clock
          omega
        rw [hwritten, StepRun.run_cons, solo_enqueue i before.clock, Option.bind_some,
          StepRun.run_cons, solo_read i after.clock, Option.bind_some, StepRun.run_cons,
          solo_stamp i hdue]
        rfl

end Alone

/-! ### What a request claims -/

/-- No job is later than the clock, and no request has two. -/
structure Sound (s : Store ι) : Prop where
  past : ∀ job ∈ s.jobs, job.2 ≤ s.clock
  nodup : (s.jobs.map Prod.fst).Nodup

/-- What request `i` claims: before it enqueues a job it has none, and it enqueues one only with a
copy that is due. -/
def Claim (i : ι) (s : Store ι) : Local → Prop
  | .idle | .loaded _ => i ∉ s.jobs.map Prod.fst
  | .required timestamp | .due timestamp =>
      i ∉ s.jobs.map Prod.fst ∧ timestamp + 24 * hour ≤ s.clock
  | .enqueued timestamp => timestamp + 24 * hour ≤ s.clock
  | .stamping timestamp now => timestamp + 24 * hour ≤ now
  | .done => True

/-- A claim looks at the clock, and in the queue for its own job only. -/
theorem Claim.congr (h : Claim i s l) (hclock : s.clock ≤ s'.clock)
    (hjobs : i ∈ s'.jobs.map Prod.fst ↔ i ∈ s.jobs.map Prod.fst) : Claim i s' l := by
  cases l with
  | idle | loaded timestamp => exact fun hmem => h (hjobs.mp hmem)
  | required timestamp | due timestamp => exact ⟨fun hmem => h.1 (hjobs.mp hmem), h.2.trans hclock⟩
  | enqueued timestamp => exact le_trans h hclock
  | stamping timestamp now => exact h
  | done => trivial

theorem Sound.of_waited (h : Sound s) (hclock : s.clock ≤ s'.clock) (hjobs : s'.jobs = s.jobs) :
    Sound s' := by
  constructor
  · intro job hjob
    rw [hjobs] at hjob
    exact (h.past job hjob).trans hclock
  · rw [hjobs]
    exact h.nodup

theorem sound_step (hs : Sound s) (h : Claim i s l) (hchange : Change i s s' l l') :
    Sound s' ∧ Claim i s' l' ∧ s.clock ≤ s'.clock ∧
      ∀ j, j ≠ i → (j ∈ s'.jobs.map Prod.fst ↔ j ∈ s.jobs.map Prod.fst) := by
  cases hchange with
  | load hw =>
      refine ⟨hs.of_waited hw.clock hw.jobs, ?_, hw.clock, fun j _ => by rw [hw.jobs]⟩
      show i ∉ s'.jobs.map Prod.fst
      rw [hw.jobs]
      exact h
  | leave hw _ =>
      exact ⟨hs.of_waited hw.clock hw.jobs, trivial, hw.clock, fun j _ => by rw [hw.jobs]⟩
  | require hw hdue =>
      refine ⟨hs.of_waited hw.clock hw.jobs, ⟨?_, hdue⟩, hw.clock, fun j _ => by rw [hw.jobs]⟩
      rw [hw.jobs]
      exact h
  | pass hw =>
      refine ⟨hs.of_waited hw.clock hw.jobs, ⟨?_, h.2.trans hw.clock⟩, hw.clock,
        fun j _ => by rw [hw.jobs]⟩
      rw [hw.jobs]
      exact h.1
  | enqueue hclock _ hjobs =>
      refine ⟨⟨fun job hjob => ?_, ?_⟩, h.2.trans hclock, hclock, fun j hj => ?_⟩
      · rw [hjobs] at hjob
        rcases List.mem_append.mp hjob with hold | hnew
        · exact (hs.past job hold).trans hclock
        · rw [List.mem_singleton.mp hnew]
      · rw [hjobs, List.map_append, List.nodup_append]
        refine ⟨hs.nodup, List.nodup_singleton _, ?_⟩
        rintro j hj k hk rfl
        rw [List.mem_singleton.mp hk] at hj
        exact h.1 hj
      · rw [hjobs]
        simp [hj]
  | read hw =>
      exact ⟨hs.of_waited hw.clock hw.jobs, le_trans h hw.clock, hw.clock, fun j _ => by rw [hw.jobs]⟩
  | stamp hclock _ hjobs =>
      exact ⟨hs.of_waited hclock hjobs, trivial, hclock, fun j _ => by rw [hjobs]⟩

end Change

/-! ### The bound -/

/-- `1 + 2 + … + n`. -/
def triangle : ℕ → ℕ
  | 0 => 0
  | n + 1 => triangle n + (n + 1)

theorem triangle_eq (n : ℕ) : triangle n = n * (n + 1) / 2 := by
  induction n with
  | zero => rfl
  | succ n ih =>
      rw [triangle, ih]
      have hstep : (n + 1) * (n + 1 + 1) = n * (n + 1) + (n + 1) * 2 := by ring
      rw [hstep, Nat.add_mul_div_right _ _ Nat.two_pos]

theorem triangle_mono : Monotone triangle :=
  monotone_nat_of_le_succ fun n => Nat.le_add_right (triangle n) (n + 1)

theorem triangle_pred_add (m : ℕ) : triangle (m - 1) + m = triangle m := by
  cases m with
  | zero => rfl
  | succ m => rfl

theorem le_triangle (m : ℕ) : m ≤ triangle m := by
  rw [← triangle_pred_add m]
  exact Nat.le_add_left _ _

/-! ### Jobs in a window -/

section Window

variable {ι : Type} {n : ℕ} {t : ℤ} {c c' : Config ι (Store ι) Local}

/-- At most `n` requests are in flight. -/
def AtMost (n : ℕ) (c : Config ι (Store ι) Local) : Prop :=
  ∃ flight : Finset ι, flight.card ≤ n ∧ ∀ i, (c.locals i).inFlight = true → i ∈ flight

/-- The row has been stamped since `t`. -/
def Stamped (t : ℤ) (s : Store ι) : Prop := ∃ w, s.timestamp = some w ∧ t ≤ w

/-- The copy of the request is from before `t`. -/
def Early (t : ℤ) (l : Local) : Prop := ∃ w, l.copy = some w ∧ w < t

/-- As long as the row is stamped, the requests with a job in the window and those that can still
get into it are `settled`.  When a stale stamp has opened the window again, the requests that have
got into it since are all in flight, and one stale request is gone. -/
structure Phase (n : ℕ) (t : ℤ) (c : Config ι (Store ι) Local) (stale settled handing : Finset ι) :
    Prop where
  stale_iff : ∀ i, (c.locals i).stale t = true ↔ i ∈ stale
  closed : Stamped t c.store → settled.card ≤ triangle (n - stale.card) ∧
    (∀ job ∈ c.store.window t, job.1 ∈ settled) ∧ ∀ i, Early t (c.locals i) → i ∈ settled
  opened : ¬Stamped t c.store → settled.card ≤ triangle (n - stale.card - 1) ∧
    handing.card ≤ n - stale.card ∧ ∀ job ∈ c.store.window t, job.1 ∈ settled ∨
      job.1 ∈ handing ∧ (c.locals job.1).handed = true ∧ (c.locals job.1).stale t = false

/-- From the beginning of the window on, the phases are counted by the stale requests that are
left. -/
def Bounded (n : ℕ) (t : ℤ) (c : Config ι (Store ι) Local) : Prop :=
  t ≤ c.store.clock → ∃ stale settled handing : Finset ι, Phase n t c stale settled handing

theorem Early.inFlight {l : Local} (h : Early t l) : l.inFlight = true := by
  obtain ⟨w, hcopy, -⟩ := h
  cases l with
  | idle | done => cases hcopy
  | _ => rfl

theorem Early.not_stale {l : Local} (h : Early t l) : l.stale t = false := by
  obtain ⟨w, hcopy, -⟩ := h
  cases l with
  | stamping timestamp now => cases hcopy
  | _ => rfl

theorem inFlight_of_handed {l : Local} (h : l.handed = true) : l.inFlight = true := by
  cases l with
  | enqueued timestamp | stamping timestamp now => rfl
  | _ => cases h

theorem handed_of_stale {l : Local} (h : l.stale t = true) : l.handed = true := by
  cases l with
  | stamping timestamp now => rfl
  | _ => cases h

theorem mem_window {s : Store ι} {job : ι × ℤ} :
    job ∈ s.window t ↔ job ∈ s.jobs ∧ t ≤ job.2 ∧ job.2 < t + 24 * hour := by
  unfold Store.window
  rw [List.mem_filter, decide_eq_true_iff]

/-- A window that is still to come is empty. -/
theorem window_future {s : Store ι} (hs : Sound s) (ht : s.clock < t) {job : ι × ℤ} :
    job ∉ s.window t := by
  intro hjob
  obtain ⟨hmem, hle, -⟩ := mem_window.mp hjob
  have := hs.past job hmem
  omega

section Change

variable {i : ι} {s s' : Store ι} {l l' : Local}

/-- A job that gets into the window is of this request, whose copy is from before. -/
theorem window_step (hchange : Change i s s' l l') (hclaim : Claim i s l) {job : ι × ℤ}
    (hjob : job ∈ s'.window t) :
    job ∈ s.window t ∨ job.1 = i ∧ Early t l ∧ l'.handed = true := by
  obtain ⟨hmem, hle, hlt⟩ := mem_window.mp hjob
  have hsame : s'.jobs = s.jobs → job ∈ s.window t := by
    intro hjobs
    rw [hjobs] at hmem
    exact mem_window.mpr ⟨hmem, hle, hlt⟩
  cases hchange with
  | load hw | leave hw _ | require hw _ | pass hw | read hw => exact .inl (hsame hw.jobs)
  | stamp _ _ hjobs => exact .inl (hsame hjobs)
  | @enqueue timestamp hclock _ hjobs =>
      rw [hjobs] at hmem
      rcases List.mem_append.mp hmem with hold | hnew
      · exact .inl (mem_window.mpr ⟨hold, hle, hlt⟩)
      · rw [List.mem_singleton.mp hnew] at hlt ⊢
        have hdue := hclaim.2
        exact .inr ⟨rfl, ⟨timestamp, rfl, by omega⟩, rfl⟩

/-- A request comes to hold a copy from before by loading the row when it is not stamped. -/
theorem early_step (hchange : Change i s s' l l') (h : Early t l') :
    Early t l ∨ ¬Stamped t s' := by
  obtain ⟨w, hcopy, hw⟩ := h
  cases hchange with
  | load hwaited =>
      right
      rintro ⟨w', hstored, hle⟩
      rw [hwaited.timestamp, show s.timestamp = some w from hcopy] at hstored
      cases hstored
      omega
  | leave _ _ => cases hcopy
  | require _ _ | pass _ => exact .inl ⟨w, hcopy, hw⟩
  | enqueue _ _ _ | read _ | stamp _ _ _ => cases hcopy

/-- A time that is read inside the window is not from before it. -/
theorem fresh_step (hchange : Change i s s' l l') (ht : t ≤ s'.clock) : l'.stale t = false := by
  cases hchange with
  | read _ =>
      show decide (s'.clock < t) = false
      rw [decide_eq_false_iff_not]
      omega
  | _ => rfl

/-- The stamp writes the time that the request holds. -/
theorem stamped_iff {timestamp now : ℤ} (hclaim : Claim i s (.stamping timestamp now))
    (hstamp : s'.timestamp = writeColumn (some timestamp) (some now) s.timestamp) :
    Stamped t s' ↔ t ≤ now := by
  rw [write_stamp hclaim] at hstamp
  unfold Stamped
  rw [hstamp]
  simp

/-- Only a stale stamp opens the window again. -/
theorem stale_of_opened (hchange : Change i s s' l l') (hclaim : Claim i s l) (h : Stamped t s)
    (hnot : ¬Stamped t s') : l.stale t = true := by
  have hsame : s'.timestamp = s.timestamp → Stamped t s' := by
    intro hstamp
    unfold Stamped
    rw [hstamp]
    exact h
  cases hchange with
  | load hw | leave hw _ | require hw _ | pass hw | read hw => exact absurd (hsame hw.timestamp) hnot
  | enqueue _ hstamp _ => exact absurd (hsame hstamp) hnot
  | @stamp timestamp now _ hstamp _ =>
      rw [stamped_iff hclaim hstamp] at hnot
      show decide (now < t) = true
      rw [decide_eq_true_iff]
      omega

/-- A request that is not stale stays on the way to its stamp as long as the window is open. -/
theorem handed_step (hchange : Change i s s' l l') (hclaim : Claim i s l) (hl : l.handed = true)
    (hfresh : l.stale t = false) (hnot : ¬Stamped t s') : l'.handed = true := by
  cases hchange with
  | leave _ hleft =>
      rw [hleft] at hl
      cases hl
  | enqueue _ _ _ | read _ => rfl
  | @stamp timestamp now _ hstamp _ =>
      rw [stamped_iff hclaim hstamp] at hnot
      have hlate : ¬now < t := of_decide_eq_false hfresh
      omega
  | load _ | require _ _ | pass _ => cases hl

end Change

/-! ### A step of one request among the others -/

/-- Request `i` moves, and the others stay. -/
structure Moves (i : ι) (c c' : Config ι (Store ι) Local) : Prop where
  change : Change i c.store c'.store (c.locals i) (c'.locals i)
  claim : Claim i c.store (c.locals i)
  others : ∀ j, j ≠ i → c'.locals j = c.locals j

section Moves

variable {i j : ι} (h : Moves i c c')
include h

theorem Moves.stale (ht : t ≤ c'.store.clock) (hj : (c'.locals j).stale t = true) :
    (c.locals j).stale t = true := by
  by_cases hji : j = i
  · subst hji
    rw [fresh_step h.change ht] at hj
    cases hj
  · rwa [h.others j hji] at hj

theorem Moves.early (hst : Stamped t c'.store) (hj : Early t (c'.locals j)) :
    Early t (c.locals j) := by
  by_cases hji : j = i
  · subst hji
    exact (early_step h.change hj).resolve_right fun hnot => hnot hst
  · rwa [h.others j hji] at hj

/-- No step makes a request stale. -/
theorem Moves.fresh (ht : t ≤ c'.store.clock) (hj : (c.locals j).stale t = false) :
    (c'.locals j).stale t = false := by
  by_contra hstale
  rw [Bool.not_eq_false] at hstale
  rw [h.stale ht hstale] at hj
  cases hj

end Moves

/-- The stale ones among some requests. -/
def staleAmong (t : ℤ) (c : Config ι (Store ι) Local) (flight : Finset ι) : Finset ι :=
  flight.filter fun j => (c.locals j).stale t = true

/-- The others. -/
def freshAmong (t : ℤ) (c : Config ι (Store ι) Local) (flight : Finset ι) : Finset ι :=
  flight.filter fun j => ¬(c.locals j).stale t = true

section Step

variable {i j : ι} {flight stale settled handing : Finset ι}

theorem card_fresh (hcard : flight.card ≤ n) :
    (freshAmong t c flight).card ≤ n - (staleAmong t c flight).card := by
  have hboth := Finset.card_filter_add_card_filter_not (s := flight)
    fun j => (c.locals j).stale t = true
  unfold freshAmong staleAmong
  omega

theorem mem_fresh (hj : j ∈ flight) (hfresh : (c.locals j).stale t = false) :
    j ∈ freshAmong t c flight := by
  refine Finset.mem_filter.mpr ⟨hj, ?_⟩
  rw [hfresh]
  exact Bool.false_ne_true

/-- The stale requests after a step are among those that were in flight. -/
theorem Moves.stale_iff (h : Moves i c c') (ht : t ≤ c'.store.clock)
    (hflight : ∀ j, (c.locals j).inFlight = true → j ∈ flight) (j : ι) :
    (c'.locals j).stale t = true ↔ j ∈ staleAmong t c' flight := by
  refine ⟨fun hj => Finset.mem_filter.mpr ⟨?_, hj⟩, fun hj => (Finset.mem_filter.mp hj).2⟩
  exact hflight j (inFlight_of_handed (handed_of_stale (h.stale ht hj)))

/-- There are no more of them than before. -/
theorem Phase.stale_subset (hp : Phase n t c stale settled handing) (h : Moves i c c')
    (ht : t ≤ c'.store.clock) : staleAmong t c' flight ⊆ stale := by
  intro j hj
  exact (hp.stale_iff j).mp (h.stale ht (Finset.mem_filter.mp hj).2)

/-- **Into the window.**  At its beginning no job is in it yet. -/
theorem bounded_enter (h : Moves i c c') (hsound : Sound c.store) (hbefore : c.store.clock < t)
    (ht : t ≤ c'.store.clock) (hcard : flight.card ≤ n)
    (hflight : ∀ j, (c.locals j).inFlight = true → j ∈ flight) :
    ∃ stale settled handing, Phase n t c' stale settled handing := by
  have hroom : (freshAmong t c' flight).card ≤ n - (staleAmong t c' flight).card := card_fresh hcard
  have hnew : ∀ job ∈ c'.store.window t, job.1 ∈ flight ∧ (c'.locals job.1).handed = true ∧
      (c'.locals job.1).stale t = false := by
    intro job hjob
    rcases window_step h.change h.claim hjob with hold | ⟨hi, hearly, hhanded⟩
    · exact absurd hold (window_future hsound hbefore)
    · rw [hi]
      exact ⟨hflight i hearly.inFlight, hhanded, h.fresh ht hearly.not_stale⟩
  by_cases hst : Stamped t c'.store
  · refine ⟨_, freshAmong t c' flight, ∅, h.stale_iff ht hflight, fun _ => ?_,
      fun hnot => absurd hst hnot⟩
    refine ⟨hroom.trans (le_triangle _), fun job hjob => ?_, fun j hj => ?_⟩
    · obtain ⟨hmem, -, hfresh⟩ := hnew job hjob
      exact mem_fresh hmem hfresh
    · have hearly := h.early hst hj
      exact mem_fresh (hflight j hearly.inFlight) hj.not_stale
  · refine ⟨_, ∅, freshAmong t c' flight, h.stale_iff ht hflight, fun hst' => absurd hst' hst,
      fun _ => ?_⟩
    refine ⟨by simp, hroom, fun job hjob => .inr ?_⟩
    obtain ⟨hmem, hhanded, hfresh⟩ := hnew job hjob
    exact ⟨mem_fresh hmem hfresh, hhanded, hfresh⟩

/-- **While the window is closed.**  Whoever can get into it is settled; a stale stamp opens it. -/
theorem Phase.step_closed (hp : Phase n t c stale settled handing) (h : Moves i c c')
    (ht : t ≤ c'.store.clock) (hst : Stamped t c.store)
    (hflight : ∀ j, (c.locals j).inFlight = true → j ∈ flight) :
    ∃ stale settled handing, Phase n t c' stale settled handing := by
  obtain ⟨hsettled, hjobs, hearly⟩ := hp.closed hst
  have hfewer : staleAmong t c' flight ⊆ stale := hp.stale_subset h ht
  have hjobs' : ∀ job ∈ c'.store.window t, job.1 ∈ settled := by
    intro job hjob
    rcases window_step h.change h.claim hjob with hold | ⟨hi, hcopy, -⟩
    · exact hjobs job hold
    · rw [hi]
      exact hearly i hcopy
  refine ⟨_, settled, ∅, h.stale_iff ht hflight, fun hst' => ⟨?_, hjobs', fun j hj => ?_⟩,
    fun hnot => ⟨?_, by simp, fun job hjob => .inl (hjobs' job hjob)⟩⟩
  · have hcard := Finset.card_le_card hfewer
    exact hsettled.trans (triangle_mono (by omega))
  · exact hearly j (h.early hst' hj)
  · -- the request that has written the old time was stale
    have hstale := stale_of_opened h.change h.claim hst hnot
    have hdone : i ∉ staleAmong t c' flight := by
      rw [← h.stale_iff ht hflight, fresh_step h.change ht]
      exact Bool.false_ne_true
    have hlt : (staleAmong t c' flight).card < stale.card :=
      Finset.card_lt_card ((Finset.ssubset_iff_of_subset hfewer).mpr
        ⟨i, (hp.stale_iff i).mp hstale, hdone⟩)
    exact hsettled.trans (triangle_mono (by omega))

variable [DecidableEq ι]

/-- **While the window is open.**  Whoever gets into it is in flight; the first stamp closes it. -/
theorem Phase.step_opened (hp : Phase n t c stale settled handing) (h : Moves i c c')
    (ht : t ≤ c'.store.clock) (hnot : ¬Stamped t c.store) (hcard : flight.card ≤ n)
    (hflight : ∀ j, (c.locals j).inFlight = true → j ∈ flight) :
    ∃ stale settled handing, Phase n t c' stale settled handing := by
  obtain ⟨hsettled, -, hjobs⟩ := hp.opened hnot
  have hfewer : (staleAmong t c' flight).card ≤ stale.card :=
    Finset.card_le_card (hp.stale_subset h ht)
  have hroom : (freshAmong t c' flight).card ≤ n - (staleAmong t c' flight).card := card_fresh hcard
  have hsettled' : settled.card ≤ triangle (n - (staleAmong t c' flight).card - 1) :=
    hsettled.trans (triangle_mono (by omega))
  have hjobs' : ∀ job ∈ c'.store.window t, job.1 ∈ settled ∨
      job.1 ∈ freshAmong t c' flight ∧ (c'.locals job.1).stale t = false ∧
        (¬Stamped t c'.store → (c'.locals job.1).handed = true) := by
    intro job hjob
    rcases window_step h.change h.claim hjob with hold | ⟨hi, hcopy, hhanded⟩
    · rcases hjobs job hold with hsettled | ⟨-, hhanded, hfresh⟩
      · exact .inl hsettled
      · have hfresh' := h.fresh ht hfresh
        have hmem := mem_fresh (hflight _ (inFlight_of_handed hhanded)) hfresh'
        refine .inr ⟨hmem, hfresh', fun hst => ?_⟩
        by_cases hi : job.1 = i
        · rw [hi] at hhanded hfresh ⊢
          exact handed_step h.change h.claim hhanded hfresh hst
        · rw [h.others _ hi]
          exact hhanded
    · have hfresh' := h.fresh ht hcopy.not_stale
      rw [hi]
      exact .inr ⟨mem_fresh (hflight i hcopy.inFlight) hfresh', hfresh', fun _ => hhanded⟩
  by_cases hst : Stamped t c'.store
  · -- what was open is settled
    refine ⟨_, settled ∪ freshAmong t c' flight, ∅, h.stale_iff ht hflight,
      fun _ => ⟨?_, fun job hjob => ?_, fun j hj => ?_⟩, fun hnot => absurd hst hnot⟩
    · rw [← triangle_pred_add]
      exact (Finset.card_union_le _ _).trans (Nat.add_le_add hsettled' hroom)
    · rw [Finset.mem_union]
      exact (hjobs' job hjob).imp_right And.left
    · exact Finset.mem_union_right _
        (mem_fresh (hflight j (h.early hst hj).inFlight) hj.not_stale)
  · refine ⟨_, settled, freshAmong t c' flight, h.stale_iff ht hflight, fun hst' => absurd hst' hst,
      fun _ => ⟨hsettled', hroom, fun job hjob => (hjobs' job hjob).imp_right fun hopen => ?_⟩⟩
    exact ⟨hopen.1, hopen.2.2 hst, hopen.2.1⟩

end Step

theorem bounded_start (clock : ℤ) (timestamp : Option ℤ) :
    Bounded n t (start clock timestamp : Config ι (Store ι) Local) := by
  refine fun _ => ⟨∅, ∅, ∅, fun i => by simp [start, Local.stale], fun _ => ⟨by simp, ?_, ?_⟩,
    fun _ => ⟨by simp, by simp, ?_⟩⟩
  · intro job hjob
    exact absurd hjob (by simp [start, Store.window])
  · intro i hearly
    exact absurd hearly.inFlight (by simp [start, Local.inFlight])
  · intro job hjob
    exact absurd hjob (by simp [start, Store.window])

variable [DecidableEq ι]

/-- What every step keeps: what is said of the clock and the queue, and the claims. -/
def Claims (c : Config ι (Store ι) Local) : Prop := Holds Sound Claim c

/-- The guard of a run: few in flight, and no stamp fails. -/
def Fair (n : ℕ) (c : Config ι (Store ι) Local) (a : ι × Input) : Prop :=
  AtMost n c ∧ StampWritten (c.locals a.1) a.2

theorem claims_step {a : ι × Input} (hc : Claims c) (hfair : Fair n c a)
    (hstep : Interleaving.step next c a = some c') : Claims c' :=
  holds_step
    (fun _ _ hs h hnext =>
      have hkept := sound_step hs h (next_change hfair.2 hnext)
      ⟨hkept.1, hkept.2.1⟩)
    (fun _ _ j hj hs h hj' hnext =>
      have hkept := sound_step hs h (next_change hfair.2 hnext)
      hj'.congr hkept.2.2.1 (hkept.2.2.2 j hj)) hc hstep

/-- **A step.** -/
theorem bounded_step {a : ι × Input} (hc : Claims c) (hfair : Fair n c a) (h : Bounded n t c)
    (hstep : Interleaving.step next c a = some c') : Bounded n t c' := by
  obtain ⟨i, input⟩ := a
  obtain ⟨⟨flight, hcard, hflight⟩, hwritten⟩ := hfair
  obtain ⟨s', l', hnext, hstore, hself, hrest⟩ := step_eq_some hstep
  have hchange := next_change hwritten hnext
  rw [← hstore, ← hself] at hchange
  have hmoves : Moves i c c' := ⟨hchange, hc.2 i, hrest⟩
  intro ht
  by_cases hbefore : c.store.clock < t
  · exact bounded_enter hmoves hc.1 hbefore ht hcard hflight
  · obtain ⟨stale, settled, handing, hphase⟩ := h (by omega)
    by_cases hst : Stamped t c.store
    · exact hphase.step_closed hmoves ht hst hflight
    · exact hphase.step_opened hmoves ht hst hcard hflight

/-- **A run.** -/
theorem bounded_run {schedule : List (ι × Input)} (hc : Claims c) (h : Bounded n t c)
    (hfair : StepRun.Along (Interleaving.step next) (Fair n) c schedule)
    (hrun : run c schedule = some c') : Claims c' ∧ Bounded n t c' :=
  StepRun.run_invariant_along (I := fun c => Claims c ∧ Bounded n t c)
    (fun _ _ _ hi hfair hstep => ⟨claims_step hi.1 hfair hstep, bounded_step hi.1 hfair hi.2 hstep⟩)
    ⟨hc, h⟩ hfair hrun

omit [DecidableEq ι] in
theorem claims_start (clock : ℤ) (timestamp : Option ℤ) :
    Claims (start clock timestamp : Config ι (Store ι) Local) :=
  ⟨⟨fun _ hjob => absurd hjob List.not_mem_nil, List.nodup_nil⟩, fun _ => List.not_mem_nil⟩

/-- The jobs in the window are of the settled requests, and while it is open of those handing in. -/
theorem Bounded.jobs_among (hc : Claims c) (h : Bounded n t c) :
    ∃ among : Finset ι, among.card ≤ triangle n ∧ ∀ job ∈ c.store.window t, job.1 ∈ among := by
  by_cases ht : c.store.clock < t
  · exact ⟨∅, by simp, fun job hjob => absurd hjob (window_future hc.1 ht)⟩
  · obtain ⟨stale, settled, handing, hphase⟩ := h (by omega)
    by_cases hst : Stamped t c.store
    · obtain ⟨hsettled, hjobs, -⟩ := hphase.closed hst
      exact ⟨settled, hsettled.trans (triangle_mono (Nat.sub_le _ _)), hjobs⟩
    · obtain ⟨hsettled, hhanding, hjobs⟩ := hphase.opened hst
      refine ⟨settled ∪ handing, ?_, fun job hjob => ?_⟩
      · calc (settled ∪ handing).card
            ≤ settled.card + handing.card := Finset.card_union_le _ _
          _ ≤ triangle (n - stale.card - 1) + (n - stale.card) := Nat.add_le_add hsettled hhanding
          _ = triangle (n - stale.card) := triangle_pred_add _
          _ ≤ triangle n := triangle_mono (Nat.sub_le _ _)
      · rw [Finset.mem_union]
        exact (hjobs job hjob).imp_right And.left

/-- No request has two jobs. -/
theorem Bounded.length_window (hc : Claims c) (h : Bounded n t c) :
    (c.store.window t).length ≤ triangle n := by
  obtain ⟨among, hcard, hjobs⟩ := h.jobs_among hc
  have hnodup : ((c.store.window t).map Prod.fst).Nodup :=
    hc.1.nodup.sublist (List.filter_sublist.map _)
  have hsubset : ((c.store.window t).map Prod.fst).toFinset ⊆ among := by
    intro i hi
    obtain ⟨job, hjob, rfl⟩ := List.mem_map.mp (List.mem_toFinset.mp hi)
    exact hjobs job hjob
  calc (c.store.window t).length
      = ((c.store.window t).map Prod.fst).toFinset.card := by
        rw [List.toFinset_card_of_nodup hnodup, List.length_map]
    _ ≤ among.card := Finset.card_le_card hsubset
    _ ≤ triangle n := hcard

end Window

/-! ### The bound is reached -/

section Together

variable {ι : Type} [DecidableEq ι] {n : ℕ} {clock stamp : ℤ} {c : Config ι (Store ι) Local}
  {is : List ι}

/-- Each of some requests takes its next step, at once. -/
def each (is : List ι) : List (ι × Input) := is.map fun i => (i, ⟨0, false⟩)

/-- The requests of a list have come to `l`, and the others have stayed. -/
structure Reach (is : List ι) (l : Local) (c c' : Config ι (Store ι) Local) : Prop where
  here : ∀ i ∈ is, c'.locals i = l
  others : ∀ i, i ∉ is → c'.locals i = c.locals i

omit [DecidableEq ι] in
theorem Reach.trans {l l' : Local} {c m c' : Config ι (Store ι) Local} (h : Reach is l c m)
    (h' : Reach is l' m c') : Reach is l' c c' :=
  ⟨h'.here, fun i hi => (h'.others i hi).trans (h.others i hi)⟩

/-- They take a step that leaves the store. -/
theorem each_wait (hnodup : is.Nodup) {l : Local} (l' : Local) {s : Store ι}
    (hnext : ∀ i, next i s l ⟨0, false⟩ = some (s, l')) (hlocals : ∀ i ∈ is, c.locals i = l)
    (hstore : c.store = s) :
    ∃ c', run c (each is) = some c' ∧ Reach is l' c c' ∧ c'.store = s := by
  obtain ⟨c', hrun, hhere, hothers, -, hsame⟩ := run_phase (P := fun s' => s' = s) (f := fun _ s => s)
    (fun i s' hs' => hs' ▸ hnext i) (fun _ _ h => h) hnodup hlocals hstore
  exact ⟨c', hrun, ⟨hhere, hothers⟩, hsame⟩

omit [DecidableEq ι] in
theorem foldl_enqueue (is : List ι) (s : Store ι) :
    is.foldl (fun s i => { s with jobs := s.jobs ++ [(i, s.clock)] }) s =
      { s with jobs := s.jobs ++ is.map fun i => (i, s.clock) } := by
  induction is generalizing s with
  | nil => simp
  | cons i is ih => simp [ih]

omit [DecidableEq ι] in
theorem foldl_stamp (hne : is ≠ []) (w : ℤ) (s : Store ι) :
    is.foldl (fun s _ => { s with timestamp := some w }) s = { s with timestamp := some w } := by
  induction is generalizing s with
  | nil => exact absurd rfl hne
  | cons i is ih =>
      cases is with
      | nil => rfl
      | cons j is => exact ih (List.cons_ne_nil j is) _

/-- Load, two checks, the job, the clock. -/
def handIn (is : List ι) : List (ι × Input) :=
  each is ++ (each is ++ (each is ++ (each is ++ each is)))

/-- Requests that take these steps in turn hand in a job each, and hold the time. -/
theorem handIn_run (hnodup : is.Nodup) (hidle : ∀ i ∈ is, c.locals i = .idle)
    (hclock : c.store.clock = clock) (hstamp : c.store.timestamp = some stamp)
    (hdue : stamp + 24 * hour ≤ clock) :
    ∃ c', run c (handIn is) = some c' ∧ Reach is (.stamping stamp clock) c c' ∧
      c'.store = { c.store with jobs := c.store.jobs ++ is.map fun i => (i, clock) } := by
  subst hclock
  have hdue' : statsDue stamp c.store.clock = true := statsDue_iff.mpr hdue
  obtain ⟨c₁, hrun₁, hreach₁, hstore₁⟩ := each_wait hnodup (.loaded c.store.timestamp)
    (fun i => by simp [next]) hidle rfl
  rw [hstamp] at hreach₁
  obtain ⟨c₂, hrun₂, hreach₂, hstore₂⟩ := each_wait hnodup (.required stamp)
    (fun i => by simp [next, hdue']) hreach₁.here hstore₁
  obtain ⟨c₃, hrun₃, hreach₃, hstore₃⟩ := each_wait hnodup (.due stamp)
    (fun i => by simp [next, hdue']) hreach₂.here hstore₂
  have henqueue : ∀ (i : ι) (s : Store ι), True → next i s (.due stamp) ⟨0, false⟩ =
      some ({ s with jobs := s.jobs ++ [(i, s.clock)] }, .enqueued stamp) :=
    fun i s _ => by simp [next]
  obtain ⟨c₄, hrun₄, hhere₄, hothers₄, hstore₄, -⟩ := run_phase henqueue (fun _ _ _ => trivial)
    hnodup hreach₃.here trivial
  rw [foldl_enqueue, hstore₃] at hstore₄
  obtain ⟨c₅, hrun₅, hreach₅, hstore₅⟩ := each_wait hnodup (.stamping stamp c.store.clock)
    (fun i => by simp [next]) hhere₄ hstore₄
  refine ⟨c₅, ?_, ?_, hstore₅⟩
  · exact StepRun.run_append_eq_some.mpr ⟨c₁, hrun₁, StepRun.run_append_eq_some.mpr ⟨c₂, hrun₂,
      StepRun.run_append_eq_some.mpr ⟨c₃, hrun₃, StepRun.run_append_eq_some.mpr ⟨c₄, hrun₄, hrun₅⟩⟩⟩⟩
  · exact hreach₁.trans (hreach₂.trans (hreach₃.trans (Reach.trans ⟨hhere₄, hothers₄⟩ hreach₅)))

/-- And when they stamp the row, they are done. -/
theorem batch_run (hne : is ≠ []) (hnodup : is.Nodup) (hidle : ∀ i ∈ is, c.locals i = .idle)
    (hclock : c.store.clock = clock) (hstamp : c.store.timestamp = some stamp)
    (hdue : stamp + 24 * hour ≤ clock) :
    ∃ c', run c (handIn is ++ each is) = some c' ∧ Reach is .done c c' ∧
      c'.store = ⟨clock, some clock, c.store.jobs ++ is.map fun i => (i, clock)⟩ := by
  obtain ⟨m, hrun, hreach, hstore⟩ := handIn_run hnodup hidle hclock hstamp hdue
  have hwrite : ∀ (i : ι) (s : Store ι), True → next i s (.stamping stamp clock) ⟨0, false⟩ =
      some ({ s with timestamp := some clock }, .done) :=
    fun i s _ => by simp [next, write_stamp hdue]
  obtain ⟨c', hrun', hhere, hothers, hstore', -⟩ := run_phase hwrite (fun _ _ _ => trivial) hnodup
    hreach.here trivial
  refine ⟨c', StepRun.run_append_eq_some.mpr ⟨m, hrun, hrun'⟩, hreach.trans ⟨hhere, hothers⟩, ?_⟩
  rw [hstore', foldl_stamp hne, hstore, hclock]

/-- A schedule of at most `n` requests, among them all that are in flight. -/
theorem fair_of_members {schedule : List (ι × Input)} (members : Finset ι) (hcard : members.card ≤ n)
    (hflight : ∀ i, (c.locals i).inFlight = true → i ∈ members)
    (hschedule : ∀ a ∈ schedule, a.1 ∈ members ∧ a.2.raises = false) :
    StepRun.Along (Interleaving.step next) (Fair n) c schedule := by
  induction schedule generalizing c with
  | nil => trivial
  | cons a schedule ih =>
      obtain ⟨hmember, hclean⟩ := hschedule a List.mem_cons_self
      refine ⟨⟨⟨members, hcard, hflight⟩, fun _ _ _ => hclean⟩, fun c' hstep => ih (fun i hi => ?_)
        fun b hb => hschedule b (List.mem_cons_of_mem a hb)⟩
      obtain ⟨s', l', -, -, -, hrest⟩ := step_eq_some hstep
      by_cases hia : i = a.1
      · exact hia ▸ hmember
      · rw [hrest i hia] at hi
        exact hflight i hi

omit [DecidableEq ι] in
theorem mem_each {a : ι × Input} (h : a ∈ each is) : a.1 ∈ is ∧ a.2.raises = false := by
  obtain ⟨i, hi, rfl⟩ := List.mem_map.mp h
  exact ⟨hi, rfl⟩

omit [DecidableEq ι] in
theorem mem_handIn {a : ι × Input} (h : a ∈ handIn is) : a.1 ∈ is ∧ a.2.raises = false := by
  apply mem_each
  simpa [handIn] using h

end Together

theorem length_window_append {ι : Type} {t time : ℤ} {is : List ι} {s s' : Store ι}
    (hjobs : s'.jobs = s.jobs ++ is.map fun i => (i, time)) :
    (s'.window t).length =
      (s.window t).length + if t ≤ time ∧ time < t + 24 * hour then is.length else 0 := by
  unfold Store.window
  rw [hjobs, List.filter_append, List.length_append]
  congr 1
  split
  · rename_i hin
    rw [List.filter_eq_self.mpr fun job hjob => ?_, List.length_map]
    obtain ⟨i, -, rfl⟩ := List.mem_map.mp hjob
    exact decide_eq_true hin
  · rename_i hout
    rw [List.filter_eq_nil_iff.mpr fun job hjob => ?_, List.length_nil]
    obtain ⟨i, -, rfl⟩ := List.mem_map.mp hjob
    rw [decide_eq_true_iff]
    exact hout

section Rounds

variable {n r : ℕ} {clock₀ stamp : ℤ} {c : Config (ℕ × ℕ) (Store (ℕ × ℕ)) Local}

/-- The requests that hold their stamps back, from the `r`-th on. -/
def holders (n r : ℕ) : List (ℕ × ℕ) := (List.range (n - r)).map fun k => (0, r + k)

/-- The requests of the round after the `r`-th stale stamp. -/
def newcomers (r : ℕ) : List (ℕ × ℕ) := (List.range (r + 1)).map fun k => (r + 1, k)

theorem mem_holders {i : ℕ × ℕ} : i ∈ holders n r ↔ i.1 = 0 ∧ r ≤ i.2 ∧ i.2 < n := by
  obtain ⟨m, k⟩ := i
  simp only [holders, List.mem_map, List.mem_range, Prod.mk.injEq]
  constructor
  · rintro ⟨k', hk', rfl, rfl⟩
    omega
  · rintro ⟨rfl, hr, hn⟩
    exact ⟨k - r, by omega, rfl, by omega⟩

theorem mem_newcomers {i : ℕ × ℕ} : i ∈ newcomers r ↔ i.1 = r + 1 ∧ i.2 ≤ r := by
  obtain ⟨m, k⟩ := i
  simp only [newcomers, List.mem_map, List.mem_range, Prod.mk.injEq]
  constructor
  · rintro ⟨k', hk', rfl, rfl⟩
    omega
  · rintro ⟨rfl, hk⟩
    exact ⟨k, by omega, rfl, rfl⟩

theorem nodup_holders (n r : ℕ) : (holders n r).Nodup :=
  List.Nodup.map (fun _ _ h => Nat.add_left_cancel (congrArg Prod.snd h)) List.nodup_range

theorem nodup_newcomers (r : ℕ) : (newcomers r).Nodup :=
  List.Nodup.map (fun _ _ h => congrArg Prod.snd h) List.nodup_range

/-- After `r` rounds, the window has `1 + 2 + … + r` jobs, and `r` of the requests have written the
time that they were holding back. -/
structure Round (n : ℕ) (clock₀ stamp : ℤ) (r : ℕ) (c : Config (ℕ × ℕ) (Store (ℕ × ℕ)) Local) :
    Prop where
  clock : c.store.clock ≤ clock₀ + 24 * hour
  window : (c.store.window (clock₀ + 1)).length = triangle r
  waiting : ∀ i ∈ holders n r, c.locals i = .stamping stamp clock₀
  idle : ∀ i, r < i.1 → c.locals i = .idle
  flight : ∀ i, (c.locals i).inFlight = true → i ∈ holders n r

/-- The opening: all hand in their jobs just before the window, and hold the time. -/
theorem round_zero (hdue : stamp + 24 * hour ≤ clock₀) :
    ∃ schedule c,
      StepRun.Along (Interleaving.step next) (Fair n) (start clock₀ (some stamp)) schedule ∧
      run (start clock₀ (some stamp)) schedule = some c ∧ Round n clock₀ stamp 0 c := by
  have hclock : (start clock₀ (some stamp) : Config (ℕ × ℕ) (Store (ℕ × ℕ)) Local).store.clock =
      clock₀ := rfl
  obtain ⟨c, hrun, hreach, hstore⟩ := handIn_run (nodup_holders n 0) (fun _ _ => rfl) hclock rfl hdue
  have hhour : (0 : ℤ) < hour := by decide
  refine ⟨_, c, ?_, hrun, ?_, ?_, hreach.here, fun i hi => ?_, fun i hi => ?_⟩
  · apply fair_of_members ((holders n 0).toFinset)
    · rw [List.toFinset_card_of_nodup (nodup_holders n 0)]
      simp [holders]
    · intro i hi
      exact absurd hi (by simp [start, Local.inFlight])
    · intro a ha
      rw [List.mem_toFinset]
      exact mem_handIn ha
  · rw [hstore]
    show clock₀ ≤ clock₀ + 24 * hour
    omega
  · rw [length_window_append (congrArg Store.jobs hstore), if_neg (by omega)]
    rfl
  · rw [hreach.others i fun hmem => ?_]
    · rfl
    · have := mem_holders.mp hmem
      omega
  · by_contra hmem
    rw [hreach.others i hmem] at hi
    exact absurd hi (by simp [start, Local.inFlight])

/-- The next request writes the time that it holds, when the window is about to end. -/
theorem Round.stale_step (h : Round n clock₀ stamp r c) (hdue : stamp + 24 * hour ≤ clock₀)
    (hr : r < n) :
    ∃ m, Interleaving.step next c ((0, r), wait c.store.clock (clock₀ + 24 * hour)) = some m ∧
      m.locals (0, r) = .done ∧ (∀ i, i ≠ (0, r) → m.locals i = c.locals i) ∧
      m.store = ⟨clock₀ + 24 * hour, some clock₀, c.store.jobs⟩ := by
  have hwaiting := h.waiting (0, r) (mem_holders.mpr ⟨rfl, le_rfl, hr⟩)
  refine ⟨⟨⟨clock₀ + 24 * hour, some clock₀, c.store.jobs⟩, Function.update c.locals (0, r) .done⟩,
    ?_, Function.update_self _ _ _, fun i hi => Function.update_of_ne hi _ _, rfl⟩
  unfold Interleaving.step
  rw [hwaiting]
  simp only [next, add_wait h.clock, write_stamp hdue]
  rfl

theorem Round.atMost (h : Round n clock₀ stamp r c) : AtMost n c := by
  refine ⟨(holders n r).toFinset, ?_, fun i hi => List.mem_toFinset.mpr (h.flight i hi)⟩
  rw [List.toFinset_card_of_nodup (nodup_holders n r)]
  simp [holders]

/-- The requests that are still held back leave room for the batch. -/
theorem fair_batch (hr : r < n)
    (hflight : ∀ i, (c.locals i).inFlight = true → i ∈ holders n (r + 1)) :
    StepRun.Along (Interleaving.step next) (Fair n) c
      (handIn (newcomers r) ++ each (newcomers r)) := by
  apply fair_of_members ((holders n (r + 1)).toFinset ∪ (newcomers r).toFinset)
  · refine (Finset.card_union_le _ _).trans ?_
    rw [List.toFinset_card_of_nodup (nodup_holders n (r + 1)),
      List.toFinset_card_of_nodup (nodup_newcomers r)]
    simp only [holders, newcomers, List.length_map, List.length_range]
    omega
  · exact fun i hi => Finset.mem_union_left _ (List.mem_toFinset.mpr (hflight i hi))
  · intro a ha
    rw [Finset.mem_union, List.mem_toFinset, List.mem_toFinset]
    rcases List.mem_append.mp ha with ha | ha
    · exact (mem_handIn ha).imp_left .inr
    · exact (mem_each ha).imp_left .inr

/-- One more round: a stale stamp, and a batch of as many requests as are not held back. -/
theorem Round.succ (h : Round n clock₀ stamp r c) (hdue : stamp + 24 * hour ≤ clock₀) (hr : r < n) :
    ∃ schedule c', StepRun.Along (Interleaving.step next) (Fair n) c schedule ∧
      run c schedule = some c' ∧ Round n clock₀ stamp (r + 1) c' := by
  have hhour : (0 : ℤ) < hour := by decide
  obtain ⟨m, hstale, hdone, hothers, hwritten⟩ := h.stale_step hdue hr
  have hnew : ∀ i ∈ newcomers r, m.locals i = .idle := by
    intro i hi
    obtain ⟨hround, -⟩ := mem_newcomers.mp hi
    rw [hothers i (by rintro rfl; cases hround)]
    exact h.idle i (by omega)
  have hclock : m.store.clock = clock₀ + 24 * hour := congrArg Store.clock hwritten
  have hstamp : m.store.timestamp = some clock₀ := congrArg Store.timestamp hwritten
  obtain ⟨c', hrun, hreach, hstore⟩ := batch_run (by simp [newcomers]) (nodup_newcomers r) hnew
    hclock hstamp le_rfl
  have hheld : ∀ i ∈ holders n (r + 1), i ∈ holders n r ∧ i ≠ (0, r) ∧ i ∉ newcomers r := by
    intro i hi
    rw [mem_holders] at hi
    rw [mem_holders, mem_newcomers]
    refine ⟨by omega, ?_, by omega⟩
    rintro rfl
    omega
  have hflight : ∀ i, (m.locals i).inFlight = true → i ∈ holders n (r + 1) := by
    intro i hi
    have hne : i ≠ (0, r) := by
      rintro rfl
      rw [hdone] at hi
      cases hi
    rw [hothers i hne] at hi
    have hmem := mem_holders.mp (h.flight i hi)
    have hother : i.2 ≠ r := fun hr => hne (Prod.ext hmem.1 hr)
    rw [mem_holders]
    omega
  refine ⟨((0, r), wait c.store.clock (clock₀ + 24 * hour)) :: (handIn (newcomers r) ++
    each (newcomers r)), c', ⟨⟨h.atMost, fun _ _ _ => rfl⟩, fun m' hm' => ?_⟩,
    StepRun.run_cons_eq_some.mpr ⟨m, hstale, hrun⟩, ?_, ?_, fun i hi => ?_, fun i hi => ?_,
    fun i hi => ?_⟩
  · cases hstale.symm.trans hm'
    exact fair_batch hr hflight
  · rw [hstore]
  · have hjobs : c'.store.jobs = m.store.jobs ++ _ := congrArg Store.jobs hstore
    have hsame : (m.store.window (clock₀ + 1)).length = triangle r := by
      rw [hwritten]
      exact h.window
    rw [length_window_append hjobs, hsame, if_pos (show _ ∧ _ by constructor <;> omega)]
    simp [newcomers, triangle]
  · obtain ⟨hmem, hne, hold⟩ := hheld i hi
    rw [hreach.others i hold, hothers i hne]
    exact h.waiting i hmem
  · have hne : i ≠ (0, r) := by
      rintro rfl
      omega
    have hold : i ∉ newcomers r := fun hmem => by
      have := mem_newcomers.mp hmem
      omega
    rw [hreach.others i hold, hothers i hne]
    exact h.idle i (by omega)
  · by_cases hmem : i ∈ newcomers r
    · rw [hreach.here i hmem] at hi
      cases hi
    · rw [hreach.others i hmem] at hi
      exact hflight i hi

/-- **The bound is reached.** -/
theorem window_filled (hdue : stamp + 24 * hour ≤ clock₀) (hr : r ≤ n) :
    ∃ schedule c,
      StepRun.Along (Interleaving.step next) (Fair n) (start clock₀ (some stamp)) schedule ∧
      run (start clock₀ (some stamp)) schedule = some c ∧ Round n clock₀ stamp r c := by
  induction r with
  | zero => exact round_zero hdue
  | succ r ih =>
      obtain ⟨schedule, c, hfair, hrun, hround⟩ := ih (by omega)
      obtain ⟨more, c', hfair', hrun', hround'⟩ := hround.succ hdue (by omega)
      refine ⟨schedule ++ more, c', hfair.append fun m hm => ?_,
        StepRun.run_append_eq_some.mpr ⟨c, hrun, hrun'⟩, hround'⟩
      cases hrun.symm.trans hm
      exact hfair'

end Rounds

/-- **Concurrent requests.**  In every run of any requests of a user in which no stamp fails and at
most `n` requests are in flight at a time, at most `1 + 2 + … + n` jobs are handed in within any 24
hours; and so many may be. -/
theorem jobs_within_day (n : ℕ) :
    (∀ {ι : Type} [DecidableEq ι] {clock : ℤ} {timestamp : Option ℤ} {schedule : List (ι × Input)}
        {c : Config ι (Store ι) Local},
      StepRun.Along (Interleaving.step next) (Fair n) (start clock timestamp) schedule →
      run (start clock timestamp) schedule = some c →
        ∀ t, (c.store.window t).length ≤ n * (n + 1) / 2) ∧
    ∀ clock stamp, stamp + 24 * hour ≤ clock →
      ∃ (schedule : List ((ℕ × ℕ) × Input)) (c : Config (ℕ × ℕ) (Store (ℕ × ℕ)) Local),
        StepRun.Along (Interleaving.step next) (Fair n) (start clock (some stamp)) schedule ∧
          run (start clock (some stamp)) schedule = some c ∧
          (c.store.window (clock + 1)).length = n * (n + 1) / 2 := by
  rw [← triangle_eq]
  constructor
  · intro ι _ clock timestamp schedule c hfair hrun t
    have hstart := bounded_start (ι := ι) (n := n) (t := t) clock timestamp
    obtain ⟨hc, h⟩ := bounded_run (claims_start clock timestamp) hstart hfair hrun
    exact h.length_window hc
  · intro clock stamp hdue
    obtain ⟨schedule, c, hfair, hrun, hround⟩ := window_filled (n := n) hdue le_rfl
    exact ⟨schedule, c, hfair, hrun, hround.window⟩

namespace Sample

/-- Two requests that have read the clock before the window, and stamp the row a day later. -/
def withheld : List (Fin 5 × Input) := handIn [0, 1] ++ [(0, ⟨86400000000, false⟩)]

/-- One more between the two stamps, and two after them. -/
def between : List (Fin 5 × Input) := handIn [2] ++ each [2] ++ [(1, ⟨0, false⟩)]

def behind : List (Fin 5 × Input) := handIn [3, 4] ++ each [3, 4]

/-- The state after all of them, from a row stamped a day before. -/
def after : Config (Fin 5) (Store (Fin 5)) Local :=
  (run (start 0 (some (-24 * hour))) (withheld ++ (between ++ behind))).getD (start 0 none)

end Sample

/-- Two requests in flight at a time, three jobs within a day. -/
theorem three_jobs_within_day :
    (∀ t, (Sample.after.store.window t).length ≤ 2 * (2 + 1) / 2) ∧
      Sample.after.store.window 1 = [(2, 24 * hour), (3, 24 * hour), (4, 24 * hour)] := by
  have hfair : StepRun.Along (Interleaving.step next) (Fair 2)
      (start 0 (some (-24 * hour)) : Config (Fin 5) (Store (Fin 5)) Local)
        (Sample.withheld ++ (Sample.between ++ Sample.behind)) := by
    refine (fair_of_members ({0, 1}) le_rfl (by decide) (by decide)).append fun m hm => ?_
    cases hm
    refine (fair_of_members ({1, 2}) le_rfl (by decide) (by decide)).append fun m hm => ?_
    cases hm
    exact fair_of_members ({3, 4}) le_rfl (by decide) (by decide)
  exact ⟨(jobs_within_day 2).1 hfair rfl, by decide⟩

end Knoiz.ConcurrentStats
