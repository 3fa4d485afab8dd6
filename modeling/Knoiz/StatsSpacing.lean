import Knoiz.Library.Cooldown
import Knoiz.StatsWorker
import Knoiz.Tolerance

/-!
# Stats jobs are spaced and never skipped

The concern and the service ask the same question twice, at two readings of the clock, and the stamp
that answers it is written behind the enqueue, under a rescue that swallows what either of them
raises.  `Collects` says what one run of the filter does; the rest of a request, and the worker that
saves the same row, leave the stamp.  So the stamp covers the jobs of its user, which keeps them
apart, and an enqueue that raises leaves the question open for the next request.
-/

namespace Knoiz

open ProgramLogic Relation RowTable Calendar

variable {prices : PaymentsController.Prices} {s t m n : Ctx} {id : ℕ}

/-! ### The Stats jobs of a log and the stamps -/

/-- For whom and when a Stats job was enqueued. -/
def statsOf : Event → Option (ℕ × ℤ)
  | .enqueued (.stats _ user) time => some (user, time)
  | _ => none

def statsJobs (log : List Event) : List (ℕ × ℤ) := log.filterMap statsOf

@[simp] theorem statsJobs_append (log es : List Event) :
    statsJobs (log ++ es) = statsJobs log ++ statsJobs es := List.filterMap_append

theorem statsJobs_concat_of_none {e : Event} (h : statsOf e = none) (log : List Event) :
    statsJobs (log ++ [e]) = statsJobs log := by
  simp [statsJobs, h]

theorem statsOf_of_isPlain {e : Event} (h : e.isPlain = true) : statsOf e = none := by
  cases e with
  | enqueued job time =>
      cases job with
      | playlist => rfl
      | stats => cases h
  | _ => rfl

/-- `spotifydata.timestamp` of a user. -/
def statsStamp (s : Server) (id : ℕ) : Option ℤ :=
  (s.db.spotifydata.lookup id).bind Spotifydata.timestamp

/-! ### The two checks -/

/-- The concern's check compares the stamp with the clock. -/
theorem statsCollectionRequired_of_stamp {stamp : ℤ} (hid : s.currentUser = some id)
    (hstamp : statsStamp s.toServer id = some stamp) :
    ∃ t, statsCollectionRequired.run s = .ok (statsDue stamp t.clock) t ∧ Quiet s t := by
  obtain ⟨row, hrow, hrowstamp⟩ := Option.bind_eq_some_iff.mp hstamp
  obtain ⟨t, ht, hq⟩ := currentTime_run s
  refine ⟨t, ?_, hq⟩
  unfold statsCollectionRequired
  simp only [EStateM.run_bind, EStateM.run_get, hid, Option.bind_some, hrow, hrowstamp, ht,
    EStateM.run_pure]

/-- It returns, and does not pass without a stamp. -/
theorem statsCollectionRequired_run (s : Ctx) :
    ∃ due t, statsCollectionRequired.run s = .ok due t ∧ Quiet s t ∧
      (due = true → ∃ id stamp, s.currentUser = some id ∧ statsStamp s.toServer id = some stamp ∧
        stamp ≤ t.clock - 24 * hour) := by
  cases hstamp : s.currentUser.bind (statsStamp s.toServer) with
  | none =>
      refine ⟨false, s, ?_, Quiet.refl s, fun h => nomatch h⟩
      unfold statsCollectionRequired
      simp only [EStateM.run_bind, EStateM.run_get, Option.bind_assoc]
      rw [show (s.currentUser.bind fun id => (s.db.spotifydata.lookup id).bind
        Spotifydata.timestamp) = none from hstamp]
      rfl
  | some stamp =>
      obtain ⟨id, hid, hidstamp⟩ := Option.bind_eq_some_iff.mp hstamp
      obtain ⟨t, hrun, hq⟩ := statsCollectionRequired_of_stamp hid hidstamp
      exact ⟨_, t, hrun, hq, fun hdue => ⟨id, stamp, hid, hidstamp, of_decide_eq_true hdue⟩⟩

/-- The service's check reads it again. -/
theorem statsNeedsUpdating_run {stamp : ℤ} (hid : s.currentUser = some id)
    (hstamp : statsStamp s.toServer id = some stamp) :
    ∃ t, statsNeedsUpdating.run s = .ok (statsDue stamp t.clock) t ∧ Quiet s t := by
  obtain ⟨row, hrow, hrowstamp⟩ := Option.bind_eq_some_iff.mp hstamp
  obtain ⟨t, ht, hq⟩ := currentTime_run s
  have htheRow : theSpotifydata.run s = .ok row s := theRow_run hid hrow
  refine ⟨t, ?_, hq⟩
  unfold statsNeedsUpdating
  simp only [EStateM.run_bind, htheRow, ht, hrowstamp, EStateM.run_pure]

/-- Both checks of user `id` pass, one after the other. -/
structure Due (s n : Ctx) (id : ℕ) : Prop where
  checks : ∃ m, statsCollectionRequired.run s = .ok true m ∧
    statsNeedsUpdating.run m = .ok true n
  quiet : Quiet s n
  user : n.currentUser = some id
  stamp : ∃ stamp, statsStamp s.toServer id = some stamp ∧ stamp ≤ n.clock - 24 * hour

/-- **The second check passes behind the first.**  The stamp is the same, and the clock has not gone
back. -/
theorem due_of_required (h : statsCollectionRequired.run s = .ok true m) :
    ∃ n id, Due s n id := by
  obtain ⟨due, t, hrun, hq, hdue⟩ := statsCollectionRequired_run s
  cases h.symm.trans hrun
  obtain ⟨id, stamp, hid, hstamp, hle⟩ := hdue rfl
  have hidm : m.currentUser = some id := hq.currentUser.trans hid
  have hstampm : statsStamp m.toServer id = some stamp := by
    unfold statsStamp
    rw [hq.db]
    exact hstamp
  obtain ⟨n, hneeds, hq'⟩ := statsNeedsUpdating_run hidm hstampm
  have hlen : stamp ≤ n.clock - 24 * hour := by
    have := hq'.clock
    omega
  have hdue' : statsDue stamp n.clock = true := decide_eq_true hlen
  rw [hdue'] at hneeds
  exact ⟨n, id, ⟨m, h, hneeds⟩, hq.trans hq', hq'.currentUser.trans hidm, stamp, hstamp, hlen⟩

/-! ### The filter -/

/-- `Stats.perform_async` has returned. -/
def Ctx.pushed (s : Ctx) (content : Option SpotifyUser) (id : ℕ) : Ctx :=
  { s with log := s.log ++ [.enqueued (.stats content id) s.clock] }

/-- What one run of `collect_stats` does: nothing is due; the enqueue raises; the stamp behind it
raises; or the job is enqueued and the row is stamped. -/
inductive Collects (s : Ctx) : Ctx → Prop
  | idle {t : Ctx} (required : statsCollectionRequired.run s = .ok false t) (quiet : Quiet s t) :
      Collects s t
  | raised {n : Ctx} {id : ℕ} (due : Due s n id)
      (raises : s.env.raises .statsPerformAsync = true) : Collects s n
  | unstamped {n m t : Ctx} {id : ℕ} (content : Option SpotifyUser) (due : Due s n id)
      (clean : s.env.raises .statsPerformAsync = false) (before : Quiet n m)
      (after : Quiet (m.pushed content id) t) (raises : s.env.raises .statsTimestamp = true) :
      Collects s t
  | stamped {n m t : Ctx} {id : ℕ} (content : Option SpotifyUser) (due : Due s n id)
      (clean : s.env.raises .statsPerformAsync = false) (before : Quiet n m)
      (after : Quiet (m.pushed content id) t) :
      Collects s { t with db := t.db.amendSpotifydata id fun row =>
        { row with timestamp := some t.clock } }

theorem enqueue_run (content : Option SpotifyUser) (id : ℕ) (s : Ctx) :
    ∃ t, Quiet s t ∧ (enqueue (.stats content id)).run s = .ok () (t.pushed content id) := by
  obtain ⟨t, ht, hq⟩ := currentTime_run s
  refine ⟨t, hq, ?_⟩
  unfold enqueue
  rw [EStateM.run_bind, ht]
  rfl

theorem statsUpdateTimestamp_run (hid : s.currentUser = some id) :
    ∃ t, Quiet s t ∧
      ((∃ e, statsUpdateTimestamp.run s = .error e t ∧ s.env.raises .statsTimestamp = true) ∨
        statsUpdateTimestamp.run s = .ok () { t with db := t.db.amendSpotifydata id fun row =>
          { row with timestamp := some t.clock } }) := by
  obtain ⟨t, ht, hq⟩ := currentTime_run s
  refine ⟨t, hq, ?_⟩
  unfold statsUpdateTimestamp call modifyDb
  simp only [EStateM.run_bind, theUser_run hid, ht, EStateM.run_get]
  cases hraises : t.env.raises .statsTimestamp with
  | true => exact .inl ⟨_, rfl, by rw [← hq.env]; exact hraises⟩
  | false => exact .inr rfl

/-- **The filter returns**, and it is one of the four. -/
theorem collectStats_run (s : Ctx) : ∃ t, collectStats.run s = .ok () t ∧ Collects s t := by
  obtain ⟨due, m, hrequired, hq, -⟩ := statsCollectionRequired_run s
  unfold collectStats
  rw [EStateM.run_bind, hrequired]
  cases due with
  | false => exact ⟨m, rfl, .idle hrequired hq⟩
  | true =>
    obtain ⟨n, id, hdue⟩ := due_of_required hrequired
    obtain ⟨m', hrequired', hneeds⟩ := hdue.checks
    cases hrequired.symm.trans hrequired'
    have henv : n.env = s.env := hdue.quiet.env
    unfold statsUpdaterCall
    simp only [if_true, EStateM.run_bind, hneeds, theUser_run hdue.user, EStateM.run_get,
      run_rescue_return]
    refine ⟨_, rfl, ?_⟩
    cases hraises : s.env.raises .statsPerformAsync with
    | true =>
        have hcall : (call .statsPerformAsync).run n = .error (.raised .statsPerformAsync) n := by
          simp only [call, EStateM.run_bind, EStateM.run_get, henv, hraises]
          rfl
        rw [final_bind_error hcall]
        exact .raised hdue hraises
    | false =>
        have hcall : (call .statsPerformAsync).run n = .ok () n := by
          simp only [call, EStateM.run_bind, EStateM.run_get, henv, hraises]
          rfl
        obtain ⟨p, hnp, hpush⟩ := enqueue_run n.session.spotifyUserData id n
        have hid : (p.pushed n.session.spotifyUserData id).currentUser = some id :=
          hnp.currentUser.trans hdue.user
        obtain ⟨t, hpt, ⟨e, hstamp, hfails⟩ | hstamp⟩ := statsUpdateTimestamp_run hid
        · rw [final_bind_ok hcall, final_bind_ok hpush, final_of_error hstamp]
          refine .unstamped _ hdue hraises hnp hpt ?_
          rw [← henv, ← hnp.env]
          exact hfails
        · rw [final_bind_ok hcall, final_bind_ok hpush, final_of_ok hstamp]
          exact .stamped _ hdue hraises hnp hpt

/-! ### The rest of a request -/

/-- No Stats job has been enqueued, no stamp has changed, and no profile is gone. -/
structure StatsKept (s t : Server) : Prop where
  jobs : statsJobs t.log = statsJobs s.log
  stamps : ∀ id w, statsStamp s id = some w → statsStamp t id = some w
  profiles : ∀ id, (s.db.profiles.lookup id).isSome = true →
    (t.db.profiles.lookup id).isSome = true
  clock : s.clock ≤ t.clock

/-- Within a request, the user and the answers from outside are the same too. -/
structure LeavesStats (s t : Ctx) : Prop extends StatsKept s.toServer t.toServer where
  currentUser : t.currentUser = s.currentUser
  env : t.env = s.env

theorem StatsKept.of_eq {s t : Server} (hdb : t.db = s.db) (hjobs : statsJobs t.log = statsJobs s.log)
    (hclock : s.clock ≤ t.clock) : StatsKept s t := by
  refine ⟨hjobs, fun id w hw => ?_, fun id hid => ?_, hclock⟩
  · unfold statsStamp
    rw [hdb]
    exact hw
  · rw [hdb]
    exact hid

theorem Quiet.leavesStats (h : Quiet s t) : LeavesStats s t :=
  ⟨StatsKept.of_eq h.db (congrArg statsJobs h.log) h.clock, h.currentUser, h.env⟩

theorem leavesStats_nilCalled (s : Ctx) : LeavesStats s s.nilCalled :=
  ⟨StatsKept.of_eq rfl (statsJobs_concat_of_none rfl s.log) le_rfl, rfl, rfl⟩

instance : Tolerates LeavesStats where
  refl s := (Quiet.refl s).leavesStats
  trans _ _ _ h h' :=
    ⟨⟨h'.jobs.trans h.jobs, fun id w hw => h'.stamps id w (h.stamps id w hw),
      fun id hid => h'.profiles id (h.profiles id hid), h.clock.trans h'.clock⟩,
      h'.currentUser.trans h.currentUser, h'.env.trans h.env⟩
  quiet := Quiet.leavesStats
  missing _ := leavesStats_nilCalled _
  noted s _ he :=
    ⟨StatsKept.of_eq rfl (statsJobs_concat_of_none (statsOf_of_isPlain he) s.log) le_rfl, rfl, rfl⟩
  session _ _ := ⟨StatsKept.of_eq rfl rfl le_rfl, rfl, rfl⟩
  stripe _ _ := ⟨StatsKept.of_eq rfl rfl le_rfl, rfl, rfl⟩
  stored s db h := by
    refine ⟨⟨rfl, fun id w hw => ?_, h.profile, le_rfl⟩, rfl, rfl⟩
    obtain ⟨row, hrow, hstamp⟩ := Option.bind_eq_some_iff.mp hw
    exact Option.bind_eq_some_iff.mpr ⟨row, h.spotifydata id row hrow, hstamp⟩

theorem leavesStats_filters (route : Route) {filter : Action Unit} (h : filter ∈ route.filters) :
    Within LeavesStats filter := by
  rcases tolerates_filters (R := LeavesStats) route h with ⟨-, rfl⟩ | hwithin
  · exact HomeController.tolerates_checkEligibility leavesStats_nilCalled
  · exact hwithin

theorem leavesStats_dispatch (prices : PaymentsController.Prices) (route : Route) :
    Within LeavesStats (dispatch prices route) := by
  rw [dispatch_eq]
  exact tolerates_foldr (fun _ => leavesStats_filters route) (tolerates_body route)

variable {sys sys' : System} {r : Request}

/-- The state in which a request comes to `collect_stats`. -/
def ReachesStats (sys : System) (r : Request) (s : Ctx) : Prop :=
  (setCurrentUser >>= fun _ => checkStripeSubscription >>= fun _ =>
    refreshSpotifyAccessToken).run (sys.start r) = .ok () s

theorem reachesStats_iff : ReachesStats sys r s ↔
    (checkStripeSubscription >>= fun _ => refreshSpotifyAccessToken).run
      (sys.start r).identified = .ok () s := by
  have hset : setCurrentUser.run (sys.start r) = .ok () (sys.start r).identified := rfl
  unfold ReachesStats
  rw [EStateM.run_bind, hset]

theorem leavesStats_before :
    Within LeavesStats (checkStripeSubscription >>= fun _ => refreshSpotifyAccessToken) :=
  Within.bind tolerates_checkStripeSubscription fun _ => tolerates_refreshSpotifyAccessToken

theorem ReachesStats.leaves (h : ReachesStats sys r s) :
    LeavesStats (sys.start r).identified s :=
  (leavesStats_before.of_ok trivial (reachesStats_iff.mp h)).1

/-- **One request.**  It leaves the statistics, or comes to the filter and leaves them before and
behind it. -/
theorem process_stats (prices : PaymentsController.Prices) (sys : System) (r : Request) :
    LeavesStats (sys.start r).identified (final (process prices r.route) (sys.start r)) ∧
        (∀ s, ¬ ReachesStats sys r s) ∨
      ∃ s t, ReachesStats sys r s ∧ Collects s t ∧
        LeavesStats t (final (process prices r.route) (sys.start r)) := by
  have hbehind : Within LeavesStats (dispatch prices r.route >>= fun _ => renderPage) :=
    Within.bind (leavesStats_dispatch prices r.route) fun _ => within_renderPage
  have hprocess : (process prices r.route).run (sys.start r) =
      ((checkStripeSubscription >>= fun _ => refreshSpotifyAccessToken) >>= fun _ =>
        collectStats >>= fun _ => dispatch prices r.route >>= fun _ => renderPage).run
          (sys.start r).identified := by
    rw [process_run]
    unfold afterCheck
    simp only [bind_assoc]
  rw [final_congr hprocess]
  have hbefore := leavesStats_before.final (sys.start r).identified
  cases hrun : (checkStripeSubscription >>= fun _ => refreshSpotifyAccessToken).run
      (sys.start r).identified with
  | error e s =>
      rw [final_of_error hrun] at hbefore
      rw [final_bind_error hrun]
      refine .inl ⟨hbefore, fun s' hs' => ?_⟩
      cases hrun.symm.trans (reachesStats_iff.mp hs')
  | ok _ s =>
      obtain ⟨t, hcollect, hcollects⟩ := collectStats_run s
      rw [final_bind_ok hrun, final_bind_ok hcollect]
      exact .inr ⟨s, t, reachesStats_iff.mpr hrun, hcollects, hbehind.final t⟩

/-! ### The spacing -/

/-- The stamp behind the enqueue is written with a later clock. -/
theorem statsStamp_stamped (t : Ctx) {j : ℕ} {w : ℤ} (hid : statsStamp t.toServer id = some w) :
    statsStamp { t with db := t.db.amendSpotifydata id fun row =>
      { row with timestamp := some t.clock } }.toServer j =
        if j = id then some t.clock else statsStamp t.toServer j := by
  obtain ⟨row, hrow, -⟩ := Option.bind_eq_some_iff.mp hid
  show ((amend id _ t.db.spotifydata).lookup j).bind Spotifydata.timestamp = _
  rw [lookup_amend]
  by_cases hj : j = id
  · rw [if_pos hj, if_pos hj, hrow]
    rfl
  · rw [if_neg hj, if_neg hj]
    rfl

/-- The Stats jobs of every user are at least a day apart, and none is younger than the stamp of its
user. -/
structure StatsCooled (s : Server) : Prop where
  apart : Cooldown.Apart (fun now => now - 24 * hour + 1) (statsJobs s.log)
  covered : Cooldown.Covers (statsStamp s) (statsJobs s.log)

theorem StatsCooled.kept {s t : Server} (h : StatsCooled s) (hkept : StatsKept s t) :
    StatsCooled t := by
  refine ⟨?_, ?_⟩
  · rw [hkept.jobs]
    exact h.apart
  · rw [hkept.jobs]
    exact h.covered.mono fun id w hw => ⟨w, hkept.stamps id w hw, le_rfl⟩

theorem statsJobs_pushed (s : Ctx) (content : Option SpotifyUser) (id : ℕ) :
    statsJobs (s.pushed content id).log = statsJobs s.log ++ [(id, s.clock)] := by
  show statsJobs (s.log ++ _) = _
  rw [statsJobs_append]
  rfl

/-- **The filter keeps the jobs apart.**  What is enqueued is due at the service's reading of the
clock, enqueued at a later one and stamped at one later still. -/
theorem Collects.cooled (h : Collects s t) (hcooled : StatsCooled s.toServer)
    (hwrites : s.env.raises .statsTimestamp = false) : StatsCooled t.toServer := by
  cases h with
  | idle _ quiet => exact hcooled.kept quiet.leavesStats.toStatsKept
  | raised due => exact hcooled.kept due.quiet.leavesStats.toStatsKept
  | unstamped _ _ _ _ _ raises => cases hwrites.symm.trans raises
  | @stamped n m t id content due _ before after =>
    obtain ⟨w, hw, hle⟩ := due.stamp
    have hkept : StatsKept s.toServer m.toServer :=
      (due.quiet.trans before).leavesStats.toStatsKept
    have hm : StatsCooled m.toServer := hcooled.kept hkept
    have hwm : statsStamp m.toServer id = some w := hkept.stamps id w hw
    have hclock : n.clock ≤ m.clock := before.clock
    have hclock' : m.clock ≤ t.clock := after.clock
    have hjobs : statsJobs t.log = statsJobs m.log ++ [(id, m.clock)] := by
      rw [after.log, statsJobs_pushed]
    have hwt : statsStamp t.toServer id = some w := after.leavesStats.stamps id w hwm
    have hafter : ∀ j, statsStamp { t with db := t.db.amendSpotifydata id fun row =>
        { row with timestamp := some t.clock } }.toServer j =
          if j = id then some t.clock else statsStamp t.toServer j :=
      fun j => statsStamp_stamped t hwt
    have hlimit : w < m.clock - 24 * hour + 1 := by omega
    have hlater : w ≤ t.clock := by
      have hpos : 0 ≤ 24 * hour := by decide
      omega
    obtain ⟨hapart, hcovered⟩ := Cooldown.apart_covers_concat hm.apart hm.covered hwm hlimit
      (fun j u hj hu => (hafter j).trans ((if_neg hj).trans (after.leavesStats.stamps j u hu)))
      ((hafter id).trans (if_pos rfl)) hlater hclock'
    rw [← hjobs] at hapart hcovered
    exact ⟨hapart, hcovered⟩

theorem StatsCooled.serve (prices : PaymentsController.Prices) (h : StatsCooled sys.toServer)
    (hwrites : r.env.raises .statsTimestamp = false) :
    StatsCooled (serve prices sys r).toServer := by
  rw [serve_server]
  rcases process_stats prices sys r with ⟨hleaves, -⟩ | ⟨s, t, hreach, hcollects, hrest⟩
  · exact h.kept hleaves.toStatsKept
  · have hbefore := hreach.leaves
    have hs : StatsCooled s.toServer := h.kept hbefore.toStatsKept
    have henv : s.env.raises .statsTimestamp = false := by
      rw [hbefore.env]
      exact hwrites
    exact (hcollects.cooled hs henv).kept hrest.toStatsKept

/-! ### Attempts -/

/-- The request comes to the filter, both checks pass, and the service attempts an enqueue for user
`id`. -/
def Attempts (sys : System) (r : Request) (id : ℕ) : Prop :=
  ∃ s m n, ReachesStats sys r s ∧ statsCollectionRequired.run s = .ok true m ∧
    statsNeedsUpdating.run m = .ok true n ∧ n.currentUser = some id

theorem Due.attempts (h : Due s n id) (hreach : ReachesStats sys r s) : Attempts sys r id := by
  obtain ⟨m, hrequired, hneeds⟩ := h.checks
  exact ⟨s, m, n, hreach, hrequired, hneeds, h.user⟩

/-- What the filter does in a request that attempts: it raises, or has enqueued the job. -/
theorem Attempts.collects (prices : PaymentsController.Prices) (h : Attempts sys r id) :
    ∃ s t n, ReachesStats sys r s ∧ Due s n id ∧
      LeavesStats t (final (process prices r.route) (sys.start r)) ∧
      (r.env.raises .statsPerformAsync = true ∧ t = n ∨
        r.env.raises .statsPerformAsync = false ∧
          ∃ time, statsJobs t.log = statsJobs s.log ++ [(id, time)]) := by
  obtain ⟨s, m, n, hreach, hrequired, hneeds, hid⟩ := h
  have henv : s.env = r.env := hreach.leaves.env
  have hsame : ∀ {k : Ctx} {j : ℕ}, Due s k j → k = n ∧ j = id := by
    intro k j hdue
    obtain ⟨m', hrequired', hneeds'⟩ := hdue.checks
    cases hrequired.symm.trans hrequired'
    cases hneeds.symm.trans hneeds'
    exact ⟨rfl, Option.some_inj.mp (hdue.user.symm.trans hid)⟩
  rcases process_stats prices sys r with ⟨-, hnot⟩ | ⟨s', t, hreach', hcollects, hrest⟩
  · exact absurd hreach (hnot s)
  · cases hreach.symm.trans hreach'
    have hpushed : ∀ {k p : Ctx} {j : ℕ} {content : Option SpotifyUser}, Due s k j → Quiet k p →
        statsJobs (p.pushed content j).log = statsJobs s.log ++ [(id, p.clock)] := by
      intro k p j content hdue hq
      rw [statsJobs_pushed, hq.log, hdue.quiet.log, (hsame hdue).2]
    cases hcollects with
    | idle required => cases hrequired.symm.trans required
    | @raised k j due raises =>
        obtain ⟨rfl, rfl⟩ := hsame due
        exact ⟨s, t, t, hreach, due, hrest, .inl ⟨henv ▸ raises, rfl⟩⟩
    | @unstamped k p t j content due clean before after =>
        obtain ⟨rfl, rfl⟩ := hsame due
        refine ⟨s, t, k, hreach, due, hrest, .inr ⟨henv ▸ clean, p.clock, ?_⟩⟩
        rw [after.log, hpushed due before]
    | @stamped k p t j content due clean before after =>
        obtain ⟨rfl, rfl⟩ := hsame due
        refine ⟨s, _, k, hreach, due, hrest, .inr ⟨henv ▸ clean, p.clock, ?_⟩⟩
        show statsJobs t.log = _
        rw [after.log, hpushed due before]

/-! ### A stamp that is due stays due -/

/-- The stamp of user `id` is a day old, and the user has a profile. -/
structure DueFor (id : ℕ) (s : Server) : Prop where
  stamp : ∃ w, statsStamp s id = some w ∧ w ≤ s.clock - 24 * hour
  profile : (s.db.profiles.lookup id).isSome = true

theorem DueFor.kept {s t : Server} (h : DueFor id s) (hkept : StatsKept s t) : DueFor id t := by
  obtain ⟨w, hw, hle⟩ := h.stamp
  have hclock := hkept.clock
  exact ⟨⟨w, hkept.stamps id w hw, by omega⟩, hkept.profiles id h.profile⟩

/-- The filter writes no stamp but that of the user who is logged in. -/
theorem Collects.other (h : Collects s t) (hid : s.currentUser ≠ some id)
    (hdue : DueFor id s.toServer) : DueFor id t.toServer := by
  cases h with
  | idle _ quiet => exact hdue.kept quiet.leavesStats.toStatsKept
  | raised due => exact hdue.kept due.quiet.leavesStats.toStatsKept
  | @unstamped n m t j content due _ before after =>
      have hm := hdue.kept (due.quiet.trans before).leavesStats.toStatsKept
      have hpushed : DueFor id (m.pushed content j).toServer := ⟨hm.stamp, hm.profile⟩
      exact hpushed.kept after.leavesStats.toStatsKept
  | @stamped n m t j content due _ before after =>
      have hm := hdue.kept (due.quiet.trans before).leavesStats.toStatsKept
      have hpushed : DueFor id (m.pushed content j).toServer := ⟨hm.stamp, hm.profile⟩
      have ht := hpushed.kept after.leavesStats.toStatsKept
      have hne : id ≠ j := by
        rintro rfl
        exact hid (due.quiet.currentUser.symm.trans due.user)
      obtain ⟨w, hw, hle⟩ := ht.stamp
      obtain ⟨row, hrow, hstamp⟩ := Option.bind_eq_some_iff.mp hw
      refine ⟨⟨w, Option.bind_eq_some_iff.mpr ⟨row, ?_, hstamp⟩, hle⟩, ht.profile⟩
      show (amend j _ t.db.spotifydata).lookup id = some row
      rw [lookup_amend_of_ne hne]
      exact hrow

/-- An execution of `Stats` writes another column of the row. -/
theorem statsKept_statsJob {user : ℕ} {genres : List (String × ℕ)}
    (hstep : step prices sys (.statsJob user genres) = some sys') :
    StatsKept sys.toServer sys'.toServer := by
  cases hstep
  refine ⟨rfl, fun id w hw => ?_, fun _ h => h, le_rfl⟩
  obtain ⟨row, hrow, hstamp⟩ := Option.bind_eq_some_iff.mp hw
  show ((amend user _ sys.db.spotifydata).lookup id).bind Spotifydata.timestamp = some w
  rw [lookup_amend]
  by_cases hid : id = user
  · rw [if_pos hid, ← hid, hrow]
    exact hstamp
  · rw [if_neg hid, hrow]
    exact hstamp

/-- A step that is no request of the user leaves the stamp due. -/
theorem DueFor.step {a : Step} (h : DueFor id sys.toServer)
    (hother : ∀ r, a = .request r → sys.userOf r ≠ some id)
    (hstep : step prices sys a = some sys') : DueFor id sys'.toServer := by
  cases a with
  | payment sessionId customer =>
      cases hstep
      exact ⟨h.stamp, h.profile⟩
  | statsJob user genres =>
      exact h.kept (statsKept_statsJob hstep)
  | request r =>
      cases hstep
      have hid := hother r rfl
      rw [serve_server]
      rcases process_stats prices sys r with ⟨hleaves, -⟩ | ⟨s, t, hreach, hcollects, hrest⟩
      · exact h.kept hleaves.toStatsKept
      · have hs : DueFor id s.toServer := h.kept hreach.leaves.toStatsKept
        have hids : s.currentUser ≠ some id := by
          rw [hreach.leaves.currentUser]
          exact hid
        exact (hcollects.other hids hs).kept hrest.toStatsKept

/-! ### The next request attempts again -/

theorem checkStripeSubscription_returns (h : s.env.raises .expireSubscription = false) :
    ∃ t, checkStripeSubscription.run s = .ok () t := by
  unfold checkStripeSubscription
  rw [EStateM.run_bind, EStateM.run_get]
  cases hid : s.currentUser with
  | none => exact ⟨s, by simp only [hid]; rfl⟩
  | some id =>
    cases hrow : s.db.subscriptions.lookup id with
    | none => exact ⟨s, by simp only [hid, hrow]; rfl⟩
    | some row =>
        obtain ⟨m, hm, hq⟩ := currentTime_run s
        have hm' : m.env.raises .expireSubscription = false := by
          rw [hq.env]
          exact h
        simp only [hid, hrow, EStateM.run_bind, hm]
        cases row.expired m.clock with
        | false => exact ⟨_, rfl⟩
        | true =>
            simp only [if_true, call, EStateM.run_bind, EStateM.run_get, hm']
            exact ⟨_, rfl⟩

/-- With a profile, the refresh returns, whatever raises inside it. -/
theorem refreshSpotifyAccessToken_returns (hid : s.currentUser = some id)
    (hprofile : (s.db.profiles.lookup id).isSome = true) :
    ∃ t, refreshSpotifyAccessToken.run s = .ok () t := by
  obtain ⟨profile, hrow⟩ := Option.isSome_iff_exists.mp hprofile
  have hneeds : ∀ {m : Ctx}, Quiet s m →
      ∃ due t, tokenNeedsRefresh.run m = .ok due t ∧ Quiet m t := by
    intro m hq
    have hrow' : m.db.profiles.lookup id = some profile := by
      rw [hq.db]
      exact hrow
    obtain ⟨due, t, hdue, hmt, -⟩ := tokenNeedsRefresh_of_profile (hq.currentUser.trans hid) hrow'
    exact ⟨due, t, hdue, hmt⟩
  obtain ⟨due, m, hdue, hsm⟩ := hneeds (Quiet.refl s)
  unfold refreshSpotifyAccessToken
  rw [EStateM.run_bind, EStateM.run_get]
  simp only [hid, EStateM.run_bind, hdue]
  cases due with
  | false => exact ⟨m, rfl⟩
  | true =>
    obtain ⟨due', n, hdue', -⟩ := hneeds hsm
    unfold spotifyTokenRefresherCall
    simp only [if_true, EStateM.run_bind, hdue']
    cases due' with
    | false => exact ⟨n, rfl⟩
    | true =>
        simp only [if_true, EStateM.run_bind, EStateM.run_get, run_rescue_return]
        exact ⟨_, rfl⟩

/-- Without a profile it does not. -/
theorem profile_of_refreshed (hid : s.currentUser = some id)
    (h : refreshSpotifyAccessToken.run s = .ok () t) :
    (s.db.profiles.lookup id).isSome = true := by
  unfold refreshSpotifyAccessToken at h
  rw [EStateM.run_bind, EStateM.run_get] at h
  simp only [hid, EStateM.run_bind] at h
  cases hdue : tokenNeedsRefresh.run s with
  | error e m =>
      rw [hdue] at h
      cases h
  | ok due m =>
      obtain ⟨id', profile, hid', hrow⟩ := profile_of_tokenNeedsRefresh hdue
      cases hid.symm.trans hid'
      rw [hrow]
      rfl

/-- **Whose stamp is due attempts.** -/
theorem DueFor.attempts (h : DueFor id sys.toServer) (huser : sys.userOf r = some id)
    (hexpire : r.env.raises .expireSubscription = false) : Attempts sys r id := by
  obtain ⟨a, hcheck⟩ := checkStripeSubscription_returns (s := (sys.start r).identified) hexpire
  have ha : LeavesStats (sys.start r).identified a :=
    (tolerates_checkStripeSubscription.of_ok trivial hcheck).1
  have hdue : DueFor id a.toServer := DueFor.kept (s := (sys.start r).toServer) h ha.toStatsKept
  have hida : a.currentUser = some id := ha.currentUser.trans huser
  obtain ⟨s, hrefresh⟩ := refreshSpotifyAccessToken_returns hida hdue.profile
  have has : LeavesStats a s := (tolerates_refreshSpotifyAccessToken.of_ok trivial hrefresh).1
  have hids : s.currentUser = some id := has.currentUser.trans hida
  obtain ⟨w, hw, hle⟩ := (hdue.kept has.toStatsKept).stamp
  obtain ⟨m, hrequired, hq⟩ := statsCollectionRequired_of_stamp hids hw
  have hpassed : statsDue w m.clock = true := by
    have := hq.clock
    exact decide_eq_true (by omega)
  rw [hpassed] at hrequired
  obtain ⟨n, j, hboth⟩ := due_of_required hrequired
  have hj : j = id := by
    have huserj := hboth.quiet.currentUser.symm.trans hboth.user
    exact Option.some_inj.mp (huserj.symm.trans hids)
  subst hj
  refine hboth.attempts (reachesStats_iff.mpr ?_)
  rw [EStateM.run_bind, hcheck]
  exact hrefresh

/-- **An enqueue that raises leaves the stamp**, and the stamp is still due. -/
theorem Attempts.dueFor (prices : PaymentsController.Prices) (h : Attempts sys r id)
    (hraises : r.env.raises .statsPerformAsync = true) :
    DueFor id (serve prices sys r).toServer ∧ ∀ w, statsStamp sys.toServer id = some w →
      statsStamp (serve prices sys r).toServer id = some w := by
  obtain ⟨s, t, n, hreach, hdue, hrest, ⟨-, rfl⟩ | ⟨hclean, -⟩⟩ := h.collects prices
  · have hids : s.currentUser = some id := hdue.quiet.currentUser.symm.trans hdue.user
    have hst : StatsKept s.toServer t.toServer := hdue.quiet.leavesStats.toStatsKept
    have hprofile : (s.db.profiles.lookup id).isSome = true := by
      have hrun := reachesStats_iff.mp hreach
      rw [EStateM.run_bind] at hrun
      cases hcheck : checkStripeSubscription.run (sys.start r).identified with
      | error e a =>
          rw [hcheck] at hrun
          cases hrun
      | ok _ a =>
          rw [hcheck] at hrun
          have has : LeavesStats a s := (tolerates_refreshSpotifyAccessToken.of_ok trivial hrun).1
          exact has.profiles id (profile_of_refreshed (has.currentUser.symm.trans hids) hrun)
    obtain ⟨w, hw, hle⟩ := hdue.stamp
    have ht : DueFor id t.toServer := ⟨⟨w, hst.stamps id w hw, hle⟩, hst.profiles id hprofile⟩
    rw [serve_server]
    refine ⟨ht.kept hrest.toStatsKept, fun w hw => ?_⟩
    exact hrest.stamps id w (hst.stamps id w (hreach.leaves.stamps id w hw))
  · cases hraises.symm.trans hclean

/-! ### The worker that saves the same row -/

/-- An execution of `Stats` leaves the database, or is the step of a run that stores genres. -/
theorem statsJob_of_perform (prices : PaymentsController.Prices) (sortBy : SortBy Stats.byCount)
    (a : Stats.Answers) (content : Option SpotifyUser) (user : ℕ) (sys : System) :
    final (Stats.perform sortBy a content user) sys.db = sys.db ∨
      ∃ genres, step prices sys (.statsJob user genres) =
        some { sys with db := final (Stats.perform sortBy a content user) sys.db } := by
  cases hrun : (Stats.perform sortBy a content user).run sys.db with
  | error e db =>
      rw [final_of_error hrun]
      exact .inl (Stats.perform_error sortBy hrun)
  | ok _ db =>
      rw [final_of_ok hrun]
      obtain ⟨tracks, row, -, -, hdb⟩ := Stats.perform_run sortBy hrun
      cases hsaves : a.saves with
      | false =>
          rw [hsaves, if_neg Bool.false_ne_true] at hdb
          exact .inl hdb
      | true =>
          rw [hsaves, if_pos rfl] at hdb
          rw [hdb]
          exact .inr ⟨_, rfl⟩

/-! ### Runs -/

/-- **One step.**  With the stamp written, every step keeps the jobs apart. -/
theorem StatsCooled.step {a : Step} (h : StatsCooled sys.toServer)
    (hclean : ∀ r, a = .request r → r.env.raises .statsTimestamp = false)
    (hstep : Knoiz.step prices sys a = some sys') : StatsCooled sys'.toServer := by
  cases a with
  | payment sessionId customer =>
      cases hstep
      exact h.kept (StatsKept.of_eq rfl rfl le_rfl)
  | statsJob user genres =>
      exact h.kept (statsKept_statsJob hstep)
  | request r =>
      cases hstep
      exact h.serve prices (hclean r rfl)

/-- **Stats jobs are spaced and never skipped.**  In every run in which the stamps are written, any
two Stats jobs of one user are at least a day apart.  Whenever the concern's check passes, so does
the service's, and the enqueue is attempted: unless it raises, the job is there.  An attempt that
raises leaves the stamp, and the next request of the user attempts again, whatever other users,
payments and Stats jobs do in between; every execution of `Stats` is such a step, or does nothing.
-/
theorem stats_spaced {sys₀ : System} {steps : List Step} (hlog₀ : sys₀.log = [])
    (hwrites : ∀ r, Step.request r ∈ steps → r.env.raises .statsTimestamp = false)
    (hrun : StepRun.run (step prices) sys₀ steps = some sys) :
    ((statsJobs sys.log).Pairwise fun p q => p.1 = q.1 → 24 * hour ≤ q.2 - p.2) ∧
      (∀ r s m, ReachesStats sys r s → statsCollectionRequired.run s = .ok true m →
        ∃ id, Attempts sys r id ∧ (r.env.raises .statsPerformAsync = false →
          ∃ time, statsJobs (serve prices sys r).log = statsJobs sys.log ++ [(id, time)])) ∧
      (∀ r id, Attempts sys r id → r.env.raises .statsPerformAsync = true →
        (∀ w, statsStamp sys.toServer id = some w →
          statsStamp (serve prices sys r).toServer id = some w) ∧
        ∀ later sys' r', StepRun.run (step prices) (serve prices sys r) later = some sys' →
          StepRun.Along (step prices) (fun sys a => ∀ q, a = .request q → sys.userOf q ≠ some id)
            (serve prices sys r) later →
          sys'.userOf r' = some id → r'.env.raises .expireSubscription = false →
          Attempts sys' r' id) ∧
      ∀ (sortBy : SortBy Stats.byCount) a content user,
        final (Stats.perform sortBy a content user) sys.db = sys.db ∨
          ∃ genres, step prices sys (.statsJob user genres) =
            some { sys with db := final (Stats.perform sortBy a content user) sys.db } := by
  refine ⟨?_, fun r s m hreach hrequired => ?_, fun r id hattempts hraises => ?_,
    fun sortBy a content user => statsJob_of_perform prices sortBy a content user sys⟩
  · have h₀ : StatsCooled sys₀.toServer := by
      refine ⟨?_, ?_⟩
      · rw [hlog₀]
        exact Cooldown.apart_nil
      · rw [hlog₀]
        exact Cooldown.covers_nil
    have hcooled : StatsCooled sys.toServer := by
      refine StepRun.run_invariant_of_labels (I := fun sys : System => StatsCooled sys.toServer)
        (fun sys a sys' hs hclean hstep => ?_) h₀ (request_labels hwrites) hrun
      exact hs.step hclean hstep
    refine hcooled.apart.imp fun hlimit hkey => ?_
    have hlt := hlimit hkey
    simp only at hlt
    omega
  · obtain ⟨n, id, hdue⟩ := due_of_required hrequired
    have hattempts := hdue.attempts hreach
    refine ⟨id, hattempts, fun hclean => ?_⟩
    obtain ⟨s', t, n', hreach', -, hrest, ⟨hraises, -⟩ | ⟨-, time, hjobs⟩⟩ :=
      hattempts.collects prices
    · cases hclean.symm.trans hraises
    · refine ⟨time, ?_⟩
      rw [serve_server, hrest.jobs, hjobs, hreach'.leaves.jobs]
      rfl
  · obtain ⟨hdue, hstamp⟩ := hattempts.dueFor prices hraises
    refine ⟨hstamp, fun later sys' r' hlater hothers huser hexpire => ?_⟩
    have hdue' : DueFor id sys'.toServer :=
      StepRun.run_invariant_along (I := fun sys : System => DueFor id sys.toServer)
        (fun _ _ _ h hother hstep => h.step hother hstep) hdue hothers hlater
    exact hdue'.attempts huser hexpire

namespace Sample

/-- `GET /pricing`, `delay` microseconds later. -/
def visit (delay : ℕ) (raises : Call → Bool) : Step :=
  .request
    { browser := 0, route := .pricingIndex, env := { delays := [delay], raises := raises } }

/-- An enqueue that raises, the next attempt, a request in between, and one a day later. -/
def dailyVisits : List Step :=
  [visit 1700000000000000 fun c => c == .statsPerformAsync, visit 1000000 fun _ => false,
    visit 1000000 fun _ => false, visit 86400000000 fun _ => false]

end Sample

/-- The two jobs of that run are a day and a second apart. -/
theorem daily_visits_spaced :
    (statsJobs (Sample.after Sample.dailyVisits).log).length = 2 ∧
      (statsJobs (Sample.after Sample.dailyVisits).log).Pairwise fun p q =>
        p.1 = q.1 → 24 * hour ≤ q.2 - p.2 := by
  have hrun : StepRun.run (step Sample.priceIds) Sample.loggedIn Sample.dailyVisits =
      some (Sample.after Sample.dailyVisits) := rfl
  refine ⟨rfl, (stats_spaced rfl (fun r hr => ?_) hrun).1⟩
  simp only [Sample.dailyVisits, Sample.visit, List.mem_cons, Step.request.injEq, List.not_mem_nil,
    or_false] at hr
  rcases hr with rfl | rfl | rfl | rfl
  · rfl
  · rfl
  · rfl
  · rfl

end Knoiz
