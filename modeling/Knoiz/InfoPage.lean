import Knoiz.Paywall

/-!
# What the info page promises

`users/info` names the day until which a pass is good, or offers one.  What it has shown is what the
paid pages do later: until another pass is granted, they open for the user up to that day and not
after it, and not at all for a user to whom a pass was offered.
-/

namespace Knoiz

open Calendar EventLog ProgramLogic RowTable

/-- The body of `users/info`: the pass with its last day (shown as `%d %B %Y`), or the offer of one.
-/
inductive InfoPage where
  | plus (last : ℤ)
  | free
  deriving DecidableEq, Repr

/-- The view, for `@subscription` and `@subscription_info`. -/
def infoPage (subscription : Subscription) : InfoPage :=
  match subscription.active, subscription.expiresAt with
  | true, some expiresAt => .plus (dayOf expiresAt)
  | _, _ => .free

/-- The plan that the navigation bar names on every page. -/
def navbarPlan (subscription : Subscription) : String :=
  if subscription.active = false then "Knoiz Free" else "Knoiz Plus"

/-- Whether the day of `now` is one on which the page promises the pass. -/
def InfoPage.Promises : InfoPage → ℤ → Prop
  | .plus last, now => dayOf now ≤ last
  | .free, _ => False

instance (page : InfoPage) (now : ℤ) : Decidable (page.Promises now) := by
  cases page
  · exact inferInstanceAs (Decidable (_ ≤ _))
  · exact inferInstanceAs (Decidable False)

variable {prices : PaymentsController.Prices} {sys sys' sys₀ : System} {r r' : Request} {id : ℕ}
  {steps steps' : List Step}

/-! ### The page -/

/-- The info page reads the stored subscription of the user, and shows it. -/
theorem Answered.info {m a t : Ctx} (h : Answered prices sys r m a t) (hroute : r.route = .usersInfo)
    (hid : sys.userOf r = some id)
    (hstays : ∃ row, (serve prices sys r).db.subscriptions.lookup id = some row) :
    ∃ row : Subscription, (respond prices sys r).location = none ∧
      (serve prices sys r).db.subscriptions.lookup id = some row ∧
      t.log = a.log ++ ([] ++ .gate id row.active row.expiresAt :: []) ∧ t.clock = a.clock := by
  have hida : a.currentUser = some id := h.user.trans hid
  have hhere : a.location = none := h.mute.location
  have hdispatched : UsersController.infoRequest.run a = .ok () t := by
    have hdispatched := h.dispatched
    rw [hroute] at hdispatched
    exact hdispatched
  obtain ⟨b, hfilter, hrest⟩ := beforeAction_ok hdispatched
  unfold UsersController.ensureCurrentUserAndSubscription at hfilter
  simp only [EStateM.run_bind, EStateM.run_get, hida, Option.bind_some] at hfilter
  cases hrow : a.db.subscriptions.lookup id with
  | none =>
      -- the filter has redirected, and nothing has been written
      rw [hrow] at hfilter
      cases hfilter
      rcases hrest with ⟨hnone, -⟩ | ⟨-, rfl⟩
      · cases hnone
      · obtain ⟨row, hsome⟩ := hstays
        rw [h.db] at hsome
        cases hrow.symm.trans hsome
  | some row =>
      rw [hrow] at hfilter
      cases hfilter
      obtain ⟨-, hinfo⟩ := hrest.resolve_right fun hmoved => hmoved.1 hhere
      have hgate := gateSubscription_run hida hrow
      unfold UsersController.info at hinfo
      simp only [EStateM.run_bind, hgate] at hinfo
      cases hinfo
      rw [h.response, h.db]
      exact ⟨row, hhere, hrow, rfl, rfl⟩

/-- A request has its gate behind a check at `now`: the row that it reads holds the latest pass,
when the pass was good at the time. -/
theorem gate_reads (h₀ : JustCreated prices id sys₀.toServer)
    (hrun : StepRun.run (step prices) sys₀ steps = some sys)
    (hroute : ∀ session, r.route ≠ .paymentsSuccess session) {now : ℤ} {rest post : List Event}
    {active : Bool} {expiresAt : Option ℤ}
    (hlog : (serve prices sys r).log =
      sys.log ++ (.checked id now :: rest ++ .gate id active expiresAt :: post)) :
    active = expiresAt.isSome ∧ ∀ d, expiresAt = some d ↔
      ∃ g, latest (grantOf id) sys.log = some g ∧ g.expiresAt = d ∧ now ≤ d := by
  obtain ⟨hcheck, hactive, hexpiry⟩ := gate_standing h₀ hrun hlog
  refine ⟨by rw [hactive, hexpiry], fun d => ?_⟩
  have hnone : (.checked id now :: rest : List Event).filterMap (grantOf id) = [] :=
    grants_nil hroute hlog
  rw [hexpiry, standing_eq_some_iff hcheck,
    latest_append_of_none (List.filterMap_eq_nil_iff.mp hnone)]

/-- The latest pass of a log ends with a day. -/
theorem latest_grant_endOfDay (h₀ : JustCreated prices id sys₀.toServer)
    (hrun : StepRun.run (step prices) sys₀ steps = some sys) {g : Grant}
    (hg : latest (grantOf id) sys.log = some g) : ∃ time, g.expiresAt = endOfDay time := by
  have hwin := h₀.passWindow.run hrun
  obtain ⟨-, pre, hwrites⟩ := hwin.latest_grant (List.append_nil _).symm hg
  obtain ⟨days, -, hdays⟩ := hwrites.days
  exact ⟨_, hdays⟩

/-- What a page promises, in terms of the latest pass. -/
theorem infoPage_promises_iff {row : Subscription} {latestPass : Option Grant} {checked now : ℤ}
    (hactive : row.active = row.expiresAt.isSome)
    (hreads : ∀ d, row.expiresAt = some d ↔
      ∃ g, latestPass = some g ∧ g.expiresAt = d ∧ checked ≤ d)
    (hend : ∀ g, latestPass = some g → ∃ time, g.expiresAt = endOfDay time)
    (hnow : checked ≤ now) :
    (infoPage row).Promises now ↔ ∃ g, latestPass = some g ∧ now ≤ g.expiresAt := by
  unfold infoPage
  cases hexpiry : row.expiresAt with
  | none =>
      rw [hactive, hexpiry]
      show False ↔ _
      refine ⟨False.elim, ?_⟩
      rintro ⟨g, hg, hle⟩
      have hsome := (hreads g.expiresAt).mpr ⟨g, hg, rfl, hnow.trans hle⟩
      rw [hexpiry] at hsome
      cases hsome
  | some d =>
      rw [hactive, hexpiry]
      show dayOf now ≤ dayOf d ↔ _
      obtain ⟨g, hg, rfl, -⟩ := (hreads d).mp hexpiry
      obtain ⟨time, htime⟩ := hend g hg
      have hday : dayOf (endOfDay time) = dayOf time := by
        have hle := (le_endOfDay_iff (endOfDay time) time).mp le_rfl
        have hge := (le_endOfDay_iff time (endOfDay time)).mp
          ((le_endOfDay time).trans (le_endOfDay _))
        omega
      rw [htime, hday, ← le_endOfDay_iff, ← htime]
      constructor
      · intro hle
        exact ⟨g, hg, hle⟩
      · rintro ⟨g', hg', hle⟩
        cases hg.symm.trans hg'
        exact hle

/-! ### The promise -/

/-- **The promise.**  In every run from the creation of an account, the info page that the user has
opened is rendered, and as long as no further pass is granted it is kept: after any steps of
anybody, a paid page that returns to the user is shown when its expiry check falls on a day that the
info page promised, and else leads to the prices.  The navigation bar names the plan of the info
page. -/
theorem info_promise (h₀ : JustCreated prices id sys₀.toServer)
    (hrun : StepRun.run (step prices) sys₀ steps = some sys) (hroute : r.route = .usersInfo)
    (hid : sys.userOf r = some id) (hreturn : (respond prices sys r).raised = none)
    (hrun' : StepRun.run (step prices) (serve prices sys r) steps' = some sys')
    (hgrants : sys'.log.filterMap (grantOf id) = sys.log.filterMap (grantOf id))
    (hroute' : r'.route.isPaid = true) (hid' : sys'.userOf r' = some id)
    (hreturn' : (respond prices sys' r').raised = none) :
    ∃ row now, (respond prices sys r).location = none ∧
      (serve prices sys r).db.subscriptions.lookup id = some row ∧
      (navbarPlan row = "Knoiz Plus" ↔ infoPage row ≠ .free) ∧
      ChecksAt prices sys' r' id now ∧ sys'.clock ≤ now ∧ now ≤ (serve prices sys' r').clock ∧
      ((respond prices sys' r').location = none ↔ (infoPage row).Promises now) ∧
      ((respond prices sys' r').location = some "/pricing/index" ↔ ¬(infoPage row).Promises now) := by
  have hserve : StepRun.run (step prices) sys [.request r] = some (serve prices sys r) := rfl
  have hall : StepRun.run (step prices) sys₀ (steps ++ ([.request r] ++ steps')) = some sys' :=
    StepRun.run_append_eq_some.mpr
      ⟨sys, hrun, StepRun.run_append_eq_some.mpr ⟨_, hserve, hrun'⟩⟩
  have hgrantless : ∀ session, r.route ≠ .paymentsSuccess session := by
    rw [hroute]
    nofun
  have hlatest : latest (grantOf id) sys'.log = latest (grantOf id) sys.log := by
    unfold latest
    rw [hgrants]
  -- the info page
  obtain ⟨m, a, t, hanswered⟩ := respond_ok hreturn
  obtain ⟨stored, hstored, -⟩ := ((h₀.passWindow.run hrun).run hserve).row (.inl trivial)
  obtain ⟨row, hshown, hrow, hevents, hclock⟩ := hanswered.info hroute hid ⟨stored, hstored⟩
  obtain ⟨-, rest, hlog⟩ := hanswered.recorded h₀ hrun hid hevents
  obtain ⟨hactive, hreads⟩ := gate_reads h₀ hrun hgrantless hlog
  -- the paid page
  obtain ⟨m', a', t', hanswered'⟩ := respond_ok hreturn'
  obtain ⟨hclock', active, expiresAt, pre, post, hevents', hdecided⟩ :=
    (hanswered'.paid hroute').2 hid'
  obtain ⟨hearly, rest', hlog'⟩ := hanswered'.recorded h₀ hall hid' hevents'
  obtain ⟨hactive', hreads'⟩ := gate_reads h₀ hall (Route.grants_nothing_of_isPaid hroute') hlog'
  have hnow : m.clock ≤ m'.clock := by
    have hchecked : m.clock ≤ (serve prices sys r).clock :=
      hanswered.grown.clock.trans (hclock ▸ hanswered.clock)
    exact hchecked.trans ((run_clock hrun').trans hearly)
  have hpromise := infoPage_promises_iff hactive hreads
    (fun g hg => latest_grant_endOfDay h₀ hrun hg) hnow
  have hopen : active = true ↔ (infoPage row).Promises m'.clock := by
    rw [hpromise, hactive', Option.isSome_iff_exists]
    simp only [hreads', hlatest]
    constructor
    · rintro ⟨d, g, hg, rfl, hle⟩
      exact ⟨g, hg, hle⟩
    · rintro ⟨g, hg, hle⟩
      exact ⟨g.expiresAt, g, hg, rfl, hle⟩
  refine ⟨row, m'.clock, hshown, hrow, ?_, ⟨_, hlog'⟩, hearly, hclock', ?_, ?_⟩
  · unfold navbarPlan infoPage
    rw [hactive]
    cases row.expiresAt <;> simp
  · rw [hdecided, ← hopen]
    cases active <;> simp
  · rw [hdecided, ← hopen]
    cases active <;> simp

namespace Sample

def infoRequest : Request := { browser := 0, route := .usersInfo }

/-- Browser 0 opens its tops again, nine days later. -/
def laterTops : Request :=
  { browser := 0, route := .statsTops, env := { delays := [777600000000] } }

/-- Ada buys a week's pass, looks at her info page and at her tops. -/
def informed : System := serve priceIds (after purchase) infoRequest

def browsed : System := serve priceIds informed topsRequest

example : (informed.db.subscriptions.lookup 0).map infoPage = some (.plus 7) ∧
    (respond priceIds informed topsRequest).location = none ∧
    (respond priceIds browsed laterTops).location = some "/pricing/index" := by decide

end Sample

/-- A week's pass has ended after nine days. -/
theorem week_promise : ∃ row now, (respond Sample.priceIds (Sample.after Sample.purchase)
        Sample.infoRequest).location = none ∧
      Sample.informed.db.subscriptions.lookup 0 = some row ∧
      (navbarPlan row = "Knoiz Plus" ↔ infoPage row ≠ .free) ∧
      ChecksAt Sample.priceIds Sample.browsed Sample.laterTops 0 now ∧ Sample.browsed.clock ≤ now ∧
      now ≤ (serve Sample.priceIds Sample.browsed Sample.laterTops).clock ∧
      ((respond Sample.priceIds Sample.browsed Sample.laterTops).location = none ↔
        (infoPage row).Promises now) ∧
      ((respond Sample.priceIds Sample.browsed Sample.laterTops).location = some "/pricing/index" ↔
        ¬(infoPage row).Promises now) := by
  have hrun : StepRun.run (step Sample.priceIds) Sample.loggedIn Sample.purchase =
      some (Sample.after Sample.purchase) := rfl
  have hrun' : StepRun.run (step Sample.priceIds)
      (serve Sample.priceIds (Sample.after Sample.purchase) Sample.infoRequest)
        [.request Sample.topsRequest] = some Sample.browsed := rfl
  exact info_promise Sample.loggedIn_justCreated hrun rfl rfl rfl hrun' rfl rfl rfl rfl

end Knoiz
