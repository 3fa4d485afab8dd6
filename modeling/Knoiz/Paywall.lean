import Knoiz.Messages
import Knoiz.PassWindow
import Knoiz.Permits

/-!
# Who sees the paid pages

`tops`, `recently` and `top_global` stand behind `verif_subscription`, which reads a column that
only the expiry check at the head of the request clears.  For a request that returns, the page is
rendered exactly for a user whose latest pass covers the time of that check; everybody else is
redirected, to the prices or, without a login, to the home page.
-/

namespace Knoiz

open EventLog ProgramLogic Relation RowTable

/-- The pages behind `verif_subscription`. -/
def Route.isPaid : Route → Bool
  | .statsTops | .statsRecently | .statsTopGlobal => true
  | _ => false

/-! ### What stays the same -/

/-- The log has grown, and the user is the same. -/
structure Grown (s t : Ctx) : Prop where
  currentUser : t.currentUser = s.currentUser
  userId : t.session.userId = s.session.userId
  clock : s.clock ≤ t.clock
  log : ∃ es, t.log = s.log ++ es

theorem Grown.of_log {s t : Ctx} (huser : t.currentUser = s.currentUser)
    (hid : t.session.userId = s.session.userId) (hclock : s.clock ≤ t.clock)
    (hlog : t.log = s.log) : Grown s t :=
  ⟨huser, hid, hclock, [], by rw [hlog, List.append_nil]⟩

theorem Grown.trans {s m t : Ctx} (h : Grown s m) (h' : Grown m t) : Grown s t := by
  obtain ⟨es, hes⟩ := h.log
  obtain ⟨es', hes'⟩ := h'.log
  exact ⟨h'.currentUser.trans h.currentUser, h'.userId.trans h.userId, h.clock.trans h'.clock,
    es ++ es', by rw [hes', hes, List.append_assoc]⟩

instance : Permits Grown where
  refl _ := Grown.of_log rfl rfl le_rfl rfl
  trans _ _ _ := Grown.trans
  quiet h := Grown.of_log h.currentUser (by rw [h.session]) h.clock h.log
  noted s e _ := ⟨rfl, rfl, le_rfl, [e], rfl⟩
  enqueued _ := ⟨rfl, rfl, le_rfl, _, rfl⟩
  rebuilt _ _ := Grown.of_log rfl rfl le_rfl rfl
  stored _ _ _ := Grown.of_log rfl rfl le_rfl rfl
  checkout _ := Grown.of_log rfl rfl le_rfl rfl

/-- A filter that returned has been followed by the rest, or has redirected. -/
theorem beforeAction_ok {filter rest : Action Unit} {s t : Ctx}
    (hrun : (beforeAction filter rest).run s = .ok () t) :
    ∃ m, filter.run s = .ok () m ∧
      (m.location = none ∧ rest.run m = .ok () t ∨ m.location ≠ none ∧ t = m) := by
  unfold beforeAction at hrun
  rw [EStateM.run_bind] at hrun
  cases hfilter : filter.run s with
  | error e m =>
      rw [hfilter] at hrun
      cases hrun
  | ok a m =>
      rw [hfilter] at hrun
      refine ⟨m, rfl, ?_⟩
      simp only [EStateM.run_bind, EStateM.run_get] at hrun
      cases hlocation : m.location with
      | none =>
          rw [hlocation] at hrun
          exact .inl ⟨rfl, hrun⟩
      | some path =>
          rw [hlocation] at hrun
          cases hrun
          exact .inr ⟨Option.some_ne_none path, rfl⟩

/-! ### The gate -/

/-- A gate needs a subscription. -/
theorem gateSubscription_run_missing {s : Ctx} {id : ℕ} (hid : s.currentUser = some id)
    (hrow : s.db.subscriptions.lookup id = none) :
    gateSubscription.run s = .error .noMethodError s.nilCalled := by
  have huser := theUser_run hid
  have hsubscription : theSubscription.run s = .error .noMethodError s.nilCalled :=
    theRow_run_missing hid hrow
  unfold gateSubscription
  simp only [EStateM.run_bind, huser, hsubscription]

namespace StatsController

variable {s c t : Ctx} {id : ℕ} {rest : Action Unit}

/-- The two filters in front of the gate, and the gate. -/
def gated (rest : Action Unit) : Action Unit :=
  beforeAction ensureLoggedIn <| beforeAction accessTokenRefreshing <|
    beforeAction verifSubscription rest

/-- **The gate.**  What it reads decides whether the rest runs. -/
theorem verifSubscription_ok (hid : c.currentUser = some id)
    (hsession : c.session.userId.isSome = true) (hhere : c.location = none)
    (hmute : Within Mute rest) (hgrown : Within Grown rest)
    (hrun : (beforeAction verifSubscription rest).run c = .ok () t) :
    ∃ active expiresAt post, t.log = c.log ++ .gate id active expiresAt :: post ∧
      t.location = if active = true then none else some "/pricing/index" := by
  obtain ⟨m, hgate, hrest⟩ := beforeAction_ok hrun
  unfold verifSubscription at hgate
  simp only [EStateM.run_bind, EStateM.run_get, hsession, if_true] at hgate
  cases hrow : c.db.subscriptions.lookup id with
  | none =>
      rw [gateSubscription_run_missing hid hrow] at hgate
      cases hgate
  | some row =>
      rw [gateSubscription_run hid hrow] at hgate
      dsimp only at hgate
      refine ⟨row.active, row.expiresAt, ?_⟩
      cases hactive : row.active with
      | true =>
          rw [hactive] at hgate
          cases hgate
          rcases hrest with ⟨-, hrest⟩ | ⟨hmoved, -⟩
          · obtain ⟨es, hes⟩ := (Spec.of_ok hgrown trivial hrest).1.log
            have hlocation := (Spec.of_ok hmute trivial hrest).1.location
            refine ⟨es, ?_, hlocation.trans hhere⟩
            rw [hes, ← hactive]
            exact List.append_assoc ..
          · exact absurd hhere hmoved
      | false =>
          rw [hactive] at hgate
          cases hgate
          rcases hrest with ⟨hstays, -⟩ | ⟨-, rfl⟩
          · cases hstays
          · refine ⟨[], ?_, rfl⟩
            rw [← hactive]
            rfl

/-- A paid page, from the state behind the inherited filters. -/
theorem gated_ok (hid : s.currentUser = some id) (hsession : s.session.userId.isSome = true)
    (hhere : s.location = none) (hmute : Within Mute rest) (hgrown : Within Grown rest)
    (hrun : (gated rest).run s = .ok () t) :
    ∃ active expiresAt pre post, t.log = s.log ++ (pre ++ .gate id active expiresAt :: post) ∧
      t.location = if active = true then none else some "/pricing/index" := by
  obtain ⟨a, hlogin, hrest⟩ := beforeAction_ok hrun
  have hpassed : ensureLoggedIn.run s = .ok () s := by
    unfold ensureLoggedIn
    rw [EStateM.run_bind, EStateM.run_get]
    obtain ⟨k, hk⟩ := Option.isSome_iff_exists.mp hsession
    simp only [hk]
    rfl
  cases hpassed.symm.trans hlogin
  rcases hrest with ⟨-, hrest⟩ | ⟨hmoved, -⟩
  · obtain ⟨c, hrefreshed, hrest⟩ := beforeAction_ok hrest
    have hquiet : Grown s c := (Spec.of_ok permits_accessTokenRefreshing trivial hrefreshed).1
    have hlocation : c.location = none :=
      (Spec.of_ok mute_accessTokenRefreshing trivial hrefreshed).1.location.trans hhere
    rcases hrest with ⟨-, hrest⟩ | ⟨hmoved, -⟩
    · obtain ⟨active, expiresAt, post, hlog, hdecided⟩ := verifSubscription_ok
        (hquiet.currentUser.trans hid) (by rw [hquiet.userId]; exact hsession) hlocation hmute
        hgrown hrest
      obtain ⟨pre, hpre⟩ := hquiet.log
      exact ⟨active, expiresAt, pre, post, by rw [hlog, hpre, List.append_assoc], hdecided⟩
    · exact absurd hlocation hmoved
  · exact absurd hhere hmoved

/-- Without a login the redirect is to the home page, whatever else is the case. -/
theorem gated_nobody (hid : s.currentUser = none) (hhere : s.location = none)
    (hrun : (gated rest).run s = .ok () t) : t.location = some "/" := by
  obtain ⟨a, hlogin, hrest⟩ := beforeAction_ok hrun
  unfold ensureLoggedIn at hlogin
  rw [EStateM.run_bind, EStateM.run_get] at hlogin
  cases hsession : s.session.userId with
  | none =>
      simp only [hsession] at hlogin
      cases hlogin
      rcases hrest with ⟨hstays, -⟩ | ⟨-, rfl⟩
      · cases hstays
      · rfl
  | some k =>
      simp only [hsession] at hlogin
      cases hlogin
      rcases hrest with ⟨-, hrest⟩ | ⟨hmoved, -⟩
      · -- the session names nobody who is stored: the profile is read of `nil`
        obtain ⟨c, hrefreshed, -⟩ := beforeAction_ok hrest
        have hprofile : theProfile.run s = .error .noMethodError s.nilCalled := theRow_run_none hid
        unfold accessTokenRefreshing needToRefreshToken tokenNeedsRefresh at hrefreshed
        simp only [EStateM.run_bind, EStateM.run_get, hsession, Option.isNone_some,
          Bool.false_eq_true, if_false, hprofile] at hrefreshed
        cases hrefreshed
      · exact absurd hhere hmoved

end StatsController

/-! ### Requests -/

variable {prices : PaymentsController.Prices} {sys : System} {r : Request} {id : ℕ}

/-- The paid pages differ in what runs behind the gate. -/
theorem dispatch_paid (prices : PaymentsController.Prices) {route : Route}
    (hroute : route.isPaid = true) : ∃ rest, dispatch prices route = StatsController.gated rest ∧
      Within Mute rest ∧ Within Grown rest := by
  have hpage : Within Mute (StatsController.page) ∧ Within Grown StatsController.page :=
    ⟨mute_call _, within_call _⟩
  have hrest : Within Mute (beforeAction StatsController.initializeSpotifyUser
      StatsController.page) ∧ Within Grown (beforeAction StatsController.initializeSpotifyUser
      StatsController.page) :=
    ⟨Within.bind StatsController.mute_initializeSpotifyUser fun _ => Within.get_bind fun _ =>
      Within.ite hpage.1 (Within.pure _),
      within_beforeAction StatsController.permits_initializeSpotifyUser hpage.2⟩
  cases route with
  | statsTops | statsRecently => exact ⟨_, rfl, hrest⟩
  | statsTopGlobal => exact ⟨_, rfl, hpage⟩
  | _ => cases hroute

/-- How a request that returned went: the expiry check ended in `m`, the inherited filters in `a`, the
controller in `t`. -/
structure Answered (prices : PaymentsController.Prices) (sys : System) (r : Request) (m a t : Ctx) :
    Prop where
  inherited : applicationFilters.run (sys.start r) = .ok () a
  checked : Checked (sys.start r).identified m
  grown : Grown m a
  calm : Calm (sys.start r).identified a
  mute : Mute (sys.start r) a
  dispatched : (dispatch prices r.route).run a = .ok () t
  response : respond prices sys r = ⟨none, t.flash, t.location⟩
  db : (serve prices sys r).db = t.db
  log : (serve prices sys r).log = t.log
  clock : t.clock ≤ (serve prices sys r).clock

theorem respond_ok (hreturn : (respond prices sys r).raised = none) :
    ∃ m a t, Answered prices sys r m a t := by
  have hserver : (serve prices sys r).toServer = _ := serve_server sys r
  unfold respond at hreturn
  cases hprocess : (process prices r.route).run (sys.start r) with
  | error e u =>
      rw [hprocess] at hreturn
      cases hreturn
  | ok _ u =>
      have hrun := hprocess
      unfold process at hrun
      rw [EStateM.run_bind] at hrun
      cases hfilters : applicationFilters.run (sys.start r) with
      | error e a =>
          rw [hfilters] at hrun
          cases hrun
      | ok _ a =>
          have hmute := (Spec.of_ok mute_applicationFilters trivial hfilters).1
          have hcalm := (still_applicationFilters (sys.start r)).toCalm
          have hinherited := hfilters
          rw [final_of_ok hfilters] at hcalm
          rw [hfilters] at hrun
          rw [applicationFilters_run, EStateM.run_bind] at hfilters
          rcases checkStripeSubscription_run (sys.start r).identified with
            ⟨m, hcheck, hchecked⟩ | ⟨e, m, hcheck, -⟩
          · rw [hcheck] at hfilters
            have hrest : Within Grown (refreshSpotifyAccessToken >>= fun _ => collectStats) :=
              Within.bind permits_refreshSpotifyAccessToken fun _ => permits_collectStats
            have hgrown : Grown m a := (Spec.of_ok hrest trivial hfilters).1
            dsimp only at hrun
            rw [EStateM.run_bind] at hrun
            cases hdispatch : (dispatch prices r.route).run a with
            | error e t =>
                rw [hdispatch] at hrun
                cases hrun
            | ok _ t =>
                rw [hdispatch] at hrun
                have hquiet := quiet_renderPage t
                rw [final_of_ok hrun] at hquiet
                have hpage := (Spec.of_ok mute_renderPage trivial hrun).1
                rw [final_of_ok hprocess] at hserver
                refine ⟨m, a, t, hinherited, hchecked, hgrown, hcalm, hmute, hdispatch, ?_,
                  (congrArg Server.db hserver).trans hquiet.db,
                  (congrArg Server.log hserver).trans hquiet.log,
                  hquiet.clock.trans (congrArg Server.clock hserver).ge⟩
                unfold respond
                rw [hprocess, ← hpage.flash, ← hpage.location]
          · rw [hcheck] at hfilters
            cases hfilters

/-- The user as whom the controller runs. -/
theorem Answered.user {m a t : Ctx} (h : Answered prices sys r m a t) :
    a.currentUser = sys.userOf r :=
  h.grown.currentUser.trans h.checked.frame.1

theorem Answered.loggedIn {m a t : Ctx} (h : Answered prices sys r m a t)
    (hid : sys.userOf r = some id) : a.session.userId.isSome = true := by
  obtain ⟨k, hk, -⟩ := Option.bind_eq_some_iff.mp hid
  rw [h.grown.userId, h.checked.still.session]
  show (sys.sessionOf r).userId.isSome = true
  rw [hk]
  rfl

/-- The check of a user with a subscription is recorded at its time. -/
theorem Checked.recorded {s t : Ctx} {row : Subscription} (h : Checked s t)
    (hid : s.currentUser = some id) (hrow : s.db.subscriptions.lookup id = some row) :
    s.clock ≤ t.clock ∧ t.log = s.log ++ [.checked id t.clock] := by
  have hsame {m : Ctx} {id' : ℕ} (hq : Quiet s m) (huser : m.currentUser = some id') :
      id' = id := Option.some.inj ((huser.symm.trans hq.currentUser).trans hid)
  cases h with
  | skipped hnone =>
      rw [hnone id hid] at hrow
      cases hrow
  | live hq huser =>
      cases hsame hq huser
      exact ⟨hq.clock, congrArg (· ++ _) hq.log⟩
  | cleared hq huser =>
      cases hsame hq huser
      exact ⟨hq.clock, congrArg (· ++ _) hq.log⟩

/-- Only the return from the checkout grants a pass. -/
theorem serve_grants (prices : PaymentsController.Prices)
    (hroute : ∀ session, r.route ≠ .paymentsSuccess session) (id : ℕ) :
    (serve prices sys r).log.filterMap (grantOf id) = sys.log.filterMap (grantOf id) := by
  have hother {s t : Ctx} {e : Event} (hlog : t.log = s.log ++ [e]) (hnone : grantOf id e = none) :
      t.log.filterMap (grantOf id) = s.log.filterMap (grantOf id) := by
    rw [hlog, List.filterMap_append, List.filterMap_cons_none hnone, List.filterMap_nil,
      List.append_nil]
  have hend : (final (process prices r.route) (sys.start r)).route = r.route ∧
      (final (process prices r.route) (sys.start r)).log.filterMap (grantOf id) =
        sys.log.filterMap (grantOf id) := by
    refine serve_rule (I := fun s => s.route = r.route ∧
      s.log.filterMap (grantOf id) = sys.log.filterMap (grantOf id)) (fun s t hc hs => ?_)
      (fun s t he hs => ?_) ⟨rfl, rfl⟩
    · rw [hc.frame.2.1]
      refine ⟨hs.1, Eq.trans ?_ hs.2⟩
      cases hc with
      | skipped => rfl
      | live hq | cleared hq => exact (hother rfl rfl).trans (by rw [hq.log])
    · rw [he.frame.2.1]
      refine ⟨hs.1, Eq.trans ?_ hs.2⟩
      cases he with
      | effect he =>
        cases he with
        | quiet hq => rw [hq.log]
        | granted hid hrow requested => exact absurd (hs.1.symm.trans requested) (hroute _)
        | gate | enqueued | nilCall => exact hother rfl rfl
        | _ => rfl
      | _ => rfl
  rw [show (serve prices sys r).log = _ from congrArg Server.log (serve_server sys r)]
  exact hend.2

theorem inWindow_append {log es : List Event} {now : ℤ} (h : es.filterMap (grantOf id) = []) :
    InWindow prices id (log ++ es) now ↔ InWindow prices id log now := by
  unfold InWindow
  rw [latest_append_of_none (List.filterMap_eq_nil_iff.mp h)]

section Gate

variable {sys₀ : System} {steps : List Step} {now : ℤ} {rest post : List Event} {active : Bool}
  {expiresAt : Option ℤ}

/-- The first thing that the request records is the expiry check of user `id`, at `now`. -/
def ChecksAt (prices : PaymentsController.Prices) (sys : System) (r : Request) (id : ℕ) (now : ℤ) :
    Prop :=
  ∃ es, (serve prices sys r).log = sys.log ++ .checked id now :: es

/-- A gate reads what the check of its request has left standing. -/
theorem gate_standing (h₀ : JustCreated prices id sys₀.toServer)
    (hrun : StepRun.run (step prices) sys₀ steps = some sys)
    (hlog : (serve prices sys r).log =
      sys.log ++ (.checked id now :: rest ++ .gate id active expiresAt :: post)) :
    latest (checkOf id) (sys.log ++ .checked id now :: rest) = some now ∧
      active = (standing id (sys.log ++ .checked id now :: rest)).isSome ∧
      expiresAt = standing id (sys.log ++ .checked id now :: rest) := by
  have hwin := h₀.passWindow.run hrun
  obtain ⟨row, hrow, -⟩ := hwin.row (.inl trivial)
  obtain ⟨now', rest', hpre, hrest⟩ := serve_gate hlog hrow
  cases hpre
  have hserve : StepRun.run (step prices) sys [.request r] = some (serve prices sys r) := rfl
  have hsplit : (serve prices sys r).log =
      (sys.log ++ .checked id now :: rest) ++ .gate id active expiresAt :: post := by
    rw [hlog, List.append_assoc]
  refine ⟨?_, (hwin.run hserve).gates _ _ _ hsplit active expiresAt rfl (.inl trivial)⟩
  rw [List.append_cons, latest_append_of_none fun e he => hrest e he id]
  exact latest_concat_of_some (by simp [checkOf]) _

/-- The events of a request that grants nothing. -/
theorem grants_nil (hroute : ∀ session, r.route ≠ .paymentsSuccess session) {es es' : List Event}
    (hlog : (serve prices sys r).log = sys.log ++ (es ++ es')) :
    es.filterMap (grantOf id) = [] := by
  have hgrants : (serve prices sys r).log.filterMap (grantOf id) = sys.log.filterMap (grantOf id) :=
    serve_grants prices hroute id
  rw [hlog, List.filterMap_append, List.filterMap_append] at hgrants
  exact (List.append_eq_nil_iff.mp (List.append_right_eq_self.mp hgrants)).1

/-- It reads an active pass exactly when the check ran inside the window. -/
theorem gate_in_window (hd : prices.Distinct) (h₀ : JustCreated prices id sys₀.toServer)
    (hrun : StepRun.run (step prices) sys₀ steps = some sys)
    (hroute : ∀ session, r.route ≠ .paymentsSuccess session)
    (hlog : (serve prices sys r).log =
      sys.log ++ (.checked id now :: rest ++ .gate id active expiresAt :: post)) :
    active = true ↔ InWindow prices id sys.log now := by
  obtain ⟨hcheck, hactive, -⟩ := gate_standing h₀ hrun hlog
  have hserve : StepRun.run (step prices) sys [.request r] = some (serve prices sys r) := rfl
  have hafter := (h₀.passWindow.run hrun).run hserve
  have hplans := (h₀.plansKept.run hrun).run hserve
  have hsplit : (serve prices sys r).log =
      (sys.log ++ .checked id now :: rest) ++ .gate id active expiresAt :: post := by
    rw [hlog, List.append_assoc]
  rw [hactive, hafter.standing_isSome_iff hd hplans hsplit hcheck,
    inWindow_append (grants_nil hroute hlog)]

/-- The gate of a controller, in a request that returned: its events are the check, what the filters
record, and the gate. -/
theorem Answered.recorded {m a t : Ctx} (h : Answered prices sys r m a t)
    (h₀ : JustCreated prices id sys₀.toServer)
    (hrun : StepRun.run (step prices) sys₀ steps = some sys) (hid : sys.userOf r = some id)
    {pre : List Event} (hevents : t.log = a.log ++ (pre ++ .gate id active expiresAt :: post)) :
    sys.clock ≤ m.clock ∧ ∃ rest, (serve prices sys r).log =
      sys.log ++ (.checked id m.clock :: rest ++ .gate id active expiresAt :: post) := by
  obtain ⟨row, hrow, -⟩ := (h₀.passWindow.run hrun).row (.inl trivial)
  obtain ⟨hearly, hm⟩ := h.checked.recorded hid hrow
  obtain ⟨es, hes⟩ := h.grown.log
  refine ⟨hearly, es ++ pre, ?_⟩
  rw [h.log, hevents, hes, hm]
  simp only [List.append_assoc, List.cons_append, List.nil_append]
  rfl

end Gate

/-- A paid page that returned: the home page for nobody, and for the user what the gate has read. -/
theorem Answered.paid {m a t : Ctx} (h : Answered prices sys r m a t)
    (hroute : r.route.isPaid = true) :
    (sys.userOf r = none → (respond prices sys r).location = some "/") ∧
      (sys.userOf r = some id → m.clock ≤ (serve prices sys r).clock ∧
        ∃ active expiresAt pre post, t.log = a.log ++ (pre ++ .gate id active expiresAt :: post) ∧
          (respond prices sys r).location = if active = true then none else some "/pricing/index") := by
  obtain ⟨rest, hdispatch, hmute, hgrown⟩ := dispatch_paid prices hroute
  have hgated := h.dispatched
  rw [hdispatch] at hgated
  have hhere : a.location = none := h.mute.location
  rw [h.response]
  refine ⟨fun hnobody => ?_, fun hid => ⟨?_, ?_⟩⟩
  · exact StatsController.gated_nobody (h.user.trans hnobody) hhere hgated
  · have hcontroller : Within Grown (StatsController.gated rest) :=
      within_beforeAction StatsController.permits_ensureLoggedIn <|
        within_beforeAction StatsController.permits_accessTokenRefreshing <|
        within_beforeAction StatsController.permits_verifSubscription hgrown
    exact h.grown.clock.trans ((Spec.of_ok hcontroller trivial hgated).1.clock.trans h.clock)
  · exact StatsController.gated_ok (h.user.trans hid) (h.loggedIn hid) hhere hmute hgrown hgated

theorem Route.grants_nothing_of_isPaid {route : Route} (h : route.isPaid = true) :
    ∀ session, route ≠ .paymentsSuccess session := by
  intro session hsuccess
  rw [hsuccess] at h
  cases h

/-- **The paywall.**  In every run from the creation of an account, a request for a paid page that
returns shows it to the user exactly when its expiry check ran inside the window of the latest pass,
and is redirected to the prices exactly when it ran outside; whoever is not logged in is sent to the
home page. -/
theorem paid_pages (hd : prices.Distinct) {sys₀ : System} {steps : List Step}
    (h₀ : JustCreated prices id sys₀.toServer)
    (hrun : StepRun.run (step prices) sys₀ steps = some sys) (hroute : r.route.isPaid = true)
    (hreturn : (respond prices sys r).raised = none) :
    (sys.userOf r = none → (respond prices sys r).location = some "/") ∧
      (sys.userOf r = some id → ∃ now, ChecksAt prices sys r id now ∧ sys.clock ≤ now ∧
        now ≤ (serve prices sys r).clock ∧
        ((respond prices sys r).location = none ↔ InWindow prices id sys.log now) ∧
        ((respond prices sys r).location = some "/pricing/index" ↔
          ¬InWindow prices id sys.log now)) := by
  obtain ⟨m, a, t, hanswered⟩ := respond_ok hreturn
  obtain ⟨hnobody, huser⟩ := hanswered.paid hroute
  refine ⟨hnobody, fun hid => ?_⟩
  obtain ⟨hclock, active, expiresAt, pre, post, hevents, hdecided⟩ := huser hid
  obtain ⟨hearly, rest, hlog⟩ := hanswered.recorded h₀ hrun hid hevents
  have hwindow := gate_in_window hd h₀ hrun (Route.grants_nothing_of_isPaid hroute) hlog
  refine ⟨m.clock, ⟨_, hlog⟩, hearly, hclock, ?_, ?_⟩
  · rw [hdecided, ← hwindow]
    cases active <;> simp
  · rw [hdecided, ← hwindow]
    cases active <;> simp

namespace Sample

/-- Browser 0 opens its tops. -/
def topsRequest : Request := { browser := 0, route := .statsTops }

end Sample

/-- After a purchase Ada sees her tops, inside the window. -/
theorem tops_after_purchase :
    ∃ now, ChecksAt Sample.priceIds (Sample.after Sample.purchase) Sample.topsRequest 0 now ∧
      (Sample.after Sample.purchase).clock ≤ now ∧
      now ≤ (serve Sample.priceIds (Sample.after Sample.purchase) Sample.topsRequest).clock ∧
      ((respond Sample.priceIds (Sample.after Sample.purchase) Sample.topsRequest).location = none ↔
        InWindow Sample.priceIds 0 (Sample.after Sample.purchase).log now) ∧
      ((respond Sample.priceIds (Sample.after Sample.purchase) Sample.topsRequest).location =
          some "/pricing/index" ↔
        ¬InWindow Sample.priceIds 0 (Sample.after Sample.purchase).log now) := by
  have hrun : StepRun.run (step Sample.priceIds) Sample.loggedIn Sample.purchase =
      some (Sample.after Sample.purchase) := rfl
  exact (paid_pages Sample.priceIds_distinct Sample.loggedIn_justCreated hrun rfl rfl).2 rfl

end Knoiz
