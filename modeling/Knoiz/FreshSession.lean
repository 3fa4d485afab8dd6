import Knoiz.TokenRefresh

/-!
# A fresh profile and a refreshed session

Every request asks the service for a refresh before its controller does, and while the profile is
fresh no refresh starts.  So the credentials of a session are renewed only if the refresh that
stamps the profile also reaches the cookie: the service's never does, and the one of
`create_playlist` does when nothing behind it raises.  The run theorem turns this into the condition
on a request under which a renewed profile means a renewed session.
-/

namespace Knoiz

open ProgramLogic Relation RowTable

variable {prices : PaymentsController.Prices} {sys : System} {r : Request} {s t : Ctx} {id : ℕ}
  {old new : SpotifyUser}

/-! ### The refreshes of a request -/

/-- The routes of the statistics pages. -/
def Route.isStats : Route → Bool
  | .statsIndex | .statsTops | .statsRecently | .statsTopGlobal => true
  | _ => false

/-- The state in which a request comes to the service. -/
def ReachesService (sys : System) (r : Request) (s : Ctx) : Prop :=
  (setCurrentUser >>= fun _ => checkStripeSubscription).run (sys.start r) = .ok () s

/-- The state in which a request comes to the refresh of its controller, behind the login filter. -/
def ReachesFilter (login : Action Unit) (sys : System) (r : Request) (s : Ctx) : Prop :=
  ∃ a, applicationFilters.run (sys.start r) = .ok () a ∧ login.run a = .ok () s ∧
    s.location = none

/-- A refresh of the request, from the state it starts in to the one it ends in. -/
inductive RefreshIn (sys : System) (r : Request) (s : Ctx) : Ctx → Prop
  | service (h : ReachesService sys r s) :
      RefreshIn sys r s (final refreshSpotifyAccessToken s)
  | home (requested : r.route.charges = true)
      (h : ReachesFilter HomeController.authenticateUser sys r s) :
      RefreshIn sys r s (final HomeController.refreshAccessToken s)
  | stats (requested : r.route.isStats = true)
      (h : ReachesFilter StatsController.ensureLoggedIn sys r s) :
      RefreshIn sys r s (final StatsController.accessTokenRefreshing s)

/-- `updated_at` of the profile has changed. -/
def Renewed (id : ℕ) (s t : Ctx) : Prop :=
  (t.db.profiles.lookup id).map Profile.updatedAt ≠ (s.db.profiles.lookup id).map Profile.updatedAt

/-- A refresh that renews the profile of the user leaves the user that it rebuilt in the cookie. -/
def FreshSession (prices : PaymentsController.Prices) (sys : System) (r : Request) : Prop :=
  ∀ id s t, RefreshIn sys r s t → s.currentUser = some id → Renewed id s t →
    ∃ old new, s.session.spotifyUserData = some old ∧ r.env.rspotifyUser old = some new ∧
      ((serve prices sys r).cookies r.browser).spotifyUserData = some new

/-- What follows the refresh in a request for a playlist. -/
def behindRefresh : Action Unit :=
  beforeAction (return) (beforeAction HomeController.checkEligibility
    HomeController.createPlaylist) >>= fun _ => renderPage

/-- `create_playlist` has its parameter, and no call of it raises. -/
structure Creates (row : Subscription) (route : Route) (env : Env) : Prop where
  text : route.textSearch.isSome = true
  performed : env.raises .playlistPerformAsync = false
  stamped : env.raises .walletTimestamp = false
  paid : row.active = true ∨ env.raises .walletToken = false

/-- The eligibility check behind a refresh that starts in `s` has the rows of the user and a timestamp
where it compares one, and if it lets the user through, `create_playlist` has what it needs. -/
def Unhindered (s : Ctx) : Prop :=
  ∃ id row wallet eligible, s.currentUser = some id ∧
    s.db.subscriptions.lookup id = some row ∧ s.db.wallets.lookup id = some wallet ∧
    HomeController.eligibleForPlaylist row wallet (s.reading 4) = some eligible ∧
    (eligible = true → Creates row s.route s.env)

/-- When the service goes through, it gets back the credentials it had, and the route is neither login
nor logout; when the filter of `create_playlist` goes through, so does it, or nothing behind it
raises. -/
structure RefreshKept (sys : System) (r : Request) : Prop where
  service : ∀ s old new, ReachesService sys r s →
    GoesThrough .refresherUsername .refresherProfile old new s → new = old ∧ r.route.isLogin = false
  home : ∀ s old new, r.route.charges = true →
    ReachesFilter HomeController.authenticateUser sys r s →
    GoesThrough .homeUsername .homeProfile old new s → new = old ∨ Unhindered s

theorem not_renewed (h : t.db.profiles = s.db.profiles) : ¬ Renewed id s t := by
  intro hne
  apply hne
  rw [h]

/-! ### The session a refresh starts with -/

theorem ReachesService.still (h : ReachesService sys r s) : Still (sys.start r).identified s := by
  have hset : setCurrentUser.run (sys.start r) = .ok () (sys.start r).identified := rfl
  unfold ReachesService at h
  rw [EStateM.run_bind, hset] at h
  exact (still_checkStripeSubscription.of_ok trivial h).1

theorem ReachesFilter.still (h : ReachesFilter HomeController.authenticateUser sys r s) :
    Still (sys.start r).identified s := by
  obtain ⟨a, hfilters, hlogin, -⟩ := h
  have hstill := still_applicationFilters (sys.start r)
  rw [final_of_ok hfilters] at hstill
  have hauthenticated : Still a s := (within_authenticateUser.of_ok trivial hlogin).1
  exact hstill.trans hauthenticated

/-- A request with Spotify data runs on the browser's own session. -/
theorem nullSession_of_data (h : (sys.sessionOf r).spotifyUserData = some old) :
    r.nullSession = false := by
  cases hnull : r.nullSession with
  | false => rfl
  | true =>
      unfold System.sessionOf at h
      rw [if_pos hnull] at h
      cases h

theorem sessionOf_of_data (h : (sys.sessionOf r).spotifyUserData = some old) :
    sys.sessionOf r = sys.cookies r.browser := by
  unfold System.sessionOf
  rw [nullSession_of_data h]
  rfl

/-! ### The cookie after a request -/

theorem serve_cookie {c : Ctx} (hnull : r.nullSession = false)
    (hrun : (process prices r.route).run (sys.start r) = .ok () c) :
    (serve prices sys r).cookies r.browser = c.session := by
  unfold serve
  rw [hrun]
  show sys.commit r c.session r.browser = c.session
  unfold System.commit
  rw [hnull, if_neg Bool.false_ne_true, Function.update_self]

theorem serve_cookies_of_raise {c : Ctx} {e : Err}
    (hrun : (process prices r.route).run (sys.start r) = .error e c) :
    (serve prices sys r).cookies = sys.cookies := by
  unfold serve
  rw [hrun]

/-! ### Credentials that RSpotify does not change -/

/-- Hashes that are rebuilt to themselves stay in the session. -/
theorem Effects.holds (h : Effects prices s t) (hsame : s.env.rspotifyUser old = some old)
    (hs : s.session.spotifyUserData = some old) :
    t.env = s.env ∧ t.session.spotifyUserData = some old := by
  induction h with
  | refl => exact ⟨rfl, hs⟩
  | tail _ he ih =>
    obtain ⟨henv, hdata⟩ := ih
    refine ⟨he.frame.2.2.trans henv, ?_⟩
    cases he with
    | quiet hq => exact (congrArg Session.spotifyUserData hq.session).trans hdata
    | refreshed held rebuilt =>
        cases held.symm.trans hdata
        rw [henv, hsame] at rebuilt
        exact rebuilt.symm
    | _ => exact hdata

theorem serve_holds (hr : r.route.isLogin = false) (hsame : r.env.rspotifyUser old = some old)
    (hdata : (sys.sessionOf r).spotifyUserData = some old) :
    ((serve prices sys r).cookies r.browser).spotifyUserData = some old := by
  have hserved : Served (Effects prices) (sys.start r).identified
      (final (process prices r.route) (sys.start r)) :=
    process_served fun _ hc => safe_afterCheck hr hc.frame.2.1
  have hend : (final (process prices r.route) (sys.start r)).session.spotifyUserData =
      some old := by
    cases hserved with
    | stopped hq => exact (congrArg Session.spotifyUserData hq.session).trans hdata
    | @passed m _ check rest =>
        have hm : m.env.rspotifyUser old = some old := by
          rw [check.frame.2.2]
          exact hsame
        exact (rest.holds hm ((congrArg Session.spotifyUserData check.still.session).trans hdata)).2
  cases hrun : (process prices r.route).run (sys.start r) with
  | error e c =>
      rw [serve_cookies_of_raise hrun, ← sessionOf_of_data hdata]
      exact hdata
  | ok _ c =>
      rw [final_of_ok hrun] at hend
      rw [serve_cookie (nullSession_of_data hdata) hrun]
      exact hend

/-! ### What follows the refresh of `create_playlist` -/

/-- The session is as it was. -/
def Seated (s t : Ctx) : Prop := t.session = s.session

instance : Allows Seated where
  refl _ := rfl
  trans _ _ _ h h' := h'.trans h
  quiet h := h.session
  nilCall _ := rfl

theorem seated_of_noted {α : Type} {m : Action α} (h : Within Noted m) : Within Seated m :=
  Spec.weaken h fun _ _ => Noted.session

theorem seated_createPlaylistWorker : Within Seated HomeController.createPlaylistWorker := by
  refine Within.get_bind fun s => ?_
  split
  · exact Within.bind within_theUser fun _ => Within.bind (within_call _) fun _ =>
      Within.bind within_currentTime fun _ => Within.update fun _ => rfl
  · exact Within.raise _

theorem seated_createPlaylist : Within Seated HomeController.createPlaylist := by
  have hstamp : Within Seated HomeController.updateWallet :=
    Within.bind within_theUser fun _ => Within.bind within_currentTime fun _ =>
      Within.bind (within_call _) fun _ => Within.update fun _ => rfl
  have hspend : Within Seated HomeController.spendToken :=
    Within.bind within_theUser fun _ => Within.bind (within_call _) fun _ =>
      Within.get_bind fun _ => Within.ite (Within.update fun _ => rfl) (Within.pure _)
  have hgate : Within Seated gateSubscription :=
    seated_of_noted (Within.of_spec noted_gateSubscription)
  exact Within.bind seated_createPlaylistWorker fun _ => Within.bind hstamp fun _ =>
    Within.bind (within_setFlash _ _) fun _ => Within.bind hgate fun _ =>
    Within.ite (Within.bind hspend fun _ => within_redirectTo _) (within_redirectTo _)

theorem seated_behindRefresh : Within Seated behindRefresh :=
  Within.bind (within_beforeAction (Within.pure _) (within_beforeAction
    (seated_of_noted (Within.of_spec HomeController.noted_checkEligibility))
    seated_createPlaylist)) fun _ => within_renderPage

/-- A filter of a controller that has redirected ends the request. -/
theorem beforeAction_stops {filter rest : Action Unit} {path : String}
    (hrun : filter.run s = .ok () t) (hlocation : t.location = some path) :
    (beforeAction filter rest).run s = .ok () t := by
  unfold beforeAction
  simp only [EStateM.run_bind, hrun, EStateM.run_get, hlocation]
  rfl

theorem renderPage_run {path : String} (h : s.location = some path) :
    renderPage.run s = .ok () s := by
  unfold renderPage
  simp only [EStateM.run_bind, EStateM.run_get, h]
  rfl

namespace HomeController

variable {row : Subscription} {wallet : Wallet}

/-- What `check_eligibility` does with the answer. -/
def afterEligible : Option Bool → Action Unit
  | none => nilCall
  | some true => return
  | some false => do
      let subscription ← gateSubscription
      let wallet ← theWallet
      if subscription.active = false ∧ wallet.token = some "0" then
        setFlash "alert" "You don't have any tokens left."
      else
        setFlash "alert" "You can't create a playlist now."
      redirectTo "/"

theorem checkEligibility_eq : checkEligibility = gateSubscription >>= fun subscription =>
    theWallet >>= fun wallet => currentTime >>= fun now =>
      afterEligible (eligibleForPlaylist subscription wallet now) := rfl

/-- The check reads the two rows of the user and the clock, and answers. -/
theorem checkEligibility_run_rows (hid : s.currentUser = some id)
    (hrow : s.db.subscriptions.lookup id = some row)
    (hwallet : s.db.wallets.lookup id = some wallet) :
    ∃ t, Ticked 1 s t ∧ Quiet (s.gated id row) t ∧ checkEligibility.run s =
      (afterEligible (eligibleForPlaylist row wallet (s.reading 1))).run t := by
  have hgate := gateSubscription_run hid hrow
  have hgated := ticked_gated s id row
  have htheWallet : theWallet.run (s.gated id row) = .ok wallet (s.gated id row) :=
    theRow_run hid hwallet
  obtain ⟨t, ht, htick, hq⟩ := currentTime_ticked (s.gated id row)
  have hnow : (s.gated id row).reading 1 = s.reading 1 := hgated.reading 1
  rw [hnow] at ht
  refine ⟨t, hgated.trans htick, hq, ?_⟩
  rw [checkEligibility_eq]
  simp only [EStateM.run_bind, hgate, htheWallet, ht]

/-- The check lets an eligible user through, and redirects another one. -/
theorem checkEligibility_run {eligible : Bool} (hid : s.currentUser = some id)
    (hrow : s.db.subscriptions.lookup id = some row) (hwallet : s.db.wallets.lookup id = some wallet)
    (heligible : eligibleForPlaylist row wallet (s.reading 1) = some eligible) :
    ∃ t, checkEligibility.run s = .ok () t ∧
      ((eligible = true ∧ Ticked 1 s t) ∨ (eligible = false ∧ t.location = some "/")) := by
  obtain ⟨b, hsb, -, hrun⟩ := checkEligibility_run_rows hid hrow hwallet
  rw [heligible] at hrun
  rw [hrun]
  cases eligible with
  | true => exact ⟨b, rfl, .inl ⟨rfl, hsb⟩⟩
  | false =>
      have hidb : b.currentUser = some id := hsb.currentUser.trans hid
      have hrowb : b.db.subscriptions.lookup id = some row := by
        rw [hsb.subscriptions]
        exact hrow
      have hgate := gateSubscription_run hidb hrowb
      have hwalletb : b.db.wallets.lookup id = some wallet := by
        rw [hsb.wallets]
        exact hwallet
      have htheWallet : theWallet.run (b.gated id row) = .ok wallet (b.gated id row) :=
        theRow_run hidb hwalletb
      unfold afterEligible
      simp only [EStateM.run_bind, hgate, htheWallet]
      split
      · exact ⟨_, rfl, .inr ⟨trivial, rfl⟩⟩
      · exact ⟨_, rfl, .inr ⟨trivial, rfl⟩⟩

theorem createPlaylist_returns (hid : s.currentUser = some id)
    (hrow : s.db.subscriptions.lookup id = some row) (h : Creates row s.route s.env) :
    ∃ t, createPlaylist.run s = .ok () t ∧ t.location = some "/" := by
  rw [createPlaylist_eq]
  rcases createPlaylistWorker_run hid with ⟨e, -, htext | hperform⟩ | ⟨a, time, hrun, hpushed, hdb⟩
  · have hsome := h.text
    rw [htext] at hsome
    cases hsome
  · cases h.performed.symm.trans hperform
  have hida : a.currentUser = some id := hpushed.currentUser.trans hid
  rcases updateWallet_run hida with ⟨e, b, -, -, hraises⟩ | ⟨b, hq, -, hstamp⟩
  · rw [hpushed.env] at hraises
    cases h.stamped.symm.trans hraises
  -- the state in which the user is told, with the stamp in the wallet
  obtain ⟨c, hc⟩ : ∃ c : Ctx, c = { b with
      db := b.db.amendWallet id fun w => { w with timestamp := some b.clock }
      flash := b.flash ++ [("notice", successMessage)] } := ⟨_, rfl⟩
  have hidc : c.currentUser = some id := by
    rw [hc]
    exact hq.currentUser.trans hida
  have henv : c.env = s.env := by
    rw [hc]
    exact hq.env.trans hpushed.env
  have hrowc : c.db.subscriptions.lookup id = some row := by
    rw [hc, ← hrow, ← hdb, ← hq.db]
    rfl
  have hgate := gateSubscription_run hidc hrowc
  have hsettle : settle.run { b with
      db := b.db.amendWallet id fun w => { w with timestamp := some b.clock } } =
      (do
        let subscription ← gateSubscription
        if !subscription.active then (do spendToken; redirectTo "/") else redirectTo "/").run c := by
    rw [hc]
    rfl
  simp only [EStateM.run_bind, hrun, hstamp, hsettle, hgate]
  cases hactive : row.active with
  | true => exact ⟨_, rfl, rfl⟩
  | false =>
    have hclean : (c.gated id row).env.raises .walletToken = false := by
      show c.env.raises .walletToken = false
      rw [henv]
      exact h.paid.resolve_left (by rw [hactive]; exact Bool.false_ne_true)
    rw [if_pos (show (!false) = true from rfl)]
    rcases spendToken_run (s := c.gated id row) hidc with ⟨e, -, hraises⟩ | ⟨hspent, -⟩ | ⟨hspent, -⟩
    · cases hclean.symm.trans hraises
    · simp only [EStateM.run_bind, hspent]
      exact ⟨_, rfl, rfl⟩
    · simp only [EStateM.run_bind, hspent]
      exact ⟨_, rfl, rfl⟩

end HomeController

/-- Nothing behind an unhindered refresh raises. -/
theorem behindRefresh_returns (h : Unhindered s) (hst : Ticked 3 s t) (hhere : s.location = none) :
    ∃ c, behindRefresh.run t = .ok () c := by
  obtain ⟨id, row, wallet, eligible, hid, hrow, hwallet, heligible, hcreates⟩ := h
  have hthere : t.location = none := hst.location.trans hhere
  have hskip : (beforeAction (return) (beforeAction HomeController.checkEligibility
      HomeController.createPlaylist)).run t =
      (beforeAction HomeController.checkEligibility HomeController.createPlaylist).run t :=
    beforeAction_run rfl hthere
  have hrowt : t.db.subscriptions.lookup id = some row := by
    rw [hst.subscriptions]
    exact hrow
  have hwallett : t.db.wallets.lookup id = some wallet := by
    rw [hst.wallets]
    exact hwallet
  have htime : HomeController.eligibleForPlaylist row wallet (t.reading 1) = some eligible := by
    rw [hst.reading]
    exact heligible
  unfold behindRefresh
  rw [EStateM.run_bind, hskip]
  obtain ⟨m, hrun, ⟨hlets, htm⟩ | ⟨-, hrefused⟩⟩ :=
    HomeController.checkEligibility_run (hst.currentUser.trans hid) hrowt hwallett htime
  · have hsm : Ticked 4 s m := hst.trans htm
    have hm : Creates row m.route m.env := by
      rw [hsm.route, hsm.env]
      exact hcreates hlets
    obtain ⟨c, hcreated, hlocation⟩ := HomeController.createPlaylist_returns
      (hsm.currentUser.trans hid) (by rw [hsm.subscriptions]; exact hrow) hm
    rw [beforeAction_run hrun (htm.location.trans hthere), hcreated]
    exact ⟨c, renderPage_run hlocation⟩
  · rw [beforeAction_stops hrun hrefused]
    exact ⟨m, renderPage_run hrefused⟩

/-- From the state in which the refresh of a request for a playlist ends, the request goes on with
what follows it. -/
theorem ReachesFilter.process_run (hr : r.route.charges = true)
    (h : ReachesFilter HomeController.authenticateUser sys r s)
    (hrefresh : HomeController.refreshAccessToken.run s = .ok () t) :
    (process prices r.route).run (sys.start r) = behindRefresh.run t := by
  obtain ⟨a, hfilters, hlogin, hhere⟩ := h
  obtain ⟨text, hroute⟩ := Route.exists_text hr
  have hdispatch : (dispatch prices r.route).run a = (beforeAction (return)
      (beforeAction HomeController.checkEligibility HomeController.createPlaylist)).run t := by
    rw [hroute]
    show HomeController.createPlaylistRequest.run a = _
    unfold HomeController.createPlaylistRequest
    rw [beforeAction_run hlogin hhere]
    show (HomeController.refreshAccessToken >>= _).run s = _
    rw [EStateM.run_bind, hrefresh]
    rfl
  unfold process behindRefresh
  simp only [EStateM.run_bind, hfilters, hdispatch]

/-- An unhindered request for a playlist commits the user that its refresh rebuilt. -/
theorem serve_commits (hr : r.route.charges = true)
    (h : ReachesFilter HomeController.authenticateUser sys r s)
    (hrefresh : HomeController.refreshAccessToken.run s = .ok () t)
    (hnull : r.nullSession = false) (hticked : Ticked 3 s t) (hunhindered : Unhindered s) :
    (serve prices sys r).cookies r.browser = t.session := by
  obtain ⟨-, -, -, hhere⟩ := id h
  obtain ⟨c, hrun⟩ := behindRefresh_returns hunhindered hticked hhere
  have hseated : Seated t c := (seated_behindRefresh.of_ok trivial hrun).1
  have hprocess : (process prices r.route).run (sys.start r) = .ok () c :=
    (h.process_run hr hrefresh).trans hrun
  rw [serve_cookie hnull hprocess]
  exact hseated

/-! ### Requests and runs -/

/-- **One request.** -/
theorem RefreshKept.freshSession (hkept : RefreshKept sys r) : FreshSession prices sys r := by
  intro id s t hrefresh hid hrenewed
  cases hrefresh with
  | service hreach =>
    rcases refreshSpotifyAccessToken_profiles hid with hprofiles | ⟨old, new, hthrough⟩
    · exact absurd hrenewed (not_renewed hprofiles)
    · obtain ⟨rfl, hlogin⟩ := hkept.service s old new hreach hthrough
      have hstill := hreach.still
      have hsame : r.env.rspotifyUser new = some new := by
        rw [← show s.env = r.env from hstill.env]
        exact hthrough.rebuilt
      have hdata : (sys.sessionOf r).spotifyUserData = some new := by
        rw [← show s.session = sys.sessionOf r from hstill.session]
        exact hthrough.held
      exact ⟨new, new, hthrough.held, hsame, serve_holds hlogin hsame hdata⟩
  | home hr hreach =>
    rcases HomeController.refreshAccessToken_run hid with
      hprofiles | ⟨old, new, t, hthrough, hrun, hsession, hticked⟩
    · exact absurd hrenewed (not_renewed hprofiles)
    · have hstill := hreach.still
      have hrebuilt : r.env.rspotifyUser old = some new := by
        rw [← show s.env = r.env from hstill.env]
        exact hthrough.rebuilt
      have hdata : (sys.sessionOf r).spotifyUserData = some old := by
        rw [← show s.session = sys.sessionOf r from hstill.session]
        exact hthrough.held
      refine ⟨old, new, hthrough.held, hrebuilt, ?_⟩
      rcases hkept.home s old new hr hreach hthrough with rfl | hunhindered
      · obtain ⟨text, hroute⟩ := Route.exists_text hr
        have hlogin : r.route.isLogin = false := by
          rw [hroute]
          rfl
        exact serve_holds hlogin hrebuilt hdata
      · rw [serve_commits hr hreach hrun (nullSession_of_data hdata) hticked hunhindered, hsession]
  | stats hr hreach =>
      apply absurd hrenewed
      apply not_renewed
      rw [StatsController.accessTokenRefreshing_db]

/-- **A fresh profile means a refreshed session.**  In every run whose requests keep what their
refreshes rebuild, every refresh that renews the profile leaves the user that it rebuilt in the
cookie. -/
theorem renewed_profile_fresh_session {sys₀ : System} {steps : List Step}
    (hkept : StepRun.Along (step prices) (fun sys a => ∀ r, a = .request r → RefreshKept sys r)
      sys₀ steps) :
    StepRun.Along (step prices) (fun sys a => ∀ r, a = .request r → FreshSession prices sys r)
      sys₀ steps :=
  hkept.imp fun _ _ h r hr => (h r hr).freshSession

namespace Sample

/-- The service fails to save the name, and the filter of `create_playlist` refreshes. -/
def latePlaylist : Request :=
  lateRequest (.createPlaylist (some "90s playlist")) fun c => c == .refresherUsername

/-- The state in which that filter starts. -/
def beforeRefresh : Ctx :=
  final HomeController.authenticateUser <| final applicationFilters <| loggedIn.start latePlaylist

theorem eq_beforeRefresh {s : Ctx}
    (h : ReachesFilter HomeController.authenticateUser loggedIn latePlaylist s) :
    s = beforeRefresh := by
  obtain ⟨a, hfilters, hlogin, -⟩ := h
  have hfinal := final_of_ok hlogin
  rw [← final_of_ok hfilters] at hfinal
  exact hfinal.symm

theorem latePlaylist_kept : RefreshKept loggedIn latePlaylist where
  service := by
    intro s old new hreach hthrough
    have hclean := hthrough.saves.username
    rw [hreach.still.env] at hclean
    cases hclean
  home := by
    intro s old new _ hreach _
    rw [eq_beforeRefresh hreach]
    exact .inr ⟨0, {}, {}, false, rfl, rfl, rfl, by decide, fun h => nomatch h⟩

end Sample

/-- The cookie after that request has the renewed token. -/
theorem renewed_token_in_cookie :
    ((serve Sample.priceIds Sample.loggedIn Sample.latePlaylist).cookies 0).spotifyUserData =
      some (Sample.renewed Sample.ada) := by
  have halong : StepRun.Along (step Sample.priceIds)
      (fun sys a => ∀ r, a = .request r → RefreshKept sys r) Sample.loggedIn
      [.request Sample.latePlaylist] := by
    refine ⟨fun r hr => ?_, fun _ _ => trivial⟩
    cases hr
    exact Sample.latePlaylist_kept
  have hfresh := (renewed_profile_fresh_session halong).1 Sample.latePlaylist rfl
  obtain ⟨old, new, hold, hnew, hcookie⟩ := hfresh 0 Sample.beforeRefresh _
    (.home rfl ⟨_, rfl, rfl, rfl⟩) rfl (by unfold Renewed; decide)
  cases hold
  cases hnew
  exact hcookie

/-- The service renews the profile, and the cookie keeps the old token. -/
theorem renewed_profile_old_session :
    ¬ ∀ (prices : PaymentsController.Prices) (sys₀ : System) (steps : List Step),
      StepRun.Along (step prices) (fun sys a => ∀ r, a = .request r → FreshSession prices sys r)
        sys₀ steps := by
  intro h
  have hfresh := (h Sample.priceIds Sample.loggedIn
    [.request (Sample.lateRequest .homeIndex fun _ => false)]).1 _ rfl
  obtain ⟨old, new, hold, hnew, hcookie⟩ := hfresh 0 _ _ (.service rfl) rfl
    (by unfold Renewed; decide)
  cases hold
  cases hnew
  exact absurd hcookie (by decide)

end Knoiz
