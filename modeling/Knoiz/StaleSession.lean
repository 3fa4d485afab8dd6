import Knoiz.FreshSession
import Knoiz.StatsSpacing

/-!
# Sessions whose user is gone

The login filters look at `session[:user_id]`, the inherited ones and the users page at
`@current_user`, and the payment actions at neither.  A session may name a user whose row is gone,
and then the two disagree.  So a request is handled without a call on `nil` exactly if it gets no
further than a filter that looks at what it goes on to use.  For a user with the four rows nothing
is missing on any way through the filters; what is left is the timestamp of the wallet, which the
eligibility check compares without asking whether there is one.
-/

namespace Knoiz

open ProgramLogic Relation RowTable

variable {prices : PaymentsController.Prices} {sys : System} {r : Request} {s t : Ctx} {id : ℕ}

/-! ### The way to an action -/

/-- The filters let a request through, one after another. -/
def Passes : List (Action Unit) → Ctx → Ctx → Prop
  | [], s, t => s = t
  | filter :: filters, s, t =>
      ∃ m, filter.run s = .ok () m ∧ m.location = none ∧ Passes filters m t

/-- The state in which a request has passed the inherited filters and these ones. -/
def Reaches (filters : List (Action Unit)) (sys : System) (r : Request) (t : Ctx) : Prop :=
  ∃ a, applicationFilters.run (sys.start r) = .ok () a ∧ Passes filters a t

/-- The state in which a request comes to the body of its action. -/
def ReachesBody (sys : System) (r : Request) (t : Ctx) : Prop := Reaches r.route.filters sys r t

/-- The state in which a request comes to `check_eligibility`. -/
def ReachesCheck (sys : System) (r : Request) (t : Ctx) : Prop :=
  r.route.charges = true ∧
    Reaches [HomeController.authenticateUser, HomeController.refreshAccessToken] sys r t

theorem Passes.run_foldr {filters : List (Action Unit)} (h : Passes filters s t)
    (body : Action Unit) : (filters.foldr beforeAction body).run s = body.run t := by
  induction filters generalizing s with
  | nil =>
      cases h
      rfl
  | cons filter filters ih =>
      obtain ⟨m, hrun, hlocation, hrest⟩ := h
      rw [List.foldr_cons, beforeAction_run hrun hlocation]
      exact ih hrest

theorem Passes.related {R : Ctx → Ctx → Prop} [IsPreorder Ctx R] {filters : List (Action Unit)}
    (h : Passes filters s t) (hfilters : ∀ filter ∈ filters, Within R filter) : R s t := by
  induction filters generalizing s with
  | nil =>
      cases h
      exact refl _
  | cons filter filters ih =>
      obtain ⟨m, hrun, -, hrest⟩ := h
      have hfilter : R s m := ((hfilters filter List.mem_cons_self).of_ok trivial hrun).1
      have hafter : R m t := ih hrest fun f hf => hfilters f (List.mem_cons_of_mem filter hf)
      exact IsTrans.trans _ _ _ hfilter hafter

/-- From where a request has come to, the rest of it is the rest of its route. -/
theorem Reaches.final_process {filters : List (Action Unit)} {rest : Action Unit}
    (h : Reaches filters sys r t) (hroute : dispatch prices r.route = filters.foldr beforeAction rest) :
    final (process prices r.route) (sys.start r) = final (rest >>= fun _ => renderPage) t := by
  obtain ⟨a, hinherited, hpasses⟩ := h
  unfold process
  rw [final_bind_ok hinherited]
  apply final_congr
  rw [EStateM.run_bind, EStateM.run_bind, hroute, hpasses.run_foldr]

/-- No filter changes who is logged in. -/
theorem ReachesBody.currentUser (h : ReachesBody sys r t) : t.currentUser = sys.userOf r := by
  obtain ⟨a, hinherited, hpasses⟩ := h
  have hstill := still_applicationFilters (sys.start r)
  rw [final_of_ok hinherited] at hstill
  have hleaves : LeavesStats a t := hpasses.related fun _ => leavesStats_filters r.route
  exact hleaves.currentUser.trans hstill.currentUser

/-! ### Handled requests -/

/-- The actions whose body is for a logged-in user. -/
def Route.needsUser : Route → Bool
  | .createPlaylist _ | .statsIndex | .statsTops | .statsRecently | .statsTopGlobal | .usersInfo
  | .paymentsSuccess _ | .createCheckoutSession _ => true
  | _ => false

/-- The two payment actions. -/
def Route.pays : Route → Bool
  | .paymentsSuccess _ | .createCheckoutSession _ => true
  | _ => false

/-- The request calls nothing on `nil`, swallowed or not, and an action for a logged-in user is
reached with one only. -/
structure Handled (prices : PaymentsController.Prices) (sys : System) (r : Request) : Prop where
  calls : ∃ es, (serve prices sys r).log = sys.log ++ es ∧ Event.nilCall ∉ es
  bodies : r.route.needsUser = true → ∀ s, ReachesBody sys r s → s.currentUser ≠ none

/-- The user is entitled to a playlist, and the wallet has no timestamp. -/
def NullStamp (s : Ctx) : Prop :=
  ∃ id row wallet, s.currentUser = some id ∧ s.db.subscriptions.lookup id = some row ∧
    s.db.wallets.lookup id = some wallet ∧ HomeController.entitled row wallet = true ∧
    wallet.timestamp = none

/-- A request as nobody goes to no payment action, and to no action behind a login filter with a
`user_id` in the session; and the eligibility check has a timestamp to compare. -/
structure Manageable (sys : System) (r : Request) : Prop where
  nobody : sys.userOf r = none → r.route.pays = false ∧
    (r.route.charges = true ∨ r.route.isStats = true → (sys.sessionOf r).userId = none)
  stamped : ∀ s, ReachesCheck sys r s → ¬ NullStamp s

theorem serve_log : (serve prices sys r).log =
    (final (process prices r.route) (sys.start r)).log :=
  congrArg Server.log (serve_server sys r)

/-- A call on `nil` in front of which nothing is taken off the log. -/
theorem not_handled_of_nilCall {filters : List (Action Unit)} {action rest : Action Unit} {u : Ctx}
    {e : Err} {before es : List Event} (hreach : Reaches filters sys r t)
    (hroute : dispatch prices r.route = filters.foldr beforeAction (beforeAction action rest))
    (hbefore : t.log = sys.log ++ before) (hrun : action.run t = .error e u)
    (hlog : u.log = t.log ++ es) (hnil : Event.nilCall ∈ es) : ¬ Handled prices sys r := by
  intro hhandled
  obtain ⟨fs, hserved, hclean⟩ := hhandled.calls
  have hend : final (process prices r.route) (sys.start r) = u := by
    rw [hreach.final_process hroute]
    apply final_bind_error (e := e)
    unfold beforeAction
    rw [EStateM.run_bind, hrun]
  rw [serve_log, hend, hlog, hbefore, List.append_assoc] at hserved
  have hes : before ++ es = fs := List.append_cancel_left hserved
  apply hclean
  rw [← hes]
  exact List.mem_append_right before hnil

/-! ### Nobody -/

section Nobody

variable (hid : s.currentUser = none)
include hid

theorem collectStats_run_none : collectStats.run s = .ok () s := by
  have hrequired : statsCollectionRequired.run s = .ok false s := by
    unfold statsCollectionRequired
    simp only [EStateM.run_bind, EStateM.run_get, hid]
    rfl
  unfold collectStats
  rw [EStateM.run_bind, hrequired]
  rfl

theorem refreshSpotifyAccessToken_run_none : refreshSpotifyAccessToken.run s = .ok () s := by
  unfold refreshSpotifyAccessToken
  simp only [EStateM.run_bind, EStateM.run_get, hid, EStateM.run_pure]

theorem checkStripeSubscription_run_none : checkStripeSubscription.run s = .ok () s := by
  unfold checkStripeSubscription
  simp only [EStateM.run_bind, EStateM.run_get, hid, EStateM.run_pure]

theorem tokenNeedsRefresh_run_none :
    tokenNeedsRefresh.run s = .error .noMethodError s.nilCalled := by
  apply tokenNeedsRefresh_of_missing
  intro id hid'
  cases hid.symm.trans hid'

theorem HomeController.refreshAccessToken_run_none :
    refreshAccessToken.run s = .error .noMethodError s.nilCalled := by
  unfold refreshAccessToken shouldRefreshToken
  rw [EStateM.run_bind, tokenNeedsRefresh_run_none hid]

/-- With a `user_id` in the session, `access_token_refreshing` asks for the profile. -/
theorem StatsController.accessTokenRefreshing_run_none (hsession : s.session.userId.isNone = false) :
    accessTokenRefreshing.run s = .error .noMethodError s.nilCalled := by
  have hneeds : needToRefreshToken.run s = .error .noMethodError s.nilCalled := by
    unfold needToRefreshToken
    simp only [EStateM.run_bind, EStateM.run_get, hsession, Bool.false_eq_true, if_false]
    exact tokenNeedsRefresh_run_none hid
  unfold accessTokenRefreshing
  rw [EStateM.run_bind, hneeds]

theorem UsersController.ensureCurrentUserAndSubscription_run_none :
    ∃ t, ensureCurrentUserAndSubscription.run s = .ok () t ∧ t.location = some "/" ∧
      t.log = s.log := by
  unfold ensureCurrentUserAndSubscription
  simp only [EStateM.run_bind, EStateM.run_get, hid]
  exact ⟨_, rfl, rfl, rfl⟩

end Nobody

/-- The inherited filters let nobody through, and do nothing. -/
theorem applicationFilters_run_none (huser : sys.userOf r = none) :
    applicationFilters.run (sys.start r) = .ok () (sys.start r).identified := by
  have hid : (sys.start r).identified.currentUser = none := huser
  rw [applicationFilters_run, EStateM.run_bind, checkStripeSubscription_run_none hid]
  simp only [EStateM.run_bind, refreshSpotifyAccessToken_run_none hid]
  exact collectStats_run_none hid

/-- The two login filters. -/
def requireLogin (message : String) : Action Unit := do
  let s ← get
  if s.session.userId.isNone then
    setFlash "alert" message
    redirectTo "/"

theorem HomeController.authenticateUser_eq :
    authenticateUser = requireLogin "You must be logged in to Spotify." := rfl

theorem StatsController.ensureLoggedIn_eq :
    ensureLoggedIn = requireLogin "You must be logged in !" := rfl

theorem requireLogin_redirects (message : String) (h : s.session.userId = none) :
    ∃ t, (requireLogin message).run s = .ok () t ∧ t.location = some "/" ∧ t.log = s.log := by
  unfold requireLogin
  simp only [EStateM.run_bind, EStateM.run_get, h]
  exact ⟨_, rfl, rfl, rfl⟩

theorem requireLogin_passes (message : String) (h : s.session.userId ≠ none) :
    (requireLogin message).run s = .ok () s := by
  obtain ⟨id, hid⟩ := Option.ne_none_iff_exists'.mp h
  unfold requireLogin
  simp only [EStateM.run_bind, EStateM.run_get, hid]
  rfl

/-- Behind the login filter a refresh asks for the profile. -/
theorem Route.filters_of_refresh {route : Route} (h : route.charges = true ∨ route.isStats = true) :
    ∃ message refresh filters, route.filters = requireLogin message :: refresh :: filters ∧
      ∀ s : Ctx, s.currentUser = none → s.session.userId ≠ none →
        refresh.run s = .error .noMethodError s.nilCalled := by
  have hstats : ∀ s : Ctx, s.currentUser = none → s.session.userId ≠ none →
      StatsController.accessTokenRefreshing.run s = .error .noMethodError s.nilCalled := by
    intro s hid hsession
    apply StatsController.accessTokenRefreshing_run_none hid
    rw [Option.isNone_eq_false_iff, Option.isSome_iff_ne_none]
    exact hsession
  cases route with
  | createPlaylist text =>
      rw [Route.filters, HomeController.authenticateUser_eq]
      exact ⟨_, _, _, rfl, fun s hid _ => HomeController.refreshAccessToken_run_none hid⟩
  | statsIndex | statsTops | statsRecently | statsTopGlobal =>
      rw [Route.filters, StatsController.ensureLoggedIn_eq]
      exact ⟨_, _, _, rfl, hstats⟩
  | _ => simp [Route.charges, Route.isStats] at h

theorem reads_renderPage : Reads renderPage := by
  intro s
  unfold renderPage call
  simp only [EStateM.run_bind, EStateM.run_get]
  cases s.location.isNone with
  | false => exact .inl ⟨_, rfl⟩
  | true =>
    simp only [if_true, EStateM.run_bind, EStateM.run_get]
    cases s.env.raises .render with
    | false => exact .inl ⟨_, rfl⟩
    | true => exact .inr ⟨_, rfl⟩

/-- A request as nobody whose first filter redirects. -/
theorem handled_of_redirect {filter : Action Unit} {filters : List (Action Unit)}
    (huser : sys.userOf r = none) (hfilters : r.route.filters = filter :: filters)
    (hrun : ∃ t, filter.run (sys.start r).identified = .ok () t ∧ t.location = some "/" ∧
      t.log = sys.log) : Handled prices sys r := by
  obtain ⟨t, hrun, hlocation, hlog⟩ := hrun
  have hinherited := applicationFilters_run_none huser
  have hend : final (process prices r.route) (sys.start r) = t := by
    unfold process
    rw [final_bind_ok hinherited, dispatch_eq, hfilters, List.foldr_cons,
      final_bind_ok (beforeAction_stops hrun hlocation), final_of_ok (renderPage_run hlocation)]
  refine ⟨⟨[], ?_, List.not_mem_nil⟩, fun _ s hreach => ?_⟩
  · rw [serve_log, hend, hlog, List.append_nil]
  · obtain ⟨a, ha, hpasses⟩ := hreach
    cases hinherited.symm.trans ha
    rw [hfilters] at hpasses
    obtain ⟨m, hm, hnone, -⟩ := hpasses
    cases hrun.symm.trans hm
    rw [hlocation] at hnone
    cases hnone

/-- A request as nobody for a page that needs no user. -/
theorem handled_of_public (huser : sys.userOf r = none) (hpublic : r.route.needsUser = false)
    (hlog : ∀ s, (final (dispatch prices r.route) s).log = s.log) : Handled prices sys r := by
  refine ⟨⟨[], ?_, List.not_mem_nil⟩, fun hneeds => ?_⟩
  · have hpage : (final (dispatch prices r.route >>= fun _ => renderPage)
        (sys.start r).identified).log = sys.log := by
      have hdispatch := hlog (sys.start r).identified
      cases hrun : (dispatch prices r.route).run (sys.start r).identified with
      | error e t =>
          rw [final_of_error hrun] at hdispatch
          rw [final_bind_error hrun]
          exact hdispatch
      | ok _ t =>
          rw [final_of_ok hrun] at hdispatch
          rw [final_bind_ok hrun, reads_renderPage.final]
          exact hdispatch
    rw [serve_log, List.append_nil, ← hpage]
    unfold process
    rw [final_bind_ok (applicationFilters_run_none huser)]
  · rw [hpublic] at hneeds
    cases hneeds

/-- A request as nobody that meets the condition: it is for a public page, or its first filter
redirects. -/
theorem handled_of_none (hlogin : r.route.isLogin = false) (huser : sys.userOf r = none)
    (h : Manageable sys r) : Handled prices sys r := by
  obtain ⟨hpays, hsession⟩ := h.nobody huser
  have hbehind : r.route.charges = true ∨ r.route.isStats = true → Handled prices sys r := by
    intro hroute
    obtain ⟨message, refresh, filters, hfilters, -⟩ := Route.filters_of_refresh hroute
    exact handled_of_redirect huser hfilters (requireLogin_redirects message (hsession hroute))
  cases hroute : r.route with
  | homeIndex | pricingIndex | paymentsCancel =>
      apply handled_of_public huser
      · rw [hroute]
        rfl
      · intro s
        rw [hroute]
        rfl
  | createPlaylist text => exact hbehind (.inl (by rw [hroute]; rfl))
  | statsIndex | statsTops | statsRecently | statsTopGlobal =>
      exact hbehind (.inr (by rw [hroute]; rfl))
  | usersInfo =>
      apply handled_of_redirect huser
      · rw [hroute]
        rfl
      · exact UsersController.ensureCurrentUserAndSubscription_run_none huser
  | authCallback | logout =>
      rw [hroute] at hlogin
      cases hlogin
  | paymentsSuccess | createCheckoutSession =>
      rw [hroute] at hpays
      cases hpays

/-- A payment action has no filter of its own. -/
theorem not_handled_of_pays (huser : sys.userOf r = none) (hpays : r.route.pays = true) :
    ¬ Handled prices sys r := by
  intro hhandled
  have hpays' : r.route.needsUser = true ∧ r.route.filters = [] := by
    cases hroute : r.route with
    | paymentsSuccess | createCheckoutSession => exact ⟨rfl, rfl⟩
    | _ =>
        rw [hroute] at hpays
        cases hpays
  refine hhandled.bodies hpays'.1 (sys.start r).identified ?_ huser
  refine ⟨_, applicationFilters_run_none huser, ?_⟩
  rw [hpays'.2]
  rfl

/-- Behind a login filter that looks at the session only, the refresh asks `nil` for its profile. -/
theorem not_handled_of_stale (huser : sys.userOf r = none)
    (hroute : r.route.charges = true ∨ r.route.isStats = true)
    (hsession : (sys.sessionOf r).userId ≠ none) : ¬ Handled prices sys r := by
  obtain ⟨message, refresh, filters, hfilters, hrefresh⟩ := Route.filters_of_refresh hroute
  have hreach : Reaches [requireLogin message] sys r (sys.start r).identified :=
    ⟨_, applicationFilters_run_none huser, _, requireLogin_passes message hsession, rfl, rfl⟩
  have hdispatch : dispatch prices r.route = [requireLogin message].foldr beforeAction
      (beforeAction refresh (filters.foldr beforeAction (r.route.body prices))) := by
    rw [dispatch_eq, hfilters]
    rfl
  have hlog : (sys.start r).identified.log = sys.log ++ [] := (List.append_nil _).symm
  exact not_handled_of_nilCall hreach hdispatch hlog (hrefresh _ huser hsession) rfl
    List.mem_cons_self

/-! ### A user with the four rows -/

/-- The same user with the rows still there, and no call on `nil` if there was somebody to ask. -/
structure NilFree (s t : Ctx) : Prop where
  currentUser : t.currentUser = s.currentUser
  rows : ∀ id, HasRows s.db id → HasRows t.db id
  events : ∃ es, t.log = s.log ++ es ∧ (s.Complete → Event.nilCall ∉ es)

theorem NilFree.complete (h : NilFree s t) (hs : s.Complete) : t.Complete := by
  obtain ⟨id, hid, hrows⟩ := hs
  exact ⟨id, h.currentUser.trans hid, h.rows id hrows⟩

theorem NilFree.of_log (huser : t.currentUser = s.currentUser)
    (hrows : ∀ id, HasRows s.db id → HasRows t.db id) (hlog : t.log = s.log) : NilFree s t :=
  ⟨huser, hrows, [], by rw [hlog, List.append_nil], fun _ => List.not_mem_nil⟩

theorem NilFree.concat {e : Event} (hrows : ∀ id, HasRows s.db id → HasRows t.db id)
    (huser : t.currentUser = s.currentUser) (hlog : t.log = s.log ++ [e])
    (he : s.Complete → e ≠ .nilCall) : NilFree s t := by
  refine ⟨huser, hrows, [e], hlog, fun hs hmem => ?_⟩
  exact he hs (List.mem_singleton.mp hmem).symm

instance : Tolerates NilFree where
  refl s := NilFree.of_log rfl (fun _ h => h) rfl
  trans s m t h h' := by
    obtain ⟨es, hes, hclean⟩ := h.events
    obtain ⟨fs, hfs, hclean'⟩ := h'.events
    refine ⟨h'.currentUser.trans h.currentUser, fun id hid => h'.rows id (h.rows id hid),
      es ++ fs, ?_, fun hs hmem => ?_⟩
    · rw [hfs, hes, List.append_assoc]
    · rcases List.mem_append.mp hmem with hmem | hmem
      · exact hclean hs hmem
      · exact hclean' (h.complete hs) hmem
  quiet h := NilFree.of_log h.currentUser (fun _ hid => by rw [h.db]; exact hid) h.log
  missing h := NilFree.concat (fun _ hid => hid) rfl rfl fun hs => absurd hs h
  noted s e he := by
    refine NilFree.concat (fun _ hid => hid) rfl rfl fun _ => ?_
    rintro rfl
    cases he
  session _ _ := NilFree.of_log rfl (fun _ h => h) rfl
  stripe _ _ := NilFree.of_log rfl (fun _ h => h) rfl
  stored _ _ h := NilFree.of_log rfl (fun _ hid => h.hasRows hid) rfl

theorem NilFree.trans {m : Ctx} (h : NilFree s m) (h' : NilFree m t) : NilFree s t :=
  IsTrans.trans _ _ _ h h'

theorem Collects.nilFree (h : Collects s t) : NilFree s t := by
  have hpushed : ∀ (m : Ctx) (content : Option SpotifyUser) (j : ℕ),
      NilFree m (m.pushed content j) := fun m content j =>
    NilFree.concat (fun _ hid => hid) rfl rfl fun _ h => nomatch h
  cases h with
  | idle _ quiet => exact Tolerates.quiet quiet
  | raised due => exact Tolerates.quiet due.quiet
  | @unstamped n m t j content due _ before after =>
      have hm : NilFree s m := Tolerates.quiet (due.quiet.trans before)
      exact (hm.trans (hpushed m content j)).trans (Tolerates.quiet after)
  | @stamped n m t j content due _ before after =>
      have hm : NilFree s m := Tolerates.quiet (due.quiet.trans before)
      have ht : NilFree s t := (hm.trans (hpushed m content j)).trans (Tolerates.quiet after)
      refine ht.trans (NilFree.of_log rfl (fun id hid => ?_) rfl)
      exact ⟨hid.subscription, hid.profile, hid.wallet, isSome_lookup_amend j _ hid.spotifydata⟩

theorem nilFree_applicationFilters (s : Ctx) :
    NilFree s.identified (final applicationFilters s) := by
  have hcollect : Within NilFree collectStats := by
    intro s _
    obtain ⟨t, hrun, hcollects⟩ := collectStats_run s
    rw [hrun]
    exact ⟨hcollects.nilFree, trivial⟩
  have hwithin : Within NilFree (checkStripeSubscription >>= fun _ =>
      refreshSpotifyAccessToken >>= fun _ => collectStats) :=
    Within.bind tolerates_checkStripeSubscription fun _ =>
      Within.bind tolerates_refreshSpotifyAccessToken fun _ => hcollect
  rw [final_congr (applicationFilters_run s)]
  exact hwithin.final s.identified

/-! ### The eligibility check -/

namespace HomeController

variable {row : Subscription} {wallet : Wallet}

/-- With its rows there, the check comes to its answer without a call on `nil`. -/
theorem nilFree_checkEligibility_rows (hid : s.currentUser = some id)
    (hrow : s.db.subscriptions.lookup id = some row)
    (hwallet : s.db.wallets.lookup id = some wallet) :
    ∃ t, NilFree s t ∧ checkEligibility.run s =
      (afterEligible (eligibleForPlaylist row wallet (s.reading 1))).run t := by
  obtain ⟨t, -, hq, hrun⟩ := checkEligibility_run_rows hid hrow hwallet
  have hgate : NilFree s (s.gated id row) := Tolerates.noted s rfl
  exact ⟨t, hgate.trans (Tolerates.quiet hq), hrun⟩

/-- Without a timestamp, the comparison is a call on `nil`. -/
theorem checkEligibility_nilCall (h : NullStamp s) :
    ∃ e t es, checkEligibility.run s = .error e t ∧ t.log = s.log ++ es ∧ Event.nilCall ∈ es := by
  obtain ⟨id, row, wallet, hid, hrow, hwallet, hentitled, hstamp⟩ := h
  obtain ⟨t, hst, hrun⟩ := nilFree_checkEligibility_rows hid hrow hwallet
  obtain ⟨es, hes, -⟩ := hst.events
  have hnone : eligibleForPlaylist row wallet (s.reading 1) = none := by
    unfold eligibleForPlaylist
    rw [if_pos hentitled, hstamp, Option.map_none]
  rw [hnone] at hrun
  refine ⟨_, _, es ++ [.nilCall], hrun, ?_, List.mem_append_right es List.mem_cons_self⟩
  show t.log ++ _ = _
  rw [hes, List.append_assoc]

/-- With one, or for a user who is not entitled, nothing is called on `nil`. -/
theorem nilFree_checkEligibility :
    Spec NilFree (fun s => s.Complete ∧ ¬ NullStamp s) checkEligibility fun _ _ => True := by
  rintro s ⟨⟨id, hid, hrows⟩, hstamped⟩
  obtain ⟨row, hrow⟩ := Option.isSome_iff_exists.mp hrows.subscription
  obtain ⟨wallet, hwallet⟩ := Option.isSome_iff_exists.mp hrows.wallet
  obtain ⟨t, hst, hrun⟩ := nilFree_checkEligibility_rows hid hrow hwallet
  have hafter : Within NilFree (afterEligible (eligibleForPlaylist row wallet (s.reading 1))) := by
    cases heligible : eligibleForPlaylist row wallet (s.reading 1) with
    | none =>
        apply absurd _ hstamped
        unfold eligibleForPlaylist at heligible
        split at heligible
        · rename_i hentitled
          exact ⟨id, row, wallet, hid, hrow, hwallet, hentitled, Option.map_eq_none_iff.mp heligible⟩
        · cases heligible
    | some eligible =>
      cases eligible with
      | true => exact Within.pure _
      | false =>
          exact Within.bind tolerates_gateSubscription fun _ => Within.bind tolerates_theWallet
            fun _ => Within.ite (within_flashAndRedirect _ _ _) (within_flashAndRedirect _ _ _)
  rw [hrun]
  exact (hafter t trivial).after hst

end HomeController

theorem not_handled_of_nullStamp (hreach : ReachesCheck sys r t) (h : NullStamp t) :
    ¬ Handled prices sys r := by
  obtain ⟨e, u, es, hrun, hlog, hnil⟩ := HomeController.checkEligibility_nilCall h
  obtain ⟨hcharges, a, hinherited, hpasses⟩ := hreach
  obtain ⟨text, hroute⟩ := Route.exists_text hcharges
  have hdispatch : dispatch prices r.route =
      [HomeController.authenticateUser, HomeController.refreshAccessToken].foldr beforeAction
        (beforeAction HomeController.checkEligibility HomeController.createPlaylist) := by
    rw [hroute]
    rfl
  have hbefore : NilFree (sys.start r).identified a := by
    have hfilters := nilFree_applicationFilters (sys.start r)
    rw [final_of_ok hinherited] at hfilters
    exact hfilters
  have hfilters : NilFree a t := by
    refine hpasses.related fun filter hfilter => ?_
    simp only [List.mem_cons, List.not_mem_nil, or_false] at hfilter
    rcases hfilter with rfl | rfl
    · exact within_authenticateUser
    · exact HomeController.tolerates_refreshAccessToken
  obtain ⟨before, hstart, -⟩ := (hbefore.trans hfilters).events
  exact not_handled_of_nilCall ⟨a, hinherited, hpasses⟩ hdispatch hstart hrun hlog hnil

/-! ### One request -/

/-- The page behind an action calls nothing on `nil`. -/
theorem nilFree_page (action : Action Unit) (s : Ctx) :
    NilFree (final action s) (final (action >>= fun _ => renderPage) s) := by
  cases hrun : action.run s with
  | error e t =>
      rw [final_of_error hrun, final_bind_error hrun]
      exact refl t
  | ok _ t =>
      rw [final_of_ok hrun, final_bind_ok hrun]
      exact Within.final within_renderPage t

/-- A request for a playlist comes to its check, or a filter in front of it ends the request. -/
theorem nilFree_createPlaylistRequest {a : Ctx} (hcharges : r.route.charges = true)
    (hinherited : applicationFilters.run (sys.start r) = .ok () a) (ha : a.Complete)
    (hstamped : ∀ s, ReachesCheck sys r s → ¬ NullStamp s) :
    NilFree a (final HomeController.createPlaylistRequest a) := by
  unfold HomeController.createPlaylistRequest
  rcases beforeAction_cases (R := NilFree) within_authenticateUser
    (beforeAction HomeController.refreshAccessToken
      (beforeAction HomeController.checkEligibility HomeController.createPlaylist)) a with
    hstop | ⟨b, hb, hab, hhere, hrest⟩
  · exact hstop
  rw [hrest]
  rcases beforeAction_cases (R := NilFree) HomeController.tolerates_refreshAccessToken
    (beforeAction HomeController.checkEligibility HomeController.createPlaylist) b with
    hstop | ⟨c, hc, hbc, hthere, hrest'⟩
  · exact hab.trans hstop
  rw [hrest']
  have hac : NilFree a c := hab.trans hbc
  have hreach : ReachesCheck sys r c :=
    ⟨hcharges, a, hinherited, b, hb, hhere, c, hc, hthere, rfl⟩
  have hcreate : Within NilFree (get >>= fun s : Ctx =>
      if s.location.isNone then HomeController.createPlaylist else pure ()) :=
    Within.get_bind fun _ => Within.ite HomeController.tolerates_createPlaylist (Within.pure _)
  have hcheck : Spec NilFree (fun s => s.Complete ∧ ¬ NullStamp s)
      (beforeAction HomeController.checkEligibility HomeController.createPlaylist)
      fun _ _ => True :=
    Spec.bind HomeController.nilFree_checkEligibility fun _ => hcreate
  exact hac.trans (hcheck.final_related ⟨hac.complete ha, hstamped c hreach⟩)

/-- From the inherited filters on, a request of a user with the four rows calls nothing on `nil`, if
its eligibility check has a timestamp. -/
theorem nilFree_dispatch (prices : PaymentsController.Prices) {a : Ctx}
    (hinherited : applicationFilters.run (sys.start r) = .ok () a) (ha : a.Complete)
    (hstamped : ∀ s, ReachesCheck sys r s → ¬ NullStamp s) :
    NilFree a (final (dispatch prices r.route) a) := by
  cases hcharges : r.route.charges with
  | true =>
      have hplaylist := nilFree_createPlaylistRequest hcharges hinherited ha hstamped
      obtain ⟨text, hroute⟩ := Route.exists_text hcharges
      rw [hroute]
      exact hplaylist
  | false =>
      have hwithin : Within NilFree (dispatch prices r.route) := by
        rw [dispatch_eq]
        refine tolerates_foldr (fun filter hfilter => ?_) (tolerates_body r.route)
        rcases tolerates_filters (R := NilFree) r.route hfilter with ⟨hcharges', -⟩ | hfilter
        · cases hcharges.symm.trans hcharges'
        · exact hfilter
      exact hwithin.final a

/-- A request of a user with the four rows. -/
theorem handled_of_some (huser : sys.userOf r = some id) (hrows : HasRows sys.db id)
    (h : Manageable sys r) : Handled prices sys r := by
  have hstart : (sys.start r).identified.Complete := ⟨id, huser, hrows⟩
  have hfilters := nilFree_applicationFilters (sys.start r)
  have hend : NilFree (sys.start r).identified (final (process prices r.route) (sys.start r)) := by
    unfold process
    cases hrun : applicationFilters.run (sys.start r) with
    | error e a =>
        rw [final_of_error hrun] at hfilters
        rw [final_bind_error hrun]
        exact hfilters
    | ok _ a =>
        rw [final_of_ok hrun] at hfilters
        rw [final_bind_ok hrun]
        have hdispatch : NilFree a (final (dispatch prices r.route) a) :=
          nilFree_dispatch prices hrun (hfilters.complete hstart) h.stamped
        exact (hfilters.trans hdispatch).trans (nilFree_page _ a)
  obtain ⟨es, hlog, hclean⟩ := hend.events
  refine ⟨⟨es, ?_, hclean hstart⟩, fun _ s hreach => ?_⟩
  · rw [serve_log, hlog]
    rfl
  · rw [ReachesBody.currentUser hreach, huser]
    exact Option.some_ne_none id

/-- **Stale sessions.**  For a session that names nobody, or a user with the four rows, a request is
handled exactly if, as nobody, it goes to no payment action and past no login filter, and its
eligibility check finds a timestamp in the wallet of an entitled user. -/
theorem handled_iff (hlogin : r.route.isLogin = false)
    (hrows : ∀ id, sys.userOf r = some id → HasRows sys.db id) :
    Handled prices sys r ↔ Manageable sys r := by
  constructor
  · intro hhandled
    refine ⟨fun huser => ⟨?_, fun hroute => ?_⟩, fun s hreach hnull => ?_⟩
    · rw [← Bool.not_eq_true]
      exact fun hpays => not_handled_of_pays huser hpays hhandled
    · by_contra hsession
      exact not_handled_of_stale huser hroute hsession hhandled
    · exact not_handled_of_nullStamp hreach hnull hhandled
  · intro h
    cases huser : sys.userOf r with
    | none => exact handled_of_none hlogin huser h
    | some id => exact handled_of_some huser (hrows id huser) h

namespace Sample

/-- Every browser still has the cookie of user 7, whose row is gone. -/
def stale : System := { System.initial with cookies := fun _ => { userId := some 7 } }

theorem loggedIn_hasRows : HasRows loggedIn.db 0 := ⟨rfl, rfl, rfl, rfl⟩

end Sample

/-- The users page handles the stale session, and the statistics one of a user. -/
theorem stale_usersInfo_handled :
    Handled Sample.priceIds Sample.stale { browser := 0, route := .usersInfo } ∧
      Handled Sample.priceIds Sample.loggedIn { browser := 0, route := .statsTops } := by
  have hnobody : Sample.stale.userOf { browser := 0, route := .usersInfo } = none := rfl
  have hada : Sample.loggedIn.userOf { browser := 0, route := .statsTops } = some 0 := rfl
  refine ⟨(handled_iff rfl fun id hid => ?_).mpr ⟨fun _ => ⟨rfl, ?_⟩, fun s hreach => ?_⟩,
    (handled_iff rfl fun id hid => ?_).mpr ⟨fun huser => ?_, fun s hreach => ?_⟩⟩
  · rw [hnobody] at hid
    cases hid
  · rintro (h | h) <;> cases h
  · cases hreach.1
  · rw [hada] at hid
    cases hid
    exact Sample.loggedIn_hasRows
  · rw [hada] at huser
    cases huser
  · cases hreach.1

/-- The stale session passes the login filter of the statistics page, and the refresh behind it calls
`updated_at` on `nil`. -/
theorem stale_statsIndex_not_handled :
    ¬ ∀ prices sys r, r.route.isLogin = false →
      (∀ id, sys.userOf r = some id → HasRows sys.db id) → Handled prices sys r := by
  intro h
  have hhandled := h Sample.priceIds Sample.stale { browser := 0, route := .statsIndex } rfl
    fun id hid => nomatch hid
  obtain ⟨es, hlog, hclean⟩ := hhandled.calls
  have hes : [Event.nilCall] = es := hlog
  rw [← hes] at hclean
  exact hclean List.mem_cons_self

end Knoiz
