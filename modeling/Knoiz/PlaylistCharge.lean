import Knoiz.Library.Cooldown
import Knoiz.PassWindow
import Knoiz.WalletEffects

/-!
# What a playlist costs

`create_playlist` hands a job to Sidekiq, then stamps the wallet, then takes the token of a user
without a pass: three writes that any failure can part.  The results say exactly when a request ends
with all of them or none, and that in every run in which the stamp is written the playlist jobs of a
user are more than a minute apart.
-/

namespace Knoiz

open Calendar ProgramLogic RowTable

variable {prices : PaymentsController.Prices}

/-- `params[:text_search]`. -/
def Route.textSearch : Route → Option String
  | .createPlaylist text => text
  | _ => none

namespace HomeController

/-! ### How `create_playlist` ends -/

/-- The job of user `id` was enqueued at `time`. -/
structure Pushed (id : ℕ) (time : ℤ) (s t : Ctx) : Prop where
  text : s.route.textSearch.isSome = true
  performed : s.env.raises .playlistPerformAsync = false
  jobs : playlists t.log = playlists s.log ++ [(id, time)]
  session : t.session = s.session
  currentUser : t.currentUser = s.currentUser
  env : t.env = s.env
  past : s.clock ≤ time
  clock : time ≤ t.clock

/-- The four ways in which `create_playlist` ends for a user with the subscription `row`: nothing is
enqueued; the job is enqueued and the wallet not stamped; it is stamped and the token kept; it is
stamped and the token spent. -/
inductive CreateEnds (id : ℕ) (row : Subscription) (s : Ctx) : Ctx → Prop
  | failed (why : s.route.textSearch = none ∨ s.env.raises .playlistPerformAsync = true) :
      CreateEnds id row s s
  | unstamped {time : ℤ} {t : Ctx} (pushed : Pushed id time s t) (db : t.db = s.db)
      (why : s.env.raises .walletTimestamp = true) : CreateEnds id row s t
  | kept {time stamp : ℤ} {t : Ctx} (pushed : Pushed id time s t) (stamped : time ≤ stamp)
      (db : t.db = s.db.amendWallet id fun w => { w with timestamp := some stamp })
      (clean : s.env.raises .walletTimestamp = false)
      (why : row.active = true ∨ s.env.raises .walletToken = true ∨ s.env.refusesToken = true) :
      CreateEnds id row s t
  | spent {time stamp : ℤ} {t : Ctx} (pushed : Pushed id time s t) (stamped : time ≤ stamp)
      (db : t.db = s.db.amendWallet id fun w =>
        { w with timestamp := some stamp, token := some "0" })
      (clean : s.env.raises .walletTimestamp = false) (inactive : row.active = false)
      (token : s.env.raises .walletToken = false ∧ s.env.refusesToken = false) :
      CreateEnds id row s t

theorem Pushed.next {id : ℕ} {time : ℤ} {s m t : Ctx} (h : Pushed id time s m)
    (hlog : playlists t.log = playlists m.log) (hsession : t.session = m.session)
    (huser : t.currentUser = m.currentUser) (henv : t.env = m.env) (hclock : m.clock ≤ t.clock) :
    Pushed id time s t :=
  ⟨h.text, h.performed, hlog.trans h.jobs, hsession.trans h.session,
    huser.trans h.currentUser, henv.trans h.env, h.past, h.clock.trans hclock⟩

variable {s m : Ctx} {id : ℕ} {row : Subscription}

theorem createPlaylistWorker_run (hid : s.currentUser = some id) :
    (∃ e, createPlaylistWorker.run s = .error e s ∧
        (s.route.textSearch = none ∨ s.env.raises .playlistPerformAsync = true)) ∨
      ∃ m time, createPlaylistWorker.run s = .ok () m ∧ Pushed id time s m ∧ m.db = s.db := by
  have huser := theUser_run hid
  unfold createPlaylistWorker call enqueue record
  simp only [EStateM.run_bind, EStateM.run_get]
  cases hroute : s.route with
  | createPlaylist text =>
    cases text with
    | none => exact .inl ⟨.noMethodError, rfl, .inl rfl⟩
    | some text =>
      simp only [EStateM.run_bind, EStateM.run_get, huser]
      cases hraises : s.env.raises .playlistPerformAsync with
      | true => exact .inl ⟨.raised .playlistPerformAsync, rfl, .inr rfl⟩
      | false =>
          obtain ⟨m, hm, hq⟩ := currentTime_run s
          simp only [Bool.false_eq_true, if_false, EStateM.run_pure, hm]
          refine .inr ⟨_, m.clock, rfl, ?_, hq.db⟩
          have htext : s.route.textSearch.isSome = true := by rw [hroute]; rfl
          have hlog : playlists (m.log ++ [.enqueued (.playlist (squish text)
              s.session.spotifyUserData id) m.clock]) = playlists s.log ++ [(id, m.clock)] := by
            rw [playlists_append, hq.log]
            rfl
          exact ⟨htext, hraises, hlog, hq.session, hq.currentUser, hq.env, hq.clock, le_rfl⟩
  | _ => exact .inl ⟨.noMethodError, rfl, .inl rfl⟩

theorem updateWallet_run (hid : s.currentUser = some id) :
    (∃ e m, updateWallet.run s = .error e m ∧ Quiet s m ∧
        s.env.raises .walletTimestamp = true) ∨
      ∃ m, Quiet s m ∧ s.env.raises .walletTimestamp = false ∧ updateWallet.run s = .ok ()
        { m with db := m.db.amendWallet id fun w => { w with timestamp := some m.clock } } := by
  obtain ⟨m, hm, hq⟩ := currentTime_run s
  have henv := hq.env
  have huser := theUser_run hid
  unfold updateWallet call modifyDb
  simp only [EStateM.run_bind, EStateM.run_get, huser, hm]
  cases hraises : m.env.raises .walletTimestamp with
  | true =>
      rw [henv] at hraises
      exact .inl ⟨_, m, rfl, hq, hraises⟩
  | false =>
      rw [henv] at hraises
      exact .inr ⟨m, hq, hraises, rfl⟩

/-- What follows the stamp. -/
def settle : Action Unit := do
  setFlash "notice" successMessage
  let subscription ← gateSubscription
  if !subscription.active then (do spendToken; redirectTo "/") else redirectTo "/"

theorem createPlaylist_eq :
    createPlaylist = createPlaylistWorker >>= fun _ => updateWallet >>= fun _ => settle := rfl

theorem spendToken_run (hid : s.currentUser = some id) :
    (∃ e, spendToken.run s = .error e s ∧ s.env.raises .walletToken = true) ∨
      (spendToken.run s = .ok () s ∧ s.env.refusesToken = true) ∨
      (spendToken.run s = .ok ()
          { s with db := s.db.amendWallet id fun w => { w with token := some "0" } } ∧
        s.env.raises .walletToken = false ∧ s.env.refusesToken = false) := by
  have huser := theUser_run hid
  unfold spendToken call modifyDb
  simp only [EStateM.run_bind, EStateM.run_get, huser]
  cases hraises : s.env.raises .walletToken with
  | true => exact .inl ⟨_, rfl, rfl⟩
  | false =>
    simp only [Bool.false_eq_true, if_false, EStateM.run_pure]
    cases hrefuses : s.env.refusesToken with
    | true => exact .inr (.inl ⟨rfl, rfl⟩)
    | false => exact .inr (.inr ⟨rfl, trivial, rfl⟩)

/-- After the stamp the token is spent, unless there is a pass or the UPDATE fails. -/
theorem settle_final (hid : s.currentUser = some id)
    (hrow : s.db.subscriptions.lookup id = some row) :
    (Noted s (final settle s) ∧ (row.active = true ∨ s.env.raises .walletToken = true ∨
        s.env.refusesToken = true)) ∨
      ∃ m, Noted s m ∧ Noted { m with db := m.db.amendWallet id fun w =>
          { w with token := some "0" } } (final settle s) ∧ row.active = false ∧
        s.env.raises .walletToken = false ∧ s.env.refusesToken = false := by
  have hredirect : ∀ t : Ctx, Noted t (final (redirectTo "/") t) := fun t =>
    Quiet.noted ⟨rfl, rfl, rfl, rfl, rfl, rfl, rfl, le_rfl⟩
  obtain ⟨a, ha, hflash⟩ : ∃ a, (setFlash "notice" successMessage).run s = .ok () a ∧ Quiet s a :=
    ⟨_, rfl, rfl, rfl, rfl, rfl, rfl, rfl, rfl, le_rfl⟩
  have hida : a.currentUser = some id := hflash.currentUser.trans hid
  have hrowa : a.db.subscriptions.lookup id = some row := by
    rw [hflash.db]
    exact hrow
  have hgate := gateSubscription_run hida hrowa
  have hsb : Noted s (a.gated id row) := IsTrans.trans _ _ _ hflash.noted (noted_gated a id row)
  unfold settle
  rw [final_bind_ok ha, final_bind_ok hgate]
  cases hactive : row.active with
  | true => exact .inl ⟨IsTrans.trans _ _ _ hsb (hredirect _), .inl rfl⟩
  | false =>
    rw [if_pos (show (!false) = true from rfl)]
    have henv : (a.gated id row).env = s.env := hsb.env
    rcases spendToken_run (s := a.gated id row) hida with
      ⟨e, hrun, hraises⟩ | ⟨hrun, hrefuses⟩ | ⟨hrun, htoken⟩
    · rw [final_bind_error hrun]
      rw [henv] at hraises
      exact .inl ⟨hsb, .inr (.inl hraises)⟩
    · rw [final_bind_ok hrun]
      rw [henv] at hrefuses
      exact .inl ⟨IsTrans.trans _ _ _ hsb (hredirect _), .inr (.inr hrefuses)⟩
    · rw [final_bind_ok hrun]
      rw [henv] at htoken
      exact .inr ⟨_, hsb, hredirect _, rfl, htoken⟩

/-- **How `create_playlist` ends.** -/
theorem createPlaylist_ends (hid : s.currentUser = some id)
    (hrow : s.db.subscriptions.lookup id = some row) :
    CreateEnds id row s (final createPlaylist s) := by
  rw [createPlaylist_eq]
  rcases createPlaylistWorker_run hid with ⟨e, hrun, why⟩ | ⟨a, time, hrun, hpushed, hdb⟩
  · rw [final_bind_error hrun]
    exact .failed why
  · rw [final_bind_ok hrun]
    have hida : a.currentUser = some id := hpushed.currentUser.trans hid
    have henva := hpushed.env
    rcases updateWallet_run hida with ⟨e, b, hrun, hq, why⟩ | ⟨b, hq, hclean, hrun⟩
    · rw [final_bind_error hrun]
      rw [henva] at why
      have hb := hpushed.next (congrArg playlists hq.log) hq.session hq.currentUser hq.env hq.clock
      exact .unstamped hb (hq.db.trans hdb) why
    · rw [final_bind_ok hrun]
      rw [henva] at hclean
      -- the state after the stamp, which is not before the job
      have hdbb : b.db = s.db := hq.db.trans hdb
      have hstamp : time ≤ b.clock := hpushed.clock.trans hq.clock
      obtain ⟨c, hc⟩ : ∃ c : Ctx, c = { b with db := b.db.amendWallet id fun w =>
          { w with timestamp := some b.clock } } := ⟨_, rfl⟩
      have hdbc : c.db = s.db.amendWallet id fun w => { w with timestamp := some b.clock } := by
        rw [hc, ← hdbb]
      have hpushedc : Pushed id time s c := by
        rw [hc]
        exact hpushed.next (congrArg playlists hq.log) hq.session hq.currentUser hq.env hq.clock
      have hidc : c.currentUser = some id := hpushedc.currentUser.trans hid
      have hrowc : c.db.subscriptions.lookup id = some row := by
        rw [hdbc]
        exact hrow
      rw [← hc]
      rcases settle_final hidc hrowc with ⟨hnoted, why⟩ | ⟨d, hcd, hnoted, hinactive, htoken⟩
      · rw [hpushedc.env] at why
        refine .kept (hpushedc.next hnoted.playlists hnoted.session hnoted.currentUser hnoted.env
          hnoted.clock) hstamp ?_ hclean why
        rw [hnoted.db, hdbc]
      · rw [hpushedc.env] at htoken
        have hpushedd := hpushedc.next hcd.playlists hcd.session hcd.currentUser hcd.env hcd.clock
        refine .spent (hpushedd.next hnoted.playlists hnoted.session hnoted.currentUser hnoted.env
          hnoted.clock) hstamp ?_ hclean hinactive htoken
        rw [hnoted.db, hcd.db, hdbc]
        exact congrArg (fun wallets => { s.db with wallets := wallets })
          (amend_amend id _ _ s.db.wallets)

end HomeController

/-! ### Requests for a playlist -/

/-- The state that a request for a playlist has reached when all filters have let it through. -/
inductive PassesFilters (sys : System) (r : Request) : Ctx → Prop
  | intro {a b c s : Ctx} (requested : r.route.charges = true)
      (inherited : applicationFilters.run (sys.start r) = .ok () a)
      (authenticated : HomeController.authenticateUser.run a = .ok () b) (here : b.location = none)
      (refreshed : HomeController.refreshAccessToken.run b = .ok () c) (there : c.location = none)
      (checked : HomeController.checkEligibility.run c = .ok () s) (passed : s.location = none) :
      PassesFilters sys r s

/-- A filter that has not redirected is followed by the rest. -/
theorem beforeAction_run {filter rest : Action Unit} {s t : Ctx} (hrun : filter.run s = .ok () t)
    (hlocation : t.location = none) : (beforeAction filter rest).run s = rest.run t := by
  unfold beforeAction
  simp only [EStateM.run_bind, hrun, EStateM.run_get, hlocation]
  rfl

theorem beforeAction_final {filter rest : Action Unit} {s t : Ctx} (hrun : filter.run s = .ok () t)
    (hlocation : t.location = none) : final (beforeAction filter rest) s = final rest t :=
  final_congr (beforeAction_run hrun hlocation)

/-- A filter of a controller ends the request, or has let it through. -/
theorem beforeAction_cases {R : Ctx → Ctx → Prop} {filter : Action Unit} (hfilter : Within R filter)
    (rest : Action Unit) (s : Ctx) :
    R s (final (beforeAction filter rest) s) ∨ ∃ t, filter.run s = .ok () t ∧ R s t ∧
      t.location = none ∧ final (beforeAction filter rest) s = final rest t := by
  have hfinal := hfilter.final s
  cases hrun : filter.run s with
  | error e t =>
      rw [final_of_error hrun] at hfinal
      unfold beforeAction
      rw [final_bind_error hrun]
      exact .inl hfinal
  | ok _ t =>
      rw [final_of_ok hrun] at hfinal
      cases hlocation : t.location with
      | none => exact .inr ⟨t, rfl, hfinal, hlocation, beforeAction_final hrun hlocation⟩
      | some path =>
          have hstop : final (beforeAction filter rest) s = t := by
            unfold beforeAction
            rw [final_bind_ok hrun]
            unfold final
            simp only [EStateM.run_bind, EStateM.run_get, hlocation]
            rfl
          rw [hstop]
          exact .inl hfinal

theorem applicationFilters_run (s : Ctx) : applicationFilters.run s =
    (checkStripeSubscription >>= fun _ => refreshSpotifyAccessToken >>= fun _ =>
      collectStats).run s.identified := by
  have hset : setCurrentUser.run s = .ok () s.identified := rfl
  unfold applicationFilters
  rw [EStateM.run_bind, hset]

theorem still_applicationFilters (s : Ctx) : Still s.identified (final applicationFilters s) := by
  have hstill : Within Still (checkStripeSubscription >>= fun _ =>
      refreshSpotifyAccessToken >>= fun _ => collectStats) :=
    Within.bind still_checkStripeSubscription fun _ =>
      Within.bind still_refreshSpotifyAccessToken fun _ => still_collectStats
  have hfinal := hstill.final s.identified
  unfold final at hfinal ⊢
  rw [applicationFilters_run]
  exact hfinal

theorem Route.exists_text {route : Route} (h : route.charges = true) :
    ∃ text, route = .createPlaylist text := by
  cases route with
  | createPlaylist text => exact ⟨text, rfl⟩
  | _ => cases h

/-- Rendering the page changes nothing that matters here. -/
theorem noted_then_renderPage (m : Action Unit) (s : Ctx) :
    Noted (final m s) (final (m >>= fun _ => renderPage) s) := by
  cases hrun : m.run s with
  | error e t =>
      rw [final_of_error hrun, final_bind_error hrun]
      exact (Quiet.refl t).noted
  | ok _ t =>
      rw [final_of_ok hrun, final_bind_ok hrun]
      exact Within.final within_renderPage t

variable {sys : System} {r : Request} {s : Ctx}

/-- From the state that a request has reached, the rest of it is `create_playlist`. -/
theorem PassesFilters.served (prices : PaymentsController.Prices) (h : PassesFilters sys r s) :
    Calm (sys.start r).identified s ∧ HomeController.Eligible s ∧
      Noted (final HomeController.createPlaylist s)
        (final (process prices r.route) (sys.start r)) := by
  cases h with
  | @intro a b c s requested inherited authenticated here refreshed there checked passed =>
    have hab : Calm a b := (within_authenticateUser.of_ok trivial authenticated).1
    have hbc := (calm_refreshAccessToken.of_ok trivial refreshed).1
    have hcs := HomeController.noted_checkEligibility.of_ok trivial checked
    have hfilters := (still_applicationFilters (sys.start r)).toCalm
    rw [final_of_ok inherited] at hfilters
    refine ⟨hfilters.trans (hab.trans (hbc.trans hcs.1.calm)),
      hcs.2 passed, ?_⟩
    obtain ⟨text, hroute⟩ := Route.exists_text requested
    have hpage := noted_then_renderPage (dispatch prices r.route) a
    unfold process
    rw [final_bind_ok inherited]
    have hdispatch : final (dispatch prices r.route) a = final HomeController.createPlaylist s := by
      rw [hroute]
      show final HomeController.createPlaylistRequest a = _
      unfold HomeController.createPlaylistRequest
      rw [beforeAction_final authenticated here, beforeAction_final refreshed there,
        beforeAction_final checked passed]
    rw [hdispatch] at hpage
    exact hpage

/-- The filters are the expiry check and some effects. -/
theorem PassesFilters.effects (prices : PaymentsController.Prices) (h : PassesFilters sys r s) :
    ∃ m, Checked (sys.start r).identified m ∧ Effects prices m s := by
  cases h with
  | @intro a b c s requested inherited authenticated here refreshed there checked passed =>
    rw [applicationFilters_run, EStateM.run_bind] at inherited
    rcases checkStripeSubscription_run (sys.start r).identified with
      ⟨m, hm, hchecked⟩ | ⟨e, t, ht, hq⟩
    · rw [hm] at inherited
      have hma : Effects prices m a ∧ At m.currentUser m.route a :=
        (Safe.bind safe_refreshSpotifyAccessToken fun _ => safe_collectStats).of_ok ⟨rfl, rfl⟩
          inherited
      have hab : Effects prices a b ∧ At m.currentUser m.route b :=
        HomeController.safe_authenticateUser.of_ok hma.2 authenticated
      have hbc : Effects prices b c ∧ At m.currentUser m.route c :=
        HomeController.safe_refreshAccessToken.of_ok hab.2 refreshed
      have hcs : Effects prices c s ∧ At m.currentUser m.route s :=
        HomeController.safe_checkEligibility.of_ok hbc.2 checked
      exact ⟨m, hchecked, hma.1.trans (hab.1.trans (hbc.1.trans hcs.1))⟩
    · rw [ht] at inherited
      cases inherited

/-- A request for a playlist is refused with nothing enqueued and no wallet changed, or passes the
filters. -/
theorem charges_served (prices : PaymentsController.Prices) (hr : r.route.charges = true) :
    Calm (sys.start r).identified (final (process prices r.route) (sys.start r)) ∨
      ∃ s, PassesFilters sys r s := by
  obtain ⟨text, hroute⟩ := Route.exists_text hr
  have hfilters := (still_applicationFilters (sys.start r)).toCalm
  cases hinherited : applicationFilters.run (sys.start r) with
  | error e t =>
      refine .inl ?_
      unfold process
      rw [final_bind_error hinherited]
      rw [final_of_error hinherited] at hfilters
      exact hfilters
  | ok _ a =>
      have ha := hfilters
      rw [final_of_ok hinherited] at ha
      have hpage := noted_then_renderPage (dispatch prices r.route) a
      have hprocess : final (process prices r.route) (sys.start r) =
          final (dispatch prices r.route >>= fun _ => renderPage) a := by
        unfold process
        rw [final_bind_ok hinherited]
      have hdispatch : dispatch prices r.route = HomeController.createPlaylistRequest := by
        rw [hroute]
        rfl
      rw [hprocess]
      rw [hdispatch] at hpage ⊢
      unfold HomeController.createPlaylistRequest at hpage ⊢
      rcases beforeAction_cases (R := Calm) within_authenticateUser (beforeAction
        HomeController.refreshAccessToken (beforeAction HomeController.checkEligibility
          HomeController.createPlaylist)) a with hstop | ⟨b, hrun, hab, here, hb⟩
      · exact .inl (ha.trans (hstop.trans hpage.calm))
      rw [hb] at hpage
      rcases beforeAction_cases calm_refreshAccessToken (beforeAction
        HomeController.checkEligibility HomeController.createPlaylist) b with
        hstop | ⟨c, hrun', hbc, there, hc⟩
      · exact .inl (ha.trans (hab.trans (hstop.trans hpage.calm)))
      rw [hc] at hpage
      have hcheck : Within Calm HomeController.checkEligibility :=
        calm_of_still (still_of_noted (Within.of_spec HomeController.noted_checkEligibility))
      rcases beforeAction_cases hcheck HomeController.createPlaylist c with
        hstop | ⟨s, hrun'', -, passed, -⟩
      · exact .inl (ha.trans (hab.trans (hbc.trans (hstop.trans hpage.calm))))
      · exact .inr ⟨s, .intro hr hinherited hrun here hrun' there hrun'' passed⟩

/-! ### Enqueued and charged -/

/-- Together: one job was enqueued, the wallet was stamped since, and without a pass the token is
spent; or no job was enqueued and the wallet is as it was. -/
def ChargedTogether (id : ℕ) (row : Subscription) (before after : Server) : Prop :=
  (∃ time stamp wallet, playlists after.log = playlists before.log ++ [(id, time)] ∧
      after.db.wallets.lookup id = some wallet ∧ wallet.timestamp = some stamp ∧ time ≤ stamp ∧
      (row.active = false → wallet.token = some "0")) ∨
    (playlists after.log = playlists before.log ∧
      after.db.wallets.lookup id = before.db.wallets.lookup id)

/-- Enqueuing fails, or no UPDATE of the wallet does. -/
def ChargesOrFails (route : Route) (env : Env) (row : Subscription) : Prop :=
  route.textSearch = none ∨ env.raises .playlistPerformAsync = true ∨
    (env.raises .walletTimestamp = false ∧
      (row.active = true ∨ (env.raises .walletToken = false ∧ env.refusesToken = false)))

/-- A user who may create a playlist has a stamp more than a minute old, and a pass or a token. -/
theorem eligible_of_eligibleForPlaylist {row : Subscription} {wallet : Wallet} {now : ℤ}
    (h : HomeController.eligibleForPlaylist row wallet now = some true) :
    (row.active = false → wallet.token = some "1") ∧
      ∃ w, wallet.timestamp = some w ∧ w < now - minute := by
  unfold HomeController.eligibleForPlaylist at h
  by_cases hentitled : HomeController.entitled row wallet = true
  · rw [if_pos hentitled] at h
    obtain ⟨w, hw, hlt⟩ := Option.map_eq_some_iff.mp h
    refine ⟨fun hrow => ?_, w, hw, of_decide_eq_true hlt⟩
    unfold HomeController.entitled at hentitled
    rw [hrow, Bool.false_or] at hentitled
    exact beq_iff_eq.mp hentitled
  · rw [if_neg hentitled] at h
    cases h

namespace HomeController

variable {t : Ctx} {id : ℕ} {time : ℤ} {row : Subscription}

/-- Once the job is enqueued, it depends on the UPDATEs. -/
theorem Pushed.chargesOrFails_iff (h : Pushed id time s t) :
    ChargesOrFails s.route s.env row ↔ s.env.raises .walletTimestamp = false ∧
      (row.active = true ∨
        (s.env.raises .walletToken = false ∧ s.env.refusesToken = false)) := by
  have htext : s.route.textSearch ≠ none := by
    intro hnone
    have hsome := h.text
    rw [hnone] at hsome
    cases hsome
  unfold ChargesOrFails
  rw [h.performed]
  simp only [htext, Bool.false_eq_true, false_or]

/-- Once the job is enqueued, the two are together if the wallet is charged. -/
theorem Pushed.together_iff (h : Pushed id time s t) :
    ChargedTogether id row s.toServer t.toServer ↔
      ∃ stamp wallet, t.db.wallets.lookup id = some wallet ∧ wallet.timestamp = some stamp ∧
        time ≤ stamp ∧ (row.active = false → wallet.token = some "0") := by
  have hjobs : playlists t.log = playlists s.log ++ [(id, time)] := h.jobs
  constructor
  · rintro (⟨time', stamp, wallet, hjobs', hcharge⟩ | ⟨hjobs', -⟩)
    · have htime : time' = time := by
        have := List.append_cancel_left (hjobs'.symm.trans hjobs)
        simpa using this
      rw [htime] at hcharge
      exact ⟨stamp, wallet, hcharge⟩
    · have hgrown := hjobs.symm.trans hjobs'
      exact absurd (List.append_right_eq_self.mp hgrown) (List.cons_ne_nil _ _)
  · rintro ⟨stamp, wallet, hcharge⟩
    exact .inl ⟨time, stamp, wallet, hjobs, hcharge⟩

/-- The same for what `create_playlist` itself does, from a state with an eligible wallet. -/
theorem CreateEnds.together_iff {wallet : Wallet} {now : ℤ} (h : CreateEnds id row s t)
    (hwallet : s.db.wallets.lookup id = some wallet)
    (hmay : eligibleForPlaylist row wallet now = some true) (hnow : now ≤ s.clock) :
    ChargedTogether id row s.toServer t.toServer ↔ ChargesOrFails s.route s.env row := by
  obtain ⟨htoken, w, hw, hlt⟩ := eligible_of_eligibleForPlaylist hmay
  have hlookup : ∀ (f : Wallet → Wallet), t.db = s.db.amendWallet id f →
      t.db.wallets.lookup id = some (f wallet) := by
    intro f hdb
    rw [hdb]
    show (amend id f s.db.wallets).lookup id = _
    rw [lookup_amend_self, hwallet, Option.map_some]
  cases h with
  | failed why =>
      constructor
      · intro _
        exact why.imp_right .inl
      · intro _
        exact .inr ⟨rfl, rfl⟩
  | unstamped pushed db why =>
      rw [pushed.together_iff, pushed.chargesOrFails_iff]
      constructor
      · rintro ⟨stamp, wallet', hlook, hstamp, hle, -⟩
        -- the wallet still has its old stamp
        rw [db, hwallet] at hlook
        cases hlook
        rw [hw] at hstamp
        cases hstamp
        have hpast := pushed.past
        simp only [minute, second] at hlt
        omega
      · rintro ⟨hclean, -⟩
        rw [why] at hclean
        cases hclean
  | kept pushed stamped db clean why =>
      have hlook := hlookup _ db
      rw [pushed.together_iff, pushed.chargesOrFails_iff]
      constructor
      · rintro ⟨stamp, wallet', hlook', -, -, hspent⟩
        rw [hlook] at hlook'
        cases hlook'
        cases hactive : row.active with
        | true => exact ⟨clean, .inl rfl⟩
        | false =>
            have hone := htoken hactive
            have hzero : wallet.token = some "0" := hspent hactive
            rw [hone] at hzero
            exact absurd hzero (by decide)
      · rintro ⟨-, hpaid⟩
        refine ⟨_, _, hlook, rfl, stamped, fun hinactive => ?_⟩
        rcases hpaid with hactive | ⟨hraises, hrefuses⟩
        · rw [hactive] at hinactive
          cases hinactive
        · rw [hinactive, hraises, hrefuses] at why
          simp at why
  | spent pushed stamped db clean inactive token =>
      rw [pushed.together_iff, pushed.chargesOrFails_iff]
      constructor
      · intro _
        exact ⟨clean, .inr token⟩
      · intro _
        exact ⟨_, _, hlookup _ db, rfl, stamped, fun _ => rfl⟩

end HomeController

/-- **Enqueued and charged together, exactly when.**  In every state that a request for a playlist
has reached behind the filters, it ends with a job and its charge or with neither if and only if the
enqueuing itself fails, or no UPDATE of the wallet does. -/
theorem charged_together_iff {id : ℕ} {row : Subscription} (h : PassesFilters sys r s)
    (hid : s.currentUser = some id) (hrow : s.db.subscriptions.lookup id = some row) :
    ChargedTogether id row sys.toServer (serve prices sys r).toServer ↔
      ChargesOrFails r.route r.env row := by
  obtain ⟨hcalm, heligible, hnoted⟩ := h.served prices
  obtain ⟨id', row', wallet, now, hid', hrow', hwallet, hmay, hnow⟩ := heligible
  cases hid.symm.trans hid'
  cases hrow.symm.trans hrow'
  have hiff := (HomeController.createPlaylist_ends hid hrow).together_iff hwallet hmay hnow
  have hroute : s.route = r.route := hcalm.route
  have henv : s.env = r.env := hcalm.env
  rw [hroute, henv] at hiff
  rw [← hiff, serve_server]
  -- what the filters and the page do in front of it and behind it makes no difference
  have hwallets : s.db.wallets = sys.db.wallets := hcalm.wallets
  have hjobs : playlists s.log = playlists sys.log := hcalm.playlists
  unfold ChargedTogether
  rw [hwallets, hjobs, hnoted.db, hnoted.playlists]

namespace Sample

/-- Browser 0 asks for a playlist, `delay` microseconds later. -/
def playlistRequest (delay : ℕ) (raises : Call → Bool) : Request where
  browser := 0
  route := .createPlaylist (some "90s playlist")
  env := { delays := [delay], raises := raises }

/-- The state that the first request for a playlist of a new user reaches behind the filters. -/
def behindFilters (raises : Call → Bool) : Ctx :=
  final HomeController.checkEligibility <| final HomeController.refreshAccessToken <|
    final HomeController.authenticateUser <| final applicationFilters <|
    loggedIn.start (playlistRequest 1700000000000000 raises)

end Sample

/-- The first playlist of a new user. -/
theorem first_playlist_charged :
    ChargedTogether 0 {} Sample.loggedIn.toServer (serve Sample.priceIds Sample.loggedIn
      (Sample.playlistRequest 1700000000000000 fun _ => false)).toServer := by
  have hpasses : PassesFilters Sample.loggedIn
      (Sample.playlistRequest 1700000000000000 fun _ => false)
      (Sample.behindFilters fun _ => false) := .intro rfl rfl rfl rfl rfl rfl rfl rfl
  exact (charged_together_iff hpasses rfl rfl).mpr (.inr (.inr ⟨rfl, .inr ⟨rfl, rfl⟩⟩))

/-- The job is enqueued and the UPDATE of the timestamp raises: the token is not spent. -/
theorem uncharged_playlist :
    ¬ ∀ (prices : PaymentsController.Prices) (sys : System) (r : Request) (s : Ctx) (id : ℕ)
        (row : Subscription), PassesFilters sys r s → s.currentUser = some id →
      s.db.subscriptions.lookup id = some row →
      ChargedTogether id row sys.toServer (serve prices sys r).toServer := by
  intro h
  have hpasses : PassesFilters Sample.loggedIn
      (Sample.playlistRequest 1700000000000000 fun c => c == .walletTimestamp)
      (Sample.behindFilters fun c => c == .walletTimestamp) := .intro rfl rfl rfl rfl rfl rfl rfl rfl
  rcases h Sample.priceIds _ _ _ 0 {} hpasses rfl rfl with
    ⟨time, stamp, wallet, hjobs, hwallet, hstamp, hle, htoken⟩ | ⟨hjobs, -⟩
  · have hzero := htoken rfl
    have hone : wallet.token = some "1" := by
      cases hwallet
      rfl
    rw [hone] at hzero
    exact absurd hzero (by decide)
  · cases hjobs

/-! ### The cooldown -/

/-- The stamp of a user's wallet. -/
def walletStamp (s : Server) (id : ℕ) : Option ℤ :=
  (s.db.wallets.lookup id).bind Wallet.timestamp

/-- The playlist jobs of every user are more than a minute apart, and none is younger than the stamp
of its user's wallet. -/
structure Cooled (s : Server) : Prop where
  apart : Cooldown.Apart (fun now => now - minute) (playlists s.log)
  covered : Cooldown.Covers (walletStamp s) (playlists s.log)

/-- No playlist job has been enqueued, and every wallet is as it was. -/
structure WalletsKept (s t : Server) : Prop where
  jobs : playlists t.log = playlists s.log
  wallets : ∀ id wallet, s.db.wallets.lookup id = some wallet →
    t.db.wallets.lookup id = some wallet

theorem WalletsKept.of_eq {s t : Server} (hjobs : playlists t.log = playlists s.log)
    (hwallets : t.db.wallets = s.db.wallets) : WalletsKept s t := by
  refine ⟨hjobs, fun id wallet hwallet => ?_⟩
  rw [hwallets]
  exact hwallet

theorem WalletsKept.trans {s t u : Server} (h : WalletsKept s t) (h' : WalletsKept t u) :
    WalletsKept s u :=
  ⟨h'.jobs.trans h.jobs, fun id wallet hwallet => h'.wallets id wallet (h.wallets id wallet hwallet)⟩

theorem Calm.walletsKept {s t : Ctx} (h : Calm s t) : WalletsKept s.toServer t.toServer :=
  WalletsKept.of_eq h.playlists h.wallets

theorem Cooled.kept {s t : Server} (h : Cooled s) (hkept : WalletsKept s t) : Cooled t := by
  have hlater : ∀ id w, walletStamp s id = some w → ∃ w', walletStamp t id = some w' ∧ w ≤ w' := by
    intro id w hw
    obtain ⟨wallet, hwallet, hstamp⟩ := Option.bind_eq_some_iff.mp hw
    refine ⟨w, ?_, le_rfl⟩
    unfold walletStamp
    rw [hkept.wallets id wallet hwallet]
    exact hstamp
  refine ⟨?_, ?_⟩
  · rw [hkept.jobs]
    exact h.apart
  · rw [hkept.jobs]
    exact h.covered.mono hlater

/-- Requests on other routes. -/
theorem LoginEffect.walletsKept {s t : Ctx} (h : LoginEffect prices s t)
    (hroute : s.route.charges = false) : WalletsKept s.toServer t.toServer := by
  have hnot : s.route.charges ≠ true := by
    rw [hroute]
    exact Bool.false_ne_true
  cases h with
  | effect h =>
    cases h with
    | quiet hq => exact hq.calm.walletsKept
    | stamped _ requested | spent _ requested => exact absurd requested hnot
    | gate | granted | nilCall =>
        exact WalletsKept.of_eq (playlists_concat_of_none rfl s.log) rfl
    | enqueued job requested =>
        refine WalletsKept.of_eq (playlists_concat_of_none ?_ s.log) rfl
        cases job with
        | stats => rfl
        | playlist => exact absurd (requested rfl) hnot
    | _ => exact WalletsKept.of_eq rfl rfl
  | created spotifyId =>
      refine ⟨rfl, fun id wallet hwallet => ?_⟩
      exact lookup_append_of_some hwallet _
  | _ => exact WalletsKept.of_eq rfl rfl

theorem serve_walletsKept (hr : r.route.charges = false) :
    WalletsKept sys.toServer (serve prices sys r).toServer := by
  have hend : (final (process prices r.route) (sys.start r)).route.charges = false ∧
      WalletsKept sys.toServer (final (process prices r.route) (sys.start r)).toServer := by
    refine serve_rule (I := fun t => t.route.charges = false ∧ WalletsKept sys.toServer t.toServer)
      (fun s t hc hs => ?_) (fun s t he hs => ?_) ⟨hr, WalletsKept.of_eq rfl rfl⟩
    · rw [hc.frame.2.1]
      exact ⟨hs.1, hs.2.trans hc.still.toCalm.walletsKept⟩
    · rw [he.frame.2.1]
      exact ⟨hs.1, hs.2.trans (he.walletsKept hs.1)⟩
  rw [serve_server]
  exact hend.2

/-- The request enqueued a job of user `id` at `time`: the stamp of the user's wallet was more than a
minute older, and has been written again unless the UPDATE raised. -/
structure Enqueues (prices : PaymentsController.Prices) (sys : System) (r : Request) (id : ℕ)
    (time : ℤ) : Prop where
  reached : ∃ s, PassesFilters sys r s ∧ s.currentUser = some id
  jobs : playlists (serve prices sys r).log = playlists sys.log ++ [(id, time)]
  stamp : ∃ w, walletStamp sys.toServer id = some w ∧ w < time - minute
  wallets : (r.env.raises .walletTimestamp = true ∧
      (serve prices sys r).db.wallets = sys.db.wallets) ∨
    ∃ (stamp : ℤ) (f : Wallet → Wallet),
      (serve prices sys r).db.wallets = amend id f sys.db.wallets ∧ time ≤ stamp ∧
        ∀ wallet, (f wallet).timestamp = some stamp

/-- **A request for a playlist.**  It leaves the wallets and enqueues nothing, or enqueues one job. -/
theorem serve_charges (prices : PaymentsController.Prices) (hr : r.route.charges = true) :
    WalletsKept sys.toServer (serve prices sys r).toServer ∨
      ∃ id time, Enqueues prices sys r id time := by
  rcases charges_served prices hr with hcalm | ⟨s, hs⟩
  · refine .inl ?_
    rw [serve_server]
    exact hcalm.walletsKept
  · obtain ⟨hcalm, heligible, hnoted⟩ := hs.served prices
    obtain ⟨id, row, wallet, now, hid, hrow, hwallet, hmay, hnow⟩ := heligible
    obtain ⟨-, w, hw, hlt⟩ := eligible_of_eligibleForPlaylist hmay
    have hwallets : s.db.wallets = sys.db.wallets := hcalm.wallets
    have hjobs : playlists s.log = playlists sys.log := hcalm.playlists
    have henv : s.env = r.env := hcalm.env
    have hstamp : walletStamp sys.toServer id = some w := by
      unfold walletStamp
      rw [← hwallets, hwallet]
      exact hw
    have hends := HomeController.createPlaylist_ends hid hrow
    have hserved : (serve prices sys r).toServer = _ := serve_server sys r
    generalize final HomeController.createPlaylist s = t at hends hnoted
    have hlog : playlists (serve prices sys r).log = playlists t.log := by
      rw [hserved]
      exact hnoted.playlists
    have hdb : (serve prices sys r).db.wallets = t.db.wallets := by
      rw [hserved]
      exact congrArg Database.wallets hnoted.db
    have hpushed : ∀ {time : ℤ}, HomeController.Pushed id time s t →
        ((r.env.raises .walletTimestamp = true ∧
            (serve prices sys r).db.wallets = sys.db.wallets) ∨
          ∃ (stamp : ℤ) (f : Wallet → Wallet),
            (serve prices sys r).db.wallets = amend id f sys.db.wallets ∧ time ≤ stamp ∧
              ∀ wallet, (f wallet).timestamp = some stamp) → Enqueues prices sys r id time := by
      intro time pushed hwrites
      have hpast := pushed.past
      refine ⟨⟨s, hs, hid⟩, ?_, ⟨w, hstamp, ?_⟩, hwrites⟩
      · rw [hlog, pushed.jobs, hjobs]
      · simp only [minute, second] at hlt ⊢
        omega
    have hamend : ∀ {f : Wallet → Wallet}, t.db = s.db.amendWallet id f →
        (serve prices sys r).db.wallets = amend id f sys.db.wallets := by
      intro f db
      rw [hdb, db, ← hwallets]
      rfl
    cases hends with
    | failed why =>
        exact .inl (WalletsKept.of_eq (hlog.trans hjobs) (hdb.trans hwallets))
    | unstamped pushed db why =>
        rw [henv] at why
        refine .inr ⟨id, _, hpushed pushed (.inl ⟨why, ?_⟩)⟩
        rw [hdb, db, hwallets]
    | kept pushed stamped db clean why =>
        exact .inr ⟨id, _, hpushed pushed (.inr ⟨_, _, hamend db, stamped, fun _ => rfl⟩)⟩
    | spent pushed stamped db clean inactive token =>
        exact .inr ⟨id, _, hpushed pushed (.inr ⟨_, _, hamend db, stamped, fun _ => rfl⟩)⟩

/-- **One request.**  With the stamp written, a request keeps the cooldown. -/
theorem Cooled.serve (h : Cooled sys.toServer) (hr : r.env.raises .walletTimestamp = false) :
    Cooled (serve prices sys r).toServer := by
  cases hroute : r.route.charges with
  | false => exact h.kept (serve_walletsKept hroute)
  | true =>
    rcases serve_charges prices hroute with hkept | ⟨id, time, henqueues⟩
    · exact h.kept hkept
    · have hjobs := henqueues.jobs
      obtain ⟨w, hstamp, hapart⟩ := henqueues.stamp
      rcases henqueues.wallets with ⟨hfails, -⟩ | ⟨stamp, f, hwallets, hle, hf⟩
      · rw [hr] at hfails
        cases hfails
      have hafter : ∀ j, walletStamp (Knoiz.serve prices sys r).toServer j =
          if j = id then some stamp else walletStamp sys.toServer j := by
        intro j
        obtain ⟨wallet, hwallet, -⟩ := Option.bind_eq_some_iff.mp hstamp
        unfold walletStamp
        rw [hwallets, lookup_amend]
        by_cases hj : j = id
        · rw [if_pos hj, if_pos hj, hwallet, Option.map_some, Option.bind_some, hf]
        · rw [if_neg hj, if_neg hj]
      have hlater : w ≤ stamp := by
        simp only [minute, second] at hapart
        omega
      obtain ⟨happart, hcovered⟩ := Cooldown.apart_covers_concat h.apart h.covered hstamp hapart
        (fun j u hj hu => (hafter j).trans ((if_neg hj).trans hu))
        ((hafter id).trans (if_pos rfl)) hlater hle
      rw [← hjobs] at happart hcovered
      exact ⟨happart, hcovered⟩

/-- **Cooldown.**  In every run in which the stamps are written, any two playlist jobs of one user are
enqueued more than a minute apart; and a request for a playlist that enqueues nothing leaves every
wallet as it was. -/
theorem playlists_apart {sys₀ sys : System} {steps : List Step} (hlog₀ : sys₀.log = [])
    (hwrites : ∀ r, Step.request r ∈ steps → r.env.raises .walletTimestamp = false)
    (hrun : StepRun.run (step prices) sys₀ steps = some sys) :
    ((playlists sys.log).Pairwise fun p q => p.1 = q.1 → minute < q.2 - p.2) ∧
      ∀ r text, r.route = .createPlaylist text →
        playlists (serve prices sys r).log = playlists sys.log →
        ∀ id wallet, sys.db.wallets.lookup id = some wallet →
          (serve prices sys r).db.wallets.lookup id = some wallet := by
  have h₀ : Cooled sys₀.toServer := by
    refine ⟨?_, ?_⟩
    · rw [hlog₀]
      exact Cooldown.apart_nil
    · rw [hlog₀]
      exact Cooldown.covers_nil
  have hcooled : Cooled sys.toServer := by
    refine StepRun.run_invariant_of_labels (I := fun sys : System => Cooled sys.toServer)
      (fun sys a sys' hs hg hstep => ?_) h₀ (request_labels hwrites) hrun
    cases a with
    | request r =>
        cases hstep
        exact hs.serve (hg r rfl)
    | payment sessionId customer =>
        cases hstep
        exact hs.kept (WalletsKept.of_eq rfl rfl)
    | statsJob user genres =>
        cases hstep
        exact hs.kept (WalletsKept.of_eq rfl rfl)
  have happart : (playlists sys.log).Pairwise fun p q => p.1 = q.1 → minute < q.2 - p.2 := by
    refine hcooled.apart.imp fun hlimit hkey => ?_
    have hlt := hlimit hkey
    simp only at hlt
    omega
  refine ⟨happart, fun r text hroute hjobs id wallet hwallet => ?_⟩
  have hr : r.route.charges = true := by
    rw [hroute]
    rfl
  rcases serve_charges prices hr with hkept | ⟨id', time, henqueues⟩
  · exact hkept.wallets id wallet hwallet
  · have hgrown := henqueues.jobs
    rw [hjobs] at hgrown
    exact absurd (List.append_right_eq_self.mp hgrown.symm) (List.cons_ne_nil _ _)

namespace Sample

/-- A playlist for the token, a purchase a second later, and a playlist a minute after that. -/
def twoPlaylists : List Step :=
  [.request (playlistRequest 1700000000000000 fun _ => false)] ++ purchase ++
    [.request (playlistRequest 60000000 fun _ => false)]

end Sample

/-- The two playlists of that run are 61 seconds apart. -/
theorem two_playlists_apart :
    (playlists (Sample.after Sample.twoPlaylists).log).length = 2 ∧
      (playlists (Sample.after Sample.twoPlaylists).log).Pairwise fun p q =>
        p.1 = q.1 → minute < q.2 - p.2 := by
  have hrun : StepRun.run (step Sample.priceIds) Sample.loggedIn Sample.twoPlaylists =
      some (Sample.after Sample.twoPlaylists) := rfl
  refine ⟨rfl, (playlists_apart rfl (fun r hr => ?_) hrun).1⟩
  simp only [Sample.twoPlaylists, Sample.purchase, Sample.checkout, Sample.success, List.mem_append,
    List.mem_cons, Step.request.injEq, reduceCtorEq, List.not_mem_nil, or_false, false_or] at hr
  rcases hr with (rfl | rfl | rfl) | rfl
  · rfl
  · rfl
  · rfl
  · rfl

end Knoiz
