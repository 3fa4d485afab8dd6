import Knoiz.FreshSession
import Knoiz.Paywall

/-!
# Who gets a playlist

A request for a playlist passes the login, the refresh of the profile and `check_eligibility`.  When
it returns, the user has been given a playlist exactly if the latest pass covers the time of the
expiry check, or the token is unspent, and the last stamp was over by the time the clock was read;
and the message says which of it was the case.
-/

namespace Knoiz

open Calendar EventLog ProgramLogic RowTable

/-- A program that has left a message and redirected. -/
structure Sends (message : String × String) (path : String) (s t : Ctx) : Prop where
  flash : t.flash = s.flash ++ [message]
  location : t.location = some path

theorem Mute.sends {message : String × String} {path : String} {s m t : Ctx} (h : Mute s m)
    (h' : Sends message path m t) : Sends message path s t :=
  ⟨by rw [h'.flash, h.flash], h'.location⟩

namespace HomeController

/-- A pass or the token, and a stamp that is more than a minute old. -/
def MayCreate (active : Bool) (wallet : Wallet) (now : ℤ) : Prop :=
  (active = true ∨ wallet.token = some "1") ∧
    ∃ stamp, wallet.timestamp = some stamp ∧ stamp < now - minute

/-- What `check_eligibility` tells those whom it refuses. -/
def refusal (active : Bool) (wallet : Wallet) : String :=
  if active = false ∧ wallet.token = some "0" then "You don't have any tokens left."
  else "You can't create a playlist now."

variable {s c t : Ctx} {id : ℕ} {row : Subscription} {wallet : Wallet} {now : ℤ}

theorem entitled_iff :
    entitled row wallet = true ↔ row.active = true ∨ wallet.token = some "1" := by
  simp [entitled]

/-- Where `eligible_for_playlist?` answers, it answers this. -/
theorem mayCreate_of_eligible {eligible : Bool}
    (h : eligibleForPlaylist row wallet now = some eligible) :
    MayCreate row.active wallet now ↔ eligible = true := by
  unfold MayCreate
  rw [← entitled_iff]
  unfold eligibleForPlaylist at h
  cases hentitled : entitled row wallet with
  | false =>
      rw [hentitled] at h
      cases h
      simp
  | true =>
      rw [hentitled, if_pos rfl] at h
      obtain ⟨stamp, hstamp, rfl⟩ := Option.map_eq_some_iff.mp h
      simp [hstamp]

/-! ### The check -/

theorem afterEligible_ok {eligible : Option Bool} (hid : c.currentUser = some id)
    (hrow : c.db.subscriptions.lookup id = some row)
    (hwallet : c.db.wallets.lookup id = some wallet)
    (hrun : (afterEligible eligible).run c = .ok () t) :
    (eligible = some true ∧ t = c) ∨
      (eligible = some false ∧ Sends ("alert", refusal row.active wallet) "/" c t ∧ Grown c t) := by
  cases eligible with
  | none => cases hrun
  | some eligible =>
    cases eligible with
    | true =>
        cases hrun
        exact .inl ⟨rfl, rfl⟩
    | false =>
        have hgate := gateSubscription_run hid hrow
        have htheWallet : theWallet.run (c.gated id row) = .ok wallet (c.gated id row) :=
          theRow_run hid hwallet
        unfold afterEligible at hrun
        simp only [EStateM.run_bind, hgate, htheWallet] at hrun
        refine .inr ⟨rfl, ?_, ?_⟩
        · unfold refusal
          split at hrun
          · cases hrun
            rw [if_pos ‹_›]
            exact ⟨rfl, rfl⟩
          · cases hrun
            rw [if_neg ‹_›]
            exact ⟨rfl, rfl⟩
        · split at hrun
          · cases hrun
            exact ⟨rfl, rfl, le_rfl, _, rfl⟩
          · cases hrun
            exact ⟨rfl, rfl, le_rfl, _, rfl⟩

/-- `check_eligibility` up to its reading of the clock. -/
def eligibilityClock : Action ℤ := do
  let _subscription ← gateSubscription
  let _wallet ← theWallet
  currentTime

/-- The check has read the rows and the clock; it lets the user pass, or says why not. -/
theorem checkEligibility_ok (hid : c.currentUser = some id)
    (hrun : checkEligibility.run c = .ok () t) :
    ∃ row wallet now, c.db.subscriptions.lookup id = some row ∧
      c.db.wallets.lookup id = some wallet ∧ (∃ b, eligibilityClock.run c = .ok now b) ∧
      c.clock ≤ now ∧ now ≤ t.clock ∧
      (∃ es, t.log = c.log ++ .gate id row.active row.expiresAt :: es) ∧
      ((MayCreate row.active wallet now ∧ Mute c t) ∨
        (¬MayCreate row.active wallet now ∧ Sends ("alert", refusal row.active wallet) "/" c t)) := by
  rw [checkEligibility_eq, EStateM.run_bind] at hrun
  cases hrow : c.db.subscriptions.lookup id with
  | none =>
      rw [gateSubscription_run_missing hid hrow] at hrun
      cases hrun
  | some row =>
    have hgate := gateSubscription_run hid hrow
    rw [hgate] at hrun
    cases hwallet : c.db.wallets.lookup id with
    | none =>
        have hmissing : theWallet.run (c.gated id row) = .error .noMethodError
            (c.gated id row).nilCalled := theRow_run_missing hid hwallet
        simp only [EStateM.run_bind, hmissing] at hrun
        cases hrun
    | some wallet =>
        have htheWallet : theWallet.run (c.gated id row) = .ok wallet (c.gated id row) :=
          theRow_run hid hwallet
        obtain ⟨b, hb, hq⟩ := currentTime_run (c.gated id row)
        have hmute : Mute c b :=
          IsTrans.trans _ _ _ (Spec.of_ok mute_gateSubscription trivial hgate).1
            (Spec.of_ok mute_currentTime trivial hb).1
        have hclock : eligibilityClock.run c = .ok b.clock b := by
          unfold eligibilityClock
          simp only [EStateM.run_bind, hgate, htheWallet, hb]
        simp only [EStateM.run_bind, htheWallet, hb] at hrun
        have hrowb : b.db.subscriptions.lookup id = some row := by
          rw [hq.db]
          exact hrow
        have hwalletb : b.db.wallets.lookup id = some wallet := by
          rw [hq.db]
          exact hwallet
        have hlog : b.log = c.log ++ [.gate id row.active row.expiresAt] := hq.log
        rcases afterEligible_ok (hq.currentUser.trans hid) hrowb hwalletb hrun with
          ⟨heligible, rfl⟩ | ⟨heligible, hsends, hgrown⟩
        · exact ⟨row, wallet, t.clock, rfl, rfl, ⟨t, hclock⟩, hq.clock, le_rfl, ⟨[], hlog⟩,
            .inl ⟨(mayCreate_of_eligible heligible).mpr rfl, hmute⟩⟩
        · obtain ⟨es, hes⟩ := hgrown.log
          refine ⟨row, wallet, b.clock, rfl, rfl, ⟨b, hclock⟩, hq.clock, hgrown.clock, ⟨es, ?_⟩,
            .inr ⟨?_, hmute.sends hsends⟩⟩
          · rw [hes, hlog, List.append_assoc]
            rfl
          · rw [mayCreate_of_eligible heligible]
            exact Bool.false_ne_true

/-! ### The playlist -/

theorem settle_ok (hrun : settle.run s = .ok () t) : Sends ("notice", successMessage) "/" s t := by
  have hflash : (setFlash "notice" successMessage).run s =
      .ok () { s with flash := s.flash ++ [("notice", successMessage)] } := rfl
  unfold settle at hrun
  rw [EStateM.run_bind, hflash] at hrun
  generalize hm : { s with flash := s.flash ++ [("notice", successMessage)] } = m at hrun
  have hsaid : m.flash = s.flash ++ [("notice", successMessage)] := by rw [← hm]
  have hredirect {u : Ctx} (hmute : Mute m u) (hrun : (redirectTo "/").run u = .ok () t) :
      Sends ("notice", successMessage) "/" s t := by
    cases hrun
    exact ⟨hmute.flash.trans hsaid, rfl⟩
  dsimp only at hrun
  rw [EStateM.run_bind] at hrun
  cases hgate : gateSubscription.run m with
  | error e u =>
      rw [hgate] at hrun
      cases hrun
  | ok row u =>
      have hmute := (Spec.of_ok mute_gateSubscription trivial hgate).1
      rw [hgate] at hrun
      dsimp only at hrun
      split at hrun
      · rw [EStateM.run_bind] at hrun
        cases hspend : spendToken.run u with
        | error e v =>
            rw [hspend] at hrun
            cases hrun
        | ok _ v =>
            rw [hspend] at hrun
            exact hredirect
              (IsTrans.trans _ _ _ hmute (Spec.of_ok mute_spendToken trivial hspend).1) hrun
      · exact hredirect hmute hrun

/-- When `create_playlist` returns, there is a job, and the message says so. -/
theorem createPlaylist_ok (hid : s.currentUser = some id)
    (hrow : s.db.subscriptions.lookup id = some row) (hrun : createPlaylist.run s = .ok () t) :
    (∃ time, Pushed id time s t) ∧ Sends ("notice", successMessage) "/" s t := by
  have hends := createPlaylist_ends hid hrow
  rw [final_of_ok hrun] at hends
  rw [createPlaylist_eq, EStateM.run_bind] at hrun
  rcases createPlaylistWorker_run hid with ⟨e, hworker, -⟩ | ⟨a, time, hworker, hpushed, -⟩
  · rw [hworker] at hrun
    cases hrun
  have ha := (Spec.of_ok mute_createPlaylistWorker trivial hworker).1
  rw [hworker] at hrun
  dsimp only at hrun
  rw [EStateM.run_bind] at hrun
  cases hupdate : updateWallet.run a with
  | error e b =>
      rw [hupdate] at hrun
      cases hrun
  | ok _ b =>
      have hb := (Spec.of_ok mute_updateWallet trivial hupdate).1
      rw [hupdate] at hrun
      refine ⟨?_, ha.sends (hb.sends (settle_ok hrun))⟩
      cases hends with
      | failed why =>
          have htext := hpushed.text
          have hperformed := hpushed.performed
          rcases why with hnone | hraises
          · rw [hnone] at htext
            cases htext
          · rw [hraises] at hperformed
            cases hperformed
      | unstamped pushed => exact ⟨_, pushed⟩
      | kept pushed => exact ⟨_, pushed⟩
      | spent pushed => exact ⟨_, pushed⟩

/-! ### The request -/

/-- Without a login the request is sent home, with another message. -/
theorem createPlaylistRequest_nobody (hid : s.currentUser = none) (hhere : s.location = none)
    (hrun : createPlaylistRequest.run s = .ok () t) :
    Sends ("alert", "You must be logged in to Spotify.") "/" s t ∧ t.log = s.log := by
  obtain ⟨a, hlogin, hrest⟩ := beforeAction_ok hrun
  unfold authenticateUser at hlogin
  rw [EStateM.run_bind, EStateM.run_get] at hlogin
  cases hsession : s.session.userId with
  | none =>
      simp only [hsession] at hlogin
      cases hlogin
      rcases hrest with ⟨hstays, -⟩ | ⟨-, rfl⟩
      · cases hstays
      · exact ⟨⟨rfl, rfl⟩, rfl⟩
  | some k =>
      simp only [hsession] at hlogin
      cases hlogin
      rcases hrest with ⟨-, hrest⟩ | ⟨hmoved, -⟩
      · -- the session names nobody who is stored: the profile is read of `nil`
        obtain ⟨c, hrefreshed, -⟩ := beforeAction_ok hrest
        have hprofile : theProfile.run s = .error .noMethodError s.nilCalled := theRow_run_none hid
        unfold refreshAccessToken shouldRefreshToken tokenNeedsRefresh at hrefreshed
        simp only [EStateM.run_bind, hprofile] at hrefreshed
        cases hrefreshed
      · exact absurd hhere hmoved

/-- Behind the inherited filters the request gets to `check_eligibility`, and the clock is read
there at `now`. -/
inductive ReadsClock (s : Ctx) (now : ℤ) : Prop
  | intro {b c t : Ctx} (authenticated : authenticateUser.run s = .ok () b) (here : b.location = none)
      (refreshed : refreshAccessToken.run b = .ok () c) (there : c.location = none)
      (read : eligibilityClock.run c = .ok now t) : ReadsClock s now

/-- **The request.**  Behind the inherited filters it enqueues a playlist for whoever may create
one. -/
theorem createPlaylistRequest_ok (hid : s.currentUser = some id)
    (hsession : s.session.userId.isSome = true) (hhere : s.location = none)
    (hrun : createPlaylistRequest.run s = .ok () t) :
    ∃ (active : Bool) (expiresAt : Option ℤ) (wallet : Wallet) (now : ℤ) (pre post : List Event),
      s.db.wallets.lookup id = some wallet ∧ ReadsClock s now ∧ s.clock ≤ now ∧ now ≤ t.clock ∧
        t.log = s.log ++ (pre ++ .gate id active expiresAt :: post) ∧
        ((MayCreate active wallet now ∧
            (∃ time, playlists t.log = playlists s.log ++ [(id, time)]) ∧
            Sends ("notice", successMessage) "/" s t) ∨
          (¬MayCreate active wallet now ∧ playlists t.log = playlists s.log ∧
            Sends ("alert", refusal active wallet) "/" s t)) := by
  obtain ⟨a, hlogin, hrest⟩ := beforeAction_ok hrun
  have hpassed : authenticateUser.run s = .ok () s := by
    unfold authenticateUser
    rw [EStateM.run_bind, EStateM.run_get]
    obtain ⟨k, hk⟩ := Option.isSome_iff_exists.mp hsession
    simp only [hk]
    rfl
  cases hpassed.symm.trans hlogin
  obtain ⟨-, hrest⟩ := hrest.resolve_right fun hmoved => hmoved.1 hhere
  obtain ⟨c, hrefreshed, hrest⟩ := beforeAction_ok hrest
  have hgrown : Grown s c := (Spec.of_ok permits_refreshAccessToken trivial hrefreshed).1
  have hcalm : Calm s c := (Spec.of_ok calm_refreshAccessToken trivial hrefreshed).1
  have hmute : Mute s c := (Spec.of_ok mute_refreshAccessToken trivial hrefreshed).1
  have hhere' : c.location = none := hmute.location.trans hhere
  obtain ⟨-, hrest⟩ := hrest.resolve_right fun hmoved => hmoved.1 hhere'
  obtain ⟨m, hcheck, hrest⟩ := beforeAction_ok hrest
  obtain ⟨row, wallet, now, hrow, hwallet, ⟨b, hclock⟩, hle, hle', ⟨es, hes⟩, hdecided⟩ :=
    checkEligibility_ok (hgrown.currentUser.trans hid) hcheck
  have hreads : ReadsClock s now := .intro hlogin hhere hrefreshed hhere' hclock
  have hnoted : Noted c m := (noted_checkEligibility.of_ok trivial hcheck).1
  obtain ⟨pre, hpre⟩ := hgrown.log
  have hjobs : playlists m.log = playlists s.log := hnoted.playlists.trans hcalm.playlists
  rw [hcalm.wallets] at hwallet
  have hnow := hgrown.clock.trans hle
  rcases hdecided with ⟨hmay, hpasses⟩ | ⟨hmay, hrefused⟩
  · obtain ⟨-, hcreate⟩ :=
      hrest.resolve_right fun hmoved => hmoved.1 (hpasses.location.trans hhere')
    have hrowm : m.db.subscriptions.lookup id = some row := by
      rw [hnoted.db]
      exact hrow
    obtain ⟨⟨time, hpushed⟩, hsends⟩ := createPlaylist_ok
      (hnoted.currentUser.trans (hgrown.currentUser.trans hid)) hrowm hcreate
    have hcreated : Grown m t := (Spec.of_ok permits_createPlaylist trivial hcreate).1
    obtain ⟨post, hpost⟩ := hcreated.log
    refine ⟨row.active, row.expiresAt, wallet, now, pre, es ++ post, hwallet, hreads, hnow,
      hle'.trans hcreated.clock, ?_, .inl ⟨hmay, ⟨time, ?_⟩, hmute.sends (hpasses.sends hsends)⟩⟩
    · rw [hpost, hes, hpre]
      simp only [List.append_assoc, List.cons_append]
    · rw [hpushed.jobs, hjobs]
  · obtain ⟨-, rfl⟩ := hrest.resolve_left fun hstays => by
      rw [hrefused.location] at hstays
      cases hstays.1
    refine ⟨row.active, row.expiresAt, wallet, now, pre, es, hwallet, hreads, hnow, hle', ?_,
      .inr ⟨hmay, hjobs, hmute.sends hrefused⟩⟩
    rw [hes, hpre, List.append_assoc]

end HomeController

/-! ### Runs -/

variable {prices : PaymentsController.Prices} {sys : System} {r : Request} {id : ℕ}

/-- The request gets to `check_eligibility`, and the clock is read there at `now`. -/
def EligibilityAt (sys : System) (r : Request) (now : ℤ) : Prop :=
  ∃ a, applicationFilters.run (sys.start r) = .ok () a ∧ HomeController.ReadsClock a now

/-- **Admission.**  In every run from the creation of an account, a request for a playlist that
returns enqueues one exactly if the user may create it: the pass counts by the window of the latest
grant at the time of the expiry check of the request, the wallet as it was stored before, and its
stamp at the time that `check_eligibility` has read.  Who is not logged in is told so. -/
theorem playlists_admitted (hd : prices.Distinct) {sys₀ : System} {steps : List Step}
    (h₀ : JustCreated prices id sys₀.toServer)
    (hrun : StepRun.run (step prices) sys₀ steps = some sys) (hroute : r.route.charges = true)
    (hreturn : (respond prices sys r).raised = none) :
    (sys.userOf r = none → playlists (serve prices sys r).log = playlists sys.log ∧
        respond prices sys r =
          ⟨none, [("alert", "You must be logged in to Spotify.")], some "/"⟩) ∧
      (sys.userOf r = some id → ∃ wallet active checked now,
        sys.db.wallets.lookup id = some wallet ∧ ChecksAt prices sys r id checked ∧
          EligibilityAt sys r now ∧ sys.clock ≤ checked ∧ checked ≤ now ∧
          now ≤ (serve prices sys r).clock ∧
          (active = true ↔ InWindow prices id sys.log checked) ∧
          (HomeController.MayCreate active wallet now →
            (∃ time, playlists (serve prices sys r).log = playlists sys.log ++ [(id, time)]) ∧
              respond prices sys r = ⟨none, [("notice", HomeController.successMessage)], some "/"⟩) ∧
          (¬HomeController.MayCreate active wallet now →
            playlists (serve prices sys r).log = playlists sys.log ∧
              respond prices sys r =
                ⟨none, [("alert", HomeController.refusal active wallet)], some "/"⟩)) := by
  obtain ⟨text, htext⟩ := Route.exists_text hroute
  obtain ⟨m, a, t, hanswered⟩ := respond_ok hreturn
  have hrequest : HomeController.createPlaylistRequest.run a = .ok () t := by
    have hdispatched := hanswered.dispatched
    rw [htext] at hdispatched
    exact hdispatched
  have hhere : a.location = none := hanswered.mute.location
  have hjobs : playlists a.log = playlists sys.log := hanswered.calm.playlists
  have hresponse {message : String × String} (h : Sends message "/" a t) :
      respond prices sys r = ⟨none, [message], some "/"⟩ := by
    rw [hanswered.response, h.flash, h.location, hanswered.mute.flash]
    rfl
  refine ⟨fun hnobody => ?_, fun hid => ?_⟩
  · obtain ⟨hsends, hsame⟩ := HomeController.createPlaylistRequest_nobody
      (hanswered.user.trans hnobody) hhere hrequest
    exact ⟨by rw [hanswered.log, hsame, hjobs], hresponse hsends⟩
  obtain ⟨active, expiresAt, wallet, now, pre, post, hwallet, hreads, hle, hle', hevents, hdecided⟩ :=
    HomeController.createPlaylistRequest_ok (hanswered.user.trans hid) (hanswered.loggedIn hid) hhere
      hrequest
  have hsuccess : ∀ session, r.route ≠ .paymentsSuccess session := by
    intro session hsuccess
    rw [hsuccess] at hroute
    cases hroute
  obtain ⟨hearly, events, hlog⟩ := hanswered.recorded h₀ hrun hid hevents
  have hwindow := gate_in_window hd h₀ hrun hsuccess hlog
  refine ⟨wallet, active, m.clock, now, ?_, ⟨_, hlog⟩, ⟨a, hanswered.inherited, hreads⟩, hearly,
    hanswered.grown.clock.trans hle, hle'.trans hanswered.clock, hwindow, fun hmay => ?_,
    fun hmay => ?_⟩
  · rw [← hwallet, hanswered.calm.wallets]
    rfl
  · obtain ⟨-, ⟨time, hgrew⟩, hsends⟩ := hdecided.resolve_right fun h => h.1 hmay
    exact ⟨⟨time, by rw [hanswered.log, hgrew, hjobs]⟩, hresponse hsends⟩
  · obtain ⟨-, hsame, hsends⟩ := hdecided.resolve_left fun h => hmay h.1
    exact ⟨by rw [hanswered.log, hsame, hjobs], hresponse hsends⟩

namespace Sample

/-- A new user, after the free playlist. -/
def afterFree : System := after [.request (playlistRequest 1700000000000000 fun _ => false)]

/-- The next request, two minutes later. -/
def nextRequest : Request := playlistRequest 120000000 fun _ => false

example : respond priceIds afterFree nextRequest =
    ⟨none, [("alert", "You don't have any tokens left.")], some "/"⟩ := by decide

end Sample

/-- Without a pass, the second playlist depends on the token. -/
theorem next_playlist_answered : ∃ wallet active checked now,
    Sample.afterFree.db.wallets.lookup 0 = some wallet ∧
      ChecksAt Sample.priceIds Sample.afterFree Sample.nextRequest 0 checked ∧
      EligibilityAt Sample.afterFree Sample.nextRequest now ∧ Sample.afterFree.clock ≤ checked ∧
      checked ≤ now ∧ now ≤ (serve Sample.priceIds Sample.afterFree Sample.nextRequest).clock ∧
      (active = true ↔ InWindow Sample.priceIds 0 Sample.afterFree.log checked) ∧
      (HomeController.MayCreate active wallet now →
        (∃ time, playlists (serve Sample.priceIds Sample.afterFree Sample.nextRequest).log =
          playlists Sample.afterFree.log ++ [(0, time)]) ∧
        respond Sample.priceIds Sample.afterFree Sample.nextRequest =
          ⟨none, [("notice", HomeController.successMessage)], some "/"⟩) ∧
      (¬HomeController.MayCreate active wallet now →
        playlists (serve Sample.priceIds Sample.afterFree Sample.nextRequest).log =
            playlists Sample.afterFree.log ∧
          respond Sample.priceIds Sample.afterFree Sample.nextRequest =
            ⟨none, [("alert", HomeController.refusal active wallet)], some "/"⟩) := by
  have hrun : StepRun.run (step Sample.priceIds) Sample.loggedIn
      [.request (Sample.playlistRequest 1700000000000000 fun _ => false)] =
        some Sample.afterFree := rfl
  exact (playlists_admitted Sample.priceIds_distinct Sample.loggedIn_justCreated hrun rfl rfl).2 rfl

end Knoiz
