import Knoiz.StaleSession

/-!
# What a filter or an action does, to the letter

`Effect` says which row a program writes; some properties also need what it writes there: which job
is enqueued, over which customer id a customer id is saved, for which customer a checkout session is
created.  A relation that `Permits` these changes holds between the states before and after every
filter and every action but login and logout; one that `Registers` the changes of a login holds across
these two.
-/

namespace Knoiz

open ProgramLogic Relation RowTable

/-! ### The changes -/

/-- The user in whose name a job runs. -/
def Job.user : Job → ℕ
  | .playlist _ _ user => user
  | .stats _ user => user

/-- The Spotify data that a job carries. -/
def Job.spotifyUserData : Job → Option SpotifyUser
  | .playlist _ data _ => data
  | .stats data _ => data

/-- A job as a request enqueues it: in the name of its user, with the data of its session, and, for a
playlist, with the squished text of its form. -/
structure Issues (s : Ctx) (job : Job) : Prop where
  user : s.currentUser = some job.user
  data : job.spotifyUserData = s.session.spotifyUserData
  text : ∀ text data user, job = .playlist text data user →
    ∃ raw, s.route = .createPlaylist (some raw) ∧ text = HomeController.squish raw

/-- Every subscription stays, and with it the customer id that it has. -/
def KeepsCustomers (db db' : Database) : Prop :=
  ∀ id row, db.subscriptions.lookup id = some row → ∃ row', db'.subscriptions.lookup id = some row' ∧
    (row.stripeUserId.isSome = true → row'.stripeUserId = row.stripeUserId)

/-- A checkout session as a request creates it: for the customer of its user. -/
def OfCustomer (s : Ctx) (new : CheckoutSession) : Prop :=
  new.creator = s.currentUser ∧ ∀ id row, s.currentUser = some id →
    s.db.subscriptions.lookup id = some row → new.customer = row.stripeUserId

/-- A relation that allows what a filter or an action does, login and logout apart. -/
class Permits (R : Ctx → Ctx → Prop) : Prop extends IsPreorder Ctx R where
  quiet : ∀ {s t : Ctx}, Quiet s t → R s t
  noted : ∀ (s : Ctx) {e : Event}, (∀ job time, e ≠ .enqueued job time) →
    R s { s with log := s.log ++ [e] }
  enqueued : ∀ {s : Ctx} {job : Job}, Issues s job →
    R s { s with log := s.log ++ [.enqueued job s.clock] }
  rebuilt : ∀ {s : Ctx} {old new : SpotifyUser}, s.session.spotifyUserData = some old →
    s.env.rspotifyUser old = some new →
    R s { s with session := { s.session with spotifyUserData := some new } }
  stored : ∀ (s : Ctx) {db : Database}, KeepsCustomers s.db db → R s { s with db := db }
  checkout : ∀ {s : Ctx} {new : CheckoutSession}, OfCustomer s new →
    R s { s with stripe := s.stripe ++ [new] }

/-- A relation that allows what login and logout do. -/
class Registers (R : Ctx → Ctx → Prop) : Prop extends IsPreorder Ctx R where
  quiet : ∀ {s t : Ctx}, Quiet s t → R s t
  stored : ∀ (s : Ctx) {db : Database}, KeepsCustomers s.db db → R s { s with db := db }
  session : ∀ (s : Ctx) (session : Session), R s { s with session := session }

instance {R : Ctx → Ctx → Prop} [Permits R] : Allows R where
  quiet := Permits.quiet
  nilCall s := Permits.noted s fun _ _ => nofun

instance {R : Ctx → Ctx → Prop} [Registers R] : AllowsQuiet R where
  quiet := Registers.quiet

theorem KeepsCustomers.of_eq {db db' : Database} (h : db'.subscriptions = db.subscriptions) :
    KeepsCustomers db db' := by
  intro id row hrow
  rw [h]
  exact ⟨row, hrow, fun _ => rfl⟩

theorem KeepsCustomers.trans {db db' db'' : Database} (h : KeepsCustomers db db')
    (h' : KeepsCustomers db' db'') : KeepsCustomers db db'' := by
  intro id row hrow
  obtain ⟨row', hrow', hsame⟩ := h id row hrow
  obtain ⟨row'', hrow'', hsame'⟩ := h' id row' hrow'
  refine ⟨row'', hrow'', fun hsome => ?_⟩
  rw [hsame' (by rw [hsame hsome]; exact hsome), hsame hsome]

theorem keepsCustomers_amend {db : Database} {id : ℕ} {f : Subscription → Subscription}
    (h : ∀ row, db.subscriptions.lookup id = some row → row.stripeUserId.isSome = true →
      (f row).stripeUserId = row.stripeUserId) : KeepsCustomers db (db.amendSubscription id f) := by
  intro j row hrow
  by_cases hj : j = id
  · subst hj
    refine ⟨f row, ?_, h row hrow⟩
    show (amend j f db.subscriptions).lookup j = _
    rw [lookup_amend_self, hrow, Option.map_some]
  · exact ⟨row, (lookup_amend_of_ne hj f _).trans hrow, fun _ => rfl⟩

theorem keepsCustomers_withUser (db : Database) (now : ℤ) (spotifyId : String) :
    KeepsCustomers db (db.withUser now spotifyId) :=
  fun _ row hrow => ⟨row, lookup_append_of_some hrow _, fun _ => rfl⟩

/-! ### The primitives -/

section Actions

variable {R : Ctx → Ctx → Prop} [Permits R] {α : Type}

theorem permits_modifyDb {f : Database → Database} (h : ∀ db, KeepsCustomers db (f db)) :
    Within R (modifyDb f) :=
  Within.update fun s => Permits.stored s (h s.db)

/-- The UPDATE of another table. -/
theorem permits_other {f : Database → Database} (h : ∀ db, (f db).subscriptions = db.subscriptions) :
    Within R (modifyDb f) :=
  permits_modifyDb fun db => KeepsCustomers.of_eq (h db)

theorem permits_gateSubscription : Within R gateSubscription :=
  Within.bind within_theUser fun _ => Within.bind (within_theRow _) fun _ =>
    Within.bind (Within.update fun s => Permits.noted s fun _ _ => nofun) fun _ => Within.pure _

theorem permits_saveProfileOf (id : ℕ) (changes : Profile → Profile) :
    Within R (saveProfileOf id changes) :=
  Within.bind within_currentTime fun _ => permits_other fun _ => rfl

theorem permits_firstImageUrl (user : SpotifyUser) : Within R (firstImageUrl user) := by
  unfold firstImageUrl
  split
  · exact Within.pure _
  · exact Within.raise _

/-- Rebuilding the Spotify user from the session, and storing it there. -/
theorem permits_rebuild {f : SpotifyUser → Action α} (hf : ∀ new, Within R (f new)) :
    Within R (do
      let s ← get
      let new ← rspotifyUserNew s.session.spotifyUserData
      modify fun s => { s with session := { s.session with spotifyUserData := some new } }
      f new) := by
  refine Within.of_spec (Q := fun _ _ => True) (Spec.get_bind fun s _ => ?_)
  refine Spec.bind (spec_rspotifyUserNew _) fun new => ?_
  refine Spec.bind (Q := fun _ _ => True) (Spec.update fun t ht => ⟨?_, trivial⟩) fun _ => hf new
  obtain ⟨⟨old, hold, hnew⟩, rfl⟩ := ht
  exact Permits.rebuilt hold hnew

theorem permits_enqueue {job : Job} :
    Spec R (fun s => Issues s job) (enqueue job) fun _ _ => True := by
  have hquiet : ∀ s t, Quiet s t → Issues s job → Issues t job := by
    intro s t hq h
    refine ⟨hq.currentUser ▸ h.user, ?_, hq.route ▸ h.text⟩
    rw [hq.session]
    exact h.data
  refine Spec.bind (spec_currentTime hquiet) fun now => Spec.update fun s hs => ⟨?_, trivial⟩
  rw [hs.1]
  exact Permits.enqueued hs.2

/-! ### The filters -/

theorem permits_checkStripeSubscription : Within R checkStripeSubscription := by
  intro s _
  rcases checkStripeSubscription_run s with ⟨t, ht, hcheck⟩ | ⟨e, t, ht, hq⟩
  · rw [ht]
    refine ⟨?_, trivial⟩
    cases hcheck with
    | skipped => exact refl s
    | live hq => exact IsTrans.trans _ _ _ (Permits.quiet hq) (Permits.noted _ fun _ _ => nofun)
    | @cleared m id row hq =>
        have hdb : KeepsCustomers m.db (m.db.amendSubscription id Subscription.deactivated) :=
          keepsCustomers_amend fun _ _ _ => rfl
        exact IsTrans.trans _ _ _ (Permits.quiet hq) (IsTrans.trans _ _ _ (Permits.stored m hdb)
          (Permits.noted { m with db := m.db.amendSubscription id Subscription.deactivated }
            fun _ _ => nofun))
  · rw [ht]
    exact Permits.quiet hq

theorem permits_refreshSpotifyAccessToken : Within R refreshSpotifyAccessToken := by
  have himage (data : SpotifyUser) : Within R (refresherImage data) := by
    unfold refresherImage
    split
    · exact Within.pure _
    · exact Within.pure _
    · exact Within.raise _
  have hupdate (data : SpotifyUser) : Within R (refresherUpdateUserProfile data) :=
    Within.bind within_theUser fun _ => Within.bind (within_call _) fun _ =>
      Within.bind (permits_other fun _ => rfl) fun _ => Within.bind within_currentTime fun _ =>
      Within.bind (himage data) fun _ => Within.bind (within_call _) fun _ =>
      permits_saveProfileOf _ _
  have hservice : Within R spotifyTokenRefresherCall :=
    Within.bind within_tokenNeedsRefresh fun _ => Within.ite
      (Within.get_bind fun _ => Within.rescue (Within.bind (within_rspotifyUserNew _)
        fun _ => hupdate _) fun _ => Within.pure _) (Within.pure _)
  refine Within.get_bind fun s => ?_
  cases s.currentUser with
  | none => exact Within.pure _
  | some id =>
      exact Within.bind within_tokenNeedsRefresh fun _ => Within.ite hservice (Within.pure _)

/-- **The Stats job.**  It is of the user whose statistics are due, with the session's data. -/
theorem permits_statsUpdaterCall : Within R statsUpdaterCall := by
  have hneeds : Within R statsNeedsUpdating := by
    refine Within.bind (within_theRow _) fun row => Within.bind within_currentTime fun _ => ?_
    cases row.timestamp with
    | none => exact within_nilCall
    | some timestamp => exact Within.pure _
  have hstamp : Within R statsUpdateTimestamp :=
    Within.bind within_theUser fun _ => Within.bind within_currentTime fun _ =>
      Within.bind (within_call _) fun _ => permits_other fun _ => rfl
  refine Within.bind hneeds fun due => Within.ite ?_ (Within.pure _)
  refine Within.of_spec (Q := fun _ _ => True) (Spec.bind spec_theUser fun id =>
    Spec.get_bind fun s hs => Spec.rescue ?_ fun _ => Spec.pure fun _ _ => trivial)
  refine Spec.bind (spec_call _) fun _ => Spec.bind ?_ fun _ => hstamp
  refine permits_enqueue.consequence (fun t ht => ?_) fun _ _ ht => ht
  subst ht
  exact ⟨hs.1, rfl, fun _ _ _ h => nomatch h⟩

theorem permits_collectStats : Within R collectStats := by
  refine Within.bind (Within.get_bind fun s => ?_) fun _ =>
    Within.ite permits_statsUpdaterCall (Within.pure _)
  split
  · exact Within.pure _
  · exact Within.bind within_currentTime fun _ => Within.pure _

/-! ### The controllers -/

namespace HomeController

theorem permits_refreshAccessToken : Within R refreshAccessToken := by
  refine Within.bind within_tokenNeedsRefresh fun _ => Within.ite ?_ (Within.pure _)
  exact permits_rebuild fun new => Within.bind within_theUser fun _ =>
    Within.bind (within_call _) fun _ => Within.bind (permits_other fun _ => rfl) fun _ =>
    Within.bind within_currentTime fun _ => Within.bind (permits_firstImageUrl _) fun _ =>
    Within.bind (within_call _) fun _ => permits_saveProfileOf _ _

theorem permits_checkEligibility : Within R checkEligibility := by
  refine Within.bind permits_gateSubscription fun _ => Within.bind (within_theRow _) fun _ =>
    Within.bind within_currentTime fun _ => ?_
  split
  · exact within_nilCall
  · exact Within.pure _
  · exact Within.bind permits_gateSubscription fun _ => Within.bind (within_theRow _) fun _ =>
      Within.ite (within_flashAndRedirect _ _ _) (within_flashAndRedirect _ _ _)

/-- **The Playlist job.**  It is of the logged-in user, with the squished text of the form and the
session's data. -/
theorem permits_createPlaylistWorker : Within R createPlaylistWorker := by
  refine Within.of_spec (Q := fun _ _ => True) (Spec.get_bind fun s _ => ?_)
  split
  · rename_i text hroute
    refine Spec.bind spec_theUser fun id => Spec.bind (spec_call _) fun _ => ?_
    refine permits_enqueue.consequence (fun t ht => ?_) fun _ _ ht => ht
    obtain ⟨hid, rfl⟩ := ht
    refine ⟨hid, rfl, fun _ _ _ h => ?_⟩
    cases h
    exact ⟨text, hroute, rfl⟩
  · exact Spec.raise

theorem permits_createPlaylist : Within R createPlaylist := by
  have hwallet : Within R updateWallet :=
    Within.bind within_theUser fun _ => Within.bind within_currentTime fun _ =>
      Within.bind (within_call _) fun _ => permits_other fun _ => rfl
  have htoken : Within R spendToken :=
    Within.bind within_theUser fun _ => Within.bind (within_call _) fun _ =>
      Within.get_bind fun _ => Within.ite (permits_other fun _ => rfl) (Within.pure _)
  exact Within.bind permits_createPlaylistWorker fun _ => Within.bind hwallet fun _ =>
    Within.bind (within_setFlash _ _) fun _ => Within.bind permits_gateSubscription fun _ =>
    Within.ite (Within.bind htoken fun _ => within_redirectTo _) (within_redirectTo _)

end HomeController

namespace StatsController

theorem permits_accessTokenRefreshing : Within R accessTokenRefreshing := by
  have hneeds : Within R needToRefreshToken :=
    Within.get_bind fun _ => Within.ite (Within.pure _) within_tokenNeedsRefresh
  refine Within.bind hneeds fun _ => Within.ite ?_ (Within.pure _)
  refine Within.bind ?_ fun _ => Within.bind within_currentTime fun _ => Within.raise _
  exact permits_rebuild (f := fun _ => pure ()) fun _ => Within.pure _

theorem permits_verifSubscription : Within R verifSubscription :=
  Within.get_bind fun _ => Within.ite (Within.bind permits_gateSubscription fun _ =>
    Within.ite (within_flashAndRedirect _ _ _) (Within.pure _)) (Within.pure _)

theorem permits_initializeSpotifyUser : Within R initializeSpotifyUser :=
  Within.get_bind fun _ => Within.bind (within_rspotifyUserNew _) fun _ => Within.pure _

theorem permits_ensureLoggedIn : Within R ensureLoggedIn :=
  Within.get_bind fun _ => Within.ite (within_flashAndRedirect _ _ _) (Within.pure _)

end StatsController

theorem UsersController.permits_ensureCurrentUserAndSubscription :
    Within R ensureCurrentUserAndSubscription := by
  refine Within.get_bind fun s => ?_
  split
  · exact Within.pure _
  · exact within_flashAndRedirect _ _ _

namespace PaymentsController

variable {prices : Prices}

/-- **The customer id.**  It is saved over a row that has none. -/
theorem permits_saveCustomer (customer : Option String) {subscription : Subscription}
    (hnone : subscription.stripeUserId.isNone = true) :
    Spec R (fun s => ∃ id, s.currentUser = some id ∧
      s.db.subscriptions.lookup id = some subscription) (saveCustomer customer)
      fun _ _ => True := by
  refine Spec.bind spec_theUser fun id => Spec.bind (spec_call _) fun _ =>
    Spec.update fun s hs => ⟨Permits.stored s (keepsCustomers_amend fun row hrow hsome => ?_),
      trivial⟩
  obtain ⟨hid, id', hid', hstored⟩ := hs
  cases hid.symm.trans hid'
  cases hrow.symm.trans hstored
  rw [Option.isNone_iff_eq_none.mp hnone] at hsome
  cases hsome

theorem permits_success (sessionId : Option String) : Within R (success prices sessionId) := by
  have hretrieve : Within R (retrieve sessionId) := by
    refine Within.bind (within_call _) fun _ => Within.get_bind fun s => ?_
    split
    · exact Within.pure _
    · exact Within.raise _
  have hprice (session : CheckoutSession) : Within R (firstPriceId session) := by
    refine Within.bind (within_call _) fun _ => ?_
    split
    · exact Within.pure _
    · exact Within.raise _
  have hpass (session : CheckoutSession) (priceId : String) :
      Within R (updateSubscription prices session priceId) := by
    refine Within.bind within_theUser fun id => Within.bind (within_theRow _) fun _ => ?_
    split
    · exact Within.raise _
    · rename_i days _
      refine Within.bind within_currentTime fun now => Within.bind (within_call _) fun _ =>
        Within.update fun s => ?_
      have hdb : KeepsCustomers s.db
          (s.db.amendSubscription id fun row => withPass row (passEnd now days)) :=
        keepsCustomers_amend fun _ _ _ => rfl
      exact IsTrans.trans _ _ _ (Permits.stored s hdb) (Permits.noted { s with
        db := s.db.amendSubscription id fun row => withPass row (passEnd now days) }
        fun _ _ => nofun)
  have hcustomer (session : CheckoutSession) : Within R (do
      let subscription ← theSubscription
      if subscription.stripeUserId.isNone then
        saveCustomer session.customer
      redirectTo "/") := by
    refine Within.of_spec (Q := fun _ _ => True) (Spec.bind (spec_theRow _) fun subscription => ?_)
    split
    · rename_i hnone
      refine Spec.bind ((permits_saveCustomer _ hnone).consequence (fun _ hs => hs.1)
        fun _ _ hs => hs) fun _ => within_redirectTo _
    · exact (within_redirectTo _).consequence (fun _ _ => trivial) fun _ _ hs => hs
  refine Within.rescue ?_ fun _ => Within.pure _
  exact Within.bind hretrieve fun session => Within.bind (hprice _) fun priceId =>
    Within.bind (hpass _ _) fun _ => hcustomer session

/-- **The checkout.**  The session is created for the customer of the logged-in user. -/
theorem permits_createCheckoutSession (price : Option String) :
    Within R (createCheckoutSession prices price) := by
  refine Within.rescue ?_ fun _ => Within.pure _
  split
  · exact Within.raise _
  · refine Within.of_spec (Q := fun _ _ => True) (Spec.bind (spec_theRow _) fun subscription => ?_)
    refine Spec.bind (Q := fun _ _ => True) (Spec.bind (spec_call _) fun _ =>
      Spec.update fun s hs => ⟨Permits.checkout ⟨rfl, fun id row hid hrow => ?_⟩, trivial⟩)
      fun _ => Within.get_bind fun _ => within_redirectTo _
    obtain ⟨⟨id', hid', hstored⟩, -⟩ := hs
    cases hid.symm.trans hid'
    cases hrow.symm.trans hstored
    rfl

end PaymentsController

/-! ### Whole controllers -/

theorem permits_filters (route : Route) {filter : Action Unit} (h : filter ∈ route.filters) :
    Within R filter := by
  cases route with
  | createPlaylist text =>
      simp only [Route.filters, List.mem_cons, List.not_mem_nil, or_false] at h
      rcases h with rfl | rfl | rfl
      · exact within_authenticateUser
      · exact HomeController.permits_refreshAccessToken
      · exact HomeController.permits_checkEligibility
  | statsIndex | statsTops | statsRecently | statsTopGlobal =>
      have hstats : filter ∈ [StatsController.ensureLoggedIn,
          StatsController.accessTokenRefreshing, StatsController.verifSubscription,
          StatsController.initializeSpotifyUser] := by
        simp only [Route.filters, List.mem_cons, List.not_mem_nil, or_false] at h ⊢
        tauto
      simp only [List.mem_cons, List.not_mem_nil, or_false] at hstats
      rcases hstats with rfl | rfl | rfl | rfl
      · exact StatsController.permits_ensureLoggedIn
      · exact StatsController.permits_accessTokenRefreshing
      · exact StatsController.permits_verifSubscription
      · exact StatsController.permits_initializeSpotifyUser
  | usersInfo =>
      cases List.mem_singleton.mp h
      exact UsersController.permits_ensureCurrentUserAndSubscription
  | _ => exact absurd h List.not_mem_nil

theorem permits_body {route : Route} (h : route.isLogin = false) :
    Within R (route.body prices) := by
  cases route with
  | homeIndex | pricingIndex => exact Within.pure _
  | createPlaylist text => exact HomeController.permits_createPlaylist
  | statsIndex | statsTops | statsRecently | statsTopGlobal => exact within_call _
  | authCallback | logout => cases h
  | paymentsSuccess sessionId => exact PaymentsController.permits_success sessionId
  | paymentsCancel => exact within_redirectTo _
  | createCheckoutSession price => exact PaymentsController.permits_createCheckoutSession price
  | usersInfo => exact Within.bind permits_gateSubscription fun _ => Within.pure _

theorem permits_foldr {filters : List (Action Unit)} {body : Action Unit}
    (hfilters : ∀ filter ∈ filters, Within R filter) (hbody : Within R body) :
    Within R (filters.foldr beforeAction body) := by
  induction filters with
  | nil => exact hbody
  | cons filter filters ih =>
      exact within_beforeAction (hfilters filter List.mem_cons_self)
        (ih fun f hf => hfilters f (List.mem_cons_of_mem _ hf))

end Actions

/-! ### Login and logout -/

namespace SessionsController

variable {R : Ctx → Ctx → Prop} [Registers R]

theorem registers_findOrCreateUser (spotifyUser : SpotifyUser) :
    Within R (findOrCreateUser spotifyUser) := by
  have hfind : Within R (findOrCreateBy spotifyUser.id) := by
    intro s _
    rcases findOrCreateBy_run spotifyUser.id s with ⟨id, t, hrun, hfound⟩ | ⟨e, t, hrun, hnot⟩
    · rw [hrun]
      refine ⟨?_, trivial⟩
      cases hfound with
      | found => exact refl s
      | created hq =>
          exact IsTrans.trans _ _ _ (Registers.quiet hq)
            (Registers.stored _ (keepsCustomers_withUser _ _ _))
    · rw [hrun]
      cases hnot with
      | select => exact refl (r := R) s
      | create hq =>
          exact IsTrans.trans _ _ _ (Registers.quiet hq)
            (Registers.stored _ (KeepsCustomers.of_eq rfl))
  exact Within.bind hfind fun _ => Within.bind (within_call _) fun _ =>
    Within.bind (Within.update fun s => Registers.stored s (KeepsCustomers.of_eq rfl)) fun _ =>
    Within.pure _

theorem registers_create : Within R create := by
  have hinitialize : Within R initializeSpotifyUser := by
    refine Within.get_bind fun s => ?_
    split
    · exact Within.pure _
    · exact Within.raise _
  have hstore (spotifyUser : SpotifyUser) : Within R (storeSpotifyDataInSession spotifyUser) :=
    Within.bind (within_call _) fun _ => Within.update fun s => Registers.session s _
  have hprofile (id : ℕ) (spotifyUser : SpotifyUser) :
      Within R (updateUserProfile id spotifyUser) := by
    intro s _
    rcases updateUserProfile_run id spotifyUser s with ⟨m, f, hrun, hupdated⟩ | ⟨e, m, hrun, hq, -⟩
    · rw [hrun]
      exact ⟨IsTrans.trans _ _ _ (Registers.quiet hupdated.quiet)
        (Registers.stored m (KeepsCustomers.of_eq rfl)), trivial⟩
    · rw [hrun]
      exact Registers.quiet hq
  have hwelcome (id : ℕ) : Within R (redirectWithWelcomeMessage id) :=
    Within.bind (within_call _) fun _ => Within.get_bind fun _ => within_flashAndRedirect _ _ _
  exact Within.rescue (Within.bind hinitialize fun _ => Within.bind (hstore _) fun _ =>
    Within.bind (registers_findOrCreateUser _) fun _ => Within.bind (hprofile _ _) fun _ =>
    Within.bind (Within.update fun s => Registers.session s _) fun _ => hwelcome _) fun _ =>
    Within.pure _

theorem registers_destroy : Within R destroy :=
  Within.bind (Within.update fun s => Registers.session s _) fun _ => within_flashAndRedirect _ _ _

end SessionsController

/-! ### A whole request -/

section Request

variable {R : Ctx → Ctx → Prop} {prices : PaymentsController.Prices}

theorem permits_dispatch [Permits R] {route : Route} (h : route.isLogin = false) :
    Within R (dispatch prices route) := by
  rw [dispatch_eq]
  exact permits_foldr (fun _ => permits_filters route) (permits_body h)

/-- What both kinds of change keep, a whole request keeps. -/
theorem process_related [Permits R] [Registers R] (prices : PaymentsController.Prices)
    (sys : System) (r : Request) :
    R (sys.start r).identified (final (process prices r.route) (sys.start r)) := by
  have hdispatch : Within R (dispatch prices r.route) := by
    cases hr : r.route.isLogin with
    | false => exact permits_dispatch hr
    | true =>
      generalize r.route = route at hr ⊢
      cases route with
      | authCallback => exact SessionsController.registers_create
      | logout => exact SessionsController.registers_destroy
      | _ => cases hr
  have hall : Within R (checkStripeSubscription >>= fun _ => afterCheck prices r.route) :=
    Within.bind permits_checkStripeSubscription fun _ =>
      Within.bind permits_refreshSpotifyAccessToken fun _ =>
      Within.bind permits_collectStats fun _ => Within.bind hdispatch fun _ => within_renderPage
  rw [final_congr (process_run r.route (sys.start r))]
  exact hall.final _

end Request

end Knoiz
