import Knoiz.Confinement
import Knoiz.Library.Relational

/-!
# What a request can see

An observer is a user with the checkout sessions that its requests name.  Two states are indistinct
for the observer when they agree on the user's own rows, on those checkout sessions, on the clock and
on everything that belongs to the request; the rows of the other users, the other checkout
sessions and the rest of the log may differ in any way.  Every filter and every action but the
login callback, which looks for a user by Spotify id, has matching results on indistinct states.

The relation is carried to whole runs: two histories in which the others do different things at the
same times give one user the same responses and the same rows.
-/

namespace Knoiz

open ProgramLogic Relation RowTable

/-- A user, the checkout sessions that its requests name, and the two logs so far. -/
structure Observer where
  user : ℕ
  asked : String → Prop
  log : List Event
  log' : List Event

/-- Stripe answers alike for every checkout session that the observer asks for. -/
def SameSessions (asked : String → Prop) (stripe stripe' : List CheckoutSession) : Prop :=
  ∀ id, asked id → PaymentsController.findSession stripe' (some id) =
    PaymentsController.findSession stripe (some id)

/-- The observer cannot tell the two states apart. -/
structure Indistinct (o : Observer) (s t : Ctx) : Prop where
  rows : SameRows o.user s.db t.db
  stripe : SameSessions o.asked s.stripe t.stripe
  clock : t.clock = s.clock
  log : ∃ l, s.log = o.log ++ l ∧ t.log = o.log' ++ l
  session : t.session = s.session
  names : ∀ id, s.session.userId = some id → id = o.user
  currentUser : t.currentUser = s.currentUser
  own : ∀ id, s.currentUser = some id → id = o.user
  route : t.route = s.route
  asks : ∀ id, s.route = .paymentsSuccess (some id) → o.asked id
  env : t.env = s.env
  delays : t.delays = s.delays
  flash : t.flash = s.flash
  location : t.location = s.location

/-- The program has matching results on states that the observer cannot tell apart. -/
abbrev Own (o : Observer) {α : Type} (m : Action α) : Prop := Alike (Indistinct o) m m

variable {o : Observer} {k : ℕ} {db db' : Database} {α β : Type}

/-! ### Writes on both sides -/

theorem lookup_amend_congr {ρ : Type} {t t' : Table ℕ ρ} (h : t'.lookup k = t.lookup k) (id : ℕ)
    (f : ρ → ρ) : (amend id f t').lookup k = (amend id f t).lookup k := by
  by_cases hid : k = id
  · subst hid
    rw [lookup_amend_self, lookup_amend_self, h]
  · rw [lookup_amend_of_ne hid, lookup_amend_of_ne hid, h]

theorem SameRows.amendSubscription (h : SameRows k db db') (id : ℕ)
    (f : Subscription → Subscription) :
    SameRows k (db.amendSubscription id f) (db'.amendSubscription id f) :=
  { h with subscription := lookup_amend_congr h.subscription id f }

theorem SameRows.amendProfile (h : SameRows k db db') (id : ℕ) (f : Profile → Profile) :
    SameRows k (db.amendProfile id f) (db'.amendProfile id f) :=
  { h with profile := lookup_amend_congr h.profile id f }

theorem SameRows.amendWallet (h : SameRows k db db') (id : ℕ) (f : Wallet → Wallet) :
    SameRows k (db.amendWallet id f) (db'.amendWallet id f) :=
  { h with wallet := lookup_amend_congr h.wallet id f }

theorem SameRows.amendSpotifydata (h : SameRows k db db') (id : ℕ)
    (f : Spotifydata → Spotifydata) :
    SameRows k (db.amendSpotifydata id f) (db'.amendSpotifydata id f) :=
  { h with spotifydata := lookup_amend_congr h.spotifydata id f }

theorem SameRows.rename (h : SameRows k db db') (id : ℕ) (name : Option String) :
    SameRows k { db with users := db.users.rename id name }
      { db' with users := db'.users.rename id name } :=
  { h with user := by simp only [Users.findById_rename, h.user] }

theorem SameSessions.append {asked : String → Prop} {stripe stripe' : List CheckoutSession}
    (h : SameSessions asked stripe stripe') (new : CheckoutSession) :
    SameSessions asked (stripe ++ [new]) (stripe' ++ [new]) := by
  intro id hid
  have hfound := h id hid
  simp only [PaymentsController.findSession, Option.bind_some] at hfound ⊢
  rw [List.find?_append, List.find?_append, hfound]

theorem Indistinct.noted {s t : Ctx} (h : Indistinct o s t) (e : Event) :
    Indistinct o { s with log := s.log ++ [e] } { t with log := t.log ++ [e] } := by
  obtain ⟨l, hs, ht⟩ := h.log
  refine { h with log := ⟨l ++ [e], ?_, ?_⟩ }
  · show s.log ++ [e] = _
    rw [hs, List.append_assoc]
  · show t.log ++ [e] = _
    rw [ht, List.append_assoc]

/-! ### The primitives -/

theorem own_currentTime : Own o currentTime := by
  refine Alike.get_run fun s t h => ?_
  rw [h.delays, h.clock]
  cases s.delays with
  | nil =>
      simp only [EStateM.run_pure]
      exact .ok h
  | cons d ds => exact .ok { h with clock := rfl, delays := rfl }

theorem own_call (c : Call) : Own o (call c) := by
  refine Alike.get_bind fun s t h => ?_
  rw [h.env]
  exact Alike.ite (Alike.raise _) (Alike.pure _)

theorem own_record (e : Event) : Own o (record e) := Alike.update fun _ _ h => h.noted e

theorem own_nilCall : Own o (nilCall : Action α) :=
  Alike.bind (own_record _) fun _ => Alike.raise _

theorem own_redirectTo (path : String) : Own o (redirectTo path) :=
  Alike.update fun _ _ h => { h with location := rfl }

theorem own_setFlash (kind message : String) : Own o (setFlash kind message) := by
  refine Alike.update fun s t h => { h with flash := ?_ }
  show t.flash ++ _ = s.flash ++ _
  rw [h.flash]

theorem own_flashAndRedirect (kind message path : String) :
    Own o (do setFlash kind message; redirectTo path) :=
  Alike.bind (own_setFlash _ _) fun _ => own_redirectTo _

theorem own_modifyDb {f : Database → Database}
    (h : ∀ db db', SameRows o.user db db' → SameRows o.user (f db) (f db')) :
    Own o (modifyDb f) :=
  Alike.update fun _ _ hst => { hst with rows := h _ _ hst.rows }

theorem own_enqueue (job : Job) : Own o (enqueue job) :=
  Alike.bind own_currentTime fun _ => own_record _

theorem own_rspotifyUserNew (hash : Option SpotifyUser) : Own o (rspotifyUserNew hash) := by
  refine Alike.get_bind fun s t h => ?_
  rw [h.env]
  split
  · exact Alike.pure _
  · exact Alike.raise _

/-- Whoever is logged in is the observer. -/
theorem Own.theUser_bind {f : ℕ → Action β} (hf : Own o (f o.user)) : Own o (theUser >>= f) := by
  intro s t h
  rw [EStateM.run_bind, EStateM.run_bind]
  cases hs : s.currentUser with
  | none =>
      rw [theUser_run_none hs, theUser_run_none (h.currentUser.trans hs)]
      exact .error (h.noted _)
  | some id =>
      rw [theUser_run hs, theUser_run (h.currentUser.trans hs), h.own id hs]
      exact hf s t h

theorem own_theRow {ρ : Type} {table : Database → Table ℕ ρ}
    (htable : ∀ db db', SameRows o.user db db' →
      (table db').lookup o.user = (table db).lookup o.user) : Own o (theRow table) := by
  refine Own.theUser_bind (Alike.get_bind fun s t h => ?_)
  rw [htable _ _ h.rows]
  split
  · exact Alike.pure _
  · exact own_nilCall

theorem own_theSubscription : Own o theSubscription := own_theRow fun _ _ h => h.subscription

theorem own_theWallet : Own o theWallet := own_theRow fun _ _ h => h.wallet

theorem own_theProfile : Own o theProfile := own_theRow fun _ _ h => h.profile

theorem own_theSpotifydata : Own o theSpotifydata := own_theRow fun _ _ h => h.spotifydata

theorem own_gateSubscription : Own o gateSubscription :=
  Own.theUser_bind <| Alike.bind own_theSubscription fun _ =>
    Alike.bind (own_record _) fun _ => Alike.pure _

theorem own_saveProfileOf (id : ℕ) (changes : Profile → Profile) :
    Own o (saveProfileOf id changes) :=
  Alike.bind own_currentTime fun _ => own_modifyDb fun _ _ h => h.amendProfile id _

theorem own_firstImageUrl (user : SpotifyUser) : Own o (firstImageUrl user) := by
  unfold firstImageUrl
  split
  · exact Alike.pure _
  · exact Alike.raise _

theorem own_renamed (id : ℕ) (name : Option String) :
    Own o (modifyDb fun db => { db with users := db.users.rename id name }) :=
  own_modifyDb fun _ _ h => h.rename id name

/-! ### The inherited filters -/

theorem own_setCurrentUser : Own o setCurrentUser := by
  refine Alike.update fun s t h => ?_
  cases hs : s.session.userId with
  | none =>
      have ht : t.session.userId = none := by rw [h.session, hs]
      simp only [ht, Option.bind_none]
      exact { h with currentUser := rfl, own := fun _ hid => nomatch hid }
  | some id =>
      obtain rfl : id = o.user := h.names id hs
      have ht : t.session.userId = some o.user := by rw [h.session, hs]
      simp only [ht, Option.bind_some, h.rows.user]
      refine { h with currentUser := rfl, own := fun id hid => ?_ }
      obtain ⟨u, hu, rfl⟩ := Option.map_eq_some_iff.mp hid
      exact Users.id_of_findById hu

theorem own_checkStripeSubscription : Own o checkStripeSubscription := by
  refine Alike.get_bind fun s t h => ?_
  rw [h.currentUser]
  cases hs : s.currentUser with
  | none => exact Alike.pure _
  | some id =>
      obtain rfl : id = o.user := h.own id hs
      simp only [h.rows.subscription]
      cases s.db.subscriptions.lookup o.user with
      | none => exact Alike.pure _
      | some subscription =>
          refine Alike.bind own_currentTime fun now => Alike.ite ?_ (own_record _)
          exact Alike.bind (own_call _) fun _ => Alike.bind
            (own_modifyDb fun _ _ h => h.amendSubscription _ _) fun _ => own_record _

theorem own_tokenNeedsRefresh : Own o tokenNeedsRefresh :=
  Alike.bind own_theProfile fun _ => Alike.bind own_currentTime fun _ => Alike.pure _

theorem own_refresherImage (data : SpotifyUser) : Own o (refresherImage data) := by
  unfold refresherImage
  split
  · exact Alike.pure _
  · exact Alike.pure _
  · exact Alike.raise _

theorem own_refresherUpdateUserProfile (data : SpotifyUser) :
    Own o (refresherUpdateUserProfile data) :=
  Own.theUser_bind <| Alike.bind (own_call _) fun _ => Alike.bind (own_renamed _ _) fun _ =>
    Alike.bind own_currentTime fun _ => Alike.bind (own_refresherImage _) fun _ =>
    Alike.bind (own_call _) fun _ => own_saveProfileOf _ _

theorem own_spotifyTokenRefresherCall : Own o spotifyTokenRefresherCall := by
  refine Alike.bind own_tokenNeedsRefresh fun stale => Alike.ite ?_ (Alike.pure _)
  refine Alike.get_bind fun s t h => ?_
  rw [h.session]
  refine Alike.rescue ?_ fun _ => Alike.pure _
  exact Alike.bind (own_rspotifyUserNew _) fun _ => own_refresherUpdateUserProfile _

theorem own_refreshSpotifyAccessToken : Own o refreshSpotifyAccessToken := by
  refine Alike.get_bind fun s t h => ?_
  rw [h.currentUser]
  cases s.currentUser with
  | none => exact Alike.pure _
  | some id =>
      exact Alike.bind own_tokenNeedsRefresh fun _ =>
        Alike.ite own_spotifyTokenRefresherCall (Alike.pure _)

theorem own_statsCollectionRequired : Own o statsCollectionRequired := by
  refine Alike.get_bind fun s t h => ?_
  have hrow : (t.currentUser.bind fun id => t.db.spotifydata.lookup id) =
      s.currentUser.bind fun id => s.db.spotifydata.lookup id := by
    rw [h.currentUser]
    cases hs : s.currentUser with
    | none => rfl
    | some id =>
        obtain rfl : id = o.user := h.own id hs
        exact h.rows.spotifydata
  rw [hrow]
  split
  · exact Alike.pure _
  · exact Alike.bind own_currentTime fun _ => Alike.pure _

theorem own_statsNeedsUpdating : Own o statsNeedsUpdating := by
  refine Alike.bind own_theSpotifydata fun row => Alike.bind own_currentTime fun now => ?_
  cases row.timestamp with
  | none => exact own_nilCall
  | some timestamp => exact Alike.pure _

theorem own_statsUpdateTimestamp : Own o statsUpdateTimestamp :=
  Own.theUser_bind <| Alike.bind own_currentTime fun _ => Alike.bind (own_call _) fun _ =>
    own_modifyDb fun _ _ h => h.amendSpotifydata _ _

theorem own_statsUpdaterCall : Own o statsUpdaterCall := by
  refine Alike.bind own_statsNeedsUpdating fun due => Alike.ite ?_ (Alike.pure _)
  refine Own.theUser_bind (Alike.get_bind fun s t h => ?_)
  rw [h.session]
  refine Alike.rescue ?_ fun _ => Alike.pure _
  exact Alike.bind (own_call _) fun _ => Alike.bind (own_enqueue _) fun _ =>
    own_statsUpdateTimestamp

theorem own_applicationFilters : Own o applicationFilters :=
  Alike.bind own_setCurrentUser fun _ => Alike.bind own_checkStripeSubscription fun _ =>
    Alike.bind own_refreshSpotifyAccessToken fun _ =>
    Alike.bind own_statsCollectionRequired fun _ =>
    Alike.ite own_statsUpdaterCall (Alike.pure _)

theorem own_beforeAction {filter rest : Action Unit} (hf : Own o filter) (hr : Own o rest) :
    Own o (beforeAction filter rest) := by
  refine Alike.bind hf fun _ => Alike.get_bind fun s t h => ?_
  rw [h.location]
  exact Alike.ite hr (Alike.pure _)

/-! ### The controllers -/

namespace HomeController

theorem own_authenticateUser : Own o authenticateUser := by
  refine Alike.get_bind fun s t h => ?_
  rw [h.session]
  exact Alike.ite (own_flashAndRedirect _ _ _) (Alike.pure _)

theorem own_refreshAccessToken : Own o refreshAccessToken := by
  refine Alike.bind own_tokenNeedsRefresh fun stale => Alike.ite ?_ (Alike.pure _)
  refine Alike.get_bind fun s t h => ?_
  rw [h.session]
  refine Alike.bind (own_rspotifyUserNew _) fun new => Alike.bind (Alike.update fun s t h => ?_)
    fun _ => Own.theUser_bind <| Alike.bind (own_call _) fun _ =>
      Alike.bind (own_renamed _ _) fun _ => Alike.bind own_currentTime fun _ =>
      Alike.bind (own_firstImageUrl _) fun _ => Alike.bind (own_call _) fun _ =>
      own_saveProfileOf _ _
  refine { h with session := ?_ }
  show { t.session with spotifyUserData := some new } = _
  rw [h.session]

theorem own_checkEligibility : Own o checkEligibility := by
  refine Alike.bind own_gateSubscription fun subscription => Alike.bind own_theWallet fun wallet =>
    Alike.bind own_currentTime fun now => ?_
  split
  · exact own_nilCall
  · exact Alike.pure _
  · refine Alike.bind own_gateSubscription fun _ => Alike.bind own_theWallet fun _ => ?_
    exact Alike.ite (own_flashAndRedirect _ _ _) (own_flashAndRedirect _ _ _)

theorem own_createPlaylistWorker : Own o createPlaylistWorker := by
  refine Alike.get_bind fun s t h => ?_
  rw [h.route, h.session]
  split
  · exact Own.theUser_bind <| Alike.bind (own_call _) fun _ => own_enqueue _
  · exact Alike.raise _

theorem own_updateWallet : Own o updateWallet :=
  Own.theUser_bind <| Alike.bind own_currentTime fun _ => Alike.bind (own_call _) fun _ =>
    own_modifyDb fun _ _ h => h.amendWallet _ _

theorem own_spendToken : Own o spendToken := by
  refine Own.theUser_bind <| Alike.bind (own_call _) fun _ => Alike.get_bind fun s t h => ?_
  rw [h.env]
  exact Alike.ite (own_modifyDb fun _ _ h => h.amendWallet _ _) (Alike.pure _)

theorem own_createPlaylist : Own o createPlaylist := by
  refine Alike.bind own_createPlaylistWorker fun _ => Alike.bind own_updateWallet fun _ =>
    Alike.bind (own_setFlash _ _) fun _ => Alike.bind own_gateSubscription fun subscription => ?_
  exact Alike.ite (Alike.bind own_spendToken fun _ => own_redirectTo _) (own_redirectTo _)

theorem own_createPlaylistRequest : Own o createPlaylistRequest :=
  own_beforeAction own_authenticateUser <| own_beforeAction own_refreshAccessToken <|
    own_beforeAction own_checkEligibility own_createPlaylist

end HomeController

namespace StatsController

theorem own_ensureLoggedIn : Own o ensureLoggedIn := by
  refine Alike.get_bind fun s t h => ?_
  rw [h.session]
  exact Alike.ite (own_flashAndRedirect _ _ _) (Alike.pure _)

theorem own_refreshSpotifyUserData : Own o refreshSpotifyUserData := by
  refine Alike.get_bind fun s t h => ?_
  rw [h.session]
  refine Alike.bind (own_rspotifyUserNew _) fun new => Alike.update fun s t h =>
    { h with session := ?_ }
  show { t.session with spotifyUserData := some new } = _
  rw [h.session]

theorem own_accessTokenRefreshing : Own o accessTokenRefreshing := by
  refine Alike.bind (Alike.get_bind fun s t h => ?_) fun stale => Alike.ite ?_ (Alike.pure _)
  · rw [h.session]
    exact Alike.ite (Alike.pure _) own_tokenNeedsRefresh
  · exact Alike.bind own_refreshSpotifyUserData fun _ =>
      Alike.bind own_currentTime fun _ => Alike.raise _

theorem own_verifSubscription : Own o verifSubscription := by
  refine Alike.get_bind fun s t h => ?_
  rw [h.session]
  refine Alike.ite (Alike.bind own_gateSubscription fun subscription => ?_) (Alike.pure _)
  exact Alike.ite (own_flashAndRedirect _ _ _) (Alike.pure _)

theorem own_initializeSpotifyUser : Own o initializeSpotifyUser := by
  refine Alike.get_bind fun s t h => ?_
  rw [h.session]
  exact Alike.bind (own_rspotifyUserNew _) fun _ => Alike.pure _

theorem own_indexRequest : Own o indexRequest :=
  own_beforeAction own_ensureLoggedIn <| own_beforeAction own_accessTokenRefreshing <|
    own_beforeAction own_initializeSpotifyUser (own_call _)

theorem own_gatedRequest : Own o gatedRequest :=
  own_beforeAction own_ensureLoggedIn <| own_beforeAction own_accessTokenRefreshing <|
    own_beforeAction own_verifSubscription <|
    own_beforeAction own_initializeSpotifyUser (own_call _)

theorem own_topGlobalRequest : Own o topGlobalRequest :=
  own_beforeAction own_ensureLoggedIn <| own_beforeAction own_accessTokenRefreshing <|
    own_beforeAction own_verifSubscription (own_call _)

end StatsController

theorem UsersController.own_infoRequest : Own o UsersController.infoRequest := by
  refine own_beforeAction (Alike.get_bind fun s t h => ?_)
    (Alike.bind own_gateSubscription fun _ => Alike.pure _)
  have hrow : (t.currentUser.bind fun id => t.db.subscriptions.lookup id) =
      s.currentUser.bind fun id => s.db.subscriptions.lookup id := by
    rw [h.currentUser]
    cases hs : s.currentUser with
    | none => rfl
    | some id =>
        obtain rfl : id = o.user := h.own id hs
        exact h.rows.subscription
  rw [hrow]
  split
  · exact Alike.pure _
  · exact own_flashAndRedirect _ _ _

namespace PaymentsController

variable {prices : Prices}

theorem own_stripeSessionCreate (plan stripePrice : String) (customer : Option String) :
    Own o (stripeSessionCreate plan stripePrice customer) := by
  refine Alike.bind (own_call _) fun _ => Alike.update fun s t h => { h with stripe := ?_ }
  show SameSessions o.asked (s.stripe ++ _) (t.stripe ++ _)
  rw [h.env, h.currentUser]
  exact h.stripe.append _

theorem own_createCheckoutSession (price : Option String) :
    Own o (createCheckoutSession prices price) := by
  refine Alike.rescue ?_ fun _ => Alike.pure _
  split
  · exact Alike.raise _
  · refine Alike.bind own_theSubscription fun _ => Alike.bind (own_stripeSessionCreate _ _ _)
      fun _ => Alike.get_bind fun s t h => ?_
    rw [h.env]
    exact own_redirectTo _

theorem own_retrieve {sessionId : Option String} (hid : ∀ id, sessionId = some id → o.asked id) :
    Own o (retrieve sessionId) := by
  refine Alike.bind (own_call _) fun _ => Alike.get_bind fun s t h => ?_
  have hfound : findSession t.stripe sessionId = findSession s.stripe sessionId := by
    cases sessionId with
    | none => rfl
    | some id => exact h.stripe id (hid id rfl)
  rw [hfound]
  split
  · exact Alike.pure _
  · exact Alike.raise _

theorem own_firstPriceId (session : CheckoutSession) : Own o (firstPriceId session) := by
  refine Alike.bind (own_call _) fun _ => ?_
  split
  · exact Alike.pure _
  · exact Alike.raise _

theorem own_updateSubscription (session : CheckoutSession) (priceId : String) :
    Own o (updateSubscription prices session priceId) := by
  refine Own.theUser_bind <| Alike.bind own_theSubscription fun _ => ?_
  split
  · exact Alike.raise _
  · refine Alike.bind own_currentTime fun now => Alike.bind (own_call _) fun _ =>
      Alike.update fun s t h => ?_
    rw [h.rows.subscription]
    exact { h.noted _ with rows := h.rows.amendSubscription _ _ }

theorem own_saveCustomer (customer : Option String) : Own o (saveCustomer customer) :=
  Own.theUser_bind <| Alike.bind (own_call _) fun _ =>
    own_modifyDb fun _ _ h => h.amendSubscription _ _

theorem own_success {sessionId : Option String} (hid : ∀ id, sessionId = some id → o.asked id) :
    Own o (success prices sessionId) := by
  refine Alike.rescue ?_ fun _ => Alike.pure _
  refine Alike.bind (own_retrieve hid) fun session => Alike.bind (own_firstPriceId _) fun priceId =>
    Alike.bind (own_updateSubscription _ _) fun _ => Alike.bind own_theSubscription fun _ => ?_
  exact Alike.ite (Alike.bind (own_saveCustomer _) fun _ => own_redirectTo _) (own_redirectTo _)

end PaymentsController

theorem SessionsController.own_destroy : Own o SessionsController.destroy := by
  refine Alike.bind (Alike.update fun s t h => ?_) fun _ => own_flashAndRedirect _ _ _
  exact { h with session := rfl, names := fun _ hid => nomatch hid }

/-! ### A whole request -/

variable {prices : PaymentsController.Prices}

/-- The controller of every route but the login callback. -/
theorem own_dispatch {route : Route} (hroute : route ≠ .authCallback)
    (hasked : ∀ id, route = .paymentsSuccess (some id) → o.asked id) :
    Own o (dispatch prices route) := by
  cases route with
  | homeIndex | pricingIndex => exact Alike.pure _
  | createPlaylist text => exact HomeController.own_createPlaylistRequest
  | statsIndex => exact StatsController.own_indexRequest
  | statsTops | statsRecently => exact StatsController.own_gatedRequest
  | statsTopGlobal => exact StatsController.own_topGlobalRequest
  | authCallback => exact absurd rfl hroute
  | logout => exact SessionsController.own_destroy
  | paymentsSuccess sessionId =>
      exact PaymentsController.own_success fun id hid => hasked id (congrArg _ hid)
  | paymentsCancel => exact own_redirectTo _
  | createCheckoutSession price => exact PaymentsController.own_createCheckoutSession price
  | usersInfo => exact UsersController.own_infoRequest

theorem own_renderPage : Own o renderPage := by
  refine Alike.get_bind fun s t h => ?_
  rw [h.location]
  exact Alike.ite (own_call _) (Alike.pure _)

theorem own_process {route : Route} (hroute : route ≠ .authCallback)
    (hasked : ∀ id, route = .paymentsSuccess (some id) → o.asked id) :
    Own o (process prices route) :=
  Alike.bind own_applicationFilters fun _ => Alike.bind (own_dispatch hroute hasked) fun _ =>
    own_renderPage

/-! ### Requests -/

/-- What comes back to the browser, the page apart: the exception, the flash and the redirect. -/
structure Response where
  raised : Option Err
  flash : List (String × String)
  location : Option String
  deriving DecidableEq, Repr

/-- The response to a request. -/
def respond (prices : PaymentsController.Prices) (sys : System) (r : Request) : Response :=
  match (process prices r.route).run (sys.start r) with
  | .ok _ c => ⟨none, c.flash, c.location⟩
  | .error e c => ⟨some e, c.flash, c.location⟩

/-- Two systems look the same from browser `b`, whose cookie names nobody but user `k`. -/
structure SameView (b k : ℕ) (asked : String → Prop) (sys sys' : System) : Prop where
  rows : SameRows k sys.db sys'.db
  stripe : SameSessions asked sys.stripe sys'.stripe
  clock : sys'.clock = sys.clock
  cookie : sys'.cookies b = sys.cookies b
  names : ∀ id, (sys.cookies b).userId = some id → id = k

/-- A request of browser `b`, no login, that names one of the given checkout sessions at most. -/
structure OwnRequest (b : ℕ) (asked : String → Prop) (r : Request) : Prop where
  browser : r.browser = b
  route : r.route ≠ .authCallback
  asks : ∀ id, r.route = .paymentsSuccess (some id) → asked id

variable {b : ℕ} {asked : String → Prop} {sys sys' : System} {r : Request}

theorem SameView.start (h : SameView b k asked sys sys') (hr : OwnRequest b asked r) :
    Indistinct ⟨k, asked, sys.log, sys'.log⟩ (sys.start r) (sys'.start r) := by
  have hsession : sys'.sessionOf r = sys.sessionOf r := by
    unfold System.sessionOf
    rw [hr.browser, h.cookie]
  refine ⟨h.rows, h.stripe, h.clock, ⟨[], by simp [System.start], by simp [System.start]⟩, hsession,
    fun id hid => ?_, rfl, fun _ hid => (nomatch hid), rfl, hr.asks, rfl, rfl, rfl, rfl⟩
  change (sys.sessionOf r).userId = some id at hid
  unfold System.sessionOf at hid
  split at hid
  · cases hid
  · rw [hr.browser] at hid
    exact h.names id hid

/-- **One request.**  It answers alike on two systems that look the same, records the same events,
and they look the same afterwards. -/
theorem serve_sameView (prices : PaymentsController.Prices) (h : SameView b k asked sys sys')
    (hr : OwnRequest b asked r) :
    respond prices sys' r = respond prices sys r ∧
      SameView b k asked (serve prices sys r) (serve prices sys' r) ∧
      ∃ l, (serve prices sys r).log = sys.log ++ l ∧ (serve prices sys' r).log = sys'.log ++ l := by
  have hown : Own ⟨k, asked, sys.log, sys'.log⟩ (process prices r.route) :=
    own_process hr.route hr.asks
  have hmatch := hown _ _ (h.start hr)
  unfold respond serve
  generalize (process prices r.route).run (sys.start r) = x at hmatch
  generalize (process prices r.route).run (sys'.start r) = y at hmatch
  cases hmatch with
  | @error e s t hst =>
      refine ⟨?_, ⟨hst.rows, hst.stripe, hst.clock, h.cookie, h.names⟩, hst.log⟩
      show Response.mk _ _ _ = Response.mk _ _ _
      rw [hst.flash, hst.location]
  | @ok a s t hst =>
      have hcommit : ∀ sys : System, ∀ session, sys.commit r session b =
          if r.nullSession then sys.cookies b else session := by
        intro sys session
        unfold System.commit
        split
        · rfl
        · rw [← hr.browser, Function.update_self]
      refine ⟨?_, ⟨hst.rows, hst.stripe, hst.clock, ?_, ?_⟩, hst.log⟩
      · show Response.mk _ _ _ = Response.mk _ _ _
        rw [hst.flash, hst.location]
      · show sys'.commit r t.session b = sys.commit r s.session b
        rw [hcommit, hcommit, hst.session, h.cookie]
      · show ∀ id, (sys.commit r s.session b).userId = some id → id = k
        rw [hcommit]
        split
        · exact h.names
        · exact hst.names

/-! ### What the others do -/

/-- A step of the others: it has no part in the rows of user `k`, comes from another browser, and
neither creates nor pays for a checkout session that the user asks for. -/
def Apart (b k : ℕ) (account : String) (asked : String → Prop) (sys : System) (a : Step) : Prop :=
  Foreign k account sys a ∧
    match a with
    | .request r => r.browser ≠ b ∧
        ((∃ price, r.route = .createCheckoutSession price) → ¬ asked r.env.checkoutId)
    | .payment sessionId _ => ¬ asked sessionId
    | .statsJob _ _ => True

theorem findSession_append_of_ne {stripe : List CheckoutSession} {new : CheckoutSession} {id : String}
    (h : new.id ≠ id) :
    PaymentsController.findSession (stripe ++ [new]) (some id) =
      PaymentsController.findSession stripe (some id) := by
  simp [PaymentsController.findSession, List.find?_append, h]

theorem findSession_completePayment_of_ne (stripe : List CheckoutSession) {id sessionId : String}
    (customer : Option String) (h : sessionId ≠ id) :
    PaymentsController.findSession (completePayment stripe sessionId customer) (some id) =
      PaymentsController.findSession stripe (some id) := by
  simp only [PaymentsController.findSession, Option.bind_some, completePayment]
  induction stripe with
  | nil => rfl
  | cons session stripe ih =>
      rw [List.map_cons, List.find?_cons, List.find?_cons, ih]
      by_cases hs : session.id = sessionId
      · have hne : session.id ≠ id := by rw [hs]; exact h
        simp [hs, h]
      · simp [hs]

theorem LoginEffect.sameSessions {s t : Ctx} (h : LoginEffect prices s t)
    (hnew : (∃ price, s.route = .createCheckoutSession price) → ¬ asked s.env.checkoutId) :
    SameSessions asked s.stripe t.stripe := by
  intro id hid
  cases h with
  | effect h =>
    cases h with
    | quiet h => rw [h.stripe]
    | checkout customer requested mapped =>
        refine findSession_append_of_ne ?_
        rintro rfl
        exact hnew ⟨_, requested⟩ hid
    | _ => rfl
  | _ => rfl

theorem Checked.stripe {s t : Ctx} (h : Checked s t) : t.stripe = s.stripe := by
  cases h with
  | skipped => rfl
  | live h | cleared h => exact h.stripe

theorem serve_cookies_of_ne (h : r.browser ≠ b) :
    (serve prices sys r).cookies b = sys.cookies b := by
  unfold serve
  cases (process prices r.route).run (sys.start r) with
  | error e c => rfl
  | ok _ c =>
      show sys.commit r c.session b = sys.cookies b
      unfold System.commit
      split
      · rfl
      · exact Function.update_of_ne h.symm _ _

variable (prices) in
/-- A request of another browser leaves the view of browser `b` as it was. -/
theorem serve_apart {account : String} (h : Apart b k account asked sys (.request r)) :
    SameSessions asked sys.stripe (serve prices sys r).stripe ∧
      (serve prices sys r).cookies b = sys.cookies b := by
  constructor
  · rw [show (serve prices sys r).stripe = _ from congrArg Server.stripe (serve_server sys r)]
    refine (serve_rule (I := fun s => SameSessions asked sys.stripe s.stripe ∧ s.route = r.route ∧
      s.env = r.env) (fun s t hc hs => ?_) (fun s t he hs => ?_) ⟨fun _ _ => rfl, rfl, rfl⟩).1
    · obtain ⟨-, hroute, henv⟩ := hc.frame
      refine ⟨?_, hroute.trans hs.2.1, henv.trans hs.2.2⟩
      rw [hc.stripe]
      exact hs.1
    · obtain ⟨-, hroute, henv⟩ := he.frame
      refine ⟨fun id hid => ?_, hroute.trans hs.2.1, henv.trans hs.2.2⟩
      refine (he.sameSessions ?_ id hid).trans (hs.1 id hid)
      rw [hs.2.1, hs.2.2]
      exact h.2.2
  · exact serve_cookies_of_ne h.2.1

/-- The account that is stored under a key. -/
def System.accountOf (sys : System) (k : ℕ) : Option String :=
  (sys.db.users.findById k).map User.spotifyId

theorem accountOf_extends {account : String} (h : sys.accountOf k = some account)
    (hext : sys.db.users.Extends sys'.db.users) : sys'.accountOf k = some account := by
  obtain ⟨u, hu, rfl⟩ := Option.map_eq_some_iff.mp h
  obtain ⟨v, hv, hsame⟩ := hext k u hu
  exact Option.map_eq_some_iff.mpr ⟨v, hv, hsame⟩

/-- What browser `b` sees of a system through a run of steps of the others. -/
structure Unmoved (b k : ℕ) (asked : String → Prop) (sys sys' : System) : Prop where
  rows : SameRows k sys.db sys'.db
  stripe : SameSessions asked sys.stripe sys'.stripe
  cookie : sys'.cookies b = sys.cookies b

theorem Unmoved.trans {sys'' : System} (h : Unmoved b k asked sys sys')
    (h' : Unmoved b k asked sys' sys'') : Unmoved b k asked sys sys'' :=
  ⟨h.rows.trans h'.rows, fun id hid => (h'.stripe id hid).trans (h.stripe id hid),
    h'.cookie.trans h.cookie⟩

theorem step_unmoved {account : String} {a : Step} (hk : sys.accountOf k = some account)
    (h : Apart b k account asked sys a) (hstep : step prices sys a = some sys') :
    Unmoved b k asked sys sys' := by
  obtain ⟨user, huser, rfl⟩ := Option.map_eq_some_iff.mp hk
  have hrows := step_sameRows huser h.1 hstep
  cases a with
  | request r =>
      cases hstep
      obtain ⟨hstripe, hcookie⟩ := serve_apart prices h
      exact ⟨hrows, hstripe, hcookie⟩
  | payment sessionId customer =>
      cases hstep
      refine ⟨hrows, fun id hid => findSession_completePayment_of_ne _ _ ?_, rfl⟩
      rintro rfl
      exact h.2 hid
  | statsJob other genres =>
      cases hstep
      exact ⟨hrows, fun _ _ => rfl, rfl⟩

theorem run_unmoved {account : String} {steps : List Step} (hk : sys.accountOf k = some account)
    (h : StepRun.Along (step prices) (Apart b k account asked) sys steps)
    (hrun : StepRun.run (step prices) sys steps = some sys') :
    Unmoved b k asked sys sys' ∧ sys'.accountOf k = some account := by
  refine StepRun.run_invariant_along (I := fun sys' =>
    Unmoved b k asked sys sys' ∧ sys'.accountOf k = some account)
    (fun m a m' hm hapart hstep => ?_) ⟨⟨SameRows.refl k _, fun _ _ => rfl, rfl⟩, hk⟩ h hrun
  exact ⟨hm.1.trans (step_unmoved hm.2 hapart hstep),
    accountOf_extends hm.2 (step_extends hstep)⟩

/-! ### Two histories -/

/-- One move of two histories of the application: browser `b` makes a request in both, or the
others do something in each. -/
inductive Joint where
  | own (r : Request)
  | others (steps steps' : List Step)

/-- The others may do different things, as long as they take the same time. -/
def jointStep (prices : PaymentsController.Prices) (p : System × System) :
    Joint → Option (System × System)
  | .own r => some (serve prices p.1 r, serve prices p.2 r)
  | .others steps steps' =>
      (StepRun.run (step prices) p.1 steps).bind fun sys =>
        (StepRun.run (step prices) p.2 steps').bind fun sys' =>
          if sys'.clock = sys.clock then some (sys, sys') else none

/-- The moves of the two histories: own requests on the one side, steps of the others on the other. -/
def Separate (prices : PaymentsController.Prices) (b k : ℕ) (account : String)
    (asked : String → Prop) (p : System × System) : Joint → Prop
  | .own r => OwnRequest b asked r
  | .others steps steps' =>
      StepRun.Along (step prices) (Apart b k account asked) p.1 steps ∧
        StepRun.Along (step prices) (Apart b k account asked) p.2 steps'

/-- The user has its account in both systems, which look the same. -/
def Paired (b k : ℕ) (account : String) (asked : String → Prop) (p : System × System) : Prop :=
  SameView b k asked p.1 p.2 ∧ p.1.accountOf k = some account ∧ p.2.accountOf k = some account

theorem jointStep_paired {account : String} {p q : System × System} {j : Joint}
    (h : Paired b k account asked p) (hj : Separate prices b k account asked p j)
    (hstep : jointStep prices p j = some q) : Paired b k account asked q := by
  obtain ⟨hview, hleft, hright⟩ := h
  cases j with
  | own r =>
      cases hstep
      exact ⟨(serve_sameView prices hview hj).2.1, accountOf_extends hleft (serve_extends _ r),
        accountOf_extends hright (serve_extends _ r)⟩
  | others steps steps' =>
      obtain ⟨sys, hsys, hstep⟩ := Option.bind_eq_some_iff.mp hstep
      obtain ⟨sys', hsys', hstep⟩ := Option.bind_eq_some_iff.mp hstep
      split at hstep
      · rename_i hclock
        cases hstep
        obtain ⟨hl, hleft'⟩ := run_unmoved hleft hj.1 hsys
        obtain ⟨hr, hright'⟩ := run_unmoved hright hj.2 hsys'
        refine ⟨⟨(hl.rows.symm.trans hview.rows).trans hr.rows, fun id hid => ?_, hclock, ?_, ?_⟩,
          hleft', hright'⟩
        · rw [hr.stripe id hid, hview.stripe id hid, hl.stripe id hid]
        · show sys'.cookies b = sys.cookies b
          rw [hr.cookie, hview.cookie, hl.cookie]
        · show ∀ id, (sys.cookies b).userId = some id → id = k
          rw [hl.cookie]
          exact hview.names
      · cases hstep

/-- **Non-interference.**  After any two histories that differ in what the others do, the rows of a
user are the same, and every request of the user's browser is answered alike. -/
theorem histories_alike {account : String} {p q : System × System} {moves : List Joint}
    (h : Paired b k account asked p)
    (hmoves : StepRun.Along (jointStep prices) (Separate prices b k account asked) p moves)
    (hrun : StepRun.run (jointStep prices) p moves = some q) :
    SameRows k q.1.db q.2.db ∧
      ∀ r, OwnRequest b asked r → respond prices q.2 r = respond prices q.1 r := by
  have hq : Paired b k account asked q :=
    StepRun.run_invariant_along (fun _ _ _ hp hj hstep => jointStep_paired hp hj hstep) h hmoves hrun
  exact ⟨hq.1.rows, fun r hr => (serve_sameView prices hq.1 hr).1⟩

namespace Sample

/-- Bob asks for a playlist in the one history and logs out in the other; then Ada asks for one. -/
def moves : List Joint :=
  [.others
      [.request { browser := 1, route := .createPlaylist (some "jazz"),
                  env := { delays := [1700000000000000] } }]
      [.request { browser := 1, route := .logout, env := { delays := [1700000000000000] } }],
    .own { browser := 0, route := .createPlaylist (some "90s playlist") }]

/-- The two histories at their ends. -/
def histories : System × System :=
  (StepRun.run (jointStep priceIds) (twoUsers, twoUsers) moves).getD (twoUsers, twoUsers)

end Sample

/-- Ada cannot tell whether Bob has asked for a playlist or has logged out. -/
theorem ada_cannot_tell :
    SameRows 0 Sample.histories.1.db Sample.histories.2.db ∧
      ∀ r, OwnRequest 0 (fun _ => False) r →
        respond Sample.priceIds Sample.histories.2 r =
          respond Sample.priceIds Sample.histories.1 r := by
  have hpaired : Paired 0 0 "ada" (fun _ => False) (Sample.twoUsers, Sample.twoUsers) := by
    refine ⟨⟨SameRows.refl 0 _, fun _ _ => rfl, rfl, rfl, fun id hid => ?_⟩, rfl, rfl⟩
    have hada : (Sample.twoUsers.cookies 0).userId = some 0 := rfl
    exact (Option.some.inj (hada.symm.trans hid)).symm
  have hbob : ∀ r : Request, r.browser = 1 → r.nullSession = false → r.route.isLogin = false ∨
      r.route = .logout → (∀ price, r.route ≠ .createCheckoutSession price) →
      Apart 0 0 "ada" (fun _ => False) Sample.twoUsers (.request r) := by
    intro r hbrowser hnull hroute hcheckout
    have huser : Sample.twoUsers.userOf r = some 1 := by
      have hsession : Sample.twoUsers.sessionOf r = Sample.twoUsers.cookies 1 := by
        rw [System.sessionOf, hnull, hbrowser]
        rfl
      rw [System.userOf, hsession]
      rfl
    refine ⟨⟨?_, fun hcallback => ?_⟩, ?_, fun _ => id⟩
    · rw [huser]
      decide
    · rw [hcallback] at hroute
      rcases hroute with h | h <;> cases h
    · rw [hbrowser]
      decide
  have hmoves : StepRun.Along (jointStep Sample.priceIds)
      (Separate Sample.priceIds 0 0 "ada" fun _ => False) (Sample.twoUsers, Sample.twoUsers)
      Sample.moves := by
    refine ⟨⟨⟨?_, fun _ _ => trivial⟩, ⟨?_, fun _ _ => trivial⟩⟩, fun q _ =>
      ⟨⟨rfl, ?_, ?_⟩, fun _ _ => trivial⟩⟩
    · exact hbob _ rfl rfl (.inl rfl) fun _ h => nomatch h
    · exact hbob _ rfl rfl (.inr rfl) fun _ h => nomatch h
    · exact fun h => nomatch h
    · exact fun _ h => nomatch h
  exact histories_alike hpaired hmoves rfl

end Knoiz
