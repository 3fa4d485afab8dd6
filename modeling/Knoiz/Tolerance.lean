import Knoiz.TokenRefresh

/-!
# What a request does besides its statistics

Two properties look at a request from the outside: when its statistics are collected, and whether it
calls a method on `nil`.  For both, everything that a request does apart from `collect_stats` comes
down to a few kinds of change: the response and the clock, events of other kinds, the session, the
checkout sessions, rows that stay where they are, and a call on `nil` only where the user or one of
the four rows of the user is missing.  `Tolerates` lists them, and this file shows that every filter
and every action keeps to the list.
-/

namespace Knoiz

open ProgramLogic Relation RowTable

/-! ### The changes -/

/-- User `id` has a row in each of the four association tables. -/
structure HasRows (db : Database) (id : ℕ) : Prop where
  subscription : (db.subscriptions.lookup id).isSome = true
  profile : (db.profiles.lookup id).isSome = true
  wallet : (db.wallets.lookup id).isSome = true
  spotifydata : (db.spotifydata.lookup id).isSome = true

/-- Somebody is logged in and has the four rows. -/
def Ctx.Complete (s : Ctx) : Prop := ∃ id, s.currentUser = some id ∧ HasRows s.db id

/-- No row is gone, and the statistics are as they were. -/
structure Keeps (db db' : Database) : Prop where
  subscription : ∀ id, (db.subscriptions.lookup id).isSome = true →
    (db'.subscriptions.lookup id).isSome = true
  profile : ∀ id, (db.profiles.lookup id).isSome = true → (db'.profiles.lookup id).isSome = true
  wallet : ∀ id, (db.wallets.lookup id).isSome = true → (db'.wallets.lookup id).isSome = true
  spotifydata : ∀ id row, db.spotifydata.lookup id = some row →
    db'.spotifydata.lookup id = some row

/-- An event that is neither a Stats job nor a call on `nil`. -/
def Event.isPlain : Event → Bool
  | .enqueued (.stats _ _) _ => false
  | .nilCall => false
  | _ => true

/-- A relation that allows what a request does besides its statistics. -/
class Tolerates (R : Ctx → Ctx → Prop) : Prop extends IsPreorder Ctx R where
  quiet : ∀ {s t : Ctx}, Quiet s t → R s t
  missing : ∀ {s : Ctx}, ¬ s.Complete → R s s.nilCalled
  noted : ∀ (s : Ctx) {e : Event}, e.isPlain = true → R s { s with log := s.log ++ [e] }
  session : ∀ (s : Ctx) (session : Session), R s { s with session := session }
  stripe : ∀ (s : Ctx) (stripe : List CheckoutSession), R s { s with stripe := stripe }
  stored : ∀ (s : Ctx) {db : Database}, Keeps s.db db → R s { s with db := db }

instance {R : Ctx → Ctx → Prop} [Tolerates R] : AllowsQuiet R where
  quiet := Tolerates.quiet

/-! ### Rows that stay -/

theorem Keeps.hasRows {db db' : Database} {id : ℕ} (h : Keeps db db') (hid : HasRows db id) :
    HasRows db' id := by
  obtain ⟨row, hrow⟩ := Option.isSome_iff_exists.mp hid.spotifydata
  refine ⟨h.subscription id hid.subscription, h.profile id hid.profile, h.wallet id hid.wallet, ?_⟩
  rw [h.spotifydata id row hrow]
  rfl

theorem isSome_lookup_amend {ρ : Type} {id : ℕ} (k : ℕ) (f : ρ → ρ) {t : Table ℕ ρ}
    (h : (t.lookup id).isSome = true) : ((amend k f t).lookup id).isSome = true := by
  rw [lookup_amend]
  split
  · rename_i hid
    rw [Option.isSome_map, ← hid]
    exact h
  · exact h

theorem isSome_lookup_append {ρ : Type} {id : ℕ} {t : Table ℕ ρ} (u : Table ℕ ρ)
    (h : (t.lookup id).isSome = true) : ((t ++ u).lookup id).isSome = true := by
  obtain ⟨row, hrow⟩ := Option.isSome_iff_exists.mp h
  rw [lookup_append_of_some hrow]
  rfl

theorem keeps_amendSubscription (db : Database) (id : ℕ) (f : Subscription → Subscription) :
    Keeps db (db.amendSubscription id f) :=
  ⟨fun _ => isSome_lookup_amend id f, fun _ h => h, fun _ h => h, fun _ _ h => h⟩

theorem keeps_amendProfile (db : Database) (id : ℕ) (f : Profile → Profile) :
    Keeps db (db.amendProfile id f) :=
  ⟨fun _ h => h, fun _ => isSome_lookup_amend id f, fun _ h => h, fun _ _ h => h⟩

theorem keeps_amendWallet (db : Database) (id : ℕ) (f : Wallet → Wallet) :
    Keeps db (db.amendWallet id f) :=
  ⟨fun _ h => h, fun _ h => h, fun _ => isSome_lookup_amend id f, fun _ _ h => h⟩

theorem keeps_users (db : Database) (users : Users) : Keeps db { db with users := users } :=
  ⟨fun _ h => h, fun _ h => h, fun _ h => h, fun _ _ h => h⟩

theorem keeps_withUser (db : Database) (now : ℤ) (spotifyId : String) :
    Keeps db (db.withUser now spotifyId) :=
  ⟨fun _ => isSome_lookup_append _, fun _ => isSome_lookup_append _,
    fun _ => isSome_lookup_append _, fun _ _ h => lookup_append_of_some h _⟩

theorem not_complete_of_none {s : Ctx} (hid : s.currentUser = none) : ¬ s.Complete := by
  rintro ⟨id, hid', -⟩
  cases hid.symm.trans hid'

/-! ### The primitives -/

section Primitives

variable {R : Ctx → Ctx → Prop} [Tolerates R]

theorem tolerates_record {e : Event} (h : e.isPlain = true) : Within R (record e) :=
  Within.update fun s => Tolerates.noted s h

theorem tolerates_modifyDb {f : Database → Database} (h : ∀ db, Keeps db (f db)) :
    Within R (modifyDb f) :=
  Within.update fun s => Tolerates.stored s (h s.db)

theorem tolerates_session {f : Ctx → Session} :
    Within R (modify fun s => { s with session := f s } : Action PUnit) :=
  Within.update fun s => Tolerates.session s (f s)

/-- A row and its event. -/
theorem tolerates_storedNoted {s : Ctx} {db : Database} {e : Event} (he : e.isPlain = true)
    (hdb : Keeps s.db db) : R s { s with db := db, log := s.log ++ [e] } :=
  IsTrans.trans _ _ _ (Tolerates.stored s hdb) (Tolerates.noted { s with db := db } he)

theorem tolerates_theUser : Within R theUser := by
  intro s _
  cases hid : s.currentUser with
  | none =>
      rw [theUser_run_none hid]
      exact Tolerates.missing (not_complete_of_none hid)
  | some id =>
      rw [theUser_run hid]
      exact ⟨refl s, trivial⟩

/-- Without a user, or without a row, the call is on `nil`. -/
theorem tolerates_theRow {ρ : Type} {table : Database → Table ℕ ρ}
    (h : ∀ db id, HasRows db id → ((table db).lookup id).isSome = true) :
    Within R (theRow table) := by
  intro s _
  cases hid : s.currentUser with
  | none =>
      rw [theRow_run_none hid]
      exact Tolerates.missing (not_complete_of_none hid)
  | some id =>
    cases hrow : (table s.db).lookup id with
    | some row =>
        rw [theRow_run hid hrow]
        exact ⟨refl s, trivial⟩
    | none =>
        rw [theRow_run_missing hid hrow]
        refine Tolerates.missing ?_
        rintro ⟨id', hid', hrows⟩
        cases hid.symm.trans hid'
        have hsome := h s.db id hrows
        rw [hrow] at hsome
        cases hsome

theorem tolerates_theSubscription : Within R theSubscription :=
  tolerates_theRow fun _ _ h => h.subscription

theorem tolerates_theWallet : Within R theWallet := tolerates_theRow fun _ _ h => h.wallet

theorem tolerates_gateSubscription : Within R gateSubscription :=
  Within.bind tolerates_theUser fun _ => Within.bind tolerates_theSubscription fun _ =>
    Within.bind (tolerates_record rfl) fun _ => Within.pure _

theorem tolerates_tokenNeedsRefresh : Within R tokenNeedsRefresh :=
  Within.bind (tolerates_theRow fun _ _ h => h.profile) fun _ =>
    Within.bind within_currentTime fun _ => Within.pure _

theorem tolerates_firstImageUrl (user : SpotifyUser) : Within R (firstImageUrl user) := by
  unfold firstImageUrl
  cases user.images with
  | none => exact Within.raise _
  | some images => exact Within.pure _

theorem tolerates_saveProfileOf (id : ℕ) (changes : Profile → Profile) :
    Within R (saveProfileOf id changes) :=
  Within.bind within_currentTime fun _ => tolerates_modifyDb fun db => keeps_amendProfile db id _

/-- The two updates of a refresh. -/
theorem tolerates_saveRefreshed (username profile : Call) (id : ℕ) (data : SpotifyUser) :
    Within R (saveRefreshed username profile id data) :=
  Within.bind (within_call _) fun _ =>
    Within.bind (tolerates_modifyDb fun db => keeps_users db _) fun _ =>
    Within.bind within_currentTime fun _ => Within.bind (tolerates_firstImageUrl _) fun _ =>
    Within.bind (within_call _) fun _ => tolerates_saveProfileOf _ _

end Primitives

/-! ### The filters -/

section Actions

variable {R : Ctx → Ctx → Prop} [Tolerates R] {prices : PaymentsController.Prices}

theorem tolerates_checkStripeSubscription : Within R checkStripeSubscription := by
  intro s _
  rcases checkStripeSubscription_run s with ⟨t, ht, hcheck⟩ | ⟨e, t, ht, hq⟩
  · rw [ht]
    refine ⟨?_, trivial⟩
    cases hcheck with
    | skipped => exact refl s
    | live hq => exact IsTrans.trans _ _ _ (Tolerates.quiet hq) (Tolerates.noted _ rfl)
    | cleared hq =>
        exact IsTrans.trans _ _ _ (Tolerates.quiet hq)
          (tolerates_storedNoted rfl (keeps_amendSubscription _ _ _))
  · rw [ht]
    exact Tolerates.quiet hq

theorem tolerates_refreshSpotifyAccessToken : Within R refreshSpotifyAccessToken := by
  have hupdate (data : SpotifyUser) : Within R (refresherUpdateUserProfile data) := by
    rw [refresherUpdateUserProfile_eq]
    exact Within.bind tolerates_theUser fun _ => tolerates_saveRefreshed _ _ _ _
  have hservice : Within R spotifyTokenRefresherCall :=
    Within.bind tolerates_tokenNeedsRefresh fun _ => Within.ite
      (Within.get_bind fun _ => Within.rescue (Within.bind (within_rspotifyUserNew _)
        fun _ => hupdate _) fun _ => Within.pure _) (Within.pure _)
  apply Within.get_bind
  intro s
  cases s.currentUser with
  | none => exact Within.pure _
  | some id =>
      exact Within.bind tolerates_tokenNeedsRefresh fun _ => Within.ite hservice (Within.pure _)

namespace HomeController

theorem tolerates_refreshAccessToken : Within R refreshAccessToken := by
  have hupdate (new : SpotifyUser) : Within R (updateSpotifyData new) := by
    rw [updateSpotifyData_eq]
    exact Within.bind tolerates_session fun _ => Within.bind tolerates_theUser fun _ =>
      tolerates_saveRefreshed _ _ _ _
  exact Within.bind tolerates_tokenNeedsRefresh fun _ => Within.ite
    (Within.get_bind fun _ => Within.bind (within_rspotifyUserNew _) fun _ => hupdate _)
    (Within.pure _)

theorem tolerates_createPlaylistWorker : Within R createPlaylistWorker := by
  apply Within.get_bind
  intro s
  split
  · exact Within.bind tolerates_theUser fun _ => Within.bind (within_call _) fun _ =>
      Within.bind within_currentTime fun _ => tolerates_record rfl
  · exact Within.raise _

theorem tolerates_createPlaylist : Within R createPlaylist := by
  have hwallet : Within R updateWallet :=
    Within.bind tolerates_theUser fun _ => Within.bind within_currentTime fun _ =>
      Within.bind (within_call _) fun _ =>
      tolerates_modifyDb fun db => keeps_amendWallet db _ _
  have htoken : Within R spendToken :=
    Within.bind tolerates_theUser fun _ => Within.bind (within_call _) fun _ =>
      Within.get_bind fun _ => Within.ite
        (tolerates_modifyDb fun db => keeps_amendWallet db _ _) (Within.pure _)
  exact Within.bind tolerates_createPlaylistWorker fun _ => Within.bind hwallet fun _ =>
    Within.bind (within_setFlash _ _) fun _ => Within.bind tolerates_gateSubscription fun _ =>
    Within.ite (Within.bind htoken fun _ => within_redirectTo _) (within_redirectTo _)

/-- The check compares a timestamp of the wallet, which may be `nil` where the row is not missing. -/
theorem tolerates_checkEligibility (hnil : ∀ s : Ctx, R s s.nilCalled) :
    Within R checkEligibility := by
  refine Within.bind tolerates_gateSubscription fun _ => Within.bind tolerates_theWallet fun _ =>
    Within.bind within_currentTime fun _ => ?_
  split
  · exact fun s _ => hnil s
  · exact Within.pure _
  · exact Within.bind tolerates_gateSubscription fun _ => Within.bind tolerates_theWallet fun _ =>
      Within.ite (within_flashAndRedirect _ _ _) (within_flashAndRedirect _ _ _)

end HomeController

namespace StatsController

theorem tolerates_ensureLoggedIn : Within R ensureLoggedIn :=
  Within.get_bind fun _ => Within.ite (within_flashAndRedirect _ _ _) (Within.pure _)

theorem tolerates_accessTokenRefreshing : Within R accessTokenRefreshing := by
  have hneeds : Within R needToRefreshToken :=
    Within.get_bind fun _ => Within.ite (Within.pure _) tolerates_tokenNeedsRefresh
  have hrefresh : Within R refreshSpotifyUserData :=
    Within.get_bind fun _ => Within.bind (within_rspotifyUserNew _) fun _ => tolerates_session
  have hupdate : Within R updateUserProfile :=
    Within.bind within_currentTime fun _ => Within.raise _
  exact Within.bind hneeds fun _ => Within.ite (Within.bind hrefresh fun _ => hupdate)
    (Within.pure _)

theorem tolerates_verifSubscription : Within R verifSubscription :=
  Within.get_bind fun _ => Within.ite (Within.bind tolerates_gateSubscription fun _ =>
    Within.ite (within_flashAndRedirect _ _ _) (Within.pure _)) (Within.pure _)

theorem tolerates_initializeSpotifyUser : Within R initializeSpotifyUser :=
  Within.get_bind fun _ => Within.bind (within_rspotifyUserNew _) fun _ => Within.pure _

end StatsController

theorem UsersController.tolerates_ensureCurrentUserAndSubscription :
    Within R ensureCurrentUserAndSubscription := by
  apply Within.get_bind
  intro s
  split
  · exact Within.pure _
  · exact within_flashAndRedirect _ _ _

/-! ### The actions -/

namespace PaymentsController

theorem tolerates_success (sessionId : Option String) : Within R (success prices sessionId) := by
  have hretrieve : Within R (retrieve sessionId) := by
    refine Within.bind (within_call _) fun _ => Within.get_bind fun s => ?_
    split
    · exact Within.pure _
    · exact Within.raise _
  have hprice (session : CheckoutSession) : Within R (firstPriceId session) := by
    refine Within.bind (within_call _) fun _ => ?_
    split
    · exact Within.pure _
    · exact Within.raise _
  have hsave (id : ℕ) (session : CheckoutSession) (priceId : String) (now days : ℤ) :
      Within R (savePass id session priceId now days) := by
    refine Within.bind (within_call _) fun _ => Within.update fun s => ?_
    exact tolerates_storedNoted rfl (keeps_amendSubscription s.db id _)
  have hupdate (session : CheckoutSession) (priceId : String) :
      Within R (updateSubscription prices session priceId) := by
    refine Within.bind tolerates_theUser fun _ =>
      Within.bind tolerates_theSubscription fun _ => ?_
    split
    · exact Within.raise _
    · exact Within.bind within_currentTime fun _ => hsave _ _ _ _ _
  have hcustomer (customer : Option String) : Within R (saveCustomer customer) :=
    Within.bind tolerates_theUser fun _ => Within.bind (within_call _) fun _ =>
      tolerates_modifyDb fun db => keeps_amendSubscription db _ _
  exact Within.rescue (Within.bind hretrieve fun _ => Within.bind (hprice _) fun _ =>
    Within.bind (hupdate _ _) fun _ => Within.bind tolerates_theSubscription fun _ =>
    Within.ite (Within.bind (hcustomer _) fun _ => within_redirectTo _)
      (within_redirectTo _)) fun _ => Within.pure _

theorem tolerates_createCheckoutSession (price : Option String) :
    Within R (createCheckoutSession prices price) := by
  have hcreate (plan stripePrice : String) (customer : Option String) :
      Within R (stripeSessionCreate plan stripePrice customer) :=
    Within.bind (within_call _) fun _ => Within.update fun s => Tolerates.stripe s _
  refine Within.rescue ?_ fun _ => Within.pure _
  split
  · exact Within.raise _
  · exact Within.bind tolerates_theSubscription fun _ => Within.bind (hcreate _ _ _) fun _ =>
      Within.get_bind fun _ => within_redirectTo _

end PaymentsController

namespace SessionsController

theorem tolerates_findOrCreateBy (spotifyId : String) : Within R (findOrCreateBy spotifyId) := by
  intro s _
  rcases findOrCreateBy_run spotifyId s with ⟨id, t, hrun, hfound⟩ | ⟨e, t, hrun, hnot⟩
  · rw [hrun]
    refine ⟨?_, trivial⟩
    cases hfound with
    | found => exact refl s
    | created hq =>
        exact IsTrans.trans _ _ _ (Tolerates.quiet hq)
          (Tolerates.stored _ (keeps_withUser _ _ spotifyId))
  · rw [hrun]
    cases hnot with
    | select => exact refl (r := R) s
    | create hq =>
        exact IsTrans.trans _ _ _ (Tolerates.quiet hq) (Tolerates.stored _ (keeps_users _ _))

theorem tolerates_create : Within R create := by
  have hinitialize : Within R initializeSpotifyUser := by
    refine Within.get_bind fun s => ?_
    split
    · exact Within.pure _
    · exact Within.raise _
  have hstore (spotifyUser : SpotifyUser) : Within R (storeSpotifyDataInSession spotifyUser) :=
    Within.bind (within_call _) fun _ => tolerates_session
  have hfind (spotifyUser : SpotifyUser) : Within R (findOrCreateUser spotifyUser) :=
    Within.bind (tolerates_findOrCreateBy _) fun _ => Within.bind (within_call _) fun _ =>
      Within.bind (tolerates_modifyDb fun db => keeps_users db _) fun _ => Within.pure _
  have hprofile (id : ℕ) (spotifyUser : SpotifyUser) :
      Within R (updateUserProfile id spotifyUser) := by
    refine Within.get_bind fun s => ?_
    split
    · exact Within.raise _
    · exact Within.bind within_currentTime fun _ =>
        Within.bind (tolerates_firstImageUrl _) fun _ => Within.bind (within_call _) fun _ =>
        tolerates_saveProfileOf _ _
  have hwelcome (id : ℕ) : Within R (redirectWithWelcomeMessage id) :=
    Within.bind (within_call _) fun _ => Within.get_bind fun _ =>
      within_flashAndRedirect _ _ _
  exact Within.rescue (Within.bind hinitialize fun _ => Within.bind (hstore _) fun _ =>
    Within.bind (hfind _) fun _ => Within.bind (hprofile _ _) fun _ =>
    Within.bind tolerates_session fun _ => hwelcome _) fun _ => Within.pure _

theorem tolerates_destroy : Within R destroy :=
  Within.bind tolerates_session fun _ => within_flashAndRedirect _ _ _

end SessionsController

/-! ### Filters and body of a route -/

/-- The filters of a route's controller, in order. -/
def Route.filters : Route → List (Action Unit)
  | .createPlaylist _ =>
      [HomeController.authenticateUser, HomeController.refreshAccessToken,
        HomeController.checkEligibility]
  | .statsIndex =>
      [StatsController.ensureLoggedIn, StatsController.accessTokenRefreshing,
        StatsController.initializeSpotifyUser]
  | .statsTops | .statsRecently =>
      [StatsController.ensureLoggedIn, StatsController.accessTokenRefreshing,
        StatsController.verifSubscription, StatsController.initializeSpotifyUser]
  | .statsTopGlobal =>
      [StatsController.ensureLoggedIn, StatsController.accessTokenRefreshing,
        StatsController.verifSubscription]
  | .usersInfo => [UsersController.ensureCurrentUserAndSubscription]
  | _ => []

/-- The body of a route's action. -/
def Route.body (prices : PaymentsController.Prices) : Route → Action Unit
  | .homeIndex | .pricingIndex => return
  | .createPlaylist _ => HomeController.createPlaylist
  | .statsIndex | .statsTops | .statsRecently | .statsTopGlobal => StatsController.page
  | .authCallback => SessionsController.create
  | .logout => SessionsController.destroy
  | .paymentsSuccess sessionId => PaymentsController.success prices sessionId
  | .paymentsCancel => PaymentsController.cancel
  | .createCheckoutSession price => PaymentsController.createCheckoutSession prices price
  | .usersInfo => UsersController.info

variable (prices) in
/-- A route's request is its body behind its filters. -/
theorem dispatch_eq (route : Route) :
    dispatch prices route = route.filters.foldr beforeAction (route.body prices) := by
  cases route <;> rfl

theorem tolerates_filters (route : Route) {filter : Action Unit} (h : filter ∈ route.filters) :
    (route.charges = true ∧ filter = HomeController.checkEligibility) ∨ Within R filter := by
  cases route with
  | createPlaylist text =>
      simp only [Route.filters, List.mem_cons, List.not_mem_nil, or_false] at h
      rcases h with rfl | rfl | rfl
      · exact .inr within_authenticateUser
      · exact .inr HomeController.tolerates_refreshAccessToken
      · exact .inl ⟨rfl, rfl⟩
  | statsIndex | statsTops | statsRecently | statsTopGlobal =>
      have hstats : filter ∈ [StatsController.ensureLoggedIn,
          StatsController.accessTokenRefreshing, StatsController.verifSubscription,
          StatsController.initializeSpotifyUser] := by
        simp only [Route.filters, List.mem_cons, List.not_mem_nil, or_false] at h ⊢
        tauto
      simp only [List.mem_cons, List.not_mem_nil, or_false] at hstats
      rcases hstats with rfl | rfl | rfl | rfl
      · exact .inr StatsController.tolerates_ensureLoggedIn
      · exact .inr StatsController.tolerates_accessTokenRefreshing
      · exact .inr StatsController.tolerates_verifSubscription
      · exact .inr StatsController.tolerates_initializeSpotifyUser
  | usersInfo =>
      cases List.mem_singleton.mp h
      exact .inr UsersController.tolerates_ensureCurrentUserAndSubscription
  | _ => exact absurd h List.not_mem_nil

theorem tolerates_body (route : Route) : Within R (route.body prices) := by
  cases route with
  | homeIndex | pricingIndex => exact Within.pure _
  | createPlaylist text => exact HomeController.tolerates_createPlaylist
  | statsIndex | statsTops | statsRecently | statsTopGlobal => exact within_call _
  | authCallback => exact SessionsController.tolerates_create
  | logout => exact SessionsController.tolerates_destroy
  | paymentsSuccess sessionId => exact PaymentsController.tolerates_success sessionId
  | paymentsCancel => exact within_redirectTo _
  | createCheckoutSession price => exact PaymentsController.tolerates_createCheckoutSession price
  | usersInfo => exact Within.bind tolerates_gateSubscription fun _ => Within.pure _

theorem tolerates_foldr {filters : List (Action Unit)} {body : Action Unit}
    (hfilters : ∀ filter ∈ filters, Within R filter) (hbody : Within R body) :
    Within R (filters.foldr beforeAction body) := by
  induction filters with
  | nil => exact hbody
  | cons filter filters ih =>
      exact within_beforeAction (hfilters filter List.mem_cons_self)
        (ih fun f hf => hfilters f (List.mem_cons_of_mem _ hf))

end Actions

end Knoiz
