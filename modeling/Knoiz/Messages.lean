import Knoiz.Library.Mailbox
import Knoiz.NonInterference

/-!
# The messages on top of the pages

An action that redirects leaves a message in `flash`, which the session carries to the next request
that looks at it; the layout of every page shows what is there.  A request that looks at the
messages or leaves one takes away those that it found.

An action that renders its page leaves no message, and one that redirects leaves at most one.  It
redirects to the home page or to the prices when it does, and these two render.  So a message is
shown once, on the page to which its request redirects; it is lost when another request of the
browser leaves one before that page is opened, and only then.
-/

namespace Knoiz

open ProgramLogic Relation

/-! ### Programs that say nothing -/

/-- There is no new message, and no new redirect. -/
structure Mute (s t : Ctx) : Prop where
  flash : t.flash = s.flash
  location : t.location = s.location

instance : IsPreorder Ctx Mute where
  refl _ := ⟨rfl, rfl⟩
  trans _ _ _ h h' := ⟨h'.flash.trans h.flash, h'.location.trans h.location⟩

section Mute

variable {α : Type}

theorem mute_currentTime : Within Mute currentTime := by
  intro s _
  unfold currentTime
  simp only [EStateM.run_bind, EStateM.run_get]
  cases s.delays with
  | nil => exact ⟨refl s, trivial⟩
  | cons d ds => exact ⟨⟨rfl, rfl⟩, trivial⟩

theorem mute_call (c : Call) : Within Mute (call c) :=
  Within.get_bind fun _ => Within.ite (Within.raise _) (Within.pure _)

theorem mute_record (e : Event) : Within Mute (record e) := Within.update fun _ => ⟨rfl, rfl⟩

theorem mute_nilCall : Within Mute (nilCall : Action α) :=
  Within.bind (mute_record _) fun _ => Within.raise _

theorem mute_modifyDb (f : Database → Database) : Within Mute (modifyDb f) :=
  Within.update fun _ => ⟨rfl, rfl⟩

theorem mute_enqueue (job : Job) : Within Mute (enqueue job) :=
  Within.bind mute_currentTime fun _ => mute_record _

theorem mute_rspotifyUserNew (hash : Option SpotifyUser) : Within Mute (rspotifyUserNew hash) := by
  apply Within.get_bind
  intro s
  split
  · exact Within.pure _
  · exact Within.raise _

theorem mute_theUser : Within Mute theUser := by
  apply Within.get_bind
  intro s
  split
  · exact Within.pure _
  · exact mute_nilCall

theorem mute_theRow {ρ : Type} (table : Database → RowTable.Table ℕ ρ) :
    Within Mute (theRow table) := by
  apply Within.bind mute_theUser
  intro id
  apply Within.get_bind
  intro s
  split
  · exact Within.pure _
  · exact mute_nilCall

theorem mute_gateSubscription : Within Mute gateSubscription :=
  Within.bind mute_theUser fun _ => Within.bind (mute_theRow _) fun _ =>
    Within.bind (mute_record _) fun _ => Within.pure _

theorem mute_saveProfileOf (id : ℕ) (changes : Profile → Profile) :
    Within Mute (saveProfileOf id changes) :=
  Within.bind mute_currentTime fun _ => mute_modifyDb _

theorem mute_firstImageUrl (user : SpotifyUser) : Within Mute (firstImageUrl user) := by
  unfold firstImageUrl
  split
  · exact Within.pure _
  · exact Within.raise _

theorem mute_tokenNeedsRefresh : Within Mute tokenNeedsRefresh :=
  Within.bind (mute_theRow _) fun _ => Within.bind mute_currentTime fun _ => Within.pure _

theorem mute_renderPage : Within Mute renderPage :=
  Within.get_bind fun _ => Within.ite (mute_call _) (Within.pure _)

/-! ### The inherited filters -/

theorem mute_checkStripeSubscription : Within Mute checkStripeSubscription := by
  apply Within.get_bind
  intro s
  split
  · exact Within.pure _
  split
  · exact Within.pure _
  · exact Within.bind mute_currentTime fun _ => Within.ite
      (Within.bind (mute_call _) fun _ => Within.bind (mute_modifyDb _) fun _ => mute_record _)
      (mute_record _)

theorem mute_refreshSpotifyAccessToken : Within Mute refreshSpotifyAccessToken := by
  have himage (data : SpotifyUser) : Within Mute (refresherImage data) := by
    unfold refresherImage
    split
    · exact Within.pure _
    · exact Within.pure _
    · exact Within.raise _
  have hupdate (data : SpotifyUser) : Within Mute (refresherUpdateUserProfile data) :=
    Within.bind mute_theUser fun _ => Within.bind (mute_call _) fun _ =>
      Within.bind (mute_modifyDb _) fun _ => Within.bind mute_currentTime fun _ =>
      Within.bind (himage data) fun _ => Within.bind (mute_call _) fun _ => mute_saveProfileOf _ _
  have hservice : Within Mute spotifyTokenRefresherCall :=
    Within.bind mute_tokenNeedsRefresh fun _ => Within.ite
      (Within.get_bind fun _ => Within.rescue (Within.bind (mute_rspotifyUserNew _)
        fun _ => hupdate _) fun _ => Within.pure _) (Within.pure _)
  apply Within.get_bind
  intro s
  split
  · exact Within.pure _
  · exact Within.bind mute_tokenNeedsRefresh fun _ => Within.ite hservice (Within.pure _)

theorem mute_collectStats : Within Mute collectStats := by
  have hrequired : Within Mute statsCollectionRequired := by
    apply Within.get_bind
    intro s
    split
    · exact Within.pure _
    · exact Within.bind mute_currentTime fun _ => Within.pure _
  have hneeds : Within Mute statsNeedsUpdating := by
    apply Within.bind (mute_theRow _)
    intro row
    apply Within.bind mute_currentTime
    intro now
    split
    · exact Within.pure _
    · exact mute_nilCall
  have hstamp : Within Mute statsUpdateTimestamp :=
    Within.bind mute_theUser fun _ => Within.bind mute_currentTime fun _ =>
      Within.bind (mute_call _) fun _ => mute_modifyDb _
  have hservice : Within Mute statsUpdaterCall :=
    Within.bind hneeds fun _ => Within.ite (Within.bind mute_theUser fun _ =>
      Within.get_bind fun _ => Within.rescue (Within.bind (mute_call _) fun _ =>
        Within.bind (mute_enqueue _) fun _ => hstamp) fun _ => Within.pure _) (Within.pure _)
  exact Within.bind hrequired fun _ => Within.ite hservice (Within.pure _)

theorem mute_applicationFilters : Within Mute applicationFilters :=
  Within.bind (Within.update fun _ => ⟨rfl, rfl⟩) fun _ =>
    Within.bind mute_checkStripeSubscription fun _ =>
    Within.bind mute_refreshSpotifyAccessToken fun _ => mute_collectStats

/-! ### The parts of the actions -/

theorem HomeController.mute_refreshAccessToken : Within Mute refreshAccessToken := by
  have hupdate (new : SpotifyUser) : Within Mute (updateSpotifyData new) :=
    Within.bind (Within.update fun _ => ⟨rfl, rfl⟩) fun _ => Within.bind mute_theUser fun _ =>
      Within.bind (mute_call _) fun _ => Within.bind (mute_modifyDb _) fun _ =>
      Within.bind mute_currentTime fun _ => Within.bind (mute_firstImageUrl _) fun _ =>
      Within.bind (mute_call _) fun _ => mute_saveProfileOf _ _
  exact Within.bind mute_tokenNeedsRefresh fun _ => Within.ite (Within.get_bind fun _ =>
    Within.bind (mute_rspotifyUserNew _) fun _ => hupdate _) (Within.pure _)

theorem HomeController.mute_createPlaylistWorker : Within Mute createPlaylistWorker := by
  apply Within.get_bind
  intro s
  split
  · exact Within.bind mute_theUser fun _ => Within.bind (mute_call _) fun _ => mute_enqueue _
  · exact Within.raise _

theorem HomeController.mute_updateWallet : Within Mute updateWallet :=
  Within.bind mute_theUser fun _ => Within.bind mute_currentTime fun _ =>
    Within.bind (mute_call _) fun _ => mute_modifyDb _

theorem HomeController.mute_spendToken : Within Mute spendToken :=
  Within.bind mute_theUser fun _ => Within.bind (mute_call _) fun _ => Within.get_bind fun _ =>
    Within.ite (mute_modifyDb _) (Within.pure _)

theorem StatsController.mute_accessTokenRefreshing : Within Mute accessTokenRefreshing := by
  have hneeds : Within Mute needToRefreshToken :=
    Within.get_bind fun _ => Within.ite (Within.pure _) mute_tokenNeedsRefresh
  have hrefresh : Within Mute refreshSpotifyUserData :=
    Within.get_bind fun _ => Within.bind (mute_rspotifyUserNew _) fun _ =>
      Within.update fun _ => ⟨rfl, rfl⟩
  exact Within.bind hneeds fun _ => Within.ite (Within.bind hrefresh fun _ =>
    Within.bind mute_currentTime fun _ => Within.raise _) (Within.pure _)

theorem StatsController.mute_initializeSpotifyUser : Within Mute initializeSpotifyUser :=
  Within.get_bind fun _ => Within.bind (mute_rspotifyUserNew _) fun _ => Within.pure _

end Mute

/-! ### What an action leaves -/

/-- Nothing has been said and the action has not redirected. -/
structure Unspoken (s : Ctx) : Prop where
  flash : s.flash = []
  location : s.location = none

/-- One message is there, and the action has not redirected yet. -/
structure Saying (message : String × String) (s : Ctx) : Prop where
  flash : s.flash = [message]
  location : s.location = none

/-- The two kinds of message that are left; the layout shows both. -/
def Shown (message : String × String) : Prop := message.1 = "notice" ∨ message.1 = "alert"

/-- The pages to which a message is sent. -/
def Announced (path : String) : Prop := path = "/" ∨ path = "/pricing/index"

/-- What an action leaves when it returns: the messages and the redirect. -/
inductive Spoken (flash : List (String × String)) (location : Option String) : Prop where
  | page (silent : flash = []) (stays : location = none)
  | moved {path : String} (silent : flash = []) (moves : location = some path)
  | told {message : String × String} {path : String} (shown : Shown message)
      (announced : Announced path) (said : flash = [message]) (moves : location = some path)

/-- From a state in `P` the action ends in `Spoken`, or raises in a state in `E`. -/
def Tells (P E : Ctx → Prop) (m : Action Unit) : Prop :=
  ∀ s, P s → match m.run s with
    | .ok _ t => Spoken t.flash t.location
    | .error _ t => E t

/-- `P` lasts as long as nothing is said, and raising is allowed there. -/
class Carries (P E : Ctx → Prop) : Prop where
  mute : ∀ {s t : Ctx}, Mute s t → P s → P t
  raise : ∀ {t : Ctx}, P t → E t

theorem Unspoken.mute {s t : Ctx} (hmute : Mute s t) (h : Unspoken s) : Unspoken t :=
  ⟨hmute.flash.trans h.flash, hmute.location.trans h.location⟩

instance : Carries Unspoken Unspoken := ⟨Unspoken.mute, id⟩

instance : Carries Unspoken fun _ => True := ⟨Unspoken.mute, fun _ => trivial⟩

instance (message : String × String) : Carries (Saying message) fun _ => True where
  mute hmute h := ⟨hmute.flash.trans h.flash, hmute.location.trans h.location⟩
  raise _ := trivial

section Tells

variable {α : Type} {P E : Ctx → Prop} {m n : Action Unit} {message : String × String}

/-- What says nothing may come first. -/
theorem Tells.bind [Carries P E] {m : Action α} {f : α → Action Unit} (hm : Within Mute m)
    (hf : ∀ a, Tells P E (f a)) : Tells P E (m >>= f) := by
  intro s hs
  rw [EStateM.run_bind]
  cases hr : m.run s with
  | error e t => exact Carries.raise (Carries.mute E (Spec.of_error hm trivial hr) hs)
  | ok a t => exact hf a t (Carries.mute E (Spec.of_ok hm trivial hr).1 hs)

theorem Tells.get_bind {f : Ctx → Action Unit} (hf : ∀ s, Tells P E (f s)) :
    Tells P E (get >>= f) := fun s hs => hf s s hs

theorem Tells.raise [Carries P E] (e : Err) : Tells P E (throw e : Action Unit) :=
  fun _ hs => Carries.raise hs

theorem Tells.ite {c : Prop} [Decidable c] (hm : Tells P E m) (hn : Tells P E n) :
    Tells P E (if c then m else n) := by
  split
  · exact hm
  · exact hn

theorem Tells.of_mute [Carries Unspoken E] (h : Within Mute m) : Tells Unspoken E m := by
  intro s hs
  cases hr : m.run s with
  | error e t => exact Carries.raise (Carries.mute E (Spec.of_error h trivial hr) hs)
  | ok a t =>
      have ht := hs.mute (Spec.of_ok h trivial hr).1
      exact .page ht.flash ht.location

theorem Tells.pure : Tells Unspoken E (Pure.pure ()) := fun _ hs => .page hs.flash hs.location

theorem tells_redirectTo (path : String) : Tells Unspoken E (redirectTo path) :=
  fun _ hs => .moved hs.flash rfl

/-- With a message there, the redirect takes it to its page. -/
theorem tells_announce {path : String} (hshown : Shown message) (hpath : Announced path) :
    Tells (Saying message) E (redirectTo path) := fun _ hs => .told hshown hpath hs.flash rfl

/-- Once a message is set, what follows starts with it. -/
theorem Tells.setFlash_bind {kind text : String} {n : Action Unit}
    (hn : Tells (Saying (kind, text)) E n) :
    Tells Unspoken E (setFlash kind text >>= fun _ => n) := by
  intro s hs
  apply hn
  refine ⟨?_, hs.location⟩
  show s.flash ++ _ = _
  rw [hs.flash]
  rfl

theorem tells_flashAndRedirect {kind path : String} (hkind : kind = "notice" ∨ kind = "alert")
    (hpath : Announced path) (text : String) :
    Tells Unspoken E (do setFlash kind text; redirectTo path) :=
  Tells.setFlash_bind (tells_announce hkind hpath)

/-- An exception that is rescued leaves the page to be rendered. -/
theorem Tells.rescue (h : Tells Unspoken Unspoken m) :
    Tells Unspoken E (tryCatch m fun _ => Pure.pure ()) := by
  intro s hs
  have hm := h s hs
  rw [run_tryCatch]
  cases hr : m.run s with
  | ok a t =>
      rw [hr] at hm
      exact hm
  | error e t =>
      rw [hr] at hm
      exact .page hm.flash hm.location

/-- The action runs only if its filter has not redirected, and then the filter has said nothing. -/
theorem tells_beforeAction {filter rest : Action Unit} (hf : Tells Unspoken (fun _ => True) filter)
    (hr : Tells Unspoken (fun _ => True) rest) :
    Tells Unspoken (fun _ => True) (beforeAction filter rest) := by
  intro s hs
  have hfilter := hf s hs
  unfold beforeAction
  rw [EStateM.run_bind]
  cases hrun : filter.run s with
  | error e t => trivial
  | ok a t =>
      rw [hrun] at hfilter
      dsimp only at hfilter
      cases hlocation : t.location with
      | none =>
          simp only [EStateM.run_bind, EStateM.run_get, hlocation, Option.isNone_none, if_true]
          rw [hlocation] at hfilter
          cases hfilter with
          | page hsilent hstays => exact hr t ⟨hsilent, hlocation⟩
          | moved hsilent hmoves => cases hmoves
          | told hshown hpath hsaid hmoves => cases hmoves
      | some path =>
          simp only [EStateM.run_bind, EStateM.run_get, hlocation, Option.isNone_some,
            Bool.false_eq_true, if_false, EStateM.run_pure]
          rw [hlocation] at hfilter
          exact hfilter

end Tells

/-! ### The controllers -/

/-- An action that may raise at any point. -/
abbrev Speaks (m : Action Unit) : Prop := Tells Unspoken (fun _ => True) m

namespace HomeController

theorem speaks_authenticateUser : Speaks authenticateUser :=
  Tells.get_bind fun _ => Tells.ite (tells_flashAndRedirect (.inr rfl) (.inl rfl) _) Tells.pure

theorem speaks_checkEligibility : Speaks checkEligibility := by
  refine Tells.bind mute_gateSubscription fun subscription =>
    Tells.bind (mute_theRow _) fun wallet => Tells.bind mute_currentTime fun now => ?_
  split
  · exact Tells.of_mute mute_nilCall
  · exact Tells.pure
  · exact Tells.bind mute_gateSubscription fun _ => Tells.bind (mute_theRow _) fun _ =>
      Tells.ite (tells_flashAndRedirect (.inr rfl) (.inl rfl) _)
        (tells_flashAndRedirect (.inr rfl) (.inl rfl) _)

/-- The success message is set before the wallet is charged; a charge that raises takes it along. -/
theorem speaks_createPlaylist : Speaks createPlaylist := by
  refine Tells.bind mute_createPlaylistWorker fun _ => Tells.bind mute_updateWallet fun _ =>
    Tells.setFlash_bind ?_
  have hannounce : Tells (Saying ("notice", successMessage)) (fun _ => True) (redirectTo "/") :=
    tells_announce (.inl rfl) (.inl rfl)
  exact Tells.bind mute_gateSubscription fun subscription =>
    Tells.ite (Tells.bind mute_spendToken fun _ => hannounce) hannounce

theorem speaks_createPlaylistRequest : Speaks createPlaylistRequest :=
  tells_beforeAction speaks_authenticateUser <|
    tells_beforeAction (Tells.of_mute mute_refreshAccessToken) <|
    tells_beforeAction speaks_checkEligibility speaks_createPlaylist

end HomeController

namespace StatsController

theorem speaks_ensureLoggedIn : Speaks ensureLoggedIn :=
  Tells.get_bind fun _ => Tells.ite (tells_flashAndRedirect (.inr rfl) (.inl rfl) _) Tells.pure

theorem speaks_verifSubscription : Speaks verifSubscription := by
  refine Tells.get_bind fun _ => Tells.ite (Tells.bind mute_gateSubscription fun _ => ?_) Tells.pure
  exact Tells.ite (tells_flashAndRedirect (.inr rfl) (.inr rfl) _) Tells.pure

theorem speaks_page : Speaks page := Tells.of_mute (mute_call _)

theorem speaks_accessTokenRefreshing : Speaks accessTokenRefreshing :=
  Tells.of_mute mute_accessTokenRefreshing

theorem speaks_indexRequest : Speaks indexRequest :=
  tells_beforeAction speaks_ensureLoggedIn <| tells_beforeAction speaks_accessTokenRefreshing <|
    tells_beforeAction (Tells.of_mute mute_initializeSpotifyUser) speaks_page

theorem speaks_gatedRequest : Speaks gatedRequest :=
  tells_beforeAction speaks_ensureLoggedIn <| tells_beforeAction speaks_accessTokenRefreshing <|
    tells_beforeAction speaks_verifSubscription <|
    tells_beforeAction (Tells.of_mute mute_initializeSpotifyUser) speaks_page

theorem speaks_topGlobalRequest : Speaks topGlobalRequest :=
  tells_beforeAction speaks_ensureLoggedIn <| tells_beforeAction speaks_accessTokenRefreshing <|
    tells_beforeAction speaks_verifSubscription speaks_page

end StatsController

theorem UsersController.speaks_infoRequest : Speaks UsersController.infoRequest := by
  refine tells_beforeAction (Tells.get_bind fun s => ?_) (Tells.of_mute
    (Within.bind mute_gateSubscription fun _ => Within.pure _))
  split
  · exact Tells.pure
  · exact tells_flashAndRedirect (.inr rfl) (.inl rfl) _

namespace PaymentsController

variable {prices : Prices}

theorem speaks_createCheckoutSession (price : Option String) :
    Speaks (createCheckoutSession prices price) := by
  apply Tells.rescue
  split
  · exact Tells.raise _
  · exact Tells.bind (mute_theRow _) fun _ => Tells.bind (Within.bind (mute_call _) fun _ =>
      Within.update fun _ => ⟨rfl, rfl⟩) fun _ => Tells.get_bind fun _ => tells_redirectTo _

theorem mute_retrieve (sessionId : Option String) : Within Mute (retrieve sessionId) := by
  refine Within.bind (mute_call _) fun _ => Within.get_bind fun s => ?_
  split
  · exact Within.pure _
  · exact Within.raise _

theorem mute_firstPriceId (session : CheckoutSession) : Within Mute (firstPriceId session) := by
  apply Within.bind (mute_call _)
  intro _
  split
  · exact Within.pure _
  · exact Within.raise _

theorem mute_updateSubscription (session : CheckoutSession) (priceId : String) :
    Within Mute (updateSubscription prices session priceId) := by
  refine Within.bind mute_theUser fun _ => Within.bind (mute_theRow _) fun _ => ?_
  split
  · exact Within.raise _
  · exact Within.bind mute_currentTime fun _ => Within.bind (mute_call _) fun _ =>
      Within.update fun _ => ⟨rfl, rfl⟩

theorem mute_saveCustomer (customer : Option String) : Within Mute (saveCustomer customer) :=
  Within.bind mute_theUser fun _ => Within.bind (mute_call _) fun _ => mute_modifyDb _

theorem speaks_success (sessionId : Option String) : Speaks (success prices sessionId) := by
  apply Tells.rescue
  refine Tells.bind (mute_retrieve _) fun session => Tells.bind (mute_firstPriceId _) fun priceId =>
    Tells.bind (mute_updateSubscription _ _) fun _ => Tells.bind (mute_theRow _) fun _ => ?_
  exact Tells.ite (Tells.bind (mute_saveCustomer _) fun _ => tells_redirectTo _) (tells_redirectTo _)

end PaymentsController

namespace SessionsController

theorem mute_findOrCreateUser (spotifyUser : SpotifyUser) :
    Within Mute (findOrCreateUser spotifyUser) := by
  have hfind : Within Mute (findOrCreateBy spotifyUser.id) := by
    refine Within.bind (mute_call _) fun _ => Within.get_bind fun s => ?_
    split
    · exact Within.pure _
    · refine Within.bind mute_currentTime fun now => Within.get_bind fun s => ?_
      split
      · exact Within.bind (mute_modifyDb _) fun _ => Within.pure _
      · exact Within.bind (mute_modifyDb _) fun _ => Within.raise _
  exact Within.bind hfind fun _ => Within.bind (mute_call _) fun _ =>
    Within.bind (mute_modifyDb _) fun _ => Within.pure _

theorem mute_updateUserProfile (id : ℕ) (spotifyUser : SpotifyUser) :
    Within Mute (updateUserProfile id spotifyUser) := by
  apply Within.get_bind
  intro s
  split
  · exact Within.raise _
  · exact Within.bind mute_currentTime fun _ => Within.bind (mute_firstImageUrl _) fun _ =>
      Within.bind (mute_call _) fun _ => mute_saveProfileOf _ _

theorem mute_initializeSpotifyUser : Within Mute initializeSpotifyUser := by
  apply Within.get_bind
  intro s
  split
  · exact Within.pure _
  · exact Within.raise _

/-- Nothing can raise after the welcome is set. -/
theorem speaks_create : Speaks create := by
  apply Tells.rescue
  exact Tells.bind mute_initializeSpotifyUser fun spotifyUser => Tells.bind
    (Within.bind (mute_call _) fun _ => Within.update fun _ => ⟨rfl, rfl⟩) fun _ =>
    Tells.bind (mute_findOrCreateUser _) fun id => Tells.bind (mute_updateUserProfile _ _) fun _ =>
    Tells.bind (Within.update fun _ => ⟨rfl, rfl⟩) fun _ => Tells.bind (mute_call _) fun _ =>
    Tells.get_bind fun _ => tells_flashAndRedirect (.inl rfl) (.inl rfl) _

theorem speaks_destroy : Speaks destroy :=
  Tells.bind (Within.update fun _ => ⟨rfl, rfl⟩) fun _ =>
    tells_flashAndRedirect (.inl rfl) (.inl rfl) _

end SessionsController

/-! ### A whole request -/

variable {prices : PaymentsController.Prices}

theorem speaks_dispatch (route : Route) : Speaks (dispatch prices route) := by
  cases route with
  | homeIndex | pricingIndex => exact Tells.pure
  | createPlaylist text => exact HomeController.speaks_createPlaylistRequest
  | statsIndex => exact StatsController.speaks_indexRequest
  | statsTops | statsRecently => exact StatsController.speaks_gatedRequest
  | statsTopGlobal => exact StatsController.speaks_topGlobalRequest
  | authCallback => exact SessionsController.speaks_create
  | logout => exact SessionsController.speaks_destroy
  | paymentsSuccess sessionId => exact PaymentsController.speaks_success sessionId
  | paymentsCancel => exact tells_redirectTo _
  | createCheckoutSession price => exact PaymentsController.speaks_createCheckoutSession price
  | usersInfo => exact UsersController.speaks_infoRequest

/-- Rendering the page changes nothing. -/
theorem spoken_process {route : Route} {s t : Ctx} (hs : Unspoken s)
    (hrun : (process prices route).run s = .ok () t) : Spoken t.flash t.location := by
  unfold process at hrun
  rw [EStateM.run_bind] at hrun
  cases hfilters : applicationFilters.run s with
  | error e m =>
      rw [hfilters] at hrun
      cases hrun
  | ok a m =>
      rw [hfilters] at hrun
      have hm := hs.mute (Spec.of_ok mute_applicationFilters trivial hfilters).1
      have hspeaks := @speaks_dispatch prices route m hm
      simp only [EStateM.run_bind] at hrun
      cases haction : (dispatch prices route).run m with
      | error e n =>
          rw [haction] at hrun
          cases hrun
      | ok b n =>
          rw [haction] at hrun hspeaks
          obtain ⟨hflash, hlocation⟩ := (Spec.of_ok mute_renderPage trivial hrun).1
          rw [hflash, hlocation]
          exact hspeaks

/-! ### The messages between the requests -/

/-- The paths of `routes.rb`. -/
def Route.path : Route → String
  | .homeIndex => "/"
  | .createPlaylist _ => "/create_playlist"
  | .pricingIndex => "/pricing/index"
  | .statsIndex => "/stats/index"
  | .statsTops => "/stats/tops"
  | .statsRecently => "/stats/recently"
  | .statsTopGlobal => "/stats/top_global"
  | .authCallback => "/auth/spotify/callback"
  | .logout => "/logout"
  | .paymentsSuccess _ => "/payments/success"
  | .paymentsCancel => "/payments/cancel"
  | .createCheckoutSession _ => "/payments/create_checkout_session"
  | .usersInfo => "/users/info"

/-- The actions that have a template under `views`. -/
def Route.hasTemplate : Route → Bool
  | .createPlaylist _ | .logout | .paymentsSuccess _ | .paymentsCancel
  | .createCheckoutSession _ => false
  | _ => true

/-- The kinds of message that `shared/_content` looks for, in its order. -/
def contentKinds : List String := ["notice", "info", "alert"]

/-- The messages on top of a page. -/
def contentShows (messages : List (String × String)) : List (String × String) :=
  contentKinds.flatMap fun kind => messages.filter fun message => message.1 = kind

/-- `flash[kind] = text` over what is there: a message takes the place of one of its kind. -/
def flashOver (carried new : List (String × String)) : List (String × String) :=
  carried.filter (fun message => new.all fun other => other.1 != message.1) ++ new

/-- The request renders a page, and so looks at the messages. -/
def Response.isPage (response : Response) (r : Request) : Bool :=
  response.location.isNone && r.route.hasTemplate

/-- What the messages of a browser become with one of its requests.  A request that looks at them or
sets one leaves to the next what it has set itself; otherwise the session keeps those that it carries.
After an exception, and for the empty session of a forged request, nothing is written. -/
def boxAfter (r : Request) (response : Response) (box : Mailbox.Box (String × String)) :
    Mailbox.Box (String × String) :=
  if response.raised.isSome || r.nullSession then box
  else
    { posted := box.posted ++ response.flash
      waiting :=
        if response.isPage r || !response.flash.isEmpty then response.flash else box.waiting
      delivered :=
        if response.isPage r then
          box.delivered ++ contentShows (flashOver box.waiting response.flash)
        else box.delivered }

/-- The application with the messages that the browsers' sessions carry, and with those that were left
for them and shown to them so far. -/
structure Site extends System where
  boxes : ℕ → Mailbox.Box (String × String)

/-- A request, with its messages. -/
def visit (prices : PaymentsController.Prices) (site : Site) (r : Request) : Site where
  toSystem := serve prices site.toSystem r
  boxes := Function.update site.boxes r.browser
    (boxAfter r (respond prices site.toSystem r) (site.boxes r.browser))

/-- One step; only requests have to do with messages. -/
def siteStep (prices : PaymentsController.Prices) (site : Site) : Step → Option Site
  | .request r => some (visit prices site r)
  | a => (step prices site.toSystem a).map fun sys => { toSystem := sys, boxes := site.boxes }

/-- The request leaves a message for the next one. -/
def Leaves (prices : PaymentsController.Prices) (site : Site) (r : Request) : Prop :=
  (respond prices site.toSystem r).raised = none ∧ r.nullSession = false ∧
    (respond prices site.toSystem r).flash ≠ []

/-- The step is a request of browser `b` that leaves a message. -/
def LeavesTo (prices : PaymentsController.Prices) (b : ℕ) (site : Site) (a : Step) : Prop :=
  ∃ r, a = .request r ∧ r.browser = b ∧ Leaves prices site r

/-- No request of browser `b` leaves a message while one waits. -/
def Attentive (prices : PaymentsController.Prices) (b : ℕ) (site : Site) (a : Step) : Prop :=
  LeavesTo prices b site a → (site.boxes b).waiting = []

/-- At most one message waits, and the layout shows it. -/
def Tidy (messages : List (String × String)) : Prop :=
  messages = [] ∨ ∃ message, Shown message ∧ messages = [message]

theorem Tidy.contentShows {messages : List (String × String)} (h : Tidy messages) :
    contentShows messages = messages := by
  rcases h with rfl | ⟨⟨kind, text⟩, hkind, rfl⟩
  · rfl
  · rcases hkind with hkind | hkind <;> cases hkind <;> rfl

theorem flashOver_nil (carried : List (String × String)) : flashOver carried [] = carried := by
  simp [flashOver]

/-! ### One request -/

variable {site site' : Site} {r : Request} {b : ℕ} {box : Mailbox.Box (String × String)}

theorem respond_spoken (sys : System) (hreturn : (respond prices sys r).raised = none) :
    Spoken (respond prices sys r).flash (respond prices sys r).location := by
  have hstart : Unspoken (sys.start r) := ⟨rfl, rfl⟩
  unfold respond at hreturn ⊢
  cases hrun : (process prices r.route).run (sys.start r) with
  | error e t =>
      rw [hrun] at hreturn
      cases hreturn
  | ok a t => exact spoken_process hstart hrun

/-- **One request.**  It leaves the messages alone, shows what waits, or leaves one message. -/
theorem boxAfter_cases (htidy : Tidy box.waiting) :
    let after := boxAfter r (respond prices site.toSystem r) box
    (¬Leaves prices site r ∧ (after = box ∨ after = box.collect)) ∨
      Leaves prices site r ∧ ∃ message, Shown message ∧
        (respond prices site.toSystem r).flash = [message] ∧ after = box.post [message] := by
  intro after
  have hafter : after = boxAfter r (respond prices site.toSystem r) box := rfl
  unfold boxAfter at hafter
  by_cases hlost : ((respond prices site.toSystem r).raised.isSome || r.nullSession) = true
  · rw [if_pos hlost] at hafter
    refine .inl ⟨fun hleaves => ?_, .inl hafter⟩
    rw [hleaves.1, hleaves.2.1] at hlost
    cases hlost
  · rw [if_neg hlost] at hafter
    rw [Bool.not_eq_true, Bool.or_eq_false_iff, Option.isSome_eq_false_iff,
      Option.isNone_iff_eq_none] at hlost
    have hspoken := respond_spoken site.toSystem hlost.1
    generalize hresponse : respond prices site.toSystem r = response at *
    unfold Response.isPage at hafter
    cases hspoken with
    | page hflash hlocation =>
        refine .inl ⟨fun hleaves => hleaves.2.2 (by rw [hresponse, hflash]), ?_⟩
        rw [hflash, hlocation, flashOver_nil, htidy.contentShows] at hafter
        cases htemplate : r.route.hasTemplate with
        | true =>
            right
            simpa [htemplate, Mailbox.Box.collect] using hafter
        | false =>
            left
            simpa [htemplate] using hafter
    | moved hflash hlocation =>
        refine .inl ⟨fun hleaves => hleaves.2.2 (by rw [hresponse, hflash]), .inl ?_⟩
        rw [hflash, hlocation] at hafter
        simpa using hafter
    | @told message path hshown hpath hflash hlocation =>
        refine .inr ⟨⟨?_, hlost.2, ?_⟩, message, hshown, hflash, ?_⟩
        · rw [hresponse, hlost.1]
        · rw [hresponse, hflash]
          exact List.cons_ne_nil _ _
        · rw [hflash, hlocation] at hafter
          simpa [Mailbox.Box.post] using hafter

/-! ### Runs -/

variable {a : Step} {steps : List Step}

/-- One step, as browser `b` sees it. -/
theorem siteStep_cases (htidy : Tidy (site.boxes b).waiting)
    (hstep : siteStep prices site a = some site') :
    (¬LeavesTo prices b site a ∧
        (site'.boxes b = site.boxes b ∨ site'.boxes b = (site.boxes b).collect)) ∨
      LeavesTo prices b site a ∧ ∃ message, Shown message ∧
        site'.boxes b = (site.boxes b).post [message] := by
  have hother (hnone : ¬LeavesTo prices b site a) (hbox : site'.boxes b = site.boxes b) :
      (¬LeavesTo prices b site a ∧
        (site'.boxes b = site.boxes b ∨ site'.boxes b = (site.boxes b).collect)) ∨
      LeavesTo prices b site a ∧ ∃ message, Shown message ∧
        site'.boxes b = (site.boxes b).post [message] := .inl ⟨hnone, .inl hbox⟩
  cases a with
  | request r =>
      cases hstep
      by_cases hb : r.browser = b
      · subst hb
        have hbox : (visit prices site r).boxes r.browser =
            boxAfter r (respond prices site.toSystem r) (site.boxes r.browser) :=
          Function.update_self ..
        rw [hbox]
        rcases boxAfter_cases htidy with ⟨hnone, hafter⟩ | ⟨hleaves, message, hshown, -, hafter⟩
        · refine .inl ⟨?_, hafter⟩
          rintro ⟨r', hr', -, hleaves⟩
          cases hr'
          exact hnone hleaves
        · exact .inr ⟨⟨r, rfl, rfl, hleaves⟩, message, hshown, hafter⟩
      · apply hother
        · rintro ⟨r', hr', hb', -⟩
          cases hr'
          exact hb hb'
        · exact Function.update_of_ne (Ne.symm hb) ..
  | payment sessionId customer =>
      cases hstep
      exact hother (by rintro ⟨r', hr', -⟩; cases hr') rfl
  | statsJob user genres =>
      cases hstep
      exact hother (by rintro ⟨r', hr', -⟩; cases hr') rfl

theorem siteStep_tidy (htidy : Tidy (site.boxes b).waiting)
    (hstep : siteStep prices site a = some site') : Tidy (site'.boxes b).waiting := by
  rcases siteStep_cases htidy hstep with ⟨-, hbox | hbox⟩ | ⟨-, message, hshown, hbox⟩
  · rw [hbox]
    exact htidy
  · rw [hbox]
    exact .inl rfl
  · rw [hbox]
    exact .inr ⟨message, hshown, rfl⟩

theorem siteStep_inOrder (htidy : Tidy (site.boxes b).waiting) (h : (site.boxes b).InOrder)
    (hstep : siteStep prices site a = some site') : (site'.boxes b).InOrder := by
  rcases siteStep_cases htidy hstep with ⟨-, hbox | hbox⟩ | ⟨-, message, -, hbox⟩
  · rw [hbox]
    exact h
  · rw [hbox]
    exact h.collect
  · rw [hbox]
    exact h.post _

theorem siteStep_complete (htidy : Tidy (site.boxes b).waiting) (h : (site.boxes b).Complete)
    (hattentive : Attentive prices b site a) (hstep : siteStep prices site a = some site') :
    (site'.boxes b).Complete := by
  rcases siteStep_cases htidy hstep with ⟨-, hbox | hbox⟩ | ⟨hleaves, message, -, hbox⟩
  · rw [hbox]
    exact h
  · rw [hbox]
    exact h.collect
  · rw [hbox]
    exact h.post (hattentive hleaves) _

/-- A message that is left over another takes its place. -/
theorem siteStep_lossy (htidy : Tidy (site.boxes b).waiting) (h : (site.boxes b).Complete)
    (hhasty : ¬Attentive prices b site a) (hstep : siteStep prices site a = some site') :
    (site'.boxes b).Lossy := by
  unfold Attentive at hhasty
  rw [Classical.not_imp] at hhasty
  rcases siteStep_cases htidy hstep with ⟨hnone, -⟩ | ⟨-, message, -, hbox⟩
  · exact absurd hhasty.1 hnone
  · rw [hbox]
    exact h.inOrder.lossy_post hhasty.2 _

theorem siteStep_stays_lossy (htidy : Tidy (site.boxes b).waiting) (h : (site.boxes b).Lossy)
    (hstep : siteStep prices site a = some site') : (site'.boxes b).Lossy := by
  rcases siteStep_cases htidy hstep with ⟨-, hbox | hbox⟩ | ⟨-, message, -, hbox⟩
  · rw [hbox]
    exact h
  · rw [hbox]
    exact h.collect
  · rw [hbox]
    exact h.post _

/-- **Every message, once.**  In every run, what the pages show a browser is what was left for it,
each message at most once and in order; and none is lost exactly when no request of the browser
leaves one before the last one was seen. -/
theorem messages_delivered (hempty : site.boxes b = Mailbox.Box.empty)
    (hrun : StepRun.run (siteStep prices) site steps = some site') :
    Tidy (site'.boxes b).waiting ∧ (site'.boxes b).InOrder ∧
      ((site'.boxes b).Complete ↔
        StepRun.Along (siteStep prices) (Attentive prices b) site steps) := by
  have htidy : Tidy (site.boxes b).waiting := .inl (by rw [hempty]; rfl)
  have hcomplete : (site.boxes b).Complete := by
    rw [hempty]
    exact Mailbox.Box.complete_empty
  obtain ⟨htidy', hinOrder⟩ : Tidy (site'.boxes b).waiting ∧ (site'.boxes b).InOrder :=
    StepRun.run_invariant (I := fun site => Tidy (site.boxes b).waiting ∧ (site.boxes b).InOrder)
      (fun s a t h hstep => ⟨siteStep_tidy h.1 hstep, siteStep_inOrder h.1 h.2 hstep⟩)
      ⟨htidy, hcomplete.inOrder⟩ hrun
  refine ⟨htidy', hinOrder, fun hall => ?_, fun hattentive => ?_⟩
  · exact StepRun.along_of_unmarked (H := fun _ _ => True)
      (I := fun site => Tidy (site.boxes b).waiting ∧ (site.boxes b).Complete)
      (M := fun site => Tidy (site.boxes b).waiting ∧ (site.boxes b).Lossy)
      (fun s a t h _ hkept hstep =>
        ⟨siteStep_tidy h.1 hstep, siteStep_complete h.1 h.2 hkept hstep⟩)
      (fun s a t h _ hhasty hstep =>
        ⟨siteStep_tidy h.1 hstep, siteStep_lossy h.1 h.2 hhasty hstep⟩)
      (fun s a t h _ hstep => ⟨siteStep_tidy h.1 hstep, siteStep_stays_lossy h.1 h.2 hstep⟩)
      ⟨htidy, hcomplete⟩ (StepRun.along_of_labels fun _ _ => trivial) hrun
      fun hlossy => hlossy.2.not_complete hall
  · exact (StepRun.run_invariant_along
      (I := fun site => Tidy (site.boxes b).waiting ∧ (site.boxes b).Complete)
      (fun s a t h hkept hstep =>
        ⟨siteStep_tidy h.1 hstep, siteStep_complete h.1 h.2 hkept hstep⟩)
      ⟨htidy, hcomplete⟩ hattentive hrun).2

namespace Sample

/-- Ada logs out and opens the home page; then she asks for two playlists before she looks again. -/
def clicks : List Step :=
  [.request { browser := 0, route := .logout }, .request { browser := 0, route := .homeIndex },
    .request { browser := 0, route := .createPlaylist (some "jazz") },
    .request { browser := 0, route := .createPlaylist (some "blues") },
    .request { browser := 0, route := .homeIndex }]

def quietSite : Site := { toSystem := twoUsers, boxes := fun _ => Mailbox.Box.empty }

/-- The application after her requests. -/
def clicked : Site := (StepRun.run (siteStep priceIds) quietSite clicks).getD quietSite

/-- She has seen the logout and one of the two refusals. -/
example : (clicked.boxes 0).delivered =
    [("notice", "Logged out !"), ("alert", "You must be logged in to Spotify.")] := by decide

end Sample

theorem ada_messages :
    Tidy (Sample.clicked.boxes 0).waiting ∧ (Sample.clicked.boxes 0).InOrder ∧
      ((Sample.clicked.boxes 0).Complete ↔
        StepRun.Along (siteStep Sample.priceIds) (Attentive Sample.priceIds 0) Sample.quietSite
          Sample.clicks) :=
  messages_delivered rfl rfl

/-! ### Following the redirect -/

namespace Sample

def logout : Request := { browser := 0, route := .logout }

end Sample

end Knoiz
