import Knoiz.ApplicationController

/-!
# `StatsController` and `UsersController`: the pages behind a login

The filters of the statistics pages are translated as they stand.  In particular
`update_user_profile` names `new_spotify_user`, a local variable of another method, so the second
half of the refresh raises.  The pages themselves only read from Spotify; all they can do to the
state is to raise.
-/

namespace Knoiz.StatsController

/-- `ensure_logged_in`. -/
def ensureLoggedIn : Action Unit := do
  let s ← get
  if s.session.userId.isNone then
    setFlash "alert" "You must be logged in !"
    redirectTo "/"

/-- `need_to_refresh_token?`. -/
def needToRefreshToken : Action Bool := do
  let s ← get
  if s.session.userId.isNone then return false else tokenNeedsRefresh

/-- `refresh_spotify_user_data`. -/
def refreshSpotifyUserData : Action Unit := do
  let s ← get
  let newSpotifyUser ← rspotifyUserNew s.session.spotifyUserData
  modify fun s => { s with session := { s.session with spotifyUserData := some newSpotifyUser } }

/-- `update_user_profile`: the clock is read, then the unknown name is looked up. -/
def updateUserProfile : Action Unit := do
  let _ ← currentTime
  throw .nameError

/-- `access_token_refreshing`. -/
def accessTokenRefreshing : Action Unit := do
  if ← needToRefreshToken then
    refreshSpotifyUserData
    updateUserProfile

/-- `verif_subscription`. -/
def verifSubscription : Action Unit := do
  let s ← get
  if s.session.userId.isSome then
    let subscription ← gateSubscription
    if !subscription.active then
      setFlash "alert" "You must subscribe !"
      redirectTo "/pricing/index"

/-- `initialize_spotify_user`; the object is read by the page only. -/
def initializeSpotifyUser : Action Unit := do
  let s ← get
  let _ ← rspotifyUserNew s.session.spotifyUserData

/-- The body of a statistics page: calls to Spotify, any of which may raise. -/
def page : Action Unit := call .statsPage

/-- `GET /stats/index`. -/
def indexRequest : Action Unit :=
  beforeAction ensureLoggedIn <| beforeAction accessTokenRefreshing <|
    beforeAction initializeSpotifyUser page

/-- `GET /stats/recently` and `GET /stats/tops`. -/
def gatedRequest : Action Unit :=
  beforeAction ensureLoggedIn <| beforeAction accessTokenRefreshing <|
    beforeAction verifSubscription <| beforeAction initializeSpotifyUser page

/-- `GET /stats/top_global`, which needs no Spotify user. -/
def topGlobalRequest : Action Unit :=
  beforeAction ensureLoggedIn <| beforeAction accessTokenRefreshing <|
    beforeAction verifSubscription page

end Knoiz.StatsController

namespace Knoiz.UsersController

/-- `ensure_current_user_and_subscription`. -/
def ensureCurrentUserAndSubscription : Action Unit := do
  let s ← get
  match s.currentUser.bind fun id => s.db.subscriptions.lookup id with
  | some _ => return
  | none => do
      setFlash "alert" "User or subscription not found."
      redirectTo "/"

/-- `info` shows `active` and `expires_at`. -/
def info : Action Unit := do
  let _ ← gateSubscription

/-- `GET /users/info`. -/
def infoRequest : Action Unit := beforeAction ensureCurrentUserAndSubscription info

end Knoiz.UsersController
