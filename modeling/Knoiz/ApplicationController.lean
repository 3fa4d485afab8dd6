import Knoiz.Request

/-!
# `ApplicationController`: the four filters of every request

The concerns run in the order in which the controller includes them: the current user, the expiry
of the pass, the refresh of the Spotify token, the collection of statistics.  Each is translated
statement by statement; the decisions that other modules also need (is a pass expired, what does
clearing it write) are functions of a row.
-/

namespace Knoiz

open Calendar

/-! ### `CurrentUserConcern` -/

/-- `set_current_user`: `User.find_by(id: session[:user_id])`. -/
def setCurrentUser : Action Unit :=
  modify fun s =>
    { s with currentUser := s.session.userId.bind fun id => (s.db.users.findById id).map User.id }

/-! ### `StripeSubscriptionConcern` -/

/-- The two conditions of `check_stripe_subscription`: active, and `expires_at` in the past. -/
def Subscription.expired (subscription : Subscription) (now : ℤ) : Bool :=
  subscription.active &&
    match subscription.expiresAt with
    | some expiresAt => decide (expiresAt < now)
    | none => false

/-- `update(active: false, expires_at: nil)`. -/
def Subscription.deactivated (subscription : Subscription) : Subscription :=
  { subscription with active := false, expiresAt := none }

/-- `check_stripe_subscription`.  The clock is read at the head, also where the row is not active
and the reading decides nothing. -/
def checkStripeSubscription : Action Unit := do
  let s ← get
  match s.currentUser with
  | none => return
  | some id =>
      match s.db.subscriptions.lookup id with
      | none => return
      | some subscription => do
          let now ← currentTime
          if subscription.expired now then
            call .expireSubscription
            modifyDb fun db => db.amendSubscription id Subscription.deactivated
          record (.checked id now)

/-! ### `SpotifyConcern` and `SpotifyTokenRefresher` -/

/-- `updated_at < 1.hour.ago`, the staleness test of all three refreshes. -/
def Profile.stale (profile : Profile) (now : ℤ) : Bool := profile.updatedAt < now - hour

/-- `needs_spotify_token_refresh?`, and the service's own `token_needs_refresh?`. -/
def tokenNeedsRefresh : Action Bool := do
  let profile ← theProfile
  let now ← currentTime
  return profile.stale now

/-- `images.any? ? images.first["url"] : nil` on the rebuilt hash. -/
def refresherImage (data : SpotifyUser) : Action (Option String) :=
  match data.images with
  | some (image :: _) => return image.url
  | some [] => return none
  | none => throw .noMethodError

/-- `SpotifyTokenRefresher#update_user_profile`. -/
def refresherUpdateUserProfile (data : SpotifyUser) : Action Unit := do
  let id ← theUser
  call .refresherUsername
  modifyDb fun db => { db with users := db.users.rename id data.displayName }
  let now ← currentTime
  let image ← refresherImage data
  call .refresherProfile
  saveProfileOf id fun p => { p with timestamp := some now, image := image }

/-- `SpotifyTokenRefresher#call`.  `update_spotify_session_data` assigns the service's own
instance variable, so the session is not written; every exception is swallowed. -/
def spotifyTokenRefresherCall : Action Unit := do
  if ← tokenNeedsRefresh then
    let s ← get
    tryCatch
      (do
        let newSpotifyUser ← rspotifyUserNew s.session.spotifyUserData
        refresherUpdateUserProfile newSpotifyUser)
      (fun _ => return)

/-- `refresh_spotify_access_token`. -/
def refreshSpotifyAccessToken : Action Unit := do
  let s ← get
  match s.currentUser with
  | none => return
  | some _ => if ← tokenNeedsRefresh then spotifyTokenRefresherCall

/-! ### `StatsConcern` and `StatsUpdater` -/

/-- `timestamp <= 24.hours.ago`, in the concern and again in the service. -/
def statsDue (timestamp now : ℤ) : Bool := timestamp ≤ now - 24 * hour

/-- `stats_collection_required?`. -/
def statsCollectionRequired : Action Bool := do
  let s ← get
  match (s.currentUser.bind fun id => s.db.spotifydata.lookup id).bind Spotifydata.timestamp with
  | none => return false
  | some timestamp => do
      let now ← currentTime
      return statsDue timestamp now

/-- `stats_needs_updating?`; comparing a `nil` timestamp raises. -/
def statsNeedsUpdating : Action Bool := do
  let spotifydata ← theSpotifydata
  let now ← currentTime
  match spotifydata.timestamp with
  | some timestamp => return statsDue timestamp now
  | none => nilCall

/-- `StatsUpdater#update_timestamp`. -/
def statsUpdateTimestamp : Action Unit := do
  let id ← theUser
  let now ← currentTime
  call .statsTimestamp
  modifyDb fun db => db.amendSpotifydata id fun row => { row with timestamp := some now }

/-- `StatsUpdater#call`. -/
def statsUpdaterCall : Action Unit := do
  if ← statsNeedsUpdating then
    let id ← theUser
    let s ← get
    tryCatch
      (do
        call .statsPerformAsync
        enqueue (.stats s.session.spotifyUserData id)
        statsUpdateTimestamp)
      (fun _ => return)

/-- `collect_stats` and `collect_stats_if_needed`. -/
def collectStats : Action Unit := do
  if ← statsCollectionRequired then statsUpdaterCall

/-! ### The chain -/

/-- The inherited `before_action`s, none of which renders or redirects. -/
def applicationFilters : Action Unit := do
  setCurrentUser
  checkStripeSubscription
  refreshSpotifyAccessToken
  collectStats

/-- A controller's own filter: what follows runs only if the filter has not redirected. -/
def beforeAction (filter rest : Action Unit) : Action Unit := do
  filter
  let s ← get
  if s.location.isNone then rest

end Knoiz
