import Knoiz.ApplicationController

/-!
# `SessionsController`: login and logout

`create` is the OmniAuth callback.  It writes `session[:spotify_user_data]` first and
`session[:user_id]` last; every step in between may raise, and the action's `rescue` swallows the
exception and lets the page render.
-/

namespace Knoiz.SessionsController

/-- `initialize_spotify_user`: the user built from `request.env["omniauth.auth"]`. -/
def initializeSpotifyUser : Action SpotifyUser := do
  let s ← get
  match s.env.auth with
  | some spotifyUser => return spotifyUser
  | none => throw .noMethodError

/-- `store_spotify_data_in_session`. -/
def storeSpotifyDataInSession (spotifyUser : SpotifyUser) : Action Unit := do
  call .toHash
  modify fun s => { s with session := { s.session with spotifyUserData := some spotifyUser } }

/-- `User.find_or_create_by(spotify_id: …)`: a SELECT, then a creation when nothing was found. -/
def findOrCreateBy (spotifyId : String) : Action ℕ := do
  call .selectUser
  let s ← get
  match s.db.users.findBySpotifyId spotifyId with
  | some user => return user.id
  | none => do
      let now ← currentTime
      let s ← get
      match s.db.createUser (fun c => s.env.raises (.createUser c)) now spotifyId with
      | .ok id db => do
          modifyDb fun _ => db
          return id
      | .error c db => do
          modifyDb fun _ => db
          throw (.raised (.createUser c))

/-- `find_or_create_user`. -/
def findOrCreateUser (spotifyUser : SpotifyUser) : Action ℕ := do
  let id ← findOrCreateBy spotifyUser.id
  call .saveUsername
  modifyDb fun db => { db with users := db.users.rename id spotifyUser.displayName }
  return id

/-- `build_profile_data`, applied to the profile: a missing image is left out by `compact`. -/
def profileChanges (now : ℤ) (image : Option String) (p : Profile) : Profile :=
  { p with timestamp := some now, image := image.or p.image }

/-- `update_user_profile!`. -/
def updateUserProfile (id : ℕ) (spotifyUser : SpotifyUser) : Action Unit := do
  let s ← get
  match s.db.profiles.lookup id with
  | none => throw .noMethodError
  | some _ => do
      let now ← currentTime
      let image ← firstImageUrl spotifyUser
      call .saveProfile
      saveProfileOf id (profileChanges now image)

/-- `start_user_session`. -/
def startUserSession (id : ℕ) : Action Unit :=
  modify fun s => { s with session := { s.session with userId := some id } }

/-- `redirect_with_welcome_message`. -/
def redirectWithWelcomeMessage (id : ℕ) : Action Unit := do
  call .redirectWelcome
  let s ← get
  let username := ((s.db.users.findById id).bind User.username).getD ""
  setFlash "notice" ("Welcome, " ++ username ++ " !")
  redirectTo "/"

/-- `create`. -/
def create : Action Unit :=
  tryCatch
    (do
      let spotifyUser ← initializeSpotifyUser
      storeSpotifyDataInSession spotifyUser
      let id ← findOrCreateUser spotifyUser
      updateUserProfile id spotifyUser
      startUserSession id
      redirectWithWelcomeMessage id)
    (fun _ => return)

/-- `destroy`: `reset_session`, then the redirect. -/
def destroy : Action Unit := do
  modify fun s => { s with session := {} }
  setFlash "notice" "Logged out !"
  redirectTo "/"

end Knoiz.SessionsController
