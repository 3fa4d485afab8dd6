import Knoiz.ApplicationController
import Mathlib.Data.List.DropRight

/-!
# `HomeController`: the playlist form

`index` renders a page.  `create_playlist` runs behind three filters (login, token refresh,
eligibility), hands a job to Sidekiq, and then charges the wallet in two separate statements.
-/

namespace Knoiz.HomeController

open Calendar

/-- `authenticate_user`. -/
def authenticateUser : Action Unit := do
  let s ← get
  if s.session.userId.isNone then
    setFlash "alert" "You must be logged in to Spotify."
    redirectTo "/"

/-- `should_refresh_token?`: without a user or profile, `nil < …` raises. -/
def shouldRefreshToken : Action Bool := tokenNeedsRefresh

/-- `update_spotify_data`. -/
def updateSpotifyData (newSpotifyUser : SpotifyUser) : Action Unit := do
  modify fun s => { s with session := { s.session with spotifyUserData := some newSpotifyUser } }
  let id ← theUser
  call .homeUsername
  modifyDb fun db => { db with users := db.users.rename id newSpotifyUser.displayName }
  let now ← currentTime
  let image ← firstImageUrl newSpotifyUser
  call .homeProfile
  saveProfileOf id fun p => { p with timestamp := some now, image := image }

/-- `refresh_access_token`. -/
def refreshAccessToken : Action Unit := do
  if ← shouldRefreshToken then
    let s ← get
    let newSpotifyUser ← rspotifyUserNew s.session.spotifyUserData
    updateSpotifyData newSpotifyUser

/-- The pass or the unspent free token. -/
def entitled (subscription : Subscription) (wallet : Wallet) : Bool :=
  subscription.active || wallet.token == some "1"

/-- `eligible_for_playlist?` on the rows it reads; `none` where a `nil` timestamp raises. -/
def eligibleForPlaylist (subscription : Subscription) (wallet : Wallet) (now : ℤ) :
    Option Bool :=
  if entitled subscription wallet then
    wallet.timestamp.map fun timestamp => decide (timestamp < now - minute)
  else some false

/-- `check_eligibility`. -/
def checkEligibility : Action Unit := do
  let subscription ← gateSubscription
  let wallet ← theWallet
  let now ← currentTime
  match eligibleForPlaylist subscription wallet now with
  | none => nilCall
  | some true => return
  | some false => do
      let subscription ← gateSubscription
      let wallet ← theWallet
      if subscription.active = false ∧ wallet.token = some "0" then
        setFlash "alert" "You don't have any tokens left."
      else
        setFlash "alert" "You can't create a playlist now."
      redirectTo "/"

/-- A character of `[[:space:]]`. -/
def isSpace (c : Char) : Bool :=
  (9 ≤ c.toNat && c.toNat ≤ 13) || c.toNat == 0x20 || c.toNat == 0x85 || c.toNat == 0xA0 ||
    c.toNat == 0x1680 || (0x2000 ≤ c.toNat && c.toNat ≤ 0x200A) || c.toNat == 0x2028 ||
    c.toNat == 0x2029 || c.toNat == 0x202F || c.toNat == 0x205F || c.toNat == 0x3000

/-- `gsub(/[[:space:]]+/, " ")`: every run of white space becomes one blank. -/
def squeeze : List Char → List Char
  | [] => []
  | c :: cs =>
      if isSpace c then
        match squeeze cs with
        | ' ' :: ds => ' ' :: ds
        | ds => ' ' :: ds
      else c :: squeeze cs

/-- A character that `String#strip` takes off: white space of ASCII, or NUL. -/
def isStripped (c : Char) : Bool :=
  c.toNat == 0 || (9 ≤ c.toNat && c.toNat ≤ 13) || c.toNat == 0x20

/-- `String#strip`, at both ends. -/
def strip (cs : List Char) : List Char := (cs.dropWhile isStripped).rdropWhile isStripped

/-- `String#squish`. -/
def squish (text : String) : String := String.ofList (strip (squeeze text.toList))

example : squish " \x00 a \t\nb\x00" = "a b" := by decide

/-- `create_playlist_worker`. -/
def createPlaylistWorker : Action Unit := do
  let s ← get
  match s.route with
  | .createPlaylist (some text) => do
      let id ← theUser
      call .playlistPerformAsync
      enqueue (.playlist (squish text) s.session.spotifyUserData id)
  | _ => throw .noMethodError

/-- `update_wallet`. -/
def updateWallet : Action Unit := do
  let id ← theUser
  let now ← currentTime
  call .walletTimestamp
  modifyDb fun db => db.amendWallet id fun w => { w with timestamp := some now }

def successMessage : String :=
  "Your playlist is being created. Find it soon in your Spotify playlists."

/-- `wallet.update(token: '0')`. -/
def spendToken : Action Unit := do
  let id ← theUser
  call .walletToken
  let s ← get
  if !s.env.refusesToken then
    modifyDb fun db => db.amendWallet id fun w => { w with token := some "0" }

/-- `create_playlist`. -/
def createPlaylist : Action Unit := do
  createPlaylistWorker
  updateWallet
  setFlash "notice" successMessage
  let subscription ← gateSubscription
  if !subscription.active then
    spendToken
  redirectTo "/"

/-- `POST /create_playlist` with the controller's own filters. -/
def createPlaylistRequest : Action Unit :=
  beforeAction authenticateUser <| beforeAction refreshAccessToken <|
    beforeAction checkEligibility createPlaylist

end Knoiz.HomeController
