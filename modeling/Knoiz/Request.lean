import Knoiz.Schema
import Knoiz.Library.ProgramLogic

/-!
# Requests: what an action reads and writes

A controller action is a program over `Ctx`: the server's state (database, the Stripe account,
the clock, the log), the browser's session, the instance variable `@current_user`, the
parameters, and the answers that everything outside the application will give.  An action may
raise; what it has written by then stays, as in the application, where no database transaction
spans two statements.

The log records, in order, what the properties of this development speak about: the runs of the
expiry check, the values of the pass that a gate read, the passes granted, the jobs enqueued, and
the calls of a method on `nil` where a user was expected.

Requests are served one at a time here, so `@current_user.subscription` and its siblings are read
from the database directly: the loaded copy and the stored row agree.  The concurrent modules
model the copies.
-/

namespace Knoiz

open RowTable

/-! ### Values from outside -/

/-- An entry of the `images` array of a Spotify user. -/
structure Image where
  url : Option String
  deriving DecidableEq, Repr

/-- An `RSpotify::User`, and also its `to_hash`: the two carry the same data. -/
structure SpotifyUser where
  id : String
  displayName : Option String
  images : Option (List Image)
  token : Option String
  deriving DecidableEq, Repr

/-- The session cookie: `session[:user_id]` and `session[:spotify_user_data]`. -/
structure Session where
  userId : Option ℕ := none
  spotifyUserData : Option SpotifyUser := none
  deriving DecidableEq, Repr

inductive PaymentStatus where
  | paid | unpaid
  deriving DecidableEq, Repr

/-- A Stripe checkout session.  `creator` and `plan` are who asked for it and under which price
parameter; Stripe stores neither, and no action reads them. -/
structure CheckoutSession where
  id : String
  creator : Option ℕ
  plan : Option String
  lineItems : List String
  customer : Option String
  paymentStatus : PaymentStatus
  deriving DecidableEq, Repr

/-- A Sidekiq job with its arguments. -/
inductive Job where
  | playlist (textSearch : String) (spotifyUserData : Option SpotifyUser) (user : ℕ)
  | stats (spotifyUserData : Option SpotifyUser) (user : ℕ)
  deriving DecidableEq, Repr

/-! ### Routes, calls that can fail, and the log -/

/-- The routes of `routes.rb` whose action exists, with the parameters the action reads. -/
inductive Route where
  | homeIndex
  | createPlaylist (textSearch : Option String)
  | pricingIndex
  | statsIndex | statsTops | statsRecently | statsTopGlobal
  | authCallback
  | logout
  | paymentsSuccess (sessionId : Option String)
  | paymentsCancel
  | createCheckoutSession (price : Option String)
  | usersInfo
  deriving DecidableEq, Repr

/-- The routes that are not a GET, for which the forgery protection runs. -/
def Route.isProtected : Route → Bool
  | .createPlaylist _ | .createCheckoutSession _ | .logout => true
  | _ => false

/-- The statements and external calls of the application that may raise, in source order. -/
inductive Call where
  | expireSubscription
  | refresherUsername | refresherProfile
  | statsPerformAsync | statsTimestamp
  | homeUsername | homeProfile
  | playlistPerformAsync | walletTimestamp | walletToken
  | stripeCreate | stripeRetrieve | stripeLineItems | saveSubscription | saveCustomer
  | toHash | selectUser | createUser (c : Creation) | saveUsername | saveProfile
  | redirectWelcome
  | statsPage
  | render
  deriving DecidableEq, Repr

inductive Err where
  | noMethodError
  | nameError
  | invalidPrice
  | raised (c : Call)
  deriving DecidableEq, Repr

/-- A pass written by `payments#success`: for whom, from which checkout session and price, when,
until when, and the row it replaced. -/
structure Grant where
  user : ℕ
  session : CheckoutSession
  price : String
  time : ℤ
  expiresAt : ℤ
  replaced : Option Subscription
  deriving DecidableEq, Repr

inductive Event where
  | checked (user : ℕ) (time : ℤ)
  | gate (user : ℕ) (active : Bool) (expiresAt : Option ℤ)
  | granted (g : Grant)
  | enqueued (job : Job) (time : ℤ)
  | nilCall
  deriving DecidableEq, Repr

/-- What everything outside the application answers during one request.  `delays` are the
advances of the clock before its successive readings, so that every non-decreasing clock is one
of these; `refusesToken` makes the non-raising `update(token: '0')` return false. -/
structure Env where
  delays : List ℕ := []
  raises : Call → Bool := fun _ => false
  refusesToken : Bool := false
  rspotifyUser : SpotifyUser → Option SpotifyUser := some
  auth : Option SpotifyUser := none
  checkoutId : String := ""
  checkoutUrl : String := ""

/-! ### State -/

/-- What outlives a request. -/
structure Server where
  db : Database
  stripe : List CheckoutSession
  clock : ℤ
  log : List Event

/-- What an action sees. -/
structure Ctx extends Server where
  session : Session
  currentUser : Option ℕ
  route : Route
  env : Env
  delays : List ℕ
  flash : List (String × String)
  location : Option String

abbrev Action := EStateM Err Ctx

/-! ### Primitives -/

/-- A reading of the clock. -/
def currentTime : Action ℤ := do
  let s ← get
  match s.delays with
  | [] => return s.clock
  | d :: ds => do
      set { s with clock := s.clock + d, delays := ds }
      return s.clock + d

/-- A statement or external call that may raise. -/
def call (c : Call) : Action Unit := do
  let s ← get
  if s.env.raises c then throw (.raised c)

def record (e : Event) : Action Unit := modify fun s => { s with log := s.log ++ [e] }

/-- A method called on `nil` where the user or one of its associations was expected. -/
def nilCall {α : Type} : Action α := do
  record .nilCall
  throw .noMethodError

def redirectTo (path : String) : Action Unit := modify fun s => { s with location := some path }

def setFlash (kind message : String) : Action Unit :=
  modify fun s => { s with flash := s.flash ++ [(kind, message)] }

def modifyDb (f : Database → Database) : Action Unit := modify fun s => { s with db := f s.db }

/-- `Job.perform_async`: the job reaches the queue at the time of the call. -/
def enqueue (job : Job) : Action Unit := do
  let now ← currentTime
  record (.enqueued job now)

/-- `RSpotify::User.new(hash)`; without a hash it raises. -/
def rspotifyUserNew (hash : Option SpotifyUser) : Action SpotifyUser := do
  let s ← get
  match hash.bind s.env.rspotifyUser with
  | some user => return user
  | none => throw .noMethodError

/-! ### `@current_user` and its associations -/

def theUser : Action ℕ := do
  let s ← get
  match s.currentUser with
  | some id => return id
  | none => nilCall

/-- A row of `@current_user` in one of the association tables. -/
def theRow {ρ : Type} (table : Database → Table ℕ ρ) : Action ρ := do
  let id ← theUser
  let s ← get
  match (table s.db).lookup id with
  | some row => return row
  | none => nilCall

def theSubscription : Action Subscription := theRow Database.subscriptions
def theProfile : Action Profile := theRow Database.profiles
def theWallet : Action Wallet := theRow Database.wallets
def theSpotifydata : Action Spotifydata := theRow Database.spotifydata

/-- A gate's reading of `@current_user.subscription.active`. -/
def gateSubscription : Action Subscription := do
  let id ← theUser
  let subscription ← theSubscription
  record (.gate id subscription.active subscription.expiresAt)
  return subscription

def Database.amendSubscription (db : Database) (id : ℕ) (f : Subscription → Subscription) :
    Database :=
  { db with subscriptions := amend id f db.subscriptions }

def Database.amendProfile (db : Database) (id : ℕ) (f : Profile → Profile) : Database :=
  { db with profiles := amend id f db.profiles }

def Database.amendWallet (db : Database) (id : ℕ) (f : Wallet → Wallet) : Database :=
  { db with wallets := amend id f db.wallets }

def Database.amendSpotifydata (db : Database) (id : ℕ) (f : Spotifydata → Spotifydata) :
    Database :=
  { db with spotifydata := amend id f db.spotifydata }

/-- `profile.update(timestamp: Time.now, image: …)` for the profile of user `id`. -/
def saveProfileOf (id : ℕ) (changes : Profile → Profile) : Action Unit := do
  let now ← currentTime
  modifyDb fun db => db.amendProfile id fun p => p.saved now (changes p)

/-- `images.first&.dig("url")`; `nil` images raise. -/
def firstImageUrl (user : SpotifyUser) : Action (Option String) :=
  match user.images with
  | some images => return images.head?.bind Image.url
  | none => throw .noMethodError

end Knoiz
