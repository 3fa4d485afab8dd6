import Knoiz.Library.StepRun
import Knoiz.HomeController
import Knoiz.StatsController
import Knoiz.PaymentsController
import Knoiz.SessionsController
import Mathlib.Logic.Function.Basic

/-!
# The application: routes, requests and runs

`serve` is one request served to its end: the session is read from the browser's cookie, the
inherited filters run, the route's controller runs, the page renders unless the action redirected,
and the session is written back to the cookie unless an exception got out of the action.  A request
that fails the forgery protection runs on an empty session and writes no cookie.

A run interleaves whole requests of any browsers with what happens outside them: a customer pays
for a checkout session, a Stats job stores genres.
-/

namespace Knoiz

/-- The controller's filters and action for a route. -/
def dispatch (prices : PaymentsController.Prices) : Route → Action Unit
  | .homeIndex => return
  | .createPlaylist _ => HomeController.createPlaylistRequest
  | .pricingIndex => return
  | .statsIndex => StatsController.indexRequest
  | .statsTops => StatsController.gatedRequest
  | .statsRecently => StatsController.gatedRequest
  | .statsTopGlobal => StatsController.topGlobalRequest
  | .authCallback => SessionsController.create
  | .logout => SessionsController.destroy
  | .paymentsSuccess sessionId => PaymentsController.success prices sessionId
  | .paymentsCancel => PaymentsController.cancel
  | .createCheckoutSession price => PaymentsController.createCheckoutSession prices price
  | .usersInfo => UsersController.infoRequest

/-- Rendering the action's template, when the action has not redirected. -/
def renderPage : Action Unit := do
  let s ← get
  if s.location.isNone then call .render

/-- Everything that runs for one request. -/
def process (prices : PaymentsController.Prices) (route : Route) : Action Unit := do
  applicationFilters
  dispatch prices route
  renderPage

structure Request where
  browser : ℕ
  route : Route
  env : Env := {}
  forged : Bool := false

/-- `protect_from_forgery` without a strategy gives a forged request an empty session. -/
def Request.nullSession (r : Request) : Bool := r.forged && r.route.isProtected

/-- The server and the cookies that the browsers hold. -/
structure System extends Server where
  cookies : ℕ → Session

/-- The session a request is processed with. -/
def System.sessionOf (sys : System) (r : Request) : Session :=
  if r.nullSession then {} else sys.cookies r.browser

/-- The state in which the filters start. -/
def System.start (sys : System) (r : Request) : Ctx where
  db := sys.db
  stripe := sys.stripe
  clock := sys.clock
  log := sys.log
  session := sys.sessionOf r
  currentUser := none
  route := r.route
  env := r.env
  delays := r.env.delays
  flash := []
  location := none

/-- The cookies after a request that returned with the given session. -/
def System.commit (sys : System) (r : Request) (session : Session) : ℕ → Session :=
  if r.nullSession then sys.cookies else Function.update sys.cookies r.browser session

/-- One request, served to its end. -/
def serve (prices : PaymentsController.Prices) (sys : System) (r : Request) : System :=
  match (process prices r.route).run (sys.start r) with
  | .ok _ c => { toServer := c.toServer, cookies := sys.commit r c.session }
  | .error _ c => { toServer := c.toServer, cookies := sys.cookies }

/-- One step of a run. -/
inductive Step where
  | request (r : Request)
  | payment (sessionId : String) (customer : Option String)
  | statsJob (user : ℕ) (genres : List (String × ℕ))

/-- The customer pays: the session is completed and has its customer. -/
def completePayment (stripe : List CheckoutSession) (sessionId : String)
    (customer : Option String) : List CheckoutSession :=
  stripe.map fun session =>
    if session.id = sessionId then
      { session with paymentStatus := .paid, customer := customer }
    else session

/-- Every step is possible in every state. -/
def step (prices : PaymentsController.Prices) (sys : System) : Step → Option System
  | .request r => some (serve prices sys r)
  | .payment sessionId customer =>
      some { sys with stripe := completePayment sys.stripe sessionId customer }
  | .statsJob user genres =>
      some { sys with
        db := sys.db.amendSpotifydata user fun row => { row with favoriteGenre := genres } }

/-- The user as whom a request runs. -/
def System.userOf (sys : System) (r : Request) : Option ℕ :=
  (sys.sessionOf r).userId.bind fun id => (sys.db.users.findById id).map User.id

end Knoiz
