import Knoiz.Application
import Mathlib.Logic.Relation

/-!
# What a request can do to the state

`Effect` lists, once, every change that a filter or an action makes to the state, each with what
was true when it was made; `LoginEffect` adds those of login and logout, and `Checked` is the one
run of the expiry check that a request begins with.  The rules of this file build, from effects,
the specification of a program; the next module applies them to every action.  An invariant of the
application is then a statement about each effect, and never about the code again.
-/

namespace Knoiz

open ProgramLogic Relation

/-! ### The effects -/

/-- Only the response, the clock and the remaining answers may differ. -/
structure Quiet (s t : Ctx) : Prop where
  db : t.db = s.db
  stripe : t.stripe = s.stripe
  log : t.log = s.log
  session : t.session = s.session
  currentUser : t.currentUser = s.currentUser
  route : t.route = s.route
  env : t.env = s.env
  clock : s.clock ≤ t.clock

/-- The route of which the action enqueues a playlist and charges the wallet. -/
def Route.charges : Route → Bool
  | .createPlaylist _ => true
  | _ => false

def Job.isPlaylist : Job → Bool
  | .playlist .. => true
  | .stats .. => false

/-- One change that a filter or an action makes, the expiry check, login and logout apart. -/
inductive Effect (prices : PaymentsController.Prices) : Ctx → Ctx → Prop
  | quiet {s t : Ctx} (h : Quiet s t) : Effect prices s t
  /-- A gate read the pass. -/
  | gate {s : Ctx} {id : ℕ} {row : Subscription} (user : s.currentUser = some id)
      (stored : s.db.subscriptions.lookup id = some row) :
      Effect prices s { s with log := s.log ++ [.gate id row.active row.expiresAt] }
  /-- `payments#success` wrote a pass. -/
  | granted {s : Ctx} {id : ℕ} {row : Subscription} {session : CheckoutSession}
      {priceId : String} {days : ℤ} {sessionId : Option String} (user : s.currentUser = some id)
      (stored : s.db.subscriptions.lookup id = some row)
      (requested : s.route = .paymentsSuccess sessionId)
      (found : PaymentsController.findSession s.stripe sessionId = some session)
      (price : session.lineItems.head? = some priceId) (known : prices.days priceId = some days) :
      Effect prices s
        { s with
          db := s.db.amendSubscription id fun row =>
            PaymentsController.withPass row (PaymentsController.passEnd s.clock days)
          log := s.log ++
            [.granted { user := id, session := session, price := priceId, time := s.clock,
                        expiresAt := PaymentsController.passEnd s.clock days,
                        replaced := s.db.subscriptions.lookup id }] }
  | customer {s : Ctx} {id : ℕ} (user : s.currentUser = some id) (customer : Option String) :
      Effect prices s
        { s with db := s.db.amendSubscription id fun row => { row with stripeUserId := customer } }
  | renamed {s : Ctx} {id : ℕ} (user : s.currentUser = some id) (name : Option String) :
      Effect prices s { s with db := { s.db with users := s.db.users.rename id name } }
  | profile {s : Ctx} {id : ℕ} (user : s.currentUser = some id) (f : Profile → Profile) :
      Effect prices s { s with db := s.db.amendProfile id f }
  | stamped {s : Ctx} {id : ℕ} (user : s.currentUser = some id)
      (requested : s.route.charges = true) :
      Effect prices s
        { s with db := s.db.amendWallet id fun w => { w with timestamp := some s.clock } }
  | spent {s : Ctx} {id : ℕ} (user : s.currentUser = some id)
      (requested : s.route.charges = true) :
      Effect prices s
        { s with db := s.db.amendWallet id fun w => { w with token := some "0" } }
  | statsStamped {s : Ctx} {id : ℕ} (user : s.currentUser = some id) :
      Effect prices s
        { s with
          db := s.db.amendSpotifydata id fun row => { row with timestamp := some s.clock } }
  | enqueued {s : Ctx} (job : Job)
      (requested : job.isPlaylist = true → s.route.charges = true) :
      Effect prices s { s with log := s.log ++ [.enqueued job s.clock] }
  | nilCall {s : Ctx} : Effect prices s { s with log := s.log ++ [.nilCall] }
  /-- A refresh wrote the rebuilt Spotify user to the session. -/
  | refreshed {s : Ctx} {old new : SpotifyUser} (held : s.session.spotifyUserData = some old)
      (rebuilt : s.env.rspotifyUser old = some new) :
      Effect prices s { s with session := { s.session with spotifyUserData := some new } }
  /-- The checkout created a session. -/
  | checkout {s : Ctx} {plan priceId : String} (customer : Option String)
      (requested : s.route = .createCheckoutSession (some plan))
      (mapped : prices.mapping plan = some priceId) :
      Effect prices s
        { s with stripe := s.stripe ++
            [{ id := s.env.checkoutId, creator := s.currentUser, plan := some plan,
               lineItems := [priceId], customer := customer, paymentStatus := .unpaid }] }

/-- One change that any action makes, login and logout included. -/
inductive LoginEffect (prices : PaymentsController.Prices) : Ctx → Ctx → Prop
  | effect {s t : Ctx} (h : Effect prices s t) : LoginEffect prices s t
  | storedData {s : Ctx} (data : SpotifyUser) :
      LoginEffect prices s { s with session := { s.session with spotifyUserData := some data } }
  | created {s : Ctx} (spotifyId : String) :
      LoginEffect prices s { s with db := s.db.withUser s.clock spotifyId }
  | burnt {s : Ctx} :
      LoginEffect prices s { s with db := { s.db with users := s.db.users.burn } }
  | renamed {s : Ctx} (id : ℕ) (name : Option String) :
      LoginEffect prices s { s with db := { s.db with users := s.db.users.rename id name } }
  | profile {s : Ctx} (id : ℕ) (f : Profile → Profile) :
      LoginEffect prices s { s with db := s.db.amendProfile id f }
  | startedSession {s : Ctx} (id : ℕ) :
      LoginEffect prices s { s with session := { s.session with userId := some id } }
  | resetSession {s : Ctx} : LoginEffect prices s { s with session := {} }

/-- A sequence of effects. -/
abbrev Effects (prices : PaymentsController.Prices) : Ctx → Ctx → Prop :=
  ReflTransGen (Effect prices)

abbrev LoginEffects (prices : PaymentsController.Prices) : Ctx → Ctx → Prop :=
  ReflTransGen (LoginEffect prices)

/-- The expiry check, run to its end. -/
inductive Checked (s : Ctx) : Ctx → Prop
  /-- Nobody is logged in, or the user has no subscription row. -/
  | skipped (h : ∀ id, s.currentUser = some id → s.db.subscriptions.lookup id = none) :
      Checked s s
  | live {m : Ctx} {id : ℕ} {row : Subscription} (h : Quiet s m) (user : m.currentUser = some id)
      (stored : m.db.subscriptions.lookup id = some row) (kept : row.expired m.clock = false) :
      Checked s { m with log := m.log ++ [.checked id m.clock] }
  | cleared {m : Ctx} {id : ℕ} {row : Subscription} (h : Quiet s m)
      (user : m.currentUser = some id) (stored : m.db.subscriptions.lookup id = some row)
      (past : row.expired m.clock = true) :
      Checked s
        { m with
          db := m.db.amendSubscription id Subscription.deactivated
          log := m.log ++ [.checked id m.clock] }

variable {prices : PaymentsController.Prices} {s t : Ctx} {u : Option ℕ} {ρ : Route}

theorem Quiet.refl (s : Ctx) : Quiet s s := ⟨rfl, rfl, rfl, rfl, rfl, rfl, rfl, le_rfl⟩

theorem Quiet.trans {m : Ctx} (h : Quiet s m) (h' : Quiet m t) : Quiet s t :=
  ⟨h'.db.trans h.db, h'.stripe.trans h.stripe, h'.log.trans h.log, h'.session.trans h.session,
    h'.currentUser.trans h.currentUser, h'.route.trans h.route, h'.env.trans h.env,
    h.clock.trans h'.clock⟩

/-- No effect changes who is logged in or what was asked for. -/
theorem Effect.frame (h : Effect prices s t) :
    t.currentUser = s.currentUser ∧ t.route = s.route ∧ t.env = s.env := by
  cases h with
  | quiet h => exact ⟨h.currentUser, h.route, h.env⟩
  | _ => exact ⟨rfl, rfl, rfl⟩

theorem LoginEffect.frame (h : LoginEffect prices s t) :
    t.currentUser = s.currentUser ∧ t.route = s.route ∧ t.env = s.env := by
  cases h with
  | effect h => exact h.frame
  | _ => exact ⟨rfl, rfl, rfl⟩

theorem Effects.login (h : Effects prices s t) : LoginEffects prices s t :=
  ReflTransGen.mono (fun _ _ => LoginEffect.effect) s t h

/-! ### Programs made of effects -/

/-- The user and the route that a program runs with. -/
def At (u : Option ℕ) (ρ : Route) (s : Ctx) : Prop := s.currentUser = u ∧ s.route = ρ

theorem At.quiet (h : Quiet s t) (hs : At u ρ s) : At u ρ t :=
  ⟨h.currentUser.trans hs.1, h.route.trans hs.2⟩

theorem At.effects (h : Effects prices s t) (hs : At u ρ s) : At u ρ t := by
  induction h with
  | refl => exact hs
  | tail _ he ih => exact ⟨he.frame.1.trans ih.1, he.frame.2.1.trans ih.2⟩

/-- Whatever raises in `m`, what it does to the state is a sequence of effects. -/
def Safe (prices : PaymentsController.Prices) (u : Option ℕ) (ρ : Route) {α : Type}
    (m : Action α) : Prop :=
  Spec (Effects prices) (At u ρ) m fun _ => At u ρ

variable {α β : Type} {P : Ctx → Prop} {Q : α → Ctx → Prop}

/-- The user and the route are carried through every specification. -/
theorem spec_frame {m : Action α} (h : Spec (Effects prices) P m Q) :
    Spec (Effects prices) (fun s => P s ∧ At u ρ s) m (fun a s => Q a s ∧ At u ρ s) :=
  h.frame (F := At u ρ) fun _ _ => At.effects

theorem Safe.of_spec {m : Action α} (h : Spec (Effects prices) (At u ρ) m Q) :
    Safe prices u ρ m :=
  (spec_frame h).consequence (fun _ hs => ⟨hs, hs⟩) fun _ _ hs => hs.2

theorem Safe.pure (a : α) : Safe prices u ρ (Pure.pure a) := Spec.pure fun _ hs => hs

theorem Safe.raise (e : Err) : Safe prices u ρ (throw e : Action α) := Spec.raise

theorem Safe.bind {m : Action α} {f : α → Action β} (hm : Safe prices u ρ m)
    (hf : ∀ a, Safe prices u ρ (f a)) : Safe prices u ρ (m >>= f) :=
  Spec.bind hm hf

/-- Sequencing where what follows needs what the first part has found out. -/
theorem Safe.bind_spec {m : Action α} {f : α → Action β}
    (hm : Spec (Effects prices) (At u ρ) m Q)
    (hf : ∀ a, Spec (Effects prices) (Q a) (f a) fun _ _ => True) : Safe prices u ρ (m >>= f) :=
  Safe.of_spec (Spec.bind hm hf)

theorem Safe.get_bind {f : Ctx → Action β}
    (hf : ∀ s, At u ρ s → Safe prices u ρ (f s)) : Safe prices u ρ (get >>= f) :=
  Spec.get_bind fun s hs => (hf s hs).consequence (fun _ ht => ht ▸ hs) fun _ _ ht => ht

theorem Safe.rescue {m : Action α} {h : Err → Action α} (hm : Safe prices u ρ m)
    (hh : ∀ e, Safe prices u ρ (h e)) : Safe prices u ρ (tryCatch m h) :=
  Spec.rescue hm fun e =>
    (hh e).consequence (fun _ ⟨_, hs, hst⟩ => hs.effects hst) fun _ _ ht => ht

theorem Safe.ite {c : Prop} [Decidable c] {m n : Action α} (hm : Safe prices u ρ m)
    (hn : Safe prices u ρ n) : Safe prices u ρ (if c then m else n) := by
  split <;> assumption

/-! ### The primitives -/

/-- A relation that allows what changes the response and the clock only. -/
class AllowsQuiet (R : Ctx → Ctx → Prop) : Prop extends IsPreorder Ctx R where
  quiet : ∀ {s t : Ctx}, Quiet s t → R s t

/-- A relation that allows what a program does that writes nothing but the log. -/
class Allows (R : Ctx → Ctx → Prop) : Prop extends IsPreorder Ctx R where
  quiet : ∀ {s t : Ctx}, Quiet s t → R s t
  nilCall : ∀ s : Ctx, R s { s with log := s.log ++ [.nilCall] }

instance : Allows (Effects prices) where
  quiet h := .single (.quiet h)
  nilCall _ := .single .nilCall

instance {R : Ctx → Ctx → Prop} [Allows R] : AllowsQuiet R where
  quiet := Allows.quiet

theorem spec_effect {f : Ctx → Ctx} {Q : PUnit → Ctx → Prop}
    (h : ∀ s, P s → Effect prices s (f s) ∧ Q ⟨⟩ (f s)) :
    Spec (Effects prices) P (modify f : Action PUnit) Q :=
  Spec.update fun s hs => ⟨.single (h s hs).1, (h s hs).2⟩

theorem currentTime_run (s : Ctx) : ∃ t, currentTime.run s = .ok t.clock t ∧ Quiet s t := by
  unfold currentTime
  simp only [EStateM.run_bind, EStateM.run_get]
  cases s.delays with
  | nil => exact ⟨s, rfl, Quiet.refl s⟩
  | cons d ds =>
      refine ⟨{ s with clock := s.clock + d, delays := ds }, rfl, ?_⟩
      refine ⟨rfl, rfl, rfl, rfl, rfl, rfl, rfl, ?_⟩
      show s.clock ≤ s.clock + d
      omega

section Quiet

variable {R : Ctx → Ctx → Prop} [AllowsQuiet R]

theorem spec_currentTime (hP : ∀ s t, Quiet s t → P s → P t) :
    Spec R P currentTime fun now s => now = s.clock ∧ P s := by
  intro s hs
  obtain ⟨t, ht, hq⟩ := currentTime_run s
  rw [ht]
  exact ⟨AllowsQuiet.quiet hq, rfl, hP s t hq hs⟩

theorem spec_call (c : Call) : Spec R P (call c) fun _ => P := by
  intro s hs
  unfold call
  simp only [EStateM.run_bind, EStateM.run_get]
  split
  · exact AllowsQuiet.quiet (Quiet.refl s)
  · exact ⟨AllowsQuiet.quiet (Quiet.refl s), hs⟩

theorem spec_rspotifyUserNew (hash : Option SpotifyUser) :
    Spec R P (rspotifyUserNew hash) fun user s =>
      (∃ old, hash = some old ∧ s.env.rspotifyUser old = some user) ∧ P s := by
  refine Spec.get_bind fun s hs => ?_
  cases hu : hash.bind s.env.rspotifyUser with
  | none => exact Spec.raise
  | some user =>
      refine Spec.pure fun t ht => ?_
      subst ht
      exact ⟨Option.bind_eq_some_iff.mp hu, hs⟩

end Quiet

variable {R : Ctx → Ctx → Prop} [Allows R]

theorem safe_currentTime : Safe prices u ρ currentTime :=
  Safe.of_spec (spec_currentTime fun _ _ => At.quiet)

theorem safe_call (c : Call) : Safe prices u ρ (call c) := spec_call c

theorem spec_nilCall : Spec R P (nilCall : Action α) Q :=
  fun s _ => Allows.nilCall s

theorem safe_redirectTo (path : String) : Safe prices u ρ (redirectTo path) :=
  spec_effect fun _ hs => ⟨.quiet ⟨rfl, rfl, rfl, rfl, rfl, rfl, rfl, le_rfl⟩, hs⟩

theorem safe_setFlash (kind message : String) : Safe prices u ρ (setFlash kind message) :=
  spec_effect fun _ hs => ⟨.quiet ⟨rfl, rfl, rfl, rfl, rfl, rfl, rfl, le_rfl⟩, hs⟩

theorem safe_enqueue (job : Job) (hρ : job.isPlaylist = true → ρ.charges = true) :
    Safe prices u ρ (enqueue job) := by
  refine Safe.bind_spec (spec_currentTime fun _ _ => At.quiet) fun now => ?_
  refine spec_effect fun s hs => ⟨?_, trivial⟩
  rw [hs.1]
  refine .enqueued job fun hjob => ?_
  rw [hs.2.2]
  exact hρ hjob

theorem spec_theUser :
    Spec R P theUser fun id s => s.currentUser = some id ∧ P s := by
  refine Spec.get_bind fun s hs => ?_
  cases hu : s.currentUser with
  | none => exact spec_nilCall
  | some id =>
      refine Spec.pure fun t ht => ?_
      subst ht
      exact ⟨hu, hs⟩

theorem theUser_run {id : ℕ} (hid : s.currentUser = some id) : theUser.run s = .ok id s := by
  unfold theUser
  simp only [EStateM.run_bind, EStateM.run_get, hid, EStateM.run_pure]

/-- The log after a call on `nil`. -/
def Ctx.nilCalled (s : Ctx) : Ctx := { s with log := s.log ++ [.nilCall] }

theorem theUser_run_none (hid : s.currentUser = none) :
    theUser.run s = .error .noMethodError s.nilCalled := by
  unfold theUser
  simp only [EStateM.run_bind, EStateM.run_get, hid]
  rfl

section Rows

variable {κ : Type} {table : Database → RowTable.Table ℕ κ} {id : ℕ} {row : κ}

theorem theRow_run (hid : s.currentUser = some id) (hrow : (table s.db).lookup id = some row) :
    (theRow table).run s = .ok row s := by
  unfold theRow
  simp only [EStateM.run_bind, theUser_run hid, EStateM.run_get, hrow, EStateM.run_pure]

theorem theRow_run_none (hid : s.currentUser = none) :
    (theRow table).run s = .error .noMethodError s.nilCalled := by
  unfold theRow
  rw [EStateM.run_bind, theUser_run_none hid]

theorem theRow_run_missing (hid : s.currentUser = some id)
    (hrow : (table s.db).lookup id = none) :
    (theRow table).run s = .error .noMethodError s.nilCalled := by
  unfold theRow
  simp only [EStateM.run_bind, theUser_run hid, EStateM.run_get, hrow]
  rfl

end Rows

/-- The log after a gate. -/
def Ctx.gated (s : Ctx) (id : ℕ) (row : Subscription) : Ctx :=
  { s with log := s.log ++ [.gate id row.active row.expiresAt] }

theorem gateSubscription_run {id : ℕ} {row : Subscription} (hid : s.currentUser = some id)
    (hrow : s.db.subscriptions.lookup id = some row) :
    gateSubscription.run s = .ok row (s.gated id row) := by
  have huser := theUser_run hid
  have hsubscription : theSubscription.run s = .ok row s := theRow_run hid hrow
  unfold gateSubscription
  simp only [EStateM.run_bind, huser, hsubscription]
  rfl

/-- A row read through `@current_user` is the one stored for the user. -/
theorem spec_theRow {ρ : Type} (table : Database → RowTable.Table ℕ ρ) :
    Spec R P (theRow table) fun row s =>
      (∃ id, s.currentUser = some id ∧ (table s.db).lookup id = some row) ∧ P s := by
  refine Spec.bind spec_theUser fun id => Spec.get_bind fun s hs => ?_
  cases hrow : (table s.db).lookup id with
  | none => exact spec_nilCall
  | some row =>
      refine Spec.pure fun t ht => ?_
      subst ht
      exact ⟨⟨id, hs.1, hrow⟩, hs.2⟩

theorem safe_theUser : Safe prices u ρ theUser := Safe.of_spec spec_theUser

theorem safe_theRow {κ : Type} (table : Database → RowTable.Table ℕ κ) :
    Safe prices u ρ (theRow table) :=
  Safe.of_spec (spec_theRow table)

theorem safe_gateSubscription : Safe prices u ρ gateSubscription := by
  refine Safe.bind_spec spec_theUser fun id => ?_
  refine Spec.bind (spec_theRow _) fun row => ?_
  refine Spec.bind (Q := fun _ _ => True) (spec_effect fun s hs => ⟨?_, trivial⟩)
    fun _ => Spec.pure fun _ _ => trivial
  obtain ⟨⟨id', hid', hrow⟩, hid, -⟩ := hs
  cases hid'.symm.trans hid
  exact .gate hid hrow

/-- An UPDATE of a row of the logged-in user is safe when its effect is listed. -/
theorem safe_modifyDb {f : Database → Database}
    (h : ∀ s, At u ρ s → Effect prices s { s with db := f s.db }) :
    Safe prices u ρ (modifyDb f) :=
  Safe.of_spec (Q := fun _ _ => True) (spec_effect fun s hs => ⟨h s hs, trivial⟩)

theorem safe_saveProfileOf {id : ℕ} (changes : Profile → Profile) :
    Safe prices (some id) ρ (saveProfileOf id changes) :=
  Safe.bind safe_currentTime fun _ => safe_modifyDb fun _ hs => .profile hs.1 _

theorem safe_firstImageUrl (user : SpotifyUser) : Safe prices u ρ (firstImageUrl user) := by
  unfold firstImageUrl
  split
  · exact Safe.pure _
  · exact Safe.raise _

end Knoiz
