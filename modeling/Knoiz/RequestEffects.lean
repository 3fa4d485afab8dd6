import Knoiz.Effects

/-!
# Every action is a sequence of effects

The filters and actions, one lemma each, and from them the specification of a whole request:
the current user is set, the expiry check runs once, and everything after it is a sequence of
effects.  Only login and logout need the effects of `LoginEffect`.
-/

namespace Knoiz

open ProgramLogic Relation

variable {prices : PaymentsController.Prices} {u : Option ℕ} {ρ : Route}

/-! ### The inherited filters -/

/-- **The expiry check.**  It runs to its end, or its UPDATE raises and nothing has changed. -/
theorem checkStripeSubscription_run (s : Ctx) :
    (∃ t, checkStripeSubscription.run s = .ok () t ∧ Checked s t) ∨
      ∃ e t, checkStripeSubscription.run s = .error e t ∧ Quiet s t := by
  unfold checkStripeSubscription
  rw [EStateM.run_bind, EStateM.run_get]
  cases hu : s.currentUser with
  | none => exact .inl ⟨s, by simp only [hu, EStateM.run_pure], .skipped (by simp [hu])⟩
  | some id =>
    cases hrow : s.db.subscriptions.lookup id with
    | none =>
        refine .inl ⟨s, by simp only [hu, hrow, EStateM.run_pure], .skipped ?_⟩
        intro id' hid'
        rw [hu] at hid'
        cases hid'
        exact hrow
    | some row =>
        obtain ⟨m, hm, hq⟩ := currentTime_run s
        have hum : m.currentUser = some id := hq.currentUser.trans hu
        have hrowm : m.db.subscriptions.lookup id = some row := by
          rw [hq.db]
          exact hrow
        simp only [hu, hrow, EStateM.run_bind, hm]
        cases hx : row.expired m.clock with
        | false => exact .inl ⟨_, rfl, .live hq hum hrowm hx⟩
        | true =>
          cases hc : m.env.raises .expireSubscription with
          | false =>
              refine .inl ⟨_, ?_, .cleared hq hum hrowm hx⟩
              simp only [if_true, call, EStateM.run_bind, EStateM.run_get, hc]
              rfl
          | true =>
              refine .inr ⟨.raised .expireSubscription, m, ?_, hq⟩
              simp only [if_true, call, EStateM.run_bind, EStateM.run_get, hc]
              rfl

theorem safe_tokenNeedsRefresh : Safe prices u ρ tokenNeedsRefresh :=
  Safe.bind (safe_theRow _) fun _ => Safe.bind safe_currentTime fun _ => Safe.pure _

theorem safe_refresherImage (data : SpotifyUser) : Safe prices u ρ (refresherImage data) := by
  unfold refresherImage
  split
  · exact Safe.pure _
  · exact Safe.pure _
  · exact Safe.raise _

/-- With the user known, the rest of a program runs for that user. -/
theorem Safe.theUser_bind {β : Type} {f : ℕ → Action β}
    (hf : ∀ id, u = some id → Safe prices u ρ (f id)) : Safe prices u ρ (theUser >>= f) := by
  refine Safe.bind_spec (Q := fun id s => s.currentUser = some id ∧ At u ρ s) spec_theUser
    fun id s hs => ?_
  have hu : u = some id := hs.2.1.symm.trans hs.1
  exact (hf id hu s hs.2).imp fun _ _ _ _ => trivial

theorem safe_refresherUpdateUserProfile (data : SpotifyUser) :
    Safe prices u ρ (refresherUpdateUserProfile data) := by
  refine Safe.theUser_bind fun id hid => ?_
  subst hid
  refine Safe.bind (safe_call _) fun _ => Safe.bind ?_ fun _ =>
    Safe.bind safe_currentTime fun _ => Safe.bind (safe_refresherImage _) fun _ =>
    Safe.bind (safe_call _) fun _ => safe_saveProfileOf _
  exact safe_modifyDb fun _ hs => .renamed hs.1 _

theorem safe_rspotifyUserNew (hash : Option SpotifyUser) :
    Safe prices u ρ (rspotifyUserNew hash) :=
  Safe.of_spec (spec_rspotifyUserNew hash)

theorem safe_spotifyTokenRefresherCall : Safe prices u ρ spotifyTokenRefresherCall := by
  refine Safe.bind safe_tokenNeedsRefresh fun stale => Safe.ite ?_ (Safe.pure _)
  refine Safe.get_bind fun s _ => Safe.rescue ?_ fun _ => Safe.pure _
  exact Safe.bind (safe_rspotifyUserNew _) fun _ => safe_refresherUpdateUserProfile _

theorem safe_refreshSpotifyAccessToken : Safe prices u ρ refreshSpotifyAccessToken := by
  refine Safe.get_bind fun s _ => ?_
  cases s.currentUser with
  | none => exact Safe.pure _
  | some id =>
      exact Safe.bind safe_tokenNeedsRefresh fun _ =>
        Safe.ite safe_spotifyTokenRefresherCall (Safe.pure _)

theorem safe_statsCollectionRequired : Safe prices u ρ statsCollectionRequired := by
  refine Safe.get_bind fun s _ => ?_
  split
  · exact Safe.pure _
  · exact Safe.bind safe_currentTime fun _ => Safe.pure _

theorem safe_statsNeedsUpdating : Safe prices u ρ statsNeedsUpdating := by
  refine Safe.bind (safe_theRow _) fun row => Safe.bind safe_currentTime fun now => ?_
  cases row.timestamp with
  | none => exact Safe.of_spec (Q := fun _ _ => True) spec_nilCall
  | some timestamp => exact Safe.pure _

/-- A stamp written by a program that reads the clock first is a stamp at the present clock. -/
theorem Safe.stamp {id : ℕ} {c : Call} {f : ℤ → Database → Database}
    (h : ∀ s, At (some id) ρ s → Effect prices s { s with db := f s.clock s.db }) :
    Safe prices (some id) ρ (do
      let now ← currentTime
      call c
      modifyDb (f now)) := by
  refine Safe.bind_spec (spec_currentTime fun _ _ => At.quiet) fun now => ?_
  refine Spec.bind (spec_call c) fun _ => spec_effect fun s hs => ⟨?_, trivial⟩
  rw [hs.1]
  exact h s hs.2

/-- Rebuilding the Spotify user and storing it in the session is one effect. -/
theorem Safe.rebuild {β : Type} {f : SpotifyUser → Action β}
    (hf : ∀ new, Safe prices u ρ (f new)) :
    Safe prices u ρ (do
      let s ← get
      let new ← rspotifyUserNew s.session.spotifyUserData
      modify fun s => { s with session := { s.session with spotifyUserData := some new } }
      f new) := by
  refine Safe.of_spec (Q := fun _ _ => True) (Spec.get_bind fun s hs => ?_)
  refine Spec.bind (spec_rspotifyUserNew _) fun new => ?_
  refine Spec.bind (Q := fun _ => At u ρ) (spec_effect ?_) fun _ => ?_
  · rintro t ⟨⟨old, hold, hnew⟩, rfl⟩
    exact ⟨.refreshed hold hnew, hs⟩
  · exact (hf new).consequence (fun _ ht => ht) fun _ _ _ => trivial

theorem safe_statsUpdateTimestamp : Safe prices u ρ statsUpdateTimestamp := by
  refine Safe.theUser_bind fun id hid => ?_
  subst hid
  exact Safe.stamp (f := fun now db => db.amendSpotifydata id fun row =>
    { row with timestamp := some now }) fun s hs => .statsStamped hs.1

theorem safe_statsUpdaterCall : Safe prices u ρ statsUpdaterCall := by
  refine Safe.bind safe_statsNeedsUpdating fun due => Safe.ite ?_ (Safe.pure _)
  refine Safe.bind safe_theUser fun id => Safe.get_bind fun s _ =>
    Safe.rescue ?_ fun _ => Safe.pure _
  have hstats : (Job.stats s.session.spotifyUserData id).isPlaylist = true → ρ.charges = true :=
    fun h => nomatch h
  exact Safe.bind (safe_call _) fun _ => Safe.bind (safe_enqueue _ hstats) fun _ =>
    safe_statsUpdateTimestamp

theorem safe_collectStats : Safe prices u ρ collectStats :=
  Safe.bind safe_statsCollectionRequired fun _ => Safe.ite safe_statsUpdaterCall (Safe.pure _)

theorem safe_beforeAction {filter rest : Action Unit} (hf : Safe prices u ρ filter)
    (hr : Safe prices u ρ rest) : Safe prices u ρ (beforeAction filter rest) :=
  Safe.bind hf fun _ => Safe.get_bind fun _ _ => Safe.ite hr (Safe.pure _)

theorem safe_flashAndRedirect (kind message path : String) :
    Safe prices u ρ (do setFlash kind message; redirectTo path) :=
  Safe.bind (safe_setFlash _ _) fun _ => safe_redirectTo _

/-! ### `HomeController` -/

namespace HomeController

theorem safe_authenticateUser : Safe prices u ρ authenticateUser :=
  Safe.get_bind fun _ _ => Safe.ite (safe_flashAndRedirect _ _ _) (Safe.pure _)

theorem safe_refreshAccessToken : Safe prices u ρ refreshAccessToken := by
  refine Safe.bind safe_tokenNeedsRefresh fun stale => Safe.ite ?_ (Safe.pure _)
  refine Safe.rebuild fun new => ?_
  refine Safe.theUser_bind fun id hid => ?_
  subst hid
  refine Safe.bind (safe_call _) fun _ => Safe.bind ?_ fun _ =>
    Safe.bind safe_currentTime fun _ => Safe.bind (safe_firstImageUrl _) fun _ =>
    Safe.bind (safe_call _) fun _ => safe_saveProfileOf _
  exact safe_modifyDb fun _ hs => .renamed hs.1 _

theorem safe_checkEligibility : Safe prices u ρ checkEligibility := by
  refine Safe.bind safe_gateSubscription fun subscription =>
    Safe.bind (safe_theRow _) fun wallet => Safe.bind safe_currentTime fun now => ?_
  split
  · exact Safe.of_spec (Q := fun _ _ => True) spec_nilCall
  · exact Safe.pure _
  · refine Safe.bind safe_gateSubscription fun _ => Safe.bind (safe_theRow _) fun _ => ?_
    exact Safe.ite (safe_flashAndRedirect _ _ _) (safe_flashAndRedirect _ _ _)

theorem safe_createPlaylistWorker (hρ : ρ.charges = true) :
    Safe prices u ρ createPlaylistWorker := by
  refine Safe.get_bind fun s _ => ?_
  split
  · exact Safe.bind safe_theUser fun _ => Safe.bind (safe_call _) fun _ =>
      safe_enqueue _ fun _ => hρ
  · exact Safe.raise _

theorem safe_updateWallet (hρ : ρ.charges = true) : Safe prices u ρ updateWallet := by
  refine Safe.theUser_bind fun id hid => ?_
  subst hid
  exact Safe.stamp (f := fun now db => db.amendWallet id fun w => { w with timestamp := some now })
    fun s hs => .stamped hs.1 (by rw [hs.2]; exact hρ)

theorem safe_spendToken (hρ : ρ.charges = true) : Safe prices u ρ spendToken := by
  refine Safe.theUser_bind fun id hid => ?_
  subst hid
  refine Safe.bind (safe_call _) fun _ => Safe.get_bind fun s _ => Safe.ite ?_ (Safe.pure _)
  exact safe_modifyDb fun _ hs => .spent hs.1 (by rw [hs.2]; exact hρ)

theorem safe_createPlaylist (hρ : ρ.charges = true) : Safe prices u ρ createPlaylist := by
  refine Safe.bind (safe_createPlaylistWorker hρ) fun _ => Safe.bind (safe_updateWallet hρ) fun _ =>
    Safe.bind (safe_setFlash _ _) fun _ => Safe.bind safe_gateSubscription fun subscription => ?_
  exact Safe.ite (Safe.bind (safe_spendToken hρ) fun _ => safe_redirectTo _) (safe_redirectTo _)

theorem safe_createPlaylistRequest (hρ : ρ.charges = true) :
    Safe prices u ρ createPlaylistRequest :=
  safe_beforeAction safe_authenticateUser <| safe_beforeAction safe_refreshAccessToken <|
    safe_beforeAction safe_checkEligibility (safe_createPlaylist hρ)

end HomeController

/-! ### `StatsController` and `UsersController` -/

namespace StatsController

theorem safe_ensureLoggedIn : Safe prices u ρ ensureLoggedIn :=
  Safe.get_bind fun _ _ => Safe.ite (safe_flashAndRedirect _ _ _) (Safe.pure _)

theorem safe_accessTokenRefreshing : Safe prices u ρ accessTokenRefreshing := by
  refine Safe.bind ?_ fun stale => Safe.ite ?_ (Safe.pure _)
  · exact Safe.get_bind fun _ _ => Safe.ite (Safe.pure _) safe_tokenNeedsRefresh
  · refine Safe.bind ?_ fun _ => Safe.bind safe_currentTime fun _ => Safe.raise _
    exact Safe.rebuild (f := fun _ => pure ()) fun _ => Safe.pure _

theorem safe_verifSubscription : Safe prices u ρ verifSubscription := by
  refine Safe.get_bind fun _ _ => Safe.ite ?_ (Safe.pure _)
  exact Safe.bind safe_gateSubscription fun _ =>
    Safe.ite (safe_flashAndRedirect _ _ _) (Safe.pure _)

theorem safe_initializeSpotifyUser : Safe prices u ρ initializeSpotifyUser :=
  Safe.get_bind fun _ _ => Safe.bind (safe_rspotifyUserNew _) fun _ => Safe.pure _

theorem safe_indexRequest : Safe prices u ρ indexRequest :=
  safe_beforeAction safe_ensureLoggedIn <| safe_beforeAction safe_accessTokenRefreshing <|
    safe_beforeAction safe_initializeSpotifyUser (safe_call _)

theorem safe_gatedRequest : Safe prices u ρ gatedRequest :=
  safe_beforeAction safe_ensureLoggedIn <| safe_beforeAction safe_accessTokenRefreshing <|
    safe_beforeAction safe_verifSubscription <|
    safe_beforeAction safe_initializeSpotifyUser (safe_call _)

theorem safe_topGlobalRequest : Safe prices u ρ topGlobalRequest :=
  safe_beforeAction safe_ensureLoggedIn <| safe_beforeAction safe_accessTokenRefreshing <|
    safe_beforeAction safe_verifSubscription (safe_call _)

end StatsController

namespace UsersController

theorem safe_infoRequest : Safe prices u ρ infoRequest := by
  refine safe_beforeAction (Safe.get_bind fun s _ => ?_) ?_
  · split
    · exact Safe.pure _
    · exact safe_flashAndRedirect _ _ _
  · exact Safe.bind safe_gateSubscription fun _ => Safe.pure _

end UsersController

/-! ### `PaymentsController` -/

namespace PaymentsController

variable (prices) in
/-- What `payments#success` knows between retrieving the session and writing the pass. -/
def Retrieved (sessionId : Option String) (session : CheckoutSession) (s : Ctx) : Prop :=
  s.route = .paymentsSuccess sessionId ∧ findSession s.stripe sessionId = some session

theorem Retrieved.quiet {sessionId : Option String} {session : CheckoutSession} {s t : Ctx}
    (h : Quiet s t) (hs : Retrieved sessionId session s) : Retrieved sessionId session t := by
  refine ⟨h.route.trans hs.1, ?_⟩
  rw [h.stripe]
  exact hs.2

theorem spec_retrieve (sessionId : Option String) :
    Spec (Effects prices) (At u (.paymentsSuccess sessionId)) (retrieve sessionId)
      fun session s => Retrieved sessionId session s := by
  refine Spec.bind (spec_call _) fun _ => Spec.get_bind fun s hs => ?_
  cases hf : findSession s.stripe sessionId with
  | none => exact Spec.raise
  | some session =>
      refine Spec.pure fun t ht => ?_
      subst ht
      exact ⟨hs.2, hf⟩

theorem spec_firstPriceId {P : Ctx → Prop} (session : CheckoutSession) :
    Spec (Effects prices) P (firstPriceId session) fun priceId s =>
      session.lineItems.head? = some priceId ∧ P s := by
  refine Spec.bind (spec_call _) fun _ => ?_
  cases session.lineItems.head? with
  | none => exact Spec.raise
  | some priceId => exact Spec.pure fun _ hs => ⟨rfl, hs⟩

/-- The pass is written from the retrieved session, at the clock read just before. -/
theorem spec_updateSubscription {sessionId : Option String} {session : CheckoutSession}
    {priceId : String} (hprice : session.lineItems.head? = some priceId) :
    Spec (Effects prices) (Retrieved sessionId session)
      (updateSubscription prices session priceId) fun _ _ => True := by
  refine Spec.bind spec_theUser fun id => Spec.bind (spec_theRow _) fun row => ?_
  cases hdays : prices.days priceId with
  | none => exact Spec.raise
  | some days =>
      have htime : Spec (Effects prices) _ currentTime _ := spec_currentTime (P := fun s =>
        (∃ id, s.currentUser = some id ∧ s.db.subscriptions.lookup id = some row) ∧
          s.currentUser = some id ∧ Retrieved sessionId session s) (by
        rintro s t hq ⟨⟨id', hid', hrow⟩, hid, hret⟩
        refine ⟨⟨id', hq.currentUser.trans hid', ?_⟩, hq.currentUser.trans hid, hret.quiet hq⟩
        rw [hq.db]
        exact hrow)
      refine Spec.bind htime fun now => Spec.bind (spec_call _) fun _ =>
        spec_effect fun s hs => ⟨?_, trivial⟩
      obtain ⟨rfl, ⟨id', hid', hrow⟩, hid, hroute, hfound⟩ := hs
      cases hid'.symm.trans hid
      exact .granted hid hrow hroute hfound hprice hdays

theorem safe_saveCustomer (customer : Option String) :
    Safe prices u ρ (saveCustomer customer) := by
  refine Safe.theUser_bind fun id hid => ?_
  subst hid
  exact Safe.bind (safe_call _) fun _ => safe_modifyDb fun _ hs => .customer hs.1 _

theorem safe_success (sessionId : Option String) :
    Safe prices u (.paymentsSuccess sessionId) (success prices sessionId) := by
  refine Safe.rescue ?_ fun _ => Safe.pure _
  have hretrieve : Spec (Effects prices) (At u (.paymentsSuccess sessionId)) _ _ :=
    (spec_frame (spec_retrieve sessionId)).consequence (fun _ hs => ⟨hs, hs⟩) fun _ _ hs => hs
  refine Safe.bind_spec hretrieve fun session => ?_
  refine Spec.bind (spec_firstPriceId session) fun priceId => ?_
  refine Spec.bind (Q := fun _ => At u (.paymentsSuccess sessionId)) ?_ fun _ => ?_
  · intro s hs
    exact (spec_frame (spec_updateSubscription hs.1) s hs.2).imp fun _ _ _ ht => ht.2
  · refine (Safe.bind (safe_theRow _) fun subscription => ?_ :
      Safe prices u _ _).consequence (fun _ ht => ht) fun _ _ _ => trivial
    exact Safe.ite (Safe.bind (safe_saveCustomer _) fun _ => safe_redirectTo _)
      (safe_redirectTo _)

theorem safe_stripeSessionCreate {plan priceId : String} (customer : Option String)
    (hroute : ρ = .createCheckoutSession (some plan)) (hmap : prices.mapping plan = some priceId) :
    Safe prices u ρ (stripeSessionCreate plan priceId customer) := by
  refine Safe.bind (safe_call _) fun _ => ?_
  refine Safe.of_spec (Q := fun _ _ => True) (spec_effect fun s hs => ⟨?_, trivial⟩)
  exact .checkout customer (hs.2.trans hroute) hmap

theorem safe_createCheckoutSession (price : Option String) :
    Safe prices u (.createCheckoutSession price) (createCheckoutSession prices price) := by
  refine Safe.rescue ?_ fun _ => Safe.pure _
  cases price with
  | none => exact Safe.raise _
  | some plan =>
    cases hmap : prices.mapping plan with
    | none =>
        simp only [Option.bind_some, hmap, Option.map_none]
        exact Safe.raise _
    | some priceId =>
        simp only [Option.bind_some, hmap, Option.map_some]
        exact Safe.bind (safe_theRow _) fun _ =>
          Safe.bind (safe_stripeSessionCreate _ rfl hmap) fun _ =>
          Safe.get_bind fun _ _ => safe_redirectTo _

end PaymentsController

/-! ### `SessionsController` -/

/-- Whatever raises in `m`, what it does to the state is a sequence of login effects. -/
def LoginSafe (prices : PaymentsController.Prices) {α : Type} (m : Action α) : Prop :=
  Spec (LoginEffects prices) (fun _ => True) m fun _ _ => True

theorem LoginSafe.of_spec {α : Type} {Q : α → Ctx → Prop} {m : Action α}
    (h : Spec (Effects prices) (fun _ => True) m Q) : LoginSafe prices m :=
  (h.weaken fun _ _ => Effects.login).consequence (fun _ hs => hs) fun _ _ _ => trivial

theorem LoginSafe.bind {α β : Type} {m : Action α} {f : α → Action β} (hm : LoginSafe prices m)
    (hf : ∀ a, LoginSafe prices (f a)) : LoginSafe prices (m >>= f) :=
  Spec.bind hm hf

theorem LoginSafe.update {f : Ctx → Ctx} (h : ∀ s, LoginEffect prices s (f s)) :
    LoginSafe prices (modify f) :=
  Spec.update fun s _ => ⟨.single (h s), trivial⟩

/-- The state after `store_spotify_data_in_session`. -/
def Ctx.storedData (s : Ctx) (spotifyUser : SpotifyUser) : Ctx :=
  { s with session := { s.session with spotifyUserData := some spotifyUser } }

namespace SessionsController

theorem loginSafe_call (c : Call) : LoginSafe prices (call c) := LoginSafe.of_spec (spec_call c)

/-- `find_or_create_by` has found a row, or has created one. -/
inductive FoundOrCreated (spotifyId : String) (s : Ctx) : ℕ → Ctx → Prop
  | found {user : User} (h : s.db.users.findBySpotifyId spotifyId = some user)
      (select : s.env.raises .selectUser = false) : FoundOrCreated spotifyId s user.id s
  | created {m : Ctx} (quiet : Quiet s m) (h : s.db.users.findBySpotifyId spotifyId = none)
      (select : s.env.raises .selectUser = false)
      (clean : ∀ c, s.env.raises (.createUser c) = false) :
      FoundOrCreated spotifyId s m.db.users.seq
        { m with db := m.db.withUser m.clock spotifyId }

/-- `find_or_create_by` has raised, in its SELECT or in the transaction of the creation. -/
inductive NotCreated (spotifyId : String) (s : Ctx) : Ctx → Prop
  | select (h : s.env.raises .selectUser = true) : NotCreated spotifyId s s
  | create {m : Ctx} {c : Creation} (quiet : Quiet s m)
      (h : s.db.users.findBySpotifyId spotifyId = none)
      (raised : s.env.raises (.createUser c) = true)
      (select : s.env.raises .selectUser = false) :
      NotCreated spotifyId s { m with db := { m.db with users := m.db.users.burn } }

theorem findOrCreateBy_run (spotifyId : String) (s : Ctx) :
    (∃ id t, (findOrCreateBy spotifyId).run s = .ok id t ∧ FoundOrCreated spotifyId s id t) ∨
      ∃ e t, (findOrCreateBy spotifyId).run s = .error e t ∧ NotCreated spotifyId s t := by
  unfold findOrCreateBy call
  simp only [EStateM.run_bind, EStateM.run_get]
  cases hsel : s.env.raises .selectUser with
  | true => exact .inr ⟨_, s, rfl, .select hsel⟩
  | false =>
    cases hf : s.db.users.findBySpotifyId spotifyId with
    | some user =>
        refine .inl ⟨user.id, s, ?_, .found hf hsel⟩
        simp only [Bool.false_eq_true, if_false, EStateM.run_pure, hf]
    | none =>
        obtain ⟨m, hm, hq⟩ := currentTime_run s
        have henv := hq.env
        simp only [Bool.false_eq_true, if_false, EStateM.run_pure, hf, EStateM.run_bind, hm,
          EStateM.run_get]
        rcases createUser_cases (fun c => m.env.raises (.createUser c)) m.clock m.db spotifyId with
          ⟨hclean, hok⟩ | ⟨c, hc, herr⟩
        · rw [hok]
          rw [henv] at hclean
          exact .inl ⟨_, _, rfl, .created hq hf hsel hclean⟩
        · rw [herr]
          rw [henv] at hc
          exact .inr ⟨_, _, rfl, .create hq hf hc hsel⟩

/-- The creation of a user is one effect, also when one of its INSERTs raises. -/
theorem loginSafe_findOrCreateBy (spotifyId : String) :
    LoginSafe prices (findOrCreateBy spotifyId) := by
  intro s _
  rcases findOrCreateBy_run spotifyId s with ⟨id, t, hrun, hfound⟩ | ⟨e, t, hrun, hnot⟩
  · rw [hrun]
    refine ⟨?_, trivial⟩
    cases hfound with
    | found => exact .refl
    | created hq => exact .tail (.single (.effect (.quiet hq))) (.created spotifyId)
  · rw [hrun]
    cases hnot with
    | select => exact .refl
    | create hq => exact .tail (.single (.effect (.quiet hq))) .burnt

theorem loginSafe_findOrCreateUser (spotifyUser : SpotifyUser) :
    LoginSafe prices (findOrCreateUser spotifyUser) := by
  refine LoginSafe.bind (loginSafe_findOrCreateBy _) fun id =>
    LoginSafe.bind (loginSafe_call _) fun _ => LoginSafe.bind ?_ fun _ =>
    Spec.pure fun _ _ => trivial
  exact LoginSafe.update fun _ => .renamed id _

/-- What `update_user_profile!` has written, after its two readings of the clock. -/
inductive ProfileUpdated (id : ℕ) (spotifyUser : SpotifyUser) (s : Ctx) :
    Ctx → (Profile → Profile) → Prop
  | intro {m t : Ctx} {images : List Image} (row : (s.db.profiles.lookup id).isSome = true)
      (himages : spotifyUser.images = some images) (save : s.env.raises .saveProfile = false)
      (built : Quiet s m) (saved : Quiet m t) :
      ProfileUpdated id spotifyUser s t fun p =>
        p.saved t.clock (profileChanges m.clock (images.head?.bind Image.url) p)

theorem ProfileUpdated.quiet {id : ℕ} {spotifyUser : SpotifyUser} {s t : Ctx}
    {f : Profile → Profile} (h : ProfileUpdated id spotifyUser s t f) : Quiet s t := by
  cases h with
  | intro _ _ _ built saved => exact built.trans saved

/-- `update_user_profile!` writes the profile, or raises and has written nothing. -/
theorem updateUserProfile_run (id : ℕ) (spotifyUser : SpotifyUser) (s : Ctx) :
    (∃ m f, (updateUserProfile id spotifyUser).run s =
        .ok () { m with db := m.db.amendProfile id f } ∧ ProfileUpdated id spotifyUser s m f) ∨
      ∃ e m, (updateUserProfile id spotifyUser).run s = .error e m ∧ Quiet s m ∧
        ((s.db.profiles.lookup id).isSome = false ∨ spotifyUser.images = none ∨
          s.env.raises .saveProfile = true) := by
  unfold updateUserProfile saveProfileOf modifyDb call
  simp only [EStateM.run_bind, EStateM.run_get]
  cases hrow : s.db.profiles.lookup id with
  | none => exact .inr ⟨_, s, rfl, Quiet.refl s, .inl rfl⟩
  | some row =>
      obtain ⟨m, hm, hq⟩ := currentTime_run s
      obtain ⟨m', hm', hq'⟩ := currentTime_run m
      simp only [EStateM.run_bind, hm]
      cases himages : spotifyUser.images with
      | none =>
          refine .inr ⟨.noMethodError, m, ?_, hq, .inr (.inl rfl)⟩
          unfold firstImageUrl
          rw [himages]
          rfl
      | some images =>
          have himage : (firstImageUrl spotifyUser).run m =
              .ok (images.head?.bind Image.url) m := by
            unfold firstImageUrl
            rw [himages]
            rfl
          simp only [himage, EStateM.run_get]
          cases hsave : m.env.raises .saveProfile with
          | true =>
              refine .inr ⟨.raised .saveProfile, m, rfl, hq, .inr (.inr ?_)⟩
              rw [← hq.env]
              exact hsave
          | false =>
              simp only [Bool.false_eq_true, if_false, EStateM.run_pure, hm']
              refine .inl ⟨m', _, rfl, .intro ?_ himages ?_ hq hq'⟩
              · rw [hrow]
                rfl
              · rw [← hq.env]
                exact hsave

theorem loginSafe_updateUserProfile (id : ℕ) (spotifyUser : SpotifyUser) :
    LoginSafe prices (updateUserProfile id spotifyUser) := by
  intro s _
  rcases updateUserProfile_run id spotifyUser s with ⟨m, f, hrun, hupdated⟩ | ⟨e, m, hrun, hq, -⟩
  · rw [hrun]
    exact ⟨.tail (.single (.effect (.quiet hupdated.quiet))) (.profile id f), trivial⟩
  · rw [hrun]
    exact .single (.effect (.quiet hq))

theorem loginSafe_response {α : Type} {m : Action α} (h : ∀ u ρ, Safe prices u ρ m) :
    LoginSafe prices m := by
  intro s _
  exact ((h s.currentUser s.route).weaken (fun _ _ => Effects.login) s ⟨rfl, rfl⟩).imp
    fun _ _ _ _ => trivial

theorem loginSafe_redirectWithWelcomeMessage (id : ℕ) :
    LoginSafe prices (redirectWithWelcomeMessage id) :=
  loginSafe_response fun _ _ => Safe.bind (safe_call _) fun _ => Safe.get_bind fun _ _ =>
    safe_flashAndRedirect _ _ _

theorem loginSafe_create : LoginSafe prices create := by
  refine Spec.rescue ?_ fun _ => Spec.pure fun _ _ => trivial
  refine LoginSafe.bind (Spec.get_bind fun s _ => ?_) fun spotifyUser =>
    LoginSafe.bind (LoginSafe.bind (loginSafe_call _) fun _ => LoginSafe.update fun _ =>
      .storedData _) fun _ =>
    LoginSafe.bind (loginSafe_findOrCreateUser _) fun id =>
    LoginSafe.bind (loginSafe_updateUserProfile _ _) fun _ =>
    LoginSafe.bind (LoginSafe.update fun _ => .startedSession id) fun _ =>
    loginSafe_redirectWithWelcomeMessage id
  cases s.env.auth with
  | none => exact Spec.raise
  | some spotifyUser => exact Spec.pure fun _ _ => trivial

theorem quiet_redirectWithWelcomeMessage (id : ℕ) (s : Ctx) :
    Quiet s (final (redirectWithWelcomeMessage id) s) := by
  unfold final redirectWithWelcomeMessage call setFlash redirectTo
  simp only [EStateM.run_bind, EStateM.run_get]
  cases s.env.raises .redirectWelcome with
  | true => exact Quiet.refl s
  | false => exact ⟨rfl, rfl, rfl, rfl, rfl, rfl, rfl, le_rfl⟩

/-- The four ways in which `create` ends: before it has stored anything, in `find_or_create_user`, in
`update_user_profile!`, or with the session started. -/
inductive CreateEnds (s : Ctx) : Ctx → Prop
  | rejected (h : s.env.auth = none ∨ s.env.raises .toHash = true) : CreateEnds s s
  | unidentified {spotifyUser : SpotifyUser} {e : Err} {t : Ctx}
      (auth : s.env.auth = some spotifyUser) (hash : s.env.raises .toHash = false)
      (find : (findOrCreateUser spotifyUser).run (s.storedData spotifyUser) = .error e t) :
      CreateEnds s t
  | unprofiled {spotifyUser : SpotifyUser} {id : ℕ} {m : Ctx} {e : Err} {t : Ctx}
      (auth : s.env.auth = some spotifyUser) (hash : s.env.raises .toHash = false)
      (find : (findOrCreateUser spotifyUser).run (s.storedData spotifyUser) = .ok id m)
      (profile : (updateUserProfile id spotifyUser).run m = .error e t) : CreateEnds s t
  | loggedIn {spotifyUser : SpotifyUser} {id : ℕ} {m m' t : Ctx}
      (auth : s.env.auth = some spotifyUser) (hash : s.env.raises .toHash = false)
      (find : (findOrCreateUser spotifyUser).run (s.storedData spotifyUser) = .ok id m)
      (profile : (updateUserProfile id spotifyUser).run m = .ok () m')
      (welcome : Quiet { m' with session := { m'.session with userId := some id } } t) :
      CreateEnds s t

/-- `create` returns, however it ends. -/
theorem create_run (s : Ctx) : ∃ t, create.run s = .ok () t ∧ CreateEnds s t := by
  unfold create
  rw [run_rescue_return]
  refine ⟨_, rfl, ?_⟩
  cases hauth : s.env.auth with
  | none =>
      have hinit : initializeSpotifyUser.run s = .error .noMethodError s := by
        simp only [initializeSpotifyUser, EStateM.run_bind, EStateM.run_get, hauth]
        rfl
      rw [final_bind_error hinit]
      exact .rejected (.inl hauth)
  | some spotifyUser =>
    have hinit : initializeSpotifyUser.run s = .ok spotifyUser s := by
      simp only [initializeSpotifyUser, EStateM.run_bind, EStateM.run_get, hauth]
      rfl
    rw [final_bind_ok hinit]
    cases hhash : s.env.raises .toHash with
    | true =>
        have hstore : (storeSpotifyDataInSession spotifyUser).run s =
            .error (.raised .toHash) s := by
          simp only [storeSpotifyDataInSession, call, EStateM.run_bind, EStateM.run_get, hhash]
          rfl
        rw [final_bind_error hstore]
        exact .rejected (.inr hhash)
    | false =>
      have hstore : (storeSpotifyDataInSession spotifyUser).run s =
          .ok () (s.storedData spotifyUser) := by
        simp only [storeSpotifyDataInSession, call, EStateM.run_bind, EStateM.run_get, hhash]
        rfl
      rw [final_bind_ok hstore]
      cases hfind : (findOrCreateUser spotifyUser).run (s.storedData spotifyUser) with
      | error e m =>
          rw [final_bind_error hfind]
          exact .unidentified hauth hhash hfind
      | ok id m =>
          rw [final_bind_ok hfind]
          cases hprofile : (updateUserProfile id spotifyUser).run m with
          | error e m' =>
              rw [final_bind_error hprofile]
              exact .unprofiled hauth hhash hfind hprofile
          | ok _ m' =>
              have hstart : (startUserSession id).run m' =
                  .ok () { m' with session := { m'.session with userId := some id } } := rfl
              rw [final_bind_ok hprofile, final_bind_ok hstart]
              exact .loggedIn hauth hhash hfind hprofile (quiet_redirectWithWelcomeMessage id _)

theorem loginSafe_destroy : LoginSafe prices destroy :=
  LoginSafe.bind (LoginSafe.update fun _ => .resetSession) fun _ =>
    loginSafe_response fun _ _ => safe_flashAndRedirect _ _ _

end SessionsController

/-! ### A whole request -/

/-- The two routes that log a browser in or out. -/
def Route.isLogin : Route → Bool
  | .authCallback | .logout => true
  | _ => false

theorem safe_dispatch (hρ : ρ.isLogin = false) : Safe prices u ρ (dispatch prices ρ) := by
  cases ρ with
  | authCallback | logout => cases hρ
  | homeIndex | pricingIndex => exact Safe.pure _
  | createPlaylist text => exact HomeController.safe_createPlaylistRequest rfl
  | statsIndex => exact StatsController.safe_indexRequest
  | statsTops | statsRecently => exact StatsController.safe_gatedRequest
  | statsTopGlobal => exact StatsController.safe_topGlobalRequest
  | paymentsSuccess sessionId => exact PaymentsController.safe_success sessionId
  | paymentsCancel => exact safe_redirectTo _
  | createCheckoutSession price => exact PaymentsController.safe_createCheckoutSession price
  | usersInfo => exact UsersController.safe_infoRequest

theorem safe_renderPage : Safe prices u ρ renderPage :=
  Safe.get_bind fun _ _ => Safe.ite (safe_call _) (Safe.pure _)

/-- The state in which the expiry check starts. -/
def Ctx.identified (s : Ctx) : Ctx :=
  { s with currentUser :=
      s.session.userId.bind fun id => (s.db.users.findById id).map User.id }

/-- What runs after the expiry check. -/
def afterCheck (prices : PaymentsController.Prices) (route : Route) : Action Unit := do
  refreshSpotifyAccessToken
  collectStats
  dispatch prices route
  renderPage

/-- A request either ends in the expiry check, with nothing changed, or gets through it and goes
on with `R`. -/
inductive Served (R : Ctx → Ctx → Prop) (s : Ctx) : Ctx → Prop
  | stopped {t : Ctx} (h : Quiet s t) : Served R s t
  | passed {m t : Ctx} (check : Checked s m) (rest : R m t) : Served R s t

theorem process_run (route : Route) (s : Ctx) :
    (process prices route).run s =
      (checkStripeSubscription >>= fun _ => afterCheck prices route).run s.identified := by
  have hset : setCurrentUser.run s = .ok () s.identified := rfl
  unfold process applicationFilters afterCheck
  simp only [bind_assoc]
  rw [EStateM.run_bind, hset]

/-- **One request.**  Every route's request passes the expiry check once, first. -/
theorem process_served {R : Ctx → Ctx → Prop} {s : Ctx} {route : Route}
    (hR : ∀ m, Checked s.identified m → R m (final (afterCheck prices route) m)) :
    Served R s.identified (final (process prices route) s) := by
  unfold final
  rw [process_run, EStateM.run_bind]
  rcases checkStripeSubscription_run s.identified with ⟨m, hm, hc⟩ | ⟨e, t, ht, hq⟩
  · rw [hm]
    exact .passed hc (hR m hc)
  · rw [ht]
    exact .stopped hq

theorem loginSafe_afterCheck (route : Route) {s : Ctx} (hs : s.route = route) :
    LoginEffects prices s (final (afterCheck prices route) s) := by
  have hdispatch : Spec (LoginEffects prices) (At s.currentUser route) (dispatch prices route)
      fun _ _ => True := by
    cases hr : route.isLogin with
    | false =>
        exact ((safe_dispatch hr).weaken fun _ _ => Effects.login).consequence (fun _ ht => ht)
          fun _ _ _ => trivial
    | true =>
      cases route with
      | authCallback =>
          exact SessionsController.loginSafe_create.consequence (fun _ _ => trivial)
            fun _ _ ht => ht
      | logout =>
          exact SessionsController.loginSafe_destroy.consequence (fun _ _ => trivial)
            fun _ _ ht => ht
      | _ => cases hr
  have hfilters : Spec (LoginEffects prices) (At s.currentUser route)
      (do refreshSpotifyAccessToken; collectStats) fun _ => At s.currentUser route :=
    (Safe.bind safe_refreshSpotifyAccessToken fun _ => safe_collectStats).weaken
      fun _ _ => Effects.login
  have hrender : LoginSafe prices renderPage :=
    SessionsController.loginSafe_response fun _ _ => safe_renderPage
  have hall := Spec.bind hfilters fun _ => Spec.bind hdispatch fun _ => hrender
  have hrun := hall.final_related (s := s) ⟨rfl, hs⟩
  rw [bind_assoc] at hrun
  exact hrun

theorem safe_afterCheck {route : Route} (hr : route.isLogin = false) {s : Ctx}
    (hs : s.route = route) : Effects prices s (final (afterCheck prices route) s) :=
  (Safe.bind safe_refreshSpotifyAccessToken fun _ => Safe.bind safe_collectStats fun _ =>
    Safe.bind (safe_dispatch hr) fun _ => safe_renderPage).final_related
    ⟨rfl, hs⟩

/-! ### Requests and steps of the application -/

theorem Checked.frame {s t : Ctx} (h : Checked s t) :
    t.currentUser = s.currentUser ∧ t.route = s.route ∧ t.env = s.env := by
  cases h with
  | skipped => exact ⟨rfl, rfl, rfl⟩
  | live h | cleared h => exact ⟨h.currentUser, h.route, h.env⟩

/-- The state a request leaves is the one its filters, action and page end in. -/
theorem serve_server (sys : System) (r : Request) :
    (serve prices sys r).toServer = (final (process prices r.route) (sys.start r)).toServer := by
  unfold serve final
  cases (process prices r.route).run (sys.start r) <;> rfl

theorem serve_served (sys : System) (r : Request) :
    Served (LoginEffects prices) (sys.start r).identified
      (final (process prices r.route) (sys.start r)) :=
  process_served fun _ hc => loginSafe_afterCheck _ (hc.frame.2.1)

theorem LoginEffects.preserve {I : Ctx → Prop} (heffect : ∀ s t, LoginEffect prices s t → I s → I t)
    {s t : Ctx} (h : LoginEffects prices s t) (hs : I s) : I t := by
  induction h with
  | refl => exact hs
  | tail _ he ih => exact heffect _ _ he ih

/-- **Request rule.**  What the expiry check and every effect preserve holds at the end of a
request when it holds at its start. -/
theorem serve_rule {I : Ctx → Prop} (hcheck : ∀ s t, Checked s t → I s → I t)
    (heffect : ∀ s t, LoginEffect prices s t → I s → I t) {sys : System} {r : Request}
    (h : I (sys.start r).identified) : I (final (process prices r.route) (sys.start r)) := by
  have hserved : Served (LoginEffects prices) _ _ := serve_served sys r
  cases hserved with
  | stopped hq => exact heffect _ _ (.effect (.quiet hq)) h
  | passed hc hrest => exact LoginEffects.preserve heffect hrest (hcheck _ _ hc h)

theorem serve_invariant {I : Server → Prop}
    (hcheck : ∀ s t, Checked s t → I s.toServer → I t.toServer)
    (heffect : ∀ s t, LoginEffect prices s t → I s.toServer → I t.toServer) {sys : System}
    (r : Request) (h : I sys.toServer) : I (serve prices sys r).toServer := by
  rw [serve_server]
  exact serve_rule (I := fun s => I s.toServer) hcheck heffect h

/-- What holds of the requests of a run, as a guard on its steps. -/
theorem request_labels {P : Request → Prop} {steps : List Step}
    (h : ∀ r, Step.request r ∈ steps → P r) : ∀ a ∈ steps, ∀ r, a = .request r → P r := by
  rintro a ha r rfl
  exact h r ha

/-- **Step rule.**  The same for every step of a run. -/
theorem step_invariant {I : Server → Prop}
    (hcheck : ∀ s t, Checked s t → I s.toServer → I t.toServer)
    (heffect : ∀ s t, LoginEffect prices s t → I s.toServer → I t.toServer)
    (hpayment : ∀ (s : Server) sessionId customer, I s →
      I { s with stripe := completePayment s.stripe sessionId customer })
    (hstats : ∀ (s : Server) user genres, I s →
      I { s with db := s.db.amendSpotifydata user fun row => { row with favoriteGenre := genres } })
    {sys sys' : System} {a : Step} (h : I sys.toServer) (hstep : step prices sys a = some sys') :
    I sys'.toServer := by
  cases a with
  | request r =>
      cases hstep
      exact serve_invariant hcheck heffect r h
  | payment sessionId customer =>
      cases hstep
      exact hpayment _ sessionId customer h
  | statsJob user genres =>
      cases hstep
      exact hstats _ user genres h

/-! ### The clock -/

theorem LoginEffect.clock {s t : Ctx} (h : LoginEffect prices s t) : s.clock ≤ t.clock := by
  cases h with
  | effect h =>
    cases h with
    | quiet hq => exact hq.clock
    | _ => exact le_rfl
  | _ => exact le_rfl

theorem Checked.clock {s t : Ctx} (h : Checked s t) : s.clock ≤ t.clock := by
  cases h with
  | skipped => exact le_rfl
  | live hq | cleared hq => exact hq.clock

theorem serve_clock (prices : PaymentsController.Prices) (sys : System) (r : Request) :
    sys.clock ≤ (serve prices sys r).clock :=
  serve_invariant (I := fun s => sys.clock ≤ s.clock) (fun _ _ hc hs => hs.trans hc.clock)
    (fun _ _ he hs => hs.trans he.clock) r le_rfl

theorem run_clock {sys sys' : System} {steps : List Step}
    (hrun : StepRun.run (step prices) sys steps = some sys') : sys.clock ≤ sys'.clock := by
  refine StepRun.run_invariant (I := fun s : System => sys.clock ≤ s.clock)
    (fun _ _ _ hs hstep => ?_) le_rfl hrun
  exact step_invariant (I := fun s => sys.clock ≤ s.clock) (fun _ _ hc hi => hi.trans hc.clock)
    (fun _ _ he hi => hi.trans he.clock) (fun _ _ _ hi => hi) (fun _ _ _ hi => hi) hs hstep

end Knoiz
