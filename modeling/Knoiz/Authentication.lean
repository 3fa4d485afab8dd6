import Knoiz.NonInterference
import Knoiz.StaleSession

/-!
# Who is logged in

`session[:user_id]` is the only thing by which the application knows who asks.  A browser whose
cookie names a user has come back from Spotify with an account of that user, and its cookie has named
the user ever since; and a browser that has logged out is nobody, and changes nothing, until it comes
back from Spotify again.
-/

namespace Knoiz

open ProgramLogic Relation RowTable

variable {prices : PaymentsController.Prices} {s t : Ctx} {sys sys' : System} {r : Request}
  {b uid : ℕ}

/-! ### What sets the user of a session -/

theorem Effect.userId (h : Effect prices s t) : t.session.userId = s.session.userId := by
  cases h with
  | quiet h => rw [h.session]
  | _ => rfl

theorem Effects.userId (h : Effects prices s t) : t.session.userId = s.session.userId := by
  induction h with
  | refl => rfl
  | tail _ he ih => exact he.userId.trans ih

theorem Checked.session (h : Checked s t) : t.session = s.session := by
  cases h with
  | skipped => rfl
  | live h | cleared h => exact h.session

namespace SessionsController

/-- **Login.**  At the end the session names the user that it named before, or the stored user of
the account that has come back from Spotify. -/
theorem create_userId (h : (final create s).session.userId = some uid) :
    s.session.userId = some uid ∨ ∃ spotifyUser, s.env.auth = some spotifyUser ∧
      ((final create s).db.users.findById uid).map User.spotifyId = some spotifyUser.id := by
  obtain ⟨t, hrun, hends⟩ := create_run s
  rw [final_of_ok hrun] at h ⊢
  cases hends with
  | rejected => exact .inl h
  | @unidentified spotifyUser e t _ _ hfind =>
      rcases findOrCreateUser_run spotifyUser (s.storedData spotifyUser) with
        ⟨id, m, hrun', -⟩ | ⟨e', m, hrun', hsession, -⟩
      · cases hfind.symm.trans hrun'
      · cases hfind.symm.trans hrun'
        rw [hsession] at h
        exact .inl h
  | @unprofiled spotifyUser id m e t _ _ hfind hprofile =>
      rcases findOrCreateUser_run spotifyUser (s.storedData spotifyUser) with
        ⟨id', m', hrun', hsession, -⟩ | ⟨e', m', hrun', -⟩
      · cases hfind.symm.trans hrun'
        rcases updateUserProfile_run id spotifyUser m with
          ⟨m', f, hrun', -⟩ | ⟨e, m', hrun', hq, -⟩
        · cases hprofile.symm.trans hrun'
        · cases hprofile.symm.trans hrun'
          rw [hq.session, hsession] at h
          exact .inl h
      · cases hfind.symm.trans hrun'
  | @loggedIn spotifyUser id m m' t hauth _ hfind hprofile hwelcome =>
      rcases findOrCreateUser_run spotifyUser (s.storedData spotifyUser) with
        ⟨id', n, hrun', hsession, henv, hext, hid, -⟩ | ⟨e, n, hrun', -⟩
      · cases hfind.symm.trans hrun'
        rcases updateUserProfile_run id spotifyUser m with
          ⟨n', f, hrun', hupdated⟩ | ⟨e, n', hrun', -⟩
        · cases hprofile.symm.trans hrun'
          rw [hwelcome.session] at h
          cases h
          refine .inr ⟨spotifyUser, hauth, ?_⟩
          rw [hwelcome.db]
          show (n'.db.users.findById uid).map User.spotifyId = _
          rw [hupdated.quiet.db, hid]
        · cases hprofile.symm.trans hrun'
      · cases hfind.symm.trans hrun'

end SessionsController

/-- The same for what follows the expiry check of any request. -/
theorem afterCheck_userId (h : (final (afterCheck prices s.route) s).session.userId = some uid) :
    s.session.userId = some uid ∨ (s.route = .authCallback ∧ ∃ spotifyUser,
      s.env.auth = some spotifyUser ∧
      ((final (afterCheck prices s.route) s).db.users.findById uid).map User.spotifyId =
        some spotifyUser.id) := by
  cases hr : s.route.isLogin with
  | false =>
      have hall : Effects prices s _ := safe_afterCheck hr rfl
      rw [Effects.userId hall] at h
      exact .inl h
  | true =>
    obtain ⟨m, hm, hend⟩ := afterCheck_final prices s.route s
    rcases hend with hend | hend
    · rw [hend, Effects.userId hm] at h
      exact .inl h
    · rw [hend.session] at h
      rw [hend.db]
      generalize s.route = route at hr h ⊢
      cases route with
      | authCallback =>
          rcases SessionsController.create_userId h with hsame | ⟨spotifyUser, hauth, hstored⟩
          · rw [Effects.userId hm] at hsame
            exact .inl hsame
          · rw [(Effects.frame hm).2.2] at hauth
            exact .inr ⟨rfl, spotifyUser, hauth, hstored⟩
      | logout => cases h
      | _ => cases hr

theorem process_userId (h : (final (process prices r.route) (sys.start r)).session.userId = some uid) :
    (sys.sessionOf r).userId = some uid ∨ (r.route = .authCallback ∧ ∃ spotifyUser,
      r.env.auth = some spotifyUser ∧
      ((final (process prices r.route) (sys.start r)).db.users.findById uid).map User.spotifyId =
        some spotifyUser.id) := by
  have hserved : Served (fun _ t => t.session.userId = some uid →
      (sys.sessionOf r).userId = some uid ∨ (r.route = .authCallback ∧ ∃ spotifyUser,
        r.env.auth = some spotifyUser ∧
        (t.db.users.findById uid).map User.spotifyId = some spotifyUser.id))
      (sys.start r).identified (final (process prices r.route) (sys.start r)) := by
    refine process_served fun m hc hm => ?_
    obtain ⟨-, hroute, henv⟩ := hc.frame
    have hsession : m.session = sys.sessionOf r := hc.session
    rw [show r.route = m.route from hroute.symm] at hm ⊢
    have hafter := afterCheck_userId hm
    rw [hsession, henv] at hafter
    exact hafter
  cases hserved with
  | stopped hq =>
      rw [hq.session] at h
      exact .inl h
  | passed _ hrest => exact hrest h

/-- Which requests can make the cookie of browser `b` name a user: those of the browser that come
back from Spotify with an account of that user. -/
def LogsIn (b uid : ℕ) (r : Request) (sys' : System) : Prop :=
  r.browser = b ∧ r.route = .authCallback ∧
    ∃ spotifyUser, r.env.auth = some spotifyUser ∧ sys'.accountOf uid = some spotifyUser.id

theorem serve_userId (h : ((serve prices sys r).cookies b).userId = some uid) :
    (sys.cookies b).userId = some uid ∨ LogsIn b uid r (serve prices sys r) := by
  have hprocess : (final (process prices r.route) (sys.start r)).session.userId = some uid → _ :=
    process_userId
  unfold serve at h ⊢
  cases hrun : (process prices r.route).run (sys.start r) with
  | error e c =>
      rw [hrun] at h
      exact .inl h
  | ok _ c =>
      rw [hrun] at h
      rw [final_of_ok hrun] at hprocess
      change ((sys.commit r c.session) b).userId = some uid at h
      unfold System.commit at h
      split at h
      · exact .inl h
      · rename_i hnull
        by_cases hb : b = r.browser
        · subst hb
          rw [Function.update_self] at h
          rcases hprocess h with hsame | ⟨hroute, spotifyUser, hauth, hstored⟩
          · rw [System.sessionOf, if_neg hnull] at hsame
            exact .inl hsame
          · exact .inr ⟨rfl, hroute, spotifyUser, hauth, hstored⟩
        · rw [Function.update_of_ne hb] at h
          exact .inl h

theorem run_extends {steps : List Step} (h : StepRun.run (step prices) sys steps = some sys') :
    sys.db.users.Extends sys'.db.users :=
  StepRun.run_invariant (I := fun m => sys.db.users.Extends m.db.users)
    (fun _ _ _ hm hstep => hm.trans (step_extends hstep)) (Users.Extends.refl _) h

/-- **Authentication.**  A browser whose cookie names a user has come back from Spotify with an
account of this user, and its cookie has named the user in every state since. -/
theorem session_authenticated {sys₀ : System} {steps : List Step}
    (h₀ : (sys₀.cookies b).userId = none)
    (hrun : StepRun.run (step prices) sys₀ steps = some sys)
    (huid : (sys.cookies b).userId = some uid) :
    ∃ pre r post m spotifyUser, steps = pre ++ .request r :: post ∧
      StepRun.run (step prices) sys₀ pre = some m ∧ r.browser = b ∧ r.route = .authCallback ∧
      r.env.auth = some spotifyUser ∧ sys.accountOf uid = some spotifyUser.id ∧
      ∀ pre' n, pre' <+: post → StepRun.run (step prices) (serve prices m r) pre' = some n →
        (n.cookies b).userId = some uid := by
  obtain ⟨pre, a, post, m, m', rfl, hpre, ha, hlogs, hsince⟩ :=
    StepRun.exists_origin (Q := fun sys : System => (sys.cookies b).userId = some uid)
      (P := fun _ a sys' => ∃ r, a = .request r ∧ LogsIn b uid r sys')
      (fun sys a sys' hstep hq => by
        cases a with
        | request r =>
            cases hstep
            exact (serve_userId hq).imp_right fun hlogs => ⟨r, rfl, hlogs⟩
        | payment | statsJob =>
            cases hstep
            exact .inl hq)
      (by rw [h₀]; exact nofun) hrun huid
  obtain ⟨r, rfl, hbrowser, hroute, spotifyUser, hauth, haccount⟩ := hlogs
  cases ha
  refine ⟨pre, r, post, m, spotifyUser, rfl, hpre, hbrowser, hroute, hauth, ?_, hsince⟩
  obtain ⟨m'', hm'', hrest⟩ := StepRun.run_append_eq_some.mp hrun
  cases hpre.symm.trans hm''
  obtain ⟨n, hn, hrest⟩ := StepRun.run_cons_eq_some.mp hrest
  cases hn
  exact accountOf_extends haccount (run_extends hrest)

/-- After two logins in one browser, the second is the one that counts. -/
theorem bob_authenticated :
    ∃ pre r post m spotifyUser,
      [Sample.login Sample.ada fun _ => false, Sample.login Sample.bob fun _ => false] =
        pre ++ .request r :: post ∧
      StepRun.run (step Sample.priceIds) .initial pre = some m ∧ r.browser = 0 ∧
      r.route = .authCallback ∧ r.env.auth = some spotifyUser ∧
      (Sample.twoLogins fun _ => false).accountOf 1 = some spotifyUser.id ∧
      ∀ pre' n, pre' <+: post →
        StepRun.run (step Sample.priceIds) (serve Sample.priceIds m r) pre' = some n →
        (n.cookies 0).userId = some 1 :=
  session_authenticated rfl rfl rfl

/-! ### Nobody -/

/-- Nothing is written but calls on `nil` to the log. -/
structure Inert (s t : Ctx) : Prop where
  db : t.db = s.db
  stripe : t.stripe = s.stripe
  session : t.session = s.session
  log : ∃ l, t.log = s.log ++ l ∧ ∀ e ∈ l, e = Event.nilCall

theorem Inert.trans {m : Ctx} (h : Inert s m) (h' : Inert m t) : Inert s t := by
  obtain ⟨l, hl, hnil⟩ := h.log
  obtain ⟨l', hl', hnil'⟩ := h'.log
  refine ⟨h'.db.trans h.db, h'.stripe.trans h.stripe, h'.session.trans h.session, l ++ l', ?_, ?_⟩
  · rw [hl', hl, List.append_assoc]
  · intro e he
    exact (List.mem_append.mp he).elim (hnil e) (hnil' e)

instance : Allows Inert where
  refl s := ⟨rfl, rfl, rfl, [], by simp, by simp⟩
  trans _ _ _ := Inert.trans
  quiet h := ⟨h.db, h.stripe, h.session, [], by simp [h.log], by simp⟩
  nilCall s := ⟨rfl, rfl, rfl, [.nilCall], rfl, by simp⟩

theorem Quiet.inert (h : Quiet s t) : Inert s t := Allows.quiet h

/-- A program that asks for the user of nobody does not get past the question. -/
theorem nobody_theUser {α : Type} {f : ℕ → Action α} {Q : α → Ctx → Prop} :
    Spec Inert (fun s => s.currentUser = none) (theUser >>= f) Q :=
  Spec.bind spec_theUser fun id s hs => by
    cases hs.1.symm.trans hs.2

namespace PaymentsController

theorem nobody_success (sessionId : Option String) :
    Spec Inert (fun s => s.currentUser = none) (success prices sessionId) fun _ _ => True := by
  refine Spec.rescue ?_ fun _ => Spec.pure fun _ _ => trivial
  have hretrieve : Spec Inert (fun s => s.currentUser = none) (retrieve sessionId)
      fun _ s => s.currentUser = none := by
    refine Spec.bind (spec_call _) fun _ => Spec.get_bind fun s hs => ?_
    split
    · exact Spec.pure fun t ht => ht ▸ hs
    · exact Spec.raise
  refine Spec.bind hretrieve fun session => ?_
  refine Spec.bind (Q := fun _ s => s.currentUser = none) (Spec.bind (spec_call _) fun _ => ?_)
    fun priceId => ?_
  · split
    · exact Spec.pure fun _ hs => hs
    · exact Spec.raise
  · exact Spec.bind (Q := fun _ _ => False) nobody_theUser fun _ _ hs => hs.elim

theorem nobody_createCheckoutSession (price : Option String) :
    Spec Inert (fun s => s.currentUser = none) (createCheckoutSession prices price)
      fun _ _ => True := by
  refine Spec.rescue ?_ fun _ => Spec.pure fun _ _ => trivial
  split
  · exact Spec.raise
  · exact Spec.bind (Q := fun _ _ => False) nobody_theUser fun _ _ hs => hs.elim

end PaymentsController

/-- A filter that redirects is the end of the request's controller. -/
theorem inert_beforeAction {filter rest : Action Unit}
    (h : ∃ t, filter.run s = .ok () t ∧ t.location = some "/" ∧ Quiet s t) :
    Inert s (final (beforeAction filter rest) s) := by
  obtain ⟨t, hrun, hlocation, hquiet⟩ := h
  rw [final_of_ok (beforeAction_stops hrun hlocation)]
  exact hquiet.inert

theorem requireLogin_quiet (message : String) (h : s.session.userId = none) :
    ∃ t, (requireLogin message).run s = .ok () t ∧ t.location = some "/" ∧ Quiet s t := by
  unfold requireLogin
  simp only [EStateM.run_bind, EStateM.run_get, h]
  exact ⟨_, rfl, rfl, rfl, rfl, rfl, rfl, rfl, rfl, rfl, le_rfl⟩

variable (prices) in
/-- Whatever nobody asks for, short of a login, nothing is written. -/
theorem nobody_dispatch {route : Route} (hroute : route ≠ .authCallback)
    (hid : s.currentUser = none) (hsession : s.session = {}) :
    Inert s (final (dispatch prices route) s) := by
  have huser : s.session.userId = none := by rw [hsession]
  cases route with
  | homeIndex | pricingIndex => exact (Quiet.refl s).inert
  | createPlaylist text => exact inert_beforeAction (requireLogin_quiet _ huser)
  | statsIndex | statsTops | statsRecently | statsTopGlobal =>
      exact inert_beforeAction (requireLogin_quiet _ huser)
  | authCallback => exact absurd rfl hroute
  | logout => exact ⟨rfl, rfl, hsession.symm, [], by simp [dispatch, final,
      SessionsController.destroy, setFlash, redirectTo], by simp⟩
  | paymentsSuccess sessionId => exact (PaymentsController.nobody_success _).final_related hid
  | paymentsCancel => exact ⟨rfl, rfl, rfl, [], by simp [dispatch, final,
      PaymentsController.cancel, redirectTo], by simp⟩
  | createCheckoutSession price =>
      exact (PaymentsController.nobody_createCheckoutSession _).final_related hid
  | usersInfo =>
      refine inert_beforeAction ?_
      unfold UsersController.ensureCurrentUserAndSubscription
      simp only [EStateM.run_bind, EStateM.run_get, hid]
      exact ⟨_, rfl, rfl, rfl, rfl, rfl, rfl, rfl, rfl, rfl, le_rfl⟩

variable (prices) in
theorem nobody_process (hsession : sys.sessionOf r = {}) (hroute : r.route ≠ .authCallback) :
    Inert (sys.start r) (final (process prices r.route) (sys.start r)) := by
  have huser : sys.userOf r = none := by
    rw [System.userOf, hsession]
    rfl
  have hstart : Inert (sys.start r) (sys.start r).identified :=
    ⟨rfl, rfl, rfl, [], by simp [Ctx.identified], by simp⟩
  have hdispatch : Inert (sys.start r).identified _ :=
    nobody_dispatch prices hroute huser hsession
  refine hstart.trans (hdispatch.trans ?_)
  unfold process
  rw [final_bind_ok (applicationFilters_run_none huser)]
  cases hrun : (dispatch prices r.route).run (sys.start r).identified with
  | error e t =>
      rw [final_bind_error hrun, final_of_error hrun]
      exact (Quiet.refl t).inert
  | ok _ t =>
      rw [final_bind_ok hrun, final_of_ok hrun]
      exact (quiet_renderPage t).inert

/-- The request has left no trace but calls on `nil` in the log. -/
structure Traceless (sys sys' : System) : Prop where
  db : sys'.db = sys.db
  stripe : sys'.stripe = sys.stripe
  cookies : sys'.cookies = sys.cookies
  log : ∃ l, sys'.log = sys.log ++ l ∧ ∀ e ∈ l, e = Event.nilCall

theorem serve_nobody (hcookie : sys.cookies r.browser = {}) (hroute : r.route ≠ .authCallback) :
    Traceless sys (serve prices sys r) := by
  have hsession : sys.sessionOf r = {} := by
    unfold System.sessionOf
    split
    · rfl
    · exact hcookie
  have hinert := nobody_process prices hsession hroute
  unfold serve
  cases hrun : (process prices r.route).run (sys.start r) with
  | error e c =>
      rw [final_of_error hrun] at hinert
      exact ⟨hinert.db, hinert.stripe, rfl, hinert.log⟩
  | ok _ c =>
      rw [final_of_ok hrun] at hinert
      refine ⟨hinert.db, hinert.stripe, ?_, hinert.log⟩
      show sys.commit r c.session = sys.cookies
      unfold System.commit
      split
      · rfl
      · have hkept : c.session = sys.cookies r.browser := by
          rw [hinert.session, hcookie]
          exact hsession
        rw [hkept, Function.update_eq_self]

/-- A logout that returns leaves an empty cookie. -/
theorem serve_logout (hroute : r.route = .logout) (hnull : r.nullSession = false)
    (hok : (respond prices sys r).raised = none) : (serve prices sys r).cookies r.browser = {} := by
  unfold respond at hok
  unfold serve
  cases hrun : (process prices r.route).run (sys.start r) with
  | error e c =>
      rw [hrun] at hok
      cases hok
  | ok _ c =>
      show sys.commit r c.session r.browser = {}
      rw [System.commit, hnull, if_neg Bool.false_ne_true, Function.update_self]
      unfold process at hrun
      rw [hroute, EStateM.run_bind] at hrun
      cases hfilters : applicationFilters.run (sys.start r) with
      | error e m =>
          rw [hfilters] at hrun
          cases hrun
      | ok _ m =>
          rw [hfilters] at hrun
          have hpage := quiet_renderPage (final SessionsController.destroy m)
          have hend := final_of_ok hrun
          rw [final_bind_ok (show (dispatch prices .logout).run m =
            .ok () (final SessionsController.destroy m) from rfl)] at hend
          rw [hend] at hpage
          rw [hpage.session]
          rfl

/-- **Logout.**  From a logout until the browser comes back from Spotify, whatever happens in
between, its cookie is empty, every request of it is nobody's, and leaves no trace. -/
theorem logged_out {steps : List Step} (hroute : r.route = .logout) (hnull : r.nullSession = false)
    (hok : (respond prices sys r).raised = none)
    (hsteps : ∀ r', Step.request r' ∈ steps → r'.browser = r.browser → r'.route ≠ .authCallback)
    (hrun : StepRun.run (step prices) (serve prices sys r) steps = some sys') :
    sys'.cookies r.browser = {} ∧
      ∀ r', r'.browser = r.browser → r'.route ≠ .authCallback →
        sys'.userOf r' = none ∧ Traceless sys' (serve prices sys' r') := by
  have hempty : sys'.cookies r.browser = {} := by
    refine StepRun.run_invariant_of_labels (I := fun m : System => m.cookies r.browser = {})
      (fun m a m' hm ha hstep => ?_) (serve_logout hroute hnull hok) (request_labels hsteps) hrun
    cases a with
    | request r' =>
        cases hstep
        by_cases hb : r'.browser = r.browser
        · rw [(serve_nobody (r := r') (by rw [hb]; exact hm) (ha r' rfl hb)).cookies]
          exact hm
        · rw [serve_cookies_of_ne hb]
          exact hm
    | payment | statsJob =>
        cases hstep
        exact hm
  refine ⟨hempty, fun r' hb hroute' => ⟨?_, serve_nobody (by rw [hb]; exact hempty) hroute'⟩⟩
  unfold System.userOf System.sessionOf
  rw [hb, hempty]
  split <;> rfl

namespace Sample

/-- Ada has logged out. -/
def adaLoggedOut : System := serve priceIds twoUsers { browser := 0, route := .logout }

/-- Bob asks for a playlist, Ada opens the home page, and Bob logs out too. -/
def afterwards : List Step :=
  [.request { browser := 1, route := .createPlaylist (some "jazz") },
    .request { browser := 0, route := .homeIndex },
    .request { browser := 1, route := .logout }]

/-- The system after all of this. -/
def deserted : System := (StepRun.run (step priceIds) adaLoggedOut afterwards).getD adaLoggedOut

end Sample

/-- When Ada asks for a playlist after all of this, she leaves no trace. -/
theorem ada_logged_out : Traceless Sample.deserted
    (serve Sample.priceIds Sample.deserted (Sample.playlistRequest 0 fun _ => false)) := by
  have hnever : ∀ r', Step.request r' ∈ Sample.afterwards → r'.browser = 0 →
      r'.route ≠ .authCallback := by
    intro r' hmem hbrowser
    simp only [Sample.afterwards, List.mem_cons, List.not_mem_nil, or_false, Step.request.injEq]
      at hmem
    rcases hmem with rfl | rfl | rfl
    · cases hbrowser
    · exact nofun
    · cases hbrowser
  have hrun : StepRun.run (step Sample.priceIds)
      (serve Sample.priceIds Sample.twoUsers { browser := 0, route := .logout })
        Sample.afterwards = some Sample.deserted := rfl
  have hout := logged_out rfl rfl rfl hnever hrun
  exact (hout.2 (Sample.playlistRequest 0 fun _ => false) rfl nofun).2

end Knoiz
