import Knoiz.PassWindow

/-!
# The two halves of a session

`session[:user_id]` names a row of `users`, `session[:spotify_user_data]` an account of Spotify,
and every later request uses the one for the wallet and the pass and the other for the calls to
Spotify.  Login writes the second first and the first last.  The invariant of this file says that
the two name one account, and the run theorem says which logins keep it.
-/

namespace Knoiz

open ProgramLogic Relation RowTable

/-- A session that names a user names a stored one, and its Spotify data is that user's. -/
def Coherent (us : Users) (session : Session) : Prop :=
  ∀ uid, session.userId = some uid → ∃ user, us.findById uid = some user ∧
    ∀ data, session.spotifyUserData = some data → user.spotifyId = data.id

/-- `RSpotify::User.new` gives a user of the account that the hash is of. -/
def RebuildsAccount (env : Env) : Prop :=
  ∀ old new, env.rspotifyUser old = some new → new.id = old.id

theorem coherent_extends {us vs : Users} {session : Session} (h : Coherent us session)
    (hext : us.Extends vs) : Coherent vs session := by
  intro uid huid
  obtain ⟨user, huser, hdata⟩ := h uid huid
  obtain ⟨user', huser', hsame⟩ := hext uid user huser
  exact ⟨user', huser', fun data hd => hsame.trans (hdata data hd)⟩

/-! ### What requests other than login and logout keep -/

/-- The accounts of the session, of the users and of the profiles are the same. -/
structure Kept (s t : Ctx) : Prop where
  userId : t.session.userId = s.session.userId
  data : ∀ new, t.session.spotifyUserData = some new →
    ∃ old, s.session.spotifyUserData = some old ∧ new.id = old.id
  byId : ∀ id, (t.db.users.findById id).map User.spotifyId =
    (s.db.users.findById id).map User.spotifyId
  bySpotifyId : ∀ x, (t.db.users.findBySpotifyId x).map User.id =
    (s.db.users.findBySpotifyId x).map User.id
  profiles : ∀ id, (t.db.profiles.lookup id).isSome = (s.db.profiles.lookup id).isSome
  env : t.env = s.env

theorem Kept.refl (s : Ctx) : Kept s s :=
  ⟨rfl, fun new h => ⟨new, h, rfl⟩, fun _ => rfl, fun _ => rfl, fun _ => rfl, rfl⟩

theorem Kept.trans {s t m : Ctx} (h : Kept s t) (h' : Kept t m) : Kept s m := by
  refine ⟨h'.userId.trans h.userId, fun new hnew => ?_, fun id => (h'.byId id).trans (h.byId id),
    fun x => (h'.bySpotifyId x).trans (h.bySpotifyId x),
    fun id => (h'.profiles id).trans (h.profiles id), h'.env.trans h.env⟩
  obtain ⟨mid, hmid, hid⟩ := h'.data new hnew
  obtain ⟨old, hold, hid'⟩ := h.data mid hmid
  exact ⟨old, hold, hid.trans hid'⟩

theorem Kept.of_eq {s t : Ctx} (hsession : t.session = s.session) (husers : t.db.users = s.db.users)
    (hprofiles : t.db.profiles = s.db.profiles) (henv : t.env = s.env) : Kept s t := by
  refine ⟨by rw [hsession], fun new hnew => ⟨new, ?_, rfl⟩, fun _ => by rw [husers],
    fun _ => by rw [husers], fun _ => by rw [hprofiles], henv⟩
  rw [← hsession]
  exact hnew

/-- The user names of `users` are not part of an account. -/
theorem kept_rename (s : Ctx) (id : ℕ) (name : Option String) :
    Kept s { s with db := { s.db with users := s.db.users.rename id name } } := by
  refine ⟨rfl, fun new h => ⟨new, h, rfl⟩, fun j => ?_, fun x => ?_, fun _ => rfl, rfl⟩
  · show ((s.db.users.rename id name).findById j).map User.spotifyId = _
    rw [Users.findById_rename, Option.map_map]
    congr 1
    funext u
    by_cases h : u.id = id <;> simp [h]
  · show ((s.db.users.rename id name).findBySpotifyId x).map User.id = _
    rw [Users.findBySpotifyId_rename, Option.map_map]
    congr 1
    funext u
    by_cases h : u.id = id <;> simp [h]

theorem kept_profile (s : Ctx) (id : ℕ) (f : Profile → Profile) :
    Kept s { s with db := s.db.amendProfile id f } := by
  refine ⟨rfl, fun new h => ⟨new, h, rfl⟩, fun _ => rfl, fun _ => rfl, fun j => ?_, rfl⟩
  show ((amend id f s.db.profiles).lookup j).isSome = _
  rw [lookup_amend]
  split
  · rename_i hj
    rw [hj, Option.isSome_map]
  · rfl

theorem Quiet.kept {s t : Ctx} (h : Quiet s t) : Kept s t :=
  Kept.of_eq h.session (congrArg Database.users h.db) (congrArg Database.profiles h.db) h.env

theorem Checked.kept {s t : Ctx} (h : Checked s t) : Kept s t := by
  cases h with
  | skipped => exact Kept.refl s
  | live hq | cleared hq => exact hq.kept.trans (Kept.of_eq rfl rfl rfl rfl)

variable {prices : PaymentsController.Prices}

theorem Effect.kept {s t : Ctx} (h : Effect prices s t) (hr : RebuildsAccount s.env) :
    Kept s t := by
  cases h with
  | quiet hq => exact hq.kept
  | renamed hu name => exact kept_rename s _ name
  | profile hu f => exact kept_profile s _ f
  | refreshed held rebuilt =>
      refine ⟨rfl, fun new hnew => ⟨_, held, ?_⟩, fun _ => rfl, fun _ => rfl, fun _ => rfl, rfl⟩
      cases hnew
      exact hr _ _ rebuilt
  | _ => exact Kept.of_eq rfl rfl rfl rfl

theorem Effects.kept {s t : Ctx} (h : Effects prices s t) (hr : RebuildsAccount s.env) :
    Kept s t := by
  induction h with
  | refl => exact Kept.refl s
  | tail _ he ih =>
      refine ih.trans (he.kept ?_)
      rw [ih.env]
      exact hr

theorem Kept.extends {s t : Ctx} (h : Kept s t) : s.db.users.Extends t.db.users := by
  intro id u hu
  have hby := h.byId id
  rw [hu, Option.map_some, Option.map_eq_some_iff] at hby
  exact hby

theorem Kept.coherent {s t : Ctx} (h : Kept s t) (hs : Coherent s.db.users s.session) :
    Coherent t.db.users t.session := by
  intro uid huid
  rw [h.userId] at huid
  obtain ⟨user, huser, hdata⟩ := hs uid huid
  obtain ⟨user', huser', hsame⟩ := h.extends uid user huser
  refine ⟨user', huser', fun new hnew => ?_⟩
  obtain ⟨old, hold, hid⟩ := h.data new hnew
  rw [hsame, hdata old hold, hid]

/-! ### Login -/

/-- Something between the two writes of the session fails: the SELECT, the creation of an unknown
user, the `save!` of the user name, a missing profile or images, the `update!` of the profile. -/
def FailsBetween (db : Database) (env : Env) (spotifyUser : SpotifyUser) : Prop :=
  env.raises .selectUser = true ∨
    ((db.users.findBySpotifyId spotifyUser.id).map User.id = none ∧
      ∃ c, env.raises (.createUser c) = true) ∨
    env.raises .saveUsername = true ∨
    (∃ id, (db.users.findBySpotifyId spotifyUser.id).map User.id = some id ∧
      (db.profiles.lookup id).isSome = false) ∨
    spotifyUser.images = none ∨ env.raises .saveProfile = true

/-- A session that names a user names one with the account of `spotifyUser`. -/
def OwnAccount (us : Users) (session : Session) (spotifyUser : SpotifyUser) : Prop :=
  ∀ uid, session.userId = some uid →
    (us.findById uid).map User.spotifyId = some spotifyUser.id

theorem Kept.failsBetween_iff {s t : Ctx} (h : Kept s t) (spotifyUser : SpotifyUser) :
    FailsBetween t.db t.env spotifyUser ↔ FailsBetween s.db s.env spotifyUser := by
  unfold FailsBetween
  simp only [h.bySpotifyId, h.profiles, h.env]

theorem Kept.ownAccount_iff {s t : Ctx} (h : Kept s t) (spotifyUser : SpotifyUser) :
    OwnAccount t.db.users t.session spotifyUser ↔ OwnAccount s.db.users s.session spotifyUser := by
  unfold OwnAccount
  simp only [h.userId, h.byId]

namespace SessionsController

/-- `find_or_create_user` ends with a stored user of the account, its session data untouched; or
it has failed, and no user has lost its account. -/
theorem findOrCreateUser_run (spotifyUser : SpotifyUser) (s : Ctx) :
    (∃ id t, (findOrCreateUser spotifyUser).run s = .ok id t ∧ t.session = s.session ∧
        t.env = s.env ∧ s.db.users.Extends t.db.users ∧
        (t.db.users.findById id).map User.spotifyId = some spotifyUser.id ∧
        ((t.db.profiles.lookup id).isSome = false →
          (s.db.users.findBySpotifyId spotifyUser.id).map User.id = some id ∧
            (s.db.profiles.lookup id).isSome = false)) ∨
      ∃ e t, (findOrCreateUser spotifyUser).run s = .error e t ∧ t.session = s.session ∧
        s.db.users.Extends t.db.users ∧ FailsBetween s.db s.env spotifyUser := by
  unfold findOrCreateUser
  rw [EStateM.run_bind]
  rcases findOrCreateBy_run spotifyUser.id s with ⟨id, m, hrun, hfound⟩ | ⟨e, t, hrun, hnot⟩
  · have hm : m.session = s.session ∧ m.env = s.env ∧ s.db.users.Extends m.db.users ∧
        (m.db.users.findById id).map User.spotifyId = some spotifyUser.id ∧
        ((m.db.profiles.lookup id).isSome = false →
          (s.db.users.findBySpotifyId spotifyUser.id).map User.id = some id ∧
            (s.db.profiles.lookup id).isSome = false) := by
      cases hfound with
      | @found user hf _ =>
          have hmem : user ∈ s.db.users.rows := List.mem_of_find?_eq_some hf
          refine ⟨rfl, rfl, Users.Extends.refl _, ?_, fun hprofile => ⟨by rw [hf]; rfl, hprofile⟩⟩
          rw [Users.findById_of_mem hmem, Option.map_some, Users.spotifyId_of_find hf]
      | @created m hq hf _ _ =>
          refine ⟨hq.session, hq.env, ?_, ?_, fun hprofile => ?_⟩
          · rw [← hq.db]
            exact Users.extends_insert _ _
          · show ((m.db.users.insert spotifyUser.id).findById m.db.users.seq).map _ = _
            rw [Users.findById_insert_self, Option.map_some]
          · change ((m.db.profiles ++ [(m.db.users.seq, _)]).lookup m.db.users.seq).isSome =
              false at hprofile
            rw [List.lookup_append, Option.isSome_or] at hprofile
            simp at hprofile
    obtain ⟨hsession, henv, hext, hid, hprofile⟩ := hm
    rw [hrun]
    simp only [call, EStateM.run_bind, EStateM.run_get]
    cases hname : m.env.raises .saveUsername with
    | true =>
        refine .inr ⟨_, m, rfl, hsession, hext, .inr (.inr (.inl ?_))⟩
        rw [← henv]
        exact hname
    | false =>
        have hkept := kept_rename m id spotifyUser.displayName
        refine .inl ⟨id, _, rfl, hsession, henv, hext.trans hkept.extends, ?_, hprofile⟩
        exact (hkept.byId id).trans hid
  · rw [hrun]
    refine .inr ⟨e, t, rfl, ?_⟩
    cases hnot with
    | select h => exact ⟨rfl, Users.Extends.refl _, .inl h⟩
    | create hq hf hc =>
        refine ⟨hq.session, ?_, .inr (.inl ⟨by rw [hf]; rfl, _, hc⟩)⟩
        rw [← hq.db]
        exact Users.extends_burn _

/-- What the guard of the run theorem says about the state in which `create` starts. -/
def Harmless (s : Ctx) : Prop :=
  ∀ spotifyUser, s.env.auth = some spotifyUser → s.env.raises .toHash = true ∨
    ¬ FailsBetween s.db s.env spotifyUser ∨ OwnAccount s.db.users s.session spotifyUser

/-- A failure between the two writes leaves the new data beside the old user: of the same account,
or not at all. -/
theorem coherent_of_failure {s t : Ctx} {spotifyUser : SpotifyUser} (hsafe : Harmless s)
    (hauth : s.env.auth = some spotifyUser) (hhash : s.env.raises .toHash = false)
    (hfails : FailsBetween s.db s.env spotifyUser)
    (hsession : t.session = { s.session with spotifyUserData := some spotifyUser })
    (hext : s.db.users.Extends t.db.users) : Coherent t.db.users t.session := by
  rw [hsession]
  intro uid huid
  rcases hsafe spotifyUser hauth with h | h | h
  · rw [hhash] at h
    cases h
  · exact absurd hfails h
  · obtain ⟨user, huser, hid⟩ := Option.map_eq_some_iff.mp (h uid huid)
    obtain ⟨user', huser', hsame⟩ := hext uid user huser
    refine ⟨user', huser', fun data hdata => ?_⟩
    cases hdata
    exact hsame.trans hid

/-- **Login.**  When nothing fails between the two writes, or the session was of the account
already, the session is coherent at the end. -/
theorem create_coherent {s : Ctx} (hs : Coherent s.db.users s.session) (hsafe : Harmless s) :
    ∃ t, create.run s = .ok () t ∧ Coherent t.db.users t.session ∧
      s.db.users.Extends t.db.users := by
  obtain ⟨t, hrun, hends⟩ := create_run s
  refine ⟨t, hrun, ?_⟩
  cases hends with
  | rejected => exact ⟨hs, Users.Extends.refl _⟩
  | @unidentified spotifyUser e t hauth hhash hfind =>
      rcases findOrCreateUser_run spotifyUser (s.storedData spotifyUser) with
        ⟨id, m, hrun', -⟩ | ⟨e, m, hrun', hsession, hext, hfails⟩
      · cases hfind.symm.trans hrun'
      · cases hfind.symm.trans hrun'
        exact ⟨coherent_of_failure hsafe hauth hhash hfails hsession hext, hext⟩
  | @unprofiled spotifyUser id m e t hauth hhash hfind hprofile =>
      rcases findOrCreateUser_run spotifyUser (s.storedData spotifyUser) with
        ⟨id, m, hrun', hsession, henv, hext, hid, hnone⟩ | ⟨e, m, hrun', -⟩
      · cases hfind.symm.trans hrun'
        rcases updateUserProfile_run id spotifyUser m with
          ⟨m', f, hrun', -⟩ | ⟨e, m', hrun', hq, hfails⟩
        · cases hprofile.symm.trans hrun'
        · cases hprofile.symm.trans hrun'
          have hbetween : FailsBetween s.db s.env spotifyUser := by
            rcases hfails with hprof | himages | hsave
            · exact .inr (.inr (.inr (.inl ⟨id, hnone hprof⟩)))
            · exact .inr (.inr (.inr (.inr (.inl himages))))
            · rw [henv] at hsave
              exact .inr (.inr (.inr (.inr (.inr hsave))))
          have hkept : s.db.users.Extends t.db.users := by
            rw [hq.db]
            exact hext
          exact ⟨coherent_of_failure hsafe hauth hhash hbetween (hq.session.trans hsession) hkept,
            hkept⟩
      · cases hfind.symm.trans hrun'
  | @loggedIn spotifyUser id m m' t hauth hhash hfind hprofile hwelcome =>
      rcases findOrCreateUser_run spotifyUser (s.storedData spotifyUser) with
        ⟨id, m, hrun', hsession, henv, hext, hid, -⟩ | ⟨e, m, hrun', -⟩
      · cases hfind.symm.trans hrun'
        rcases updateUserProfile_run id spotifyUser m with
          ⟨m', f, hrun', hupdated⟩ | ⟨e, m', hrun', -⟩
        · cases hprofile.symm.trans hrun'
          have hq := hupdated.quiet
          have husers : s.db.users.Extends m'.db.users := by
            rw [hq.db]
            exact hext
          refine ⟨hwelcome.kept.coherent ?_, husers.trans hwelcome.kept.extends⟩
          intro uid huid
          cases huid
          obtain ⟨user, huser, huid⟩ := Option.map_eq_some_iff.mp hid
          refine ⟨user, ?_, fun data hdata => ?_⟩
          · show m'.db.users.findById id = some user
            rw [hq.db, huser]
          · have hstored : m'.session.spotifyUserData = some spotifyUser := by
              rw [hq.session, hsession]
              rfl
            cases hstored.symm.trans hdata
            exact huid
        · cases hprofile.symm.trans hrun'
      · cases hfind.symm.trans hrun'

end SessionsController

/-! ### Requests and runs -/

theorem quiet_renderPage (s : Ctx) : Quiet s (final renderPage s) := by
  unfold final renderPage call
  simp only [EStateM.run_bind, EStateM.run_get]
  cases s.location.isNone with
  | false => exact Quiet.refl s
  | true =>
    simp only [if_true, EStateM.run_bind, EStateM.run_get]
    cases s.env.raises .render with
    | true => exact Quiet.refl s
    | false => exact Quiet.refl s

/-- Around an action that always returns, the filters and the page keep what it establishes. -/
theorem afterCheck_of_action {s : Ctx} {route : Route} (hr : RebuildsAccount s.env)
    (haction : ∀ m, Kept s m → ∃ m', (dispatch prices route).run m = .ok () m' ∧
      Coherent m'.db.users m'.session ∧ m.db.users.Extends m'.db.users) :
    s.db.users.Extends (final (afterCheck prices route) s).db.users ∧
      ∀ t, (afterCheck prices route).run s = .ok () t → Coherent t.db.users t.session := by
  have hsafe : Safe prices s.currentUser s.route
      (do refreshSpotifyAccessToken; collectStats) :=
    Safe.bind safe_refreshSpotifyAccessToken fun _ => safe_collectStats
  have hsplit : afterCheck prices route =
      (do refreshSpotifyAccessToken; collectStats) >>= fun _ =>
        dispatch prices route >>= fun _ => renderPage := by
    unfold afterCheck
    rw [bind_assoc]
  have hkept := (hsafe.final_related ⟨rfl, rfl⟩).kept hr
  rw [hsplit]
  cases hf : (do refreshSpotifyAccessToken; collectStats : Action Unit).run s with
  | error e m =>
      rw [final_of_error hf] at hkept
      rw [final_bind_error hf, EStateM.run_bind, hf]
      exact ⟨hkept.extends, fun _ ht => nomatch ht⟩
  | ok _ m =>
      rw [final_of_ok hf] at hkept
      obtain ⟨m', hm', hcoherent, hext⟩ := haction m hkept
      have hpage := (quiet_renderPage m').kept
      rw [final_bind_ok hf, final_bind_ok hm', EStateM.run_bind, hf]
      refine ⟨hkept.extends.trans (hext.trans hpage.extends), fun t ht => ?_⟩
      change (dispatch prices route >>= fun _ => renderPage).run m = .ok () t at ht
      rw [EStateM.run_bind, hm'] at ht
      have ht' := final_of_ok ht
      rw [ht'] at hpage
      exact hpage.coherent hcoherent

/-- The filters and the action of a request keep a coherent session coherent. -/
theorem afterCheck_coherent (prices : PaymentsController.Prices) {s : Ctx} {route : Route}
    (hroute : s.route = route) (hr : RebuildsAccount s.env) (hs : Coherent s.db.users s.session)
    (hsafe : route = .authCallback → SessionsController.Harmless s) :
    s.db.users.Extends (final (afterCheck prices route) s).db.users ∧
      ∀ t, (afterCheck prices route).run s = .ok () t → Coherent t.db.users t.session := by
  cases hlogin : route.isLogin with
  | false =>
      have hkept : Kept s (final (afterCheck prices route) s) :=
        (safe_afterCheck hlogin hroute).kept hr
      refine ⟨hkept.extends, fun t ht => ?_⟩
      rw [final_of_ok ht] at hkept
      exact hkept.coherent hs
  | true =>
    cases route with
    | authCallback =>
        refine afterCheck_of_action hr fun m hkept => ?_
        refine SessionsController.create_coherent (hkept.coherent hs) fun spotifyUser hauth => ?_
        rw [hkept.failsBetween_iff, hkept.ownAccount_iff, hkept.env]
        rw [hkept.env] at hauth
        exact hsafe rfl spotifyUser hauth
    | logout =>
        refine afterCheck_of_action hr fun m hkept => ⟨_, rfl, ?_, Users.Extends.refl _⟩
        intro uid huid
        cases huid
    | _ => cases hlogin

/-- A login over a session of another account fails nowhere between its two writes. -/
def FailsNotBetween (sys : System) : Step → Prop
  | .request r => r.route = .authCallback → ∀ spotifyUser, r.env.auth = some spotifyUser →
      r.env.raises .toHash = true ∨ ¬ FailsBetween sys.db r.env spotifyUser ∨
        OwnAccount sys.db.users (sys.sessionOf r) spotifyUser
  | _ => True

/-- Every browser's session is coherent. -/
def CookiesCoherent (sys : System) : Prop := ∀ b, Coherent sys.db.users (sys.cookies b)

theorem coherent_sessionOf {sys : System} (h : CookiesCoherent sys) (r : Request) :
    Coherent sys.db.users (sys.sessionOf r) := by
  unfold System.sessionOf
  split
  · intro uid huid
    cases huid
  · exact h r.browser

/-- **One request.** -/
theorem serve_coherent {sys : System} {r : Request} (h : CookiesCoherent sys)
    (hr : RebuildsAccount r.env) (hsafe : FailsNotBetween sys (.request r)) :
    CookiesCoherent (serve prices sys r) := by
  have hstart : Coherent (sys.start r).db.users (sys.start r).session := coherent_sessionOf h r
  have hrun : (process prices r.route).run (sys.start r) = _ := process_run r.route (sys.start r)
  rw [EStateM.run_bind] at hrun
  -- the users only ever grow, and a request that returns leaves a coherent session
  have hend : sys.db.users.Extends (final (process prices r.route) (sys.start r)).db.users ∧
      ∀ t, (process prices r.route).run (sys.start r) = .ok () t →
        Coherent t.db.users t.session := by
    rcases checkStripeSubscription_run (sys.start r).identified with
      ⟨m, hm, hc⟩ | ⟨e, t, ht, hq⟩
    · rw [hm] at hrun
      have hkept := hc.kept
      have hafter := afterCheck_coherent prices
        hc.frame.2.1 (by rw [hkept.env]; exact hr) (hkept.coherent hstart) (by
          intro hroute spotifyUser hauth
          rw [hkept.failsBetween_iff, hkept.ownAccount_iff, hkept.env]
          rw [hkept.env] at hauth
          exact hsafe hroute spotifyUser hauth)
      refine ⟨?_, fun t ht => hafter.2 t (hrun.symm.trans ht)⟩
      have hfinal : final (process prices r.route) (sys.start r) =
          final (afterCheck prices r.route) m := by
        unfold final
        rw [hrun]
      rw [hfinal]
      exact hkept.extends.trans hafter.1
    · rw [ht] at hrun
      refine ⟨?_, fun t' ht' => by rw [hrun] at ht'; cases ht'⟩
      rw [final_of_error hrun]
      exact hq.kept.extends
  obtain ⟨hext, hcoherent⟩ := hend
  intro b
  unfold serve
  cases hp : (process prices r.route).run (sys.start r) with
  | error e t =>
      rw [final_of_error hp] at hext
      exact coherent_extends (h b) hext
  | ok _ t =>
      rw [final_of_ok hp] at hext
      show Coherent t.db.users (sys.commit r t.session b)
      unfold System.commit
      split
      · exact coherent_extends (h b) hext
      · by_cases hb : b = r.browser
        · rw [hb, Function.update_self]
          exact hcoherent t hp
        · rw [Function.update_of_ne hb]
          exact coherent_extends (h b) hext

/-- **Session coherence.**  In every run in which no login over a session of another account fails
between its two writes, every session that names a user and an account names a stored user of that
account. -/
theorem sessions_coherent {sys₀ sys : System} {steps : List Step} (h₀ : CookiesCoherent sys₀)
    (hrebuild : ∀ r, Step.request r ∈ steps → RebuildsAccount r.env)
    (hguard : StepRun.Along (step prices) FailsNotBetween sys₀ steps)
    (hrun : StepRun.run (step prices) sys₀ steps = some sys) :
    ∀ b uid spotifyUser, (sys.cookies b).userId = some uid →
      (sys.cookies b).spotifyUserData = some spotifyUser →
      ∃ user, sys.db.users.findById uid = some user ∧ user.spotifyId = spotifyUser.id := by
  have hall : CookiesCoherent sys := by
    refine StepRun.run_invariant_along (fun sys a sys' hs hg hstep => ?_) h₀
      (hguard.and_labels (request_labels hrebuild)) hrun
    cases a with
    | request r =>
        cases hstep
        exact serve_coherent hs (hg.2 r rfl) hg.1
    | payment sessionId customer =>
        cases hstep
        exact hs
    | statsJob user genres =>
        cases hstep
        exact hs
  intro b uid spotifyUser huid hdata
  obtain ⟨user, huser, hsame⟩ := hall b uid huid
  exact ⟨user, huser, hsame spotifyUser hdata⟩

namespace Sample

def bob : SpotifyUser := ⟨"bob", some "Bob", some [], some "token"⟩

/-- Browser 0 comes back from the login of an account; `raises` are the failures. -/
def login (account : SpotifyUser) (raises : Call → Bool) : Step :=
  .request
    { browser := 0, route := .authCallback, env := { auth := some account, raises := raises } }

/-- The system after two logins in one browser. -/
def twoLogins (raises : Call → Bool) : System :=
  (StepRun.run (step priceIds) .initial [login ada fun _ => false, login bob raises]).getD
    .initial

theorem not_failsBetween (db : Database) (account : SpotifyUser)
    (himages : account.images ≠ none)
    (hprofile : ∀ id, (db.users.findBySpotifyId account.id).map User.id ≠ some id) :
    ¬ FailsBetween db { auth := some account } account := by
  rintro (h | ⟨-, c, h⟩ | h | ⟨id, h, -⟩ | h | h)
  · cases h
  · cases h
  · cases h
  · exact hprofile id h
  · exact himages h
  · cases h

end Sample

/-- A second login in one browser that succeeds leaves the second user with its own account. -/
theorem second_login_coherent :
    ∃ user, (Sample.twoLogins fun _ => false).db.users.findById 1 = some user ∧
      user.spotifyId = "bob" := by
  have hrun : StepRun.run (step Sample.priceIds) .initial
      [Sample.login Sample.ada fun _ => false, Sample.login Sample.bob fun _ => false] =
      some (Sample.twoLogins fun _ => false) := rfl
  refine sessions_coherent ?_ ?_ ?_ hrun 0 1 Sample.bob rfl rfl
  · intro b uid huid
    cases huid
  · intro r hr old new hnew
    simp only [Sample.login, List.mem_cons, Step.request.injEq, List.not_mem_nil, or_false] at hr
    rcases hr with rfl | rfl <;> cases hnew <;> rfl
  · refine ⟨fun _ account haccount => ?_, fun t ht => ⟨fun _ account haccount => ?_, ?_⟩⟩
    · cases haccount
      exact .inr (.inl (Sample.not_failsBetween _ _ (by decide) fun id h => nomatch h))
    · cases haccount
      cases ht
      exact .inr (.inl (Sample.not_failsBetween _ _ (by decide) fun id h => nomatch h))
    · exact fun _ _ => trivial

/-- A second login that fails after the Spotify data are stored leaves the session of the first
user with the account of the second. -/
theorem failed_login_incoherent :
    ¬ ∀ (prices : PaymentsController.Prices) (sys : System) (steps : List Step),
      (∀ r, Step.request r ∈ steps → RebuildsAccount r.env) →
      StepRun.run (step prices) .initial steps = some sys →
      ∀ b uid spotifyUser, (sys.cookies b).userId = some uid →
        (sys.cookies b).spotifyUserData = some spotifyUser →
        ∃ user, sys.db.users.findById uid = some user ∧ user.spotifyId = spotifyUser.id := by
  intro h
  have hcoherent := h Sample.priceIds (Sample.twoLogins fun c => c == .saveUsername)
    [Sample.login Sample.ada fun _ => false, Sample.login Sample.bob fun c => c == .saveUsername]
    (by
      intro r hr old new hnew
      simp only [Sample.login, List.mem_cons, Step.request.injEq, List.not_mem_nil, or_false] at hr
      rcases hr with rfl | rfl <;> cases hnew <;> rfl) rfl 0 0 Sample.bob rfl rfl
  obtain ⟨user, huser, hid⟩ := hcoherent
  have hada : (Sample.twoLogins fun c => c == .saveUsername).db.users.findById 0 =
      some ⟨0, "ada", some "Ada"⟩ := rfl
  rw [hada] at huser
  cases huser
  exact absurd hid (by decide)

end Knoiz
