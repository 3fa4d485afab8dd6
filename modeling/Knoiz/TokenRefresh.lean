import Knoiz.PlaylistCharge

/-!
# Three refreshes of one token

The service behind every request, the filter of `create_playlist` and the filter of the statistics
pages ask RSpotify to rebuild the user of the session when the profile is more than an hour old.
The service stamps the profile and leaves the session; the filter of `create_playlist` writes both;
the one of the statistics pages writes the session, and raises before it comes to the profile.  The
results say that the two filters never agree, and in which runs a fresh profile goes with a rebuilt
session.
-/

namespace Knoiz

open ProgramLogic Relation RowTable

variable {prices : PaymentsController.Prices}

/-! ### The clock during a refresh -/

/-- What the `n`-th reading of the clock from here gives. -/
def Ctx.reading (s : Ctx) (n : ℕ) : ℤ := s.clock + (s.delays.take n).sum

/-- The clock has been read `n` times, and nothing has changed but the session, the users and the
profiles. -/
structure Ticked (n : ℕ) (s t : Ctx) : Prop where
  subscriptions : t.db.subscriptions = s.db.subscriptions
  wallets : t.db.wallets = s.db.wallets
  currentUser : t.currentUser = s.currentUser
  route : t.route = s.route
  env : t.env = s.env
  location : t.location = s.location
  reading : ∀ k, t.reading k = s.reading (n + k)

theorem Ticked.trans {n k : ℕ} {s m t : Ctx} (h : Ticked n s m) (h' : Ticked k m t) :
    Ticked (n + k) s t :=
  ⟨h'.subscriptions.trans h.subscriptions, h'.wallets.trans h.wallets,
    h'.currentUser.trans h.currentUser, h'.route.trans h.route, h'.env.trans h.env,
    h'.location.trans h.location,
    fun j => by rw [h'.reading, h.reading, Nat.add_assoc]⟩

theorem ticked_gated (s : Ctx) (id : ℕ) (row : Subscription) : Ticked 0 s (s.gated id row) :=
  ⟨rfl, rfl, rfl, rfl, rfl, rfl, fun k => by rw [Nat.zero_add]; rfl⟩

theorem currentTime_ticked (s : Ctx) :
    ∃ t, currentTime.run s = .ok (s.reading 1) t ∧ Ticked 1 s t ∧ Quiet s t := by
  unfold currentTime Ctx.reading
  simp only [EStateM.run_bind, EStateM.run_get]
  cases hdelays : s.delays with
  | nil =>
      have hclock : s.clock + (([] : List ℕ).take 1).sum = s.clock := Int.add_zero _
      rw [hclock]
      refine ⟨s, rfl, ⟨rfl, rfl, rfl, rfl, rfl, rfl, fun k => ?_⟩, Quiet.refl s⟩
      unfold Ctx.reading
      rw [hdelays, List.take_nil, List.take_nil]
  | cons d ds =>
      refine ⟨{ s with clock := s.clock + d, delays := ds }, rfl,
        ⟨rfl, rfl, rfl, rfl, rfl, rfl, fun k => ?_⟩, ⟨rfl, rfl, rfl, rfl, rfl, rfl, rfl, ?_⟩⟩
      · unfold Ctx.reading
        rw [hdelays, Nat.add_comm 1 k, List.take_succ_cons, List.sum_cons, Nat.cast_add]
        exact Int.add_assoc _ _ _
      · show s.clock ≤ s.clock + d
        omega

/-- With a profile the test reads the clock once. -/
theorem tokenNeedsRefresh_of_profile {s : Ctx} {id : ℕ} {profile : Profile}
    (hid : s.currentUser = some id) (hrow : s.db.profiles.lookup id = some profile) :
    ∃ due t, tokenNeedsRefresh.run s = .ok due t ∧ Quiet s t ∧ Ticked 1 s t := by
  obtain ⟨t, ht, hticked, hq⟩ := currentTime_ticked s
  have hprofile : theProfile.run s = .ok profile s := theRow_run hid hrow
  refine ⟨profile.stale (s.reading 1), t, ?_, hq, hticked⟩
  unfold tokenNeedsRefresh
  simp only [EStateM.run_bind, hprofile, ht, EStateM.run_pure]

/-- Without one it asks `nil` for `updated_at`. -/
theorem tokenNeedsRefresh_of_missing {s : Ctx}
    (h : ∀ id, s.currentUser = some id → s.db.profiles.lookup id = none) :
    tokenNeedsRefresh.run s = .error .noMethodError s.nilCalled := by
  have hprofile : theProfile.run s = .error .noMethodError s.nilCalled := by
    cases hid : s.currentUser with
    | none => exact theRow_run_none hid
    | some id => exact theRow_run_missing hid (h id hid)
  unfold tokenNeedsRefresh
  rw [EStateM.run_bind, hprofile]

/-- When it returns, there is a profile. -/
theorem profile_of_tokenNeedsRefresh {s m : Ctx} {due : Bool}
    (h : tokenNeedsRefresh.run s = .ok due m) :
    ∃ id profile, s.currentUser = some id ∧ s.db.profiles.lookup id = some profile := by
  by_contra hmissing
  have hrun : tokenNeedsRefresh.run s = .error .noMethodError s.nilCalled := by
    apply tokenNeedsRefresh_of_missing
    intro id hid
    cases hrow : s.db.profiles.lookup id with
    | none => rfl
    | some profile => exact absurd ⟨id, profile, hid, hrow⟩ hmissing
  cases hrun.symm.trans h

theorem ticked_tokenNeedsRefresh {s m : Ctx} {due : Bool}
    (h : tokenNeedsRefresh.run s = .ok due m) : Ticked 1 s m := by
  obtain ⟨id, profile, hid, hrow⟩ := profile_of_tokenNeedsRefresh h
  obtain ⟨due', t, hrun, -, hticked⟩ := tokenNeedsRefresh_of_profile hid hrow
  cases hrun.symm.trans h
  exact hticked

/-! ### The updates of a refresh -/

/-- What the service and `HomeController` do with the rebuilt user. -/
def saveRefreshed (username profile : Call) (id : ℕ) (data : SpotifyUser) : Action Unit := do
  call username
  modifyDb fun db => { db with users := db.users.rename id data.displayName }
  let now ← currentTime
  let image ← firstImageUrl data
  call profile
  saveProfileOf id fun p => { p with timestamp := some now, image := image }

theorem refresherImage_eq (data : SpotifyUser) : refresherImage data = firstImageUrl data := by
  unfold refresherImage firstImageUrl
  match data.images with
  | none | some [] | some (_ :: _) => rfl

theorem refresherUpdateUserProfile_eq (data : SpotifyUser) :
    refresherUpdateUserProfile data = theUser >>= fun id =>
      saveRefreshed .refresherUsername .refresherProfile id data := by
  unfold refresherUpdateUserProfile
  rw [refresherImage_eq]
  rfl

/-- `session[:spotify_user_data] = …`. -/
def Ctx.withData (s : Ctx) (data : SpotifyUser) : Ctx :=
  { s with session := { s.session with spotifyUserData := some data } }

theorem HomeController.updateSpotifyData_eq (new : SpotifyUser) :
    updateSpotifyData new = (modify fun s => s.withData new) >>= fun _ => theUser >>= fun id =>
      saveRefreshed .homeUsername .homeProfile id new := rfl

/-- There is a list of images, and neither UPDATE raises. -/
structure Saves (username profile : Call) (data : SpotifyUser) (env : Env) : Prop where
  images : data.images.isSome = true
  username : env.raises username = false
  profile : env.raises profile = false

/-- The updates complete, or the profiles are as they were. -/
theorem saveRefreshed_run (username profile : Call) (id : ℕ) (data : SpotifyUser) (s : Ctx) :
    (∃ t, (saveRefreshed username profile id data).run s = .ok () t ∧ t.session = s.session ∧
        Ticked 2 s t ∧ Saves username profile data s.env) ∨
      ∃ e t, (saveRefreshed username profile id data).run s = .error e t ∧
        t.db.profiles = s.db.profiles ∧ ¬ Saves username profile data s.env := by
  unfold saveRefreshed call modifyDb
  simp only [EStateM.run_bind, EStateM.run_get]
  cases husername : s.env.raises username with
  | true =>
      refine .inr ⟨_, s, rfl, rfl, fun h => ?_⟩
      have hclean := h.username
      rw [husername] at hclean
      cases hclean
  | false =>
    obtain ⟨a, ha⟩ : ∃ a : Ctx, a =
        { s with db := { s.db with users := s.db.users.rename id data.displayName } } := ⟨_, rfl⟩
    have hrename : (modify (fun s : Ctx => { s with db :=
        { s.db with users := s.db.users.rename id data.displayName } }) : Action Unit).run s =
        .ok () a := by
      rw [ha]
      rfl
    have hsa : Ticked 0 s a := by
      rw [ha]
      exact ⟨rfl, rfl, rfl, rfl, rfl, rfl, fun k => by rw [Nat.zero_add]; rfl⟩
    obtain ⟨b, hb, hab, hq⟩ := currentTime_ticked a
    have hprofiles : b.db.profiles = s.db.profiles := by rw [hq.db, ha]
    have hsession : b.session = s.session := by rw [hq.session, ha]
    have hsb : Ticked 1 s b := hsa.trans hab
    have henv : b.env = s.env := hsb.env
    simp only [Bool.false_eq_true, if_false, EStateM.run_pure, hrename, hb]
    unfold firstImageUrl
    cases himages : data.images with
    | none =>
        refine .inr ⟨_, b, rfl, hprofiles, fun h => ?_⟩
        have hsome := h.images
        rw [himages] at hsome
        cases hsome
    | some images =>
      simp only [EStateM.run_pure, henv]
      cases hprofile : s.env.raises profile with
      | true =>
          refine .inr ⟨_, b, rfl, hprofiles, fun h => ?_⟩
          have hclean := h.profile
          rw [hprofile] at hclean
          cases hclean
      | false =>
          obtain ⟨c, hc, hbc, hq'⟩ := currentTime_ticked b
          have hsome : data.images.isSome = true := by rw [himages]; rfl
          have hsc : Ticked 2 s c := hsb.trans hbc
          unfold saveProfileOf modifyDb
          simp only [Bool.false_eq_true, if_false, EStateM.run_pure, EStateM.run_bind, hc]
          refine .inl ⟨_, rfl, hq'.session.trans hsession, ?_, hsome, husername, hprofile⟩
          exact ⟨hsc.subscriptions, hsc.wallets, hsc.currentUser, hsc.route, hsc.env, hsc.location,
            hsc.reading⟩

/-! ### The refreshes -/

/-- A refresh that starts in `s` goes through: the profile is due, and RSpotify rebuilds the hash that
the session holds to a user with which the updates complete. -/
structure GoesThrough (username profile : Call) (old new : SpotifyUser) (s : Ctx) : Prop where
  due : ∃ m, tokenNeedsRefresh.run s = .ok true m
  held : s.session.spotifyUserData = some old
  rebuilt : s.env.rspotifyUser old = some new
  saves : Saves username profile new s.env

theorem rspotifyUserNew_run (hash : Option SpotifyUser) (s : Ctx) :
    (∃ old new, hash = some old ∧ s.env.rspotifyUser old = some new ∧
        (rspotifyUserNew hash).run s = .ok new s) ∨
      (hash.bind s.env.rspotifyUser = none ∧
        (rspotifyUserNew hash).run s = .error .noMethodError s) := by
  unfold rspotifyUserNew
  simp only [EStateM.run_bind, EStateM.run_get]
  cases hnew : hash.bind s.env.rspotifyUser with
  | none => exact .inr ⟨rfl, rfl⟩
  | some new =>
      obtain ⟨old, hold, hrebuilt⟩ := Option.bind_eq_some_iff.mp hnew
      exact .inl ⟨old, new, hold, hrebuilt, rfl⟩

/-- A refresh asks first whether the profile is due. -/
def whenDue (refresh : Action Unit) : Action Unit := do
  if ← tokenNeedsRefresh then refresh

/-- Nothing is written, or the refresh begins. -/
theorem whenDue_run (refresh : Action Unit) (s : Ctx) :
    Noted s (final (whenDue refresh) s) ∨
      ∃ m, tokenNeedsRefresh.run s = .ok true m ∧ Noted s m ∧
        (whenDue refresh).run s = refresh.run m := by
  have hneeds : Noted s (final tokenNeedsRefresh s) := Within.final within_tokenNeedsRefresh s
  unfold whenDue
  cases hdue : tokenNeedsRefresh.run s with
  | error e m =>
      rw [final_of_error hdue] at hneeds
      rw [final_bind_error hdue]
      exact .inl hneeds
  | ok due m =>
      rw [final_of_ok hdue] at hneeds
      rw [final_bind_ok hdue]
      cases due with
      | false => exact .inl hneeds
      | true =>
          refine .inr ⟨m, rfl, hneeds, ?_⟩
          rw [EStateM.run_bind, hdue]
          rfl

/-- What the service does once it has found the profile due. -/
def rebuildAndSave : Action Unit := do
  let s ← get
  tryCatch
    (do
      let newSpotifyUser ← rspotifyUserNew s.session.spotifyUserData
      refresherUpdateUserProfile newSpotifyUser)
    (fun _ => return)

theorem rebuildAndSave_profiles {id : ℕ} {s : Ctx} (hid : s.currentUser = some id) :
    (final rebuildAndSave s).db.profiles = s.db.profiles ∨
      ∃ old new, s.session.spotifyUserData = some old ∧ s.env.rspotifyUser old = some new ∧
        Saves .refresherUsername .refresherProfile new s.env := by
  have hget : (get : Action Ctx).run s = .ok s s := rfl
  unfold rebuildAndSave
  rw [final_bind_ok hget, final_of_ok (run_rescue_return _ s)]
  rcases rspotifyUserNew_run s.session.spotifyUserData s with
    ⟨old, new, hold, hrebuilt, hrun⟩ | ⟨-, hrun⟩
  · rw [final_bind_ok hrun, refresherUpdateUserProfile_eq, final_bind_ok (theUser_run hid)]
    rcases saveRefreshed_run .refresherUsername .refresherProfile id new s with
      ⟨t, -, -, -, hsaves⟩ | ⟨e, t, hrun, hprofiles, -⟩
    · exact .inr ⟨old, new, hold, hrebuilt, hsaves⟩
    · rw [final_of_error hrun]
      exact .inl hprofiles
  · rw [final_bind_error hrun]
    exact .inl rfl

/-- **The service.**  It changes no profile unless it goes through. -/
theorem refreshSpotifyAccessToken_profiles {id : ℕ} {s : Ctx} (hid : s.currentUser = some id) :
    (final refreshSpotifyAccessToken s).db.profiles = s.db.profiles ∨
      ∃ old new, GoesThrough .refresherUsername .refresherProfile old new s := by
  have hrun : refreshSpotifyAccessToken.run s = (whenDue (whenDue rebuildAndSave)).run s := by
    unfold refreshSpotifyAccessToken
    simp only [EStateM.run_bind, EStateM.run_get, hid]
    rfl
  rw [final_congr hrun]
  rcases whenDue_run (whenDue rebuildAndSave) s with hnoted | ⟨m, hdue, hsm, hrun⟩
  · exact .inl (congrArg Database.profiles hnoted.db)
  rw [final_congr hrun]
  rcases whenDue_run rebuildAndSave m with hnoted | ⟨n, -, hmn, hrun⟩
  · exact .inl (congrArg Database.profiles (hnoted.db.trans hsm.db))
  rw [final_congr hrun]
  have hsn : Noted s n := IsTrans.trans _ _ _ hsm hmn
  rcases rebuildAndSave_profiles (hsn.currentUser.trans hid) with
    hkept | ⟨old, new, hold, hrebuilt, hsaves⟩
  · exact .inl (hkept.trans (congrArg Database.profiles hsn.db))
  · rw [hsn.session] at hold
    rw [hsn.env] at hrebuilt hsaves
    exact .inr ⟨old, new, ⟨m, hdue⟩, hold, hrebuilt, hsaves⟩

namespace HomeController

/-- **The filter of `create_playlist`.**  It changes no profile, or goes through and leaves the
rebuilt user in the session. -/
theorem refreshAccessToken_run {id : ℕ} {s : Ctx} (hid : s.currentUser = some id) :
    (final refreshAccessToken s).db.profiles = s.db.profiles ∨
      ∃ old new t, GoesThrough .homeUsername .homeProfile old new s ∧
        refreshAccessToken.run s = .ok () t ∧
        t.session = { s.session with spotifyUserData := some new } ∧ Ticked 3 s t := by
  have heq : refreshAccessToken = whenDue (do
      let s ← get
      let newSpotifyUser ← rspotifyUserNew s.session.spotifyUserData
      updateSpotifyData newSpotifyUser) := rfl
  rw [heq]
  rcases whenDue_run _ s with hnoted | ⟨m, hdue, hsm, hrun⟩
  · exact .inl (congrArg Database.profiles hnoted.db)
  rw [final_congr hrun, hrun]
  have hprofiles : m.db.profiles = s.db.profiles := congrArg Database.profiles hsm.db
  have hget : (get : Action Ctx).run m = .ok m m := rfl
  rw [final_bind_ok hget, EStateM.run_bind, hget]
  rcases rspotifyUserNew_run m.session.spotifyUserData m with
    ⟨old, new, hold, hrebuilt, hnew⟩ | ⟨-, hnew⟩
  · have hwrite : (modify fun s => s.withData new : Action Unit).run m = .ok () (m.withData new) :=
      rfl
    have huser : theUser.run (m.withData new) = .ok id (m.withData new) :=
      theUser_run (hsm.currentUser.trans hid)
    rw [final_bind_ok hnew, updateSpotifyData_eq, final_bind_ok hwrite, final_bind_ok huser]
    simp only [EStateM.run_bind, hnew, updateSpotifyData_eq, hwrite, huser]
    rcases saveRefreshed_run .homeUsername .homeProfile id new (m.withData new) with
      ⟨t, hsaved, hsession, hticked, hsaves⟩ | ⟨e, t, hfailed, hkept, -⟩
    · rw [hsm.session] at hold
      rw [hsm.env] at hrebuilt
      have hsaves' : Saves .homeUsername .homeProfile new s.env := by
        rw [← hsm.env]
        exact hsaves
      have hmt : Ticked 2 m t := ⟨hticked.subscriptions, hticked.wallets, hticked.currentUser,
        hticked.route, hticked.env, hticked.location, hticked.reading⟩
      refine .inr ⟨old, new, t, ⟨⟨m, hdue⟩, hold, hrebuilt, hsaves'⟩, hsaved, ?_,
        (ticked_tokenNeedsRefresh hdue).trans hmt⟩
      rw [hsession, ← hsm.session]
      rfl
    · rw [final_of_error hfailed]
      exact .inl (hkept.trans hprofiles)
  · rw [final_bind_error hnew]
    exact .inl hprofiles

end HomeController

namespace StatsController

/-- The refresh writes the rebuilt user to the session and raises; it does not come to the database.
-/
theorem refreshThenUpdate_run (s : Ctx) :
    (s.session.spotifyUserData.bind s.env.rspotifyUser = none ∧
        (refreshSpotifyUserData >>= fun _ => updateUserProfile).run s = .error .noMethodError s) ∨
      ∃ new t, s.session.spotifyUserData.bind s.env.rspotifyUser = some new ∧
        (refreshSpotifyUserData >>= fun _ => updateUserProfile).run s = .error .nameError t ∧
        t.db = s.db ∧ t.session = { s.session with spotifyUserData := some new } := by
  unfold refreshSpotifyUserData updateUserProfile
  simp only [EStateM.run_bind, EStateM.run_get]
  rcases rspotifyUserNew_run s.session.spotifyUserData s with
    ⟨old, new, hold, hrebuilt, hrun⟩ | ⟨hnone, hrun⟩
  · obtain ⟨t, ht, hq⟩ := currentTime_run (s.withData new)
    have hnew : s.session.spotifyUserData.bind s.env.rspotifyUser = some new := by
      rw [hold, Option.bind_some, hrebuilt]
    have hwrite : (modify fun s : Ctx => { s with session :=
        { s.session with spotifyUserData := some new } } : Action Unit).run s =
        .ok () (s.withData new) := rfl
    simp only [hrun, hwrite, ht]
    exact .inr ⟨new, t, hnew, rfl, hq.db, hq.session⟩
  · left
    refine ⟨hnone, ?_⟩
    simp only [hrun]

theorem accessTokenRefreshing_of_user {id : ℕ} {s : Ctx} (hid : s.session.userId = some id) :
    accessTokenRefreshing.run s =
      (whenDue (refreshSpotifyUserData >>= fun _ => updateUserProfile)).run s := by
  unfold accessTokenRefreshing needToRefreshToken whenDue
  simp only [EStateM.run_bind, EStateM.run_get, hid]
  rfl

/-- **The filter of the statistics pages.**  It changes no profile. -/
theorem accessTokenRefreshing_db (s : Ctx) : (final accessTokenRefreshing s).db = s.db := by
  cases hid : s.session.userId with
  | none =>
      have hrun : accessTokenRefreshing.run s = .ok () s := by
        unfold accessTokenRefreshing needToRefreshToken
        simp only [EStateM.run_bind, EStateM.run_get, hid]
        rfl
      rw [final_of_ok hrun]
  | some id =>
    rw [final_congr (accessTokenRefreshing_of_user hid)]
    rcases whenDue_run _ s with hnoted | ⟨m, -, hsm, hrun⟩
    · exact hnoted.db
    · rw [final_congr hrun, ← hsm.db]
      rcases refreshThenUpdate_run m with ⟨-, hrun⟩ | ⟨new, t, -, hrun, hdb, -⟩
      · rw [final_of_error hrun]
      · rw [final_of_error hrun, hdb]

/-- A refresh that is due and for which the user is rebuilt raises. -/
theorem accessTokenRefreshing_raises {id : ℕ} {s m : Ctx} {old new : SpotifyUser}
    (hid : s.session.userId = some id) (hdue : tokenNeedsRefresh.run s = .ok true m)
    (hold : s.session.spotifyUserData = some old) (hrebuilt : s.env.rspotifyUser old = some new) :
    ∃ t, accessTokenRefreshing.run s = .error .nameError t ∧ t.db = s.db ∧
      t.session = { s.session with spotifyUserData := some new } := by
  have hsm : Noted s m := (Within.of_spec within_tokenNeedsRefresh).of_ok trivial hdue |>.1
  have hdue' : (whenDue (refreshSpotifyUserData >>= fun _ => updateUserProfile)).run s =
      (refreshSpotifyUserData >>= fun _ => updateUserProfile).run m := by
    unfold whenDue
    rw [EStateM.run_bind, hdue]
    rfl
  rw [accessTokenRefreshing_of_user hid, hdue', ← hsm.db, ← hsm.session]
  rcases refreshThenUpdate_run m with ⟨hnone, -⟩ | ⟨new', t, hnew, hrun, hdb, hsession⟩
  · rw [hsm.session, hsm.env, hold, Option.bind_some, hrebuilt] at hnone
    cases hnone
  · rw [hsm.session, hsm.env, hold, Option.bind_some, hrebuilt] at hnew
    cases hnew
    exact ⟨t, hrun, hdb, hsession⟩

end StatsController

/-! ### The two filters compared -/

/-- A logged-in user with all rows, whose profile is due and whose user RSpotify rebuilds with a list
of images. -/
structure Refreshable (id : ℕ) (s : Ctx) : Prop where
  session : s.session.userId = some id
  currentUser : s.currentUser = some id
  user : (s.db.users.findById id).isSome = true
  subscription : (s.db.subscriptions.lookup id).isSome = true
  profile : (s.db.profiles.lookup id).isSome = true
  wallet : (s.db.wallets.lookup id).isSome = true
  spotifydata : (s.db.spotifydata.lookup id).isSome = true
  due : ∃ m, tokenNeedsRefresh.run s = .ok true m
  rebuilt : ∃ old new, s.session.spotifyUserData = some old ∧
    s.env.rspotifyUser old = some new ∧ new.images.isSome = true

/-- The filter of the statistics pages returns, with the session data, the user name and the profile
that the filter of `create_playlist` would have left. -/
def RefreshesAgree (id : ℕ) (s : Ctx) : Prop :=
  ∃ t, StatsController.accessTokenRefreshing.run s = .ok () t ∧
    t.session.spotifyUserData =
      (final HomeController.refreshAccessToken s).session.spotifyUserData ∧
    (t.db.users.findById id).map User.username =
      ((final HomeController.refreshAccessToken s).db.users.findById id).map User.username ∧
    (t.db.profiles.lookup id).map (fun p => (p.timestamp, p.image)) =
      ((final HomeController.refreshAccessToken s).db.profiles.lookup id).map fun p =>
        (p.timestamp, p.image)

/-- **The two filters never agree.**  Whenever a refresh is due and the user is rebuilt, the filter of
the statistics pages raises. -/
theorem refreshes_never_agree {id : ℕ} {s : Ctx} (h : Refreshable id s) :
    ¬ RefreshesAgree id s := by
  rintro ⟨t, hreturns, -⟩
  obtain ⟨m, hdue⟩ := h.due
  obtain ⟨old, new, hold, hrebuilt, -⟩ := h.rebuilt
  obtain ⟨t', hraises, -⟩ :=
    StatsController.accessTokenRefreshing_raises h.session hdue hold hrebuilt
  cases hreturns.symm.trans hraises

namespace Sample

/-- Spotify renews the token. -/
def renewed (old : SpotifyUser) : SpotifyUser := { old with token := some "renewed" }

/-- An hour and a second later browser 0 asks for a page, and the service fails to save the name. -/
def lateRequest (route : Route) (raises : Call → Bool) : Request where
  browser := 0
  route := route
  env := { delays := [3601000000], raises := raises, rspotifyUser := some ∘ renewed }

/-- The state in which the filter of the statistics pages starts its refresh. -/
def staleProfile : Ctx :=
  final StatsController.ensureLoggedIn <| final applicationFilters <|
    loggedIn.start (lateRequest .statsIndex fun c => c == .refresherUsername)

theorem staleProfile_refreshable : Refreshable 0 staleProfile :=
  ⟨rfl, rfl, rfl, rfl, rfl, rfl, rfl, ⟨_, rfl⟩, _, _, rfl, rfl, rfl⟩

end Sample

/-- The service has failed, and the page is left to its own refresh. -/
theorem swallowed_failure_raises : ¬ RefreshesAgree 0 Sample.staleProfile :=
  refreshes_never_agree Sample.staleProfile_refreshable

/-- The same state refutes the agreement. -/
theorem stats_refresh_differs :
    ¬ ∀ (id : ℕ) (s : Ctx), Refreshable id s → RefreshesAgree id s := by
  intro h
  obtain ⟨t, hreturns, -⟩ := h 0 Sample.staleProfile Sample.staleProfile_refreshable
  cases hreturns

end Knoiz
