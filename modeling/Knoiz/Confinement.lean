import Knoiz.SessionCoherence

/-!
# Whose rows a request writes

A request writes the five rows of the user that it runs as, and a login those of the account that
it is a login of.  The rows of everybody else stay as they are, whatever raises in between, and so
does a user through every run in which it has no part.
-/

namespace Knoiz

open ProgramLogic Relation RowTable

/-- The rows of user `k` are the same in both databases. -/
structure SameRows (k : ℕ) (db db' : Database) : Prop where
  user : db'.users.findById k = db.users.findById k
  subscription : db'.subscriptions.lookup k = db.subscriptions.lookup k
  profile : db'.profiles.lookup k = db.profiles.lookup k
  wallet : db'.wallets.lookup k = db.wallets.lookup k
  spotifydata : db'.spotifydata.lookup k = db.spotifydata.lookup k

variable {k id : ℕ} {db db' db'' : Database}

theorem SameRows.refl (k : ℕ) (db : Database) : SameRows k db db := ⟨rfl, rfl, rfl, rfl, rfl⟩

theorem SameRows.symm (h : SameRows k db db') : SameRows k db' db :=
  ⟨h.user.symm, h.subscription.symm, h.profile.symm, h.wallet.symm, h.spotifydata.symm⟩

theorem SameRows.trans (h : SameRows k db db') (h' : SameRows k db' db'') :
    SameRows k db db'' :=
  ⟨h'.user.trans h.user, h'.subscription.trans h.subscription, h'.profile.trans h.profile,
    h'.wallet.trans h.wallet, h'.spotifydata.trans h.spotifydata⟩

/-! ### Writes to the rows of another user -/

theorem sameRows_amendSubscription (h : k ≠ id) (f : Subscription → Subscription) :
    SameRows k db (db.amendSubscription id f) :=
  ⟨rfl, lookup_amend_of_ne h f _, rfl, rfl, rfl⟩

theorem sameRows_amendProfile (h : k ≠ id) (f : Profile → Profile) :
    SameRows k db (db.amendProfile id f) :=
  ⟨rfl, rfl, lookup_amend_of_ne h f _, rfl, rfl⟩

theorem sameRows_amendWallet (h : k ≠ id) (f : Wallet → Wallet) :
    SameRows k db (db.amendWallet id f) :=
  ⟨rfl, rfl, rfl, lookup_amend_of_ne h f _, rfl⟩

theorem sameRows_amendSpotifydata (h : k ≠ id) (f : Spotifydata → Spotifydata) :
    SameRows k db (db.amendSpotifydata id f) :=
  ⟨rfl, rfl, rfl, rfl, lookup_amend_of_ne h f _⟩

theorem findById_rename_of_ne {us : Users} (h : k ≠ id) (name : Option String) :
    (us.rename id name).findById k = us.findById k := by
  rw [Users.findById_rename]
  cases hu : us.findById k with
  | none => rfl
  | some u =>
      have hid : u.id = k := Users.id_of_findById hu
      have hne : u.id ≠ id := by rw [hid]; exact h
      simp [hne]

theorem sameRows_rename (h : k ≠ id) (name : Option String) :
    SameRows k db { db with users := db.users.rename id name } :=
  ⟨findById_rename_of_ne h name, rfl, rfl, rfl, rfl⟩

theorem sameRows_burn (k : ℕ) (db : Database) :
    SameRows k db { db with users := db.users.burn } :=
  ⟨rfl, rfl, rfl, rfl, rfl⟩

/-- A stored key is below the sequence. -/
theorem Users.lt_seq_of_findById {us : Users} {u : User} (h : us.findById k = some u) :
    k < us.seq := by
  have hid : u.id = k := id_of_findById h
  rw [← hid]
  exact us.fresh u (mem_of_findById h)

theorem lookup_concat_of_ne {ρ : Type} {t : Table ℕ ρ} (h : k ≠ id) (row : ρ) :
    (t ++ [(id, row)]).lookup k = t.lookup k := by
  have hkey : (k == id) = false := by simpa using h
  have hlast : [(id, row)].lookup k = none := by
    rw [List.lookup_cons, hkey]
    rfl
  rw [List.lookup_append, hlast, Option.or_none]

theorem sameRows_withUser {user : User} (hk : db.users.findById k = some user) (now : ℤ)
    (spotifyId : String) : SameRows k db (db.withUser now spotifyId) := by
  have hne : k ≠ db.users.seq := (Users.lt_seq_of_findById hk).ne
  refine ⟨?_, lookup_concat_of_ne hne _, lookup_concat_of_ne hne _, lookup_concat_of_ne hne _,
    lookup_concat_of_ne hne _⟩
  rw [hk]
  exact Users.findById_insert_of_some spotifyId hk

/-! ### A request of another user -/

variable {prices : PaymentsController.Prices} {s t : Ctx}

theorem ne_of_user (hk : s.currentUser ≠ some k) (user : s.currentUser = some id) : k ≠ id := by
  rintro rfl
  exact hk user

theorem Effect.sameRows (h : Effect prices s t) (hk : s.currentUser ≠ some k) :
    SameRows k s.db t.db := by
  cases h with
  | quiet h =>
      rw [h.db]
      exact SameRows.refl k _
  | granted user | customer user => exact sameRows_amendSubscription (ne_of_user hk user) _
  | renamed user name => exact sameRows_rename (ne_of_user hk user) name
  | profile user => exact sameRows_amendProfile (ne_of_user hk user) _
  | stamped user | spent user => exact sameRows_amendWallet (ne_of_user hk user) _
  | statsStamped user => exact sameRows_amendSpotifydata (ne_of_user hk user) _
  | _ => exact SameRows.refl k _

theorem Effects.frame (h : Effects prices s t) :
    t.currentUser = s.currentUser ∧ t.route = s.route ∧ t.env = s.env := by
  induction h with
  | refl => exact ⟨rfl, rfl, rfl⟩
  | tail _ he ih =>
      obtain ⟨huser, hroute, henv⟩ := he.frame
      exact ⟨huser.trans ih.1, hroute.trans ih.2.1, henv.trans ih.2.2⟩

theorem Effects.sameRows (h : Effects prices s t) (hk : s.currentUser ≠ some k) :
    SameRows k s.db t.db := by
  induction h with
  | refl => exact SameRows.refl k _
  | tail hs he ih =>
      refine ih.trans (he.sameRows ?_)
      rw [(Effects.frame hs).1]
      exact hk

theorem Checked.sameRows (h : Checked s t) (hk : s.currentUser ≠ some k) :
    SameRows k s.db t.db := by
  cases h with
  | skipped => exact SameRows.refl k _
  | live h =>
      show SameRows k s.db _
      rw [h.db]
      exact SameRows.refl k _
  | cleared h user =>
      show SameRows k s.db _
      rw [← h.db]
      refine sameRows_amendSubscription (ne_of_user ?_ user) _
      rw [h.currentUser]
      exact hk

/-! ### A login of another account -/

namespace SessionsController

variable {user : User} {spotifyUser : SpotifyUser}

/-- The row that `find_or_create_user` ends with is not the row of another account. -/
theorem findOrCreateUser_sameRows (hk : s.db.users.findById k = some user)
    (hne : spotifyUser.id ≠ user.spotifyId) :
    SameRows k s.db (final (findOrCreateUser spotifyUser) s).db ∧
      ∀ id t, (findOrCreateUser spotifyUser).run s = .ok id t → k ≠ id := by
  unfold findOrCreateUser
  rcases findOrCreateBy_run spotifyUser.id s with ⟨id, m, hrun, hfound⟩ | ⟨e, m, hrun, hnot⟩
  · have hm : SameRows k s.db m.db ∧ k ≠ id := by
      cases hfound with
      | @found found hf _ =>
          refine ⟨SameRows.refl k _, ?_⟩
          rintro rfl
          have hrow := Users.findById_of_mem (List.mem_of_find?_eq_some hf)
          rw [hk, Option.some.injEq] at hrow
          apply hne
          rw [hrow, Users.spotifyId_of_find hf]
      | @created m hq _ _ _ =>
          rw [← hq.db] at hk ⊢
          exact ⟨sameRows_withUser hk _ _, (Users.lt_seq_of_findById hk).ne⟩
    rw [final_bind_ok hrun, EStateM.run_bind, hrun]
    have hcall : (call .saveUsername).run m = .ok () m ∨
        ∃ e, (call .saveUsername).run m = .error e m := by
      unfold call
      simp only [EStateM.run_bind, EStateM.run_get]
      cases m.env.raises .saveUsername with
      | true => exact .inr ⟨_, rfl⟩
      | false => exact .inl rfl
    rcases hcall with hcall | ⟨e, hcall⟩
    · rw [final_bind_ok hcall]
      refine ⟨hm.1.trans (sameRows_rename hm.2 _), fun id' t ht => ?_⟩
      simp only [EStateM.run_bind, hcall] at ht
      cases ht
      exact hm.2
    · rw [final_bind_error hcall]
      refine ⟨hm.1, fun id' t ht => ?_⟩
      simp only [EStateM.run_bind, hcall] at ht
      cases ht
  · rw [final_bind_error hrun, EStateM.run_bind, hrun]
    refine ⟨?_, fun id t ht => nomatch ht⟩
    cases hnot with
    | select => exact SameRows.refl k _
    | create hq =>
        rw [← hq.db]
        exact sameRows_burn k _

theorem updateUserProfile_sameRows (s : Ctx) (spotifyUser : SpotifyUser) (hne : k ≠ id) :
    SameRows k s.db (final (updateUserProfile id spotifyUser) s).db := by
  rcases updateUserProfile_run id spotifyUser s with ⟨m, f, hrun, hupdated⟩ | ⟨e, m, hrun, hq, -⟩
  · rw [final_of_ok hrun, ← hupdated.quiet.db]
    exact sameRows_amendProfile hne f
  · rw [final_of_error hrun, hq.db]
    exact SameRows.refl k _

/-- **Login.**  A login writes the rows of its own account. -/
theorem create_sameRows (hk : s.db.users.findById k = some user)
    (hne : ∀ account, s.env.auth = some account → account.id ≠ user.spotifyId) :
    SameRows k s.db (final create s).db := by
  obtain ⟨t, hrun, hends⟩ := create_run s
  rw [final_of_ok hrun]
  cases hends with
  | rejected => exact SameRows.refl k _
  | @unidentified spotifyUser e t hauth _ hfind =>
      have hfound := findOrCreateUser_sameRows (s := s.storedData spotifyUser) hk
        (hne spotifyUser hauth)
      rw [final_of_error hfind] at hfound
      exact hfound.1
  | @unprofiled spotifyUser id m e t hauth _ hfind hprofile =>
      have hfound := findOrCreateUser_sameRows (s := s.storedData spotifyUser) hk
        (hne spotifyUser hauth)
      have hupdated := updateUserProfile_sameRows m spotifyUser (hfound.2 id m hfind)
      rw [final_of_ok hfind] at hfound
      rw [final_of_error hprofile] at hupdated
      exact hfound.1.trans hupdated
  | @loggedIn spotifyUser id m m' t hauth _ hfind hprofile hwelcome =>
      have hfound := findOrCreateUser_sameRows (s := s.storedData spotifyUser) hk
        (hne spotifyUser hauth)
      have hupdated := updateUserProfile_sameRows m spotifyUser (hfound.2 id m hfind)
      rw [final_of_ok hfind] at hfound
      rw [final_of_ok hprofile] at hupdated
      rw [hwelcome.db]
      exact hfound.1.trans hupdated

end SessionsController

/-! ### Requests, steps and runs -/

theorem afterCheck_eq (route : Route) : afterCheck prices route =
    (do refreshSpotifyAccessToken; collectStats) >>= fun _ =>
      dispatch prices route >>= fun _ => renderPage := by
  unfold afterCheck
  rw [bind_assoc]

theorem effects_filters (s : Ctx) : Effects prices s
    (final (do refreshSpotifyAccessToken; collectStats : Action Unit) s) := by
  have hsafe : Safe prices s.currentUser s.route (do refreshSpotifyAccessToken; collectStats) :=
    Safe.bind safe_refreshSpotifyAccessToken fun _ => safe_collectStats
  exact hsafe.final_related ⟨rfl, rfl⟩

variable (prices) in
/-- After the check, the filters are a sequence of effects; where they return, the controller runs,
and rendering the page changes nothing. -/
theorem afterCheck_final (route : Route) (s : Ctx) :
    ∃ m, Effects prices s m ∧ (final (afterCheck prices route) s = m ∨
      Quiet (final (dispatch prices route) m) (final (afterCheck prices route) s)) := by
  have hfilters : Effects prices s _ := effects_filters s
  rw [afterCheck_eq]
  cases hf : (do refreshSpotifyAccessToken; collectStats : Action Unit).run s with
  | error e m =>
      rw [final_of_error hf] at hfilters
      exact ⟨m, hfilters, .inl (final_bind_error hf)⟩
  | ok _ m =>
      rw [final_of_ok hf] at hfilters
      refine ⟨m, hfilters, .inr ?_⟩
      rw [final_bind_ok hf]
      cases hd : (dispatch prices route).run m with
      | error e t =>
          rw [final_bind_error hd, final_of_error hd]
          exact Quiet.refl t
      | ok _ t =>
          rw [final_bind_ok hd, final_of_ok hd]
          exact quiet_renderPage t

/-- No statement of a request takes a user away or changes its account. -/
theorem LoginEffect.extends (h : LoginEffect prices s t) : s.db.users.Extends t.db.users := by
  cases h with
  | effect h =>
    cases h with
    | quiet h =>
        rw [h.db]
        exact Users.Extends.refl _
    | renamed user name => exact (kept_rename s _ name).extends
    | _ => exact Users.Extends.refl _
  | created spotifyId => exact Users.extends_insert _ _
  | burnt => exact Users.extends_burn _
  | renamed id name => exact (kept_rename s id name).extends
  | _ => exact Users.Extends.refl _

theorem serve_extends (sys : System) (r : Request) :
    sys.db.users.Extends (serve prices sys r).db.users := by
  rw [show (serve prices sys r).db = _ from congrArg Server.db (serve_server sys r)]
  refine serve_rule (I := fun s => sys.db.users.Extends s.db.users)
    (fun s t hc h => h.trans hc.kept.extends) (fun s t he h => h.trans he.extends) ?_
  exact Users.Extends.refl _

theorem step_extends {sys sys' : System} {a : Step} (h : step prices sys a = some sys') :
    sys.db.users.Extends sys'.db.users := by
  cases a with
  | request r =>
      cases h
      exact serve_extends sys r
  | payment sessionId customer =>
      cases h
      exact Users.Extends.refl _
  | statsJob user genres =>
      cases h
      exact Users.Extends.refl _

/-- A step in which user `k`, of the given account, has no part: no request runs as the user, no
login is a login of the account, no Stats job stores the user's genres. -/
def Foreign (k : ℕ) (account : String) (sys : System) : Step → Prop
  | .request r => sys.userOf r ≠ some k ∧
      (r.route = .authCallback → ∀ spotifyUser, r.env.auth = some spotifyUser →
        spotifyUser.id ≠ account)
  | .payment _ _ => True
  | .statsJob user _ => k ≠ user

theorem afterCheck_sameRows {user : User} (hk : s.db.users.findById k = some user)
    (hid : s.currentUser ≠ some k)
    (hlogin : s.route = .authCallback → ∀ account, s.env.auth = some account →
      account.id ≠ user.spotifyId) :
    SameRows k s.db (final (afterCheck prices s.route) s).db := by
  cases hr : s.route.isLogin with
  | false => exact Effects.sameRows (safe_afterCheck hr rfl : Effects prices s _) hid
  | true =>
    obtain ⟨m, hm, hend⟩ := afterCheck_final prices s.route s
    have hfilters := Effects.sameRows hm hid
    rcases hend with hend | hend
    · rw [hend]
      exact hfilters
    · rw [hend.db]
      refine hfilters.trans ?_
      revert hlogin
      generalize s.route = route at hr ⊢
      intro hlogin
      cases route with
      | authCallback =>
          have hstored : m.db.users.findById k = some user := by rw [hfilters.user, hk]
          refine SessionsController.create_sameRows hstored ?_
          rw [(Effects.frame hm).2.2]
          exact hlogin rfl
      | logout => exact SameRows.refl k _
      | _ => cases hr

/-- **One request.**  A request in which the user has no part leaves the user's rows alone. -/
theorem serve_sameRows {sys : System} {r : Request} {user : User}
    (hk : sys.db.users.findById k = some user) (h : Foreign k user.spotifyId sys (.request r)) :
    SameRows k sys.db (serve prices sys r).db := by
  rw [show (serve prices sys r).db = _ from congrArg Server.db (serve_server sys r)]
  have hserved : Served (fun m t => SameRows k sys.db t.db) (sys.start r).identified
      (final (process prices r.route) (sys.start r)) := by
    refine process_served fun m hc => ?_
    have hm : SameRows k sys.db m.db := hc.sameRows h.1
    obtain ⟨hcurrent, hroute, henv⟩ := hc.frame
    rw [show r.route = m.route from hroute.symm]
    have hstored : m.db.users.findById k = some user := by rw [hm.user, hk]
    refine hm.trans (afterCheck_sameRows hstored ?_ ?_)
    · rw [hcurrent]
      exact h.1
    · rw [hroute, henv]
      exact h.2
  cases hserved with
  | stopped hq =>
      rw [hq.db]
      exact SameRows.refl k _
  | passed _ hrest => exact hrest

theorem step_sameRows {sys sys' : System} {a : Step} {user : User}
    (hk : sys.db.users.findById k = some user) (h : Foreign k user.spotifyId sys a)
    (hstep : step prices sys a = some sys') : SameRows k sys.db sys'.db := by
  cases a with
  | request r =>
      cases hstep
      exact serve_sameRows hk h
  | payment sessionId customer =>
      cases hstep
      exact SameRows.refl k _
  | statsJob other genres =>
      cases hstep
      exact sameRows_amendSpotifydata h _

/-- **Confinement.**  Through every run in which a user has no part, the rows of the user stay as
they are. -/
theorem rows_untouched {sys₀ sys : System} {steps : List Step} {user : User}
    (hk : sys₀.db.users.findById k = some user)
    (hforeign : StepRun.Along (step prices) (Foreign k user.spotifyId) sys₀ steps)
    (hrun : StepRun.run (step prices) sys₀ steps = some sys) : SameRows k sys₀.db sys.db := by
  refine StepRun.run_invariant_along (I := fun sys => SameRows k sys₀.db sys.db)
    (fun sys a sys' hs hforeign hstep => ?_) (SameRows.refl k _) hforeign hrun
  refine hs.trans (step_sameRows ?_ hforeign hstep)
  rw [hs.user, hk]

namespace Sample

/-- Ada is logged in with browser 0, Bob with browser 1. -/
def twoUsers : System :=
  serve priceIds loggedIn { browser := 1, route := .authCallback, env := { auth := some bob } }

/-- Bob asks for a playlist and logs out. -/
def bobsSteps : List Step :=
  [.request { browser := 1, route := .createPlaylist (some "jazz"),
              env := { delays := [1700000000000000] } },
    .request { browser := 1, route := .logout }]

/-- The system after Bob's steps. -/
def afterBob : System := (StepRun.run (step priceIds) twoUsers bobsSteps).getD twoUsers

end Sample

/-- Ada has no part in what Bob does. -/
theorem ada_untouched : SameRows 0 Sample.twoUsers.db Sample.afterBob.db := by
  have hbob : ∀ sys r, System.userOf sys r = some 1 → System.userOf sys r ≠ some 0 := by
    intro sys r h
    rw [h]
    decide
  have hrow : Sample.twoUsers.db.users.findById 0 = some ⟨0, "ada", some "Ada"⟩ := rfl
  have hforeign : StepRun.Along (step Sample.priceIds) (Foreign 0 "ada") Sample.twoUsers
      Sample.bobsSteps := by
    refine ⟨⟨hbob _ _ rfl, fun h => nomatch h⟩, fun sys h => ?_⟩
    cases h
    exact ⟨⟨hbob _ _ rfl, fun h => nomatch h⟩, fun _ _ => trivial⟩
  exact rows_untouched hrow hforeign rfl

end Knoiz
