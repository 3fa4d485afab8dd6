import Knoiz.RequestEffects

/-!
# What leaves the wallets and the queue of playlists alone

Only `create_playlist` enqueues a playlist job or touches a wallet.  For the other routes that is
read off the effects; for the filters in front of `create_playlist` itself this file goes through them
once more, with the relation that no wallet has changed, no playlist job has been enqueued and the
session is as it was.
-/

namespace Knoiz

open ProgramLogic Relation RowTable

variable {prices : PaymentsController.Prices} {α β : Type}

/-! ### The playlist jobs of a log -/

/-- For whom and when a playlist job was enqueued. -/
def playlistOf : Event → Option (ℕ × ℤ)
  | .enqueued (.playlist _ _ user) time => some (user, time)
  | _ => none

def playlists (log : List Event) : List (ℕ × ℤ) := log.filterMap playlistOf

theorem playlists_append (log es : List Event) :
    playlists (log ++ es) = playlists log ++ playlists es := List.filterMap_append

theorem playlists_concat_of_none {e : Event} (h : playlistOf e = none) (log : List Event) :
    playlists (log ++ [e]) = playlists log := by
  have hnone : playlists [e] = [] := by
    unfold playlists
    rw [List.filterMap_cons_none h, List.filterMap_nil]
  rw [playlists_append, hnone, List.append_nil]

/-! ### Three relations -/

/-- Nothing has been written but the log, which has no new playlist job. -/
structure Noted (s t : Ctx) : Prop where
  db : t.db = s.db
  session : t.session = s.session
  currentUser : t.currentUser = s.currentUser
  route : t.route = s.route
  env : t.env = s.env
  clock : s.clock ≤ t.clock
  playlists : playlists t.log = playlists s.log

/-- No wallet has changed, and no playlist job has been enqueued. -/
structure Calm (s t : Ctx) : Prop where
  wallets : t.db.wallets = s.db.wallets
  currentUser : t.currentUser = s.currentUser
  route : t.route = s.route
  env : t.env = s.env
  clock : s.clock ≤ t.clock
  playlists : playlists t.log = playlists s.log

/-- And the session is as it was. -/
structure Still (s t : Ctx) : Prop extends Calm s t where
  session : t.session = s.session

variable {s t : Ctx}

theorem Noted.still (h : Noted s t) : Still s t :=
  ⟨⟨by rw [h.db], h.currentUser, h.route, h.env, h.clock, h.playlists⟩, h.session⟩

theorem Noted.calm (h : Noted s t) : Calm s t := h.still.toCalm

theorem Quiet.noted (h : Quiet s t) : Noted s t :=
  ⟨h.db, h.session, h.currentUser, h.route, h.env, h.clock, by rw [h.log]⟩

theorem Quiet.calm (h : Quiet s t) : Calm s t := h.noted.calm

instance : Allows Noted where
  refl s := (Quiet.refl s).noted
  trans _ _ _ h h' := ⟨h'.db.trans h.db, h'.session.trans h.session,
    h'.currentUser.trans h.currentUser, h'.route.trans h.route, h'.env.trans h.env,
    h.clock.trans h'.clock, h'.playlists.trans h.playlists⟩
  quiet h := h.noted
  nilCall s := ⟨rfl, rfl, rfl, rfl, rfl, le_rfl, playlists_concat_of_none rfl s.log⟩

instance : Allows Calm where
  refl s := (Quiet.refl s).calm
  trans _ _ _ h h' := ⟨h'.wallets.trans h.wallets, h'.currentUser.trans h.currentUser,
    h'.route.trans h.route, h'.env.trans h.env, h.clock.trans h'.clock,
    h'.playlists.trans h.playlists⟩
  quiet h := h.calm
  nilCall s := ⟨rfl, rfl, rfl, rfl, le_rfl, playlists_concat_of_none rfl s.log⟩

theorem Calm.trans {m : Ctx} (h : Calm s m) (h' : Calm m t) : Calm s t := IsTrans.trans _ _ _ h h'

instance : Allows Still where
  refl s := (Quiet.refl s).noted.still
  trans _ _ _ h h' := ⟨h.toCalm.trans h'.toCalm, h'.session.trans h.session⟩
  quiet h := h.noted.still
  nilCall s := ⟨Allows.nilCall s, rfl⟩

theorem Still.trans {m : Ctx} (h : Still s m) (h' : Still m t) : Still s t :=
  IsTrans.trans _ _ _ h h'

/-! ### The primitives -/

section Quiet

variable {R : Ctx → Ctx → Prop} [AllowsQuiet R]

theorem within_currentTime : Within R currentTime :=
  Within.of_spec (spec_currentTime fun _ _ _ h => h)

theorem within_call (c : Call) : Within R (call c) := spec_call c

theorem within_rspotifyUserNew (hash : Option SpotifyUser) : Within R (rspotifyUserNew hash) :=
  Within.of_spec (spec_rspotifyUserNew hash)

theorem within_setFlash (kind message : String) : Within R (setFlash kind message) :=
  Within.update fun _ => AllowsQuiet.quiet ⟨rfl, rfl, rfl, rfl, rfl, rfl, rfl, le_rfl⟩

theorem within_redirectTo (path : String) : Within R (redirectTo path) :=
  Within.update fun _ => AllowsQuiet.quiet ⟨rfl, rfl, rfl, rfl, rfl, rfl, rfl, le_rfl⟩

theorem within_flashAndRedirect (kind message path : String) :
    Within R (do setFlash kind message; redirectTo path) :=
  Within.bind (within_setFlash kind message) fun _ => within_redirectTo path

theorem within_renderPage : Within R renderPage :=
  Within.get_bind fun _ => Within.ite (within_call _) (Within.pure _)

theorem within_beforeAction {filter rest : Action Unit} (hfilter : Within R filter)
    (hrest : Within R rest) : Within R (beforeAction filter rest) :=
  Within.bind hfilter fun _ => Within.get_bind fun _ => Within.ite hrest (Within.pure _)

theorem within_authenticateUser : Within R HomeController.authenticateUser :=
  Within.get_bind fun _ => Within.ite (within_flashAndRedirect _ _ _) (Within.pure _)

end Quiet

section Primitives

variable {R : Ctx → Ctx → Prop} [Allows R]

theorem within_nilCall : Within R (nilCall : Action α) := spec_nilCall

theorem within_theUser : Within R theUser := Within.of_spec spec_theUser

theorem within_theRow {ρ : Type} (table : Database → Table ℕ ρ) : Within R (theRow table) :=
  Within.of_spec (spec_theRow table)

theorem within_tokenNeedsRefresh : Within R tokenNeedsRefresh :=
  Within.bind (within_theRow _) fun _ => Within.bind within_currentTime fun _ => Within.pure _

end Primitives

/-! ### Programs that only read -/

theorem noted_record (e : Event) (h : playlistOf e = none) : Within Noted (record e) :=
  Within.update fun s => ⟨rfl, rfl, rfl, rfl, rfl, le_rfl, playlists_concat_of_none h s.log⟩

theorem noted_gated (s : Ctx) (id : ℕ) (row : Subscription) : Noted s (s.gated id row) :=
  ⟨rfl, rfl, rfl, rfl, rfl, le_rfl, playlists_concat_of_none rfl s.log⟩

/-- A gate gives the stored row of the user. -/
theorem noted_gateSubscription :
    Spec Noted (fun _ => True) gateSubscription fun row s =>
      ∃ id, s.currentUser = some id ∧ s.db.subscriptions.lookup id = some row := by
  refine Spec.bind spec_theUser fun id => Spec.bind (spec_theRow _) fun row => ?_
  refine Spec.bind (Q := fun _ s => ∃ id, s.currentUser = some id ∧
    s.db.subscriptions.lookup id = some row) (Spec.update fun s hs => ⟨?_, hs.1⟩) fun _ =>
    Spec.pure fun _ hs => hs
  exact ⟨rfl, rfl, rfl, rfl, rfl, le_rfl, playlists_concat_of_none rfl s.log⟩

theorem still_of_noted {m : Action α} (h : Within Noted m) : Within Still m :=
  Spec.weaken h fun _ _ => Noted.still

theorem calm_of_still {m : Action α} (h : Within Still m) : Within Calm m :=
  Spec.weaken h fun _ _ => Still.toCalm

namespace HomeController

/-- The user may create a playlist: its rows pass the test, with a clock that has been read. -/
def Eligible (s : Ctx) : Prop :=
  ∃ id row wallet now, s.currentUser = some id ∧ s.db.subscriptions.lookup id = some row ∧
    s.db.wallets.lookup id = some wallet ∧ eligibleForPlaylist row wallet now = some true ∧
    now ≤ s.clock

/-- **The check.**  It only reads, and lets nobody through who is not eligible. -/
theorem noted_checkEligibility :
    Spec Noted (fun _ => True) checkEligibility fun _ s => s.location = none → Eligible s := by
  refine Spec.bind noted_gateSubscription fun row => Spec.bind (spec_theRow _) fun wallet => ?_
  refine Spec.bind (spec_currentTime fun s t hq hs => ?_) fun now => ?_
  · obtain ⟨⟨id, hid, hwallet⟩, id', hid', hrow⟩ := hs
    exact ⟨⟨id, hq.currentUser.trans hid, by rw [hq.db]; exact hwallet⟩,
      id', hq.currentUser.trans hid', by rw [hq.db]; exact hrow⟩
  · cases heligible : eligibleForPlaylist row wallet now with
    | none => exact spec_nilCall
    | some eligible =>
      cases eligible with
      | true =>
          refine Spec.pure fun s hs _ => ?_
          obtain ⟨hnow, ⟨id, hid, hwallet⟩, id', hid', hrow⟩ := hs
          cases hid.symm.trans hid'
          exact ⟨id, row, wallet, now, hid, hrow, hwallet, heligible, hnow.le⟩
      | false =>
          have hredirect : ∀ path, Spec Noted (fun _ => True) (redirectTo path) fun _ s =>
              s.location = none → Eligible s := by
            intro path
            refine Spec.update fun s _ => ⟨?_, fun hnone => nomatch hnone⟩
            exact Allows.quiet ⟨rfl, rfl, rfl, rfl, rfl, rfl, rfl, le_rfl⟩
          refine Spec.bind (noted_gateSubscription.consequence (fun _ _ => trivial)
            fun _ _ _ => trivial) fun _ => Spec.bind (within_theRow _) fun _ => ?_
          split
          · exact Spec.bind (within_setFlash _ _) fun _ => hredirect _
          · exact Spec.bind (within_setFlash _ _) fun _ => hredirect _

end HomeController

/-! ### The filters in front of `create_playlist` -/

/-- An UPDATE of another table than the wallets. -/
theorem still_modifyDb {f : Database → Database} (h : ∀ db, (f db).wallets = db.wallets) :
    Within Still (modifyDb f) :=
  Within.update fun s => ⟨⟨h s.db, rfl, rfl, rfl, le_rfl, rfl⟩, rfl⟩

theorem still_saveProfileOf (id : ℕ) (changes : Profile → Profile) :
    Within Still (saveProfileOf id changes) :=
  Within.bind within_currentTime fun _ => still_modifyDb fun _ => rfl

theorem still_refresherUpdateUserProfile (data : SpotifyUser) :
    Within Still (refresherUpdateUserProfile data) := by
  have himage : Within Still (refresherImage data) := by
    unfold refresherImage
    split
    · exact Within.pure _
    · exact Within.pure _
    · exact Within.raise _
  exact Within.bind within_theUser fun _ => Within.bind (within_call _) fun _ =>
    Within.bind (still_modifyDb fun _ => rfl) fun _ => Within.bind within_currentTime fun _ =>
    Within.bind himage fun _ => Within.bind (within_call _) fun _ => still_saveProfileOf _ _

theorem still_refreshSpotifyAccessToken : Within Still refreshSpotifyAccessToken := by
  refine Within.get_bind fun s => ?_
  cases s.currentUser with
  | none => exact Within.pure _
  | some id =>
      refine Within.bind within_tokenNeedsRefresh fun _ => Within.ite ?_ (Within.pure _)
      refine Within.bind within_tokenNeedsRefresh fun _ => Within.ite ?_ (Within.pure _)
      refine Within.get_bind fun s => Within.rescue ?_ fun _ => Within.pure _
      exact Within.bind (within_rspotifyUserNew _) fun _ => still_refresherUpdateUserProfile _

theorem still_statsUpdateTimestamp : Within Still statsUpdateTimestamp :=
  Within.bind within_theUser fun _ => Within.bind within_currentTime fun _ =>
    Within.bind (within_call _) fun _ => still_modifyDb fun _ => rfl

theorem still_collectStats : Within Still collectStats := by
  have hrequired : Within Still statsCollectionRequired := by
    refine Within.get_bind fun s => ?_
    split
    · exact Within.pure _
    · exact Within.bind within_currentTime fun _ => Within.pure _
  have hneeds : Within Still statsNeedsUpdating := by
    refine Within.bind (within_theRow _) fun row => Within.bind within_currentTime fun _ => ?_
    cases row.timestamp with
    | none => exact within_nilCall
    | some timestamp => exact Within.pure _
  refine Within.bind hrequired fun _ => Within.ite ?_ (Within.pure _)
  refine Within.bind hneeds fun _ => Within.ite ?_ (Within.pure _)
  refine Within.bind within_theUser fun id => Within.get_bind fun s =>
    Within.rescue ?_ fun _ => Within.pure _
  have hstats : Within Still (enqueue (.stats s.session.spotifyUserData id)) :=
    Within.bind within_currentTime fun _ => still_of_noted (noted_record _ rfl)
  exact Within.bind (within_call _) fun _ => Within.bind hstats fun _ => still_statsUpdateTimestamp

theorem Checked.still (h : Checked s t) : Still s t := by
  have hrecord : ∀ {m : Ctx} {db : Database} (id : ℕ), Still s m → db.wallets = m.db.wallets →
      Still s { m with db := db, log := m.log ++ [.checked id m.clock] } := by
    intro m db id hm hdb
    exact hm.trans
      ⟨⟨hdb, rfl, rfl, rfl, le_rfl, playlists_concat_of_none rfl m.log⟩, rfl⟩
  cases h with
  | skipped => exact (Quiet.refl s).noted.still
  | live hq => exact hrecord _ hq.noted.still rfl
  | cleared hq => exact hrecord _ hq.noted.still rfl

theorem still_checkStripeSubscription : Within Still checkStripeSubscription := by
  intro s _
  rcases checkStripeSubscription_run s with ⟨t, ht, hchecked⟩ | ⟨e, t, ht, hq⟩
  · rw [ht]
    exact ⟨hchecked.still, trivial⟩
  · rw [ht]
    exact hq.noted.still

theorem calm_refreshAccessToken : Within Calm HomeController.refreshAccessToken := by
  refine Within.bind within_tokenNeedsRefresh fun _ => Within.ite ?_ (Within.pure _)
  refine Within.get_bind fun s => Within.bind (within_rspotifyUserNew _) fun new => ?_
  have himage : Within Calm (firstImageUrl new) := by
    unfold firstImageUrl
    split
    · exact Within.pure _
    · exact Within.raise _
  exact Within.bind (Within.update fun _ => ⟨rfl, rfl, rfl, rfl, le_rfl, rfl⟩) fun _ =>
    Within.bind within_theUser fun _ => Within.bind (within_call _) fun _ =>
    Within.bind (calm_of_still (still_modifyDb fun _ => rfl)) fun _ =>
    Within.bind within_currentTime fun _ => Within.bind himage fun _ =>
    Within.bind (within_call _) fun _ => calm_of_still (still_saveProfileOf _ _)

end Knoiz
