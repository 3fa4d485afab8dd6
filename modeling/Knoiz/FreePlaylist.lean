import Knoiz.PlaylistCharge
import Knoiz.SessionCoherence

/-!
# The free playlist

A new user has one token.  A playlist that is enqueued while no pass is active takes it, and nothing
else does, nor does anything give another.  So over any run the playlists that a user had without a
pass and the tokens that the user has left make one, and one more for every playlist for which an
UPDATE of the wallet failed.
-/

namespace Knoiz

open Calendar EventLog ProgramLogic Relation RowTable

/-! ### What the log says -/

/-- What a gate of user `id` read: whether the pass is active. -/
def gateOf (id : ℕ) : Event → Option Bool
  | .gate user active _ => if user = id then some active else none
  | _ => none

/-- The event is a playlist job of user `id`. -/
def isPlaylistOf (id : ℕ) (e : Event) : Bool := (playlistOf e).map Prod.fst == some id

/-- The playlist jobs of user `id` that follow a gate which read no active pass, when the last reading
before the events was `active`. -/
def freeAfter (id : ℕ) : Option Bool → List Event → ℕ
  | _, [] => 0
  | active, e :: es =>
      (if isPlaylistOf id e = true ∧ active = some false then 1 else 0) +
        freeAfter id ((gateOf id e).or active) es

/-- The playlists that user `id` has had without a pass. -/
def freePlaylists (id : ℕ) (log : List Event) : ℕ := freeAfter id none log

theorem freeAfter_append (id : ℕ) (active : Option Bool) (log es : List Event) :
    freeAfter id active (log ++ es) =
      freeAfter id active log + freeAfter id ((latest (gateOf id) log).or active) es := by
  induction log generalizing active with
  | nil => simp [freeAfter]
  | cons e log ih =>
      have hlatest : latest (gateOf id) (e :: log) =
          (latest (gateOf id) log).or (gateOf id e) := by
        rw [← List.singleton_append, latest_append]
        congr 1
        rw [← List.nil_append [e], latest_concat, latest_nil, Option.or_none]
      rw [List.cons_append, freeAfter, freeAfter, ih, hlatest, Option.or_assoc, Nat.add_assoc]

theorem freePlaylists_append (id : ℕ) (log es : List Event) :
    freePlaylists id (log ++ es) =
      freePlaylists id log + freeAfter id (latest (gateOf id) log) es := by
  unfold freePlaylists
  rw [freeAfter_append, Option.or_none]

/-- Events among which there is no playlist job of the user. -/
theorem freeAfter_eq_zero {id : ℕ} {es : List Event} (h : ∀ p ∈ playlists es, p.1 ≠ id)
    (active : Option Bool) : freeAfter id active es = 0 := by
  induction es generalizing active with
  | nil => rfl
  | cons e es ih =>
      have hrest : ∀ p ∈ playlists es, p.1 ≠ id := by
        intro p hp
        apply h p
        rw [← List.singleton_append, playlists_append]
        exact List.mem_append_right _ hp
      have hno : isPlaylistOf id e = false := by
        unfold isPlaylistOf
        cases hp : playlistOf e with
        | none => rfl
        | some p =>
            have hmem : p ∈ playlists (e :: es) := List.mem_filterMap.mpr ⟨e, List.mem_cons_self, hp⟩
            simpa using h p hmem
      rw [freeAfter, ih hrest, hno]
      simp

/-- A log grows by nothing that counts. -/
theorem freePlaylists_grown {id : ℕ} {log log' : List Event} (hlog : ∃ es, log' = log ++ es)
    (hjobs : playlists log' = playlists log) : freePlaylists id log' = freePlaylists id log := by
  obtain ⟨es, rfl⟩ := hlog
  rw [playlists_append] at hjobs
  have hnone : playlists es = [] := List.append_right_eq_self.mp hjobs
  rw [freePlaylists_append, freeAfter_eq_zero (by rw [hnone]; exact fun _ h => nomatch h)]
  rfl

/-- A log grows by one playlist job. -/
theorem freePlaylists_pushed {id user : ℕ} {log es : List Event} {text : String}
    {data : Option SpotifyUser} {time : ℤ} (hrest : playlists es = []) :
    freePlaylists id (log ++ .enqueued (.playlist text data user) time :: es) =
      freePlaylists id log +
        if user = id ∧ latest (gateOf id) log = some false then 1 else 0 := by
  have hes (active : Option Bool) : freeAfter id active es = 0 :=
    freeAfter_eq_zero (by rw [hrest]; exact fun _ h => nomatch h) active
  have hjob : isPlaylistOf id (.enqueued (.playlist text data user) time) = true ↔ user = id := by
    simp [isPlaylistOf, playlistOf]
  rw [freePlaylists_append, freeAfter, hes, Nat.add_zero]
  simp only [hjob]

/-! ### What a request records -/

/-- A gate leaves its reading in the log. -/
theorem latest_gated (s : Ctx) (id : ℕ) (row : Subscription) :
    latest (gateOf id) (s.gated id row).log = some row.active :=
  latest_concat_of_some (by simp [gateOf]) _

namespace HomeController

/-- Whoever gets through the check has a gate's reading of the stored pass in the log. -/
def Read (s : Ctx) : Prop :=
  ∃ id row, s.currentUser = some id ∧ s.db.subscriptions.lookup id = some row ∧
    latest (gateOf id) s.log = some row.active

theorem Read.quiet {s t : Ctx} (h : Read s) (hq : Quiet s t) : Read t := by
  obtain ⟨id, row, hid, hrow, hlatest⟩ := h
  refine ⟨id, row, hq.currentUser.trans hid, ?_, ?_⟩
  · rw [hq.db]
    exact hrow
  · rw [hq.log]
    exact hlatest

theorem read_gateSubscription :
    Spec Noted (fun _ => True) gateSubscription fun _ s => Read s := by
  refine Spec.bind spec_theUser fun id => Spec.bind (spec_theRow _) fun row => ?_
  refine Spec.bind (Q := fun _ => Read) (Spec.update fun s hs => ?_) fun _ =>
    Spec.pure fun _ hs => hs
  obtain ⟨⟨id', hid', hrow⟩, hid, -⟩ := hs
  cases hid.symm.trans hid'
  exact ⟨noted_gated s id row, id, row, hid, hrow, latest_gated s id row⟩

theorem read_checkEligibility :
    Spec Noted (fun _ => True) checkEligibility fun _ s => s.location = none → Read s := by
  refine Spec.bind read_gateSubscription fun row => Spec.bind ((spec_theRow _).consequence
    (fun _ hs => hs) fun _ _ hs => hs.2) fun wallet => ?_
  refine Spec.bind (spec_currentTime fun s t hq hs => hs.quiet hq) fun now => ?_
  cases heligible : eligibleForPlaylist row wallet now with
  | none => exact spec_nilCall
  | some eligible =>
    cases eligible with
    | true => exact Spec.pure fun s hs _ => hs.2
    | false =>
        have hredirect : ∀ kind message, Spec Noted (fun _ => True)
            (do setFlash kind message; redirectTo "/") fun _ s => s.location = none → Read s := by
          intro kind message
          refine Spec.bind (within_setFlash _ _) fun _ =>
            Spec.update fun s _ => ⟨?_, fun hnone => nomatch hnone⟩
          exact Allows.quiet ⟨rfl, rfl, rfl, rfl, rfl, rfl, rfl, le_rfl⟩
        refine Spec.bind (noted_gateSubscription.consequence (fun _ _ => trivial)
          fun _ _ _ => trivial) fun _ => Spec.bind (within_theRow _) fun _ => ?_
        split
        · exact hredirect _ _
        · exact hredirect _ _

variable {prices : PaymentsController.Prices} {s m : Ctx} {id : ℕ}

theorem createPlaylistWorker_log (hid : s.currentUser = some id)
    (hrun : createPlaylistWorker.run s = .ok () m) :
    ∃ text data time, m.log = s.log ++ [.enqueued (.playlist text data id) time] := by
  have huser := theUser_run hid
  unfold createPlaylistWorker call enqueue record at hrun
  simp only [EStateM.run_bind, EStateM.run_get] at hrun
  split at hrun
  · rename_i text hroute
    simp only [EStateM.run_bind, EStateM.run_get, huser] at hrun
    cases hraises : s.env.raises .playlistPerformAsync with
    | true =>
        rw [hraises] at hrun
        cases hrun
    | false =>
        obtain ⟨a, ha, hq⟩ := currentTime_run s
        simp only [hraises, Bool.false_eq_true, if_false, EStateM.run_pure, ha] at hrun
        cases hrun
        exact ⟨squish text, s.session.spotifyUserData, a.clock, congrArg (· ++ _) hq.log⟩
  · cases hrun

theorem safe_settle {u : Option ℕ} {ρ : Route} (hρ : ρ.charges = true) :
    Safe prices u ρ settle := by
  refine Safe.bind (safe_setFlash _ _) fun _ => Safe.bind safe_gateSubscription fun _ => ?_
  exact Safe.ite (Safe.bind (safe_spendToken hρ) fun _ => safe_redirectTo _) (safe_redirectTo _)

/-- `create_playlist` records nothing, or the job first. -/
theorem createPlaylist_log (prices : PaymentsController.Prices) (hid : s.currentUser = some id)
    (hroute : s.route.charges = true) :
    (final createPlaylist s).log = s.log ∨ ∃ text data time es,
      (final createPlaylist s).log = s.log ++ .enqueued (.playlist text data id) time :: es := by
  rw [createPlaylist_eq]
  rcases createPlaylistWorker_run hid with ⟨e, hrun, -⟩ | ⟨a, time, hrun, hpushed, -⟩
  · left
    rw [final_bind_error hrun]
  · right
    obtain ⟨text, data, time, hlog⟩ := createPlaylistWorker_log hid hrun
    have hworker : Effects prices s a ∧ At (some id) s.route a :=
      (safe_createPlaylistWorker hroute).of_ok ⟨hid, rfl⟩ hrun
    have hrest : Safe prices (some id) s.route (updateWallet >>= fun _ => settle) :=
      Safe.bind (safe_updateWallet hroute) fun _ => safe_settle hroute
    obtain ⟨-, es, hes, -⟩ := (hrest.final_related hworker.2).login.log
    refine ⟨text, data, time, es, ?_⟩
    rw [final_bind_ok hrun, hes, hlog, List.append_assoc]
    rfl

end HomeController

/-! ### The ledger -/

/-- A token is left when the column says "1". -/
def Wallet.tokens (wallet : Wallet) : ℕ := if wallet.token = some "1" then 1 else 0

/-- The tokens that user `id` has left. -/
def tokensLeft (id : ℕ) (db : Database) : ℕ := ((db.wallets.lookup id).map Wallet.tokens).getD 0

/-- The playlists that user `id` has had without a pass, and the tokens that are left. -/
def balance (id : ℕ) (s : Server) : ℕ := freePlaylists id s.log + tokensLeft id s.db

variable {prices : PaymentsController.Prices} {id user : ℕ} {row : Subscription}

/-- The wallet is there and stays. -/
theorem WalletsKept.balance {s t : Server} (h : WalletsKept s t)
    (hlog : ∃ es, t.log = s.log ++ es) (hwallet : (s.db.wallets.lookup id).isSome = true) :
    (t.db.wallets.lookup id).isSome = true ∧ Knoiz.balance id t = Knoiz.balance id s := by
  obtain ⟨wallet, hsome⟩ := Option.isSome_iff_exists.mp hwallet
  have hkept := h.wallets id wallet hsome
  refine ⟨by rw [hkept]; rfl, ?_⟩
  unfold Knoiz.balance tokensLeft
  rw [freePlaylists_grown hlog h.jobs, hkept, hsome]

namespace HomeController

variable {s t : Ctx} {time : ℤ} {wallet : Wallet}

/-- The log after `create_playlist` of user `user`. -/
def Recorded (user : ℕ) (s t : Ctx) : Prop :=
  t.log = s.log ∨ ∃ text data time es,
    t.log = s.log ++ .enqueued (.playlist text data user) time :: es

/-- A job that was enqueued counts for its user when the gate has read no pass. -/
theorem Pushed.free (h : Pushed user time s t) (hlog : Recorded user s t) :
    freePlaylists id t.log = freePlaylists id s.log +
      if user = id ∧ latest (gateOf id) s.log = some false then 1 else 0 := by
  have hjobs := h.jobs
  rcases hlog with hsame | ⟨text, data, time', es, hgrown⟩
  · rw [hsame] at hjobs
    exact absurd (List.append_right_eq_self.mp hjobs.symm) (List.cons_ne_nil _ _)
  · rw [hgrown] at hjobs ⊢
    have hone : playlists (.enqueued (.playlist text data user) time' :: es) =
        (user, time') :: playlists es := rfl
    rw [playlists_append, List.append_cancel_left_eq, hone, List.cons.injEq] at hjobs
    exact freePlaylists_pushed hjobs.2

/-- Another user's wallet is left alone. -/
theorem CreateEnds.wallet_other (h : CreateEnds user row s t) (hne : id ≠ user) :
    t.db.wallets.lookup id = s.db.wallets.lookup id := by
  cases h with
  | failed => rfl
  | unstamped pushed db => rw [db]
  | kept pushed stamped db =>
      rw [db]
      exact lookup_amend_of_ne hne _ _
  | spent pushed stamped db =>
      rw [db]
      exact lookup_amend_of_ne hne _ _

/-- A request of another user makes no difference. -/
theorem CreateEnds.balance_other (h : CreateEnds user row s t) (hlog : Recorded user s t)
    (hne : id ≠ user) : balance id t.toServer = balance id s.toServer := by
  have hwallet := h.wallet_other hne
  have hpushed {time : ℤ} (pushed : Pushed user time s t) :
      balance id t.toServer = balance id s.toServer := by
    unfold balance tokensLeft
    rw [pushed.free hlog, if_neg fun hboth => hne hboth.1.symm, hwallet, Nat.add_zero]
  cases h with
  | failed => rfl
  | unstamped pushed => exact hpushed pushed
  | kept pushed => exact hpushed pushed
  | spent pushed => exact hpushed pushed

/-- **The charge.**  A playlist without a pass takes the token, unless an UPDATE fails. -/
theorem CreateEnds.balance_own (h : CreateEnds id row s t) (hlog : Recorded id s t)
    (hread : latest (gateOf id) s.log = some row.active)
    (hwallet : s.db.wallets.lookup id = some wallet)
    (htoken : row.active = false → wallet.token = some "1") :
    (row.active = false ∧ ¬ChargesOrFails s.route s.env row →
        balance id t.toServer = balance id s.toServer + 1) ∧
      (¬(row.active = false ∧ ¬ChargesOrFails s.route s.env row) →
        balance id t.toServer = balance id s.toServer) := by
  have hfree {time : ℤ} (pushed : Pushed id time s t) :
      freePlaylists id t.log = freePlaylists id s.log + if row.active = false then 1 else 0 := by
    rw [pushed.free hlog, hread]
    simp
  have hleft {f : Wallet → Wallet} (hdb : t.db = s.db.amendWallet id f) :
      tokensLeft id t.db = (f wallet).tokens := by
    unfold tokensLeft
    rw [hdb]
    show (((amend id f s.db.wallets).lookup id).map _).getD 0 = _
    rw [lookup_amend_self, hwallet]
    rfl
  have hbefore : tokensLeft id s.db = wallet.tokens := by
    unfold tokensLeft
    rw [hwallet]
    rfl
  cases h with
  | failed why =>
      have hfails : ChargesOrFails s.route s.env row := why.imp_right .inl
      exact ⟨fun h => absurd hfails h.2, fun _ => rfl⟩
  | unstamped pushed db why =>
      have hnot : ¬ChargesOrFails s.route s.env row := by
        rw [pushed.chargesOrFails_iff, why]
        simp
      have hsame : tokensLeft id t.db = tokensLeft id s.db := by rw [db]
      unfold balance
      rw [hfree pushed, hsame]
      constructor
      · rintro ⟨hinactive, -⟩
        rw [if_pos hinactive]
        omega
      · intro hpaid
        rw [if_neg fun hinactive => hpaid ⟨hinactive, hnot⟩]
        omega
  | kept pushed stamped db clean why =>
      have hsame : tokensLeft id t.db = tokensLeft id s.db := by
        rw [hleft db, hbefore]
        rfl
      unfold balance
      rw [hfree pushed, hsame, pushed.chargesOrFails_iff, clean]
      cases hactive : row.active with
      | true => simp
      | false =>
          -- the UPDATE of the token has failed
          rw [hactive] at why
          rcases why with hactive' | hraises | hrefuses
          · cases hactive'
          · rw [hraises]
            simp
            omega
          · rw [hrefuses]
            simp
            omega
  | spent pushed stamped db clean inactive token =>
      have hpaid : ChargesOrFails s.route s.env row := by
        rw [pushed.chargesOrFails_iff]
        exact ⟨clean, .inr token⟩
      refine ⟨fun h => absurd hpaid h.2, fun _ => ?_⟩
      have hone : wallet.tokens = 1 := if_pos (htoken inactive)
      have hzero : tokensLeft id t.db = 0 := (hleft db).trans (if_neg (by simp))
      unfold balance
      rw [hfree pushed, if_pos inactive, hzero, hbefore, hone]

end HomeController

/-! ### Requests -/

variable {sys sys' : System} {r : Request} {s s' : Ctx} {a : Step}

/-- A request reaches one state behind the filters. -/
theorem PassesFilters.unique (h : PassesFilters sys r s) (h' : PassesFilters sys r s') : s = s' := by
  cases h with
  | intro requested inherited authenticated here refreshed there checked passed =>
    cases h' with
    | intro requested' inherited' authenticated' here' refreshed' there' checked' passed' =>
      cases inherited.symm.trans inherited'
      cases authenticated.symm.trans authenticated'
      cases refreshed.symm.trans refreshed'
      cases checked.symm.trans checked'
      rfl

/-- The filters have read the pass that is stored. -/
theorem PassesFilters.read (h : PassesFilters sys r s) : HomeController.Read s := by
  cases h with
  | intro requested inherited authenticated here refreshed there checked passed =>
    exact (HomeController.read_checkEligibility.of_ok trivial checked).2 passed

theorem PassesFilters.grown (h : PassesFilters sys r s) : ∃ es, s.log = sys.log ++ es := by
  obtain ⟨m, hchecked, heffects⟩ := h.effects ⟨"", "", ""⟩
  obtain ⟨es, hes⟩ := hchecked.log
  obtain ⟨-, es', hes', -⟩ := heffects.login.log
  exact ⟨es ++ es', by rw [hes', hes, List.append_assoc]; rfl⟩

/-- Nothing is recorded after `create_playlist`. -/
theorem PassesFilters.served_log (prices : PaymentsController.Prices) (h : PassesFilters sys r s) :
    (serve prices sys r).log = (final HomeController.createPlaylist s).log := by
  cases h with
  | @intro a b c s requested inherited authenticated here refreshed there checked passed =>
    obtain ⟨text, hroute⟩ := Route.exists_text requested
    have hdispatch : final (dispatch prices r.route) a = final HomeController.createPlaylist s := by
      rw [hroute]
      show final HomeController.createPlaylistRequest a = _
      unfold HomeController.createPlaylistRequest
      rw [beforeAction_final authenticated here, beforeAction_final refreshed there,
        beforeAction_final checked passed]
    have hpage : (final (dispatch prices r.route >>= fun _ => renderPage) a).log =
        (final (dispatch prices r.route) a).log := by
      cases hrun : (dispatch prices r.route).run a with
      | error e t => rw [final_bind_error hrun, final_of_error hrun]
      | ok _ t =>
          rw [final_bind_ok hrun, final_of_ok hrun]
          exact (quiet_renderPage t).log
    rw [← hdispatch, ← hpage]
    refine (congrArg Server.log (serve_server sys r)).trans ?_
    unfold process
    rw [final_bind_ok inherited]

/-- The request enqueues a playlist of user `id` while no pass is active, and an UPDATE of the wallet
fails. -/
def Uncharged (id : ℕ) (sys : System) (a : Step) : Prop :=
  ∃ r s row, a = .request r ∧ PassesFilters sys r s ∧ s.currentUser = some id ∧
    s.db.subscriptions.lookup id = some row ∧ row.active = false ∧
    ¬ChargesOrFails r.route r.env row

/-- The wallets are kept, or one of them is amended. -/
theorem HomeController.CreateEnds.wallet_stays {t : Ctx}
    (h : HomeController.CreateEnds user row s t)
    (hwallet : (s.db.wallets.lookup id).isSome = true) :
    (t.db.wallets.lookup id).isSome = true := by
  have hamend (f : Wallet → Wallet) :
      ((amend user f s.db.wallets).lookup id).isSome = true := by
    rw [lookup_amend]
    split
    · rename_i huser
      rw [Option.isSome_map, ← huser]
      exact hwallet
    · exact hwallet
  cases h with
  | failed => exact hwallet
  | unstamped pushed db =>
      rw [db]
      exact hwallet
  | kept pushed stamped db =>
      rw [db]
      exact hamend _
  | spent pushed stamped db =>
      rw [db]
      exact hamend _

/-- A request that gets through the filters. -/
theorem PassesFilters.balance (prices : PaymentsController.Prices) (h : PassesFilters sys r s)
    (hwallet : (sys.db.wallets.lookup id).isSome = true) :
    ((serve prices sys r).db.wallets.lookup id).isSome = true ∧
      (Uncharged id sys (.request r) →
        Knoiz.balance id (serve prices sys r).toServer = Knoiz.balance id sys.toServer + 1) ∧
      (¬Uncharged id sys (.request r) →
        Knoiz.balance id (serve prices sys r).toServer = Knoiz.balance id sys.toServer) := by
  obtain ⟨hcalm, ⟨user, row, wallet, now, hid, hrow, hlook, hmay, -⟩, hnoted⟩ := h.served prices
  obtain ⟨user', row', hid', hrow', hlatest⟩ := h.read
  cases hid.symm.trans hid'
  cases hrow.symm.trans hrow'
  have hwallets : s.db.wallets = sys.db.wallets := hcalm.wallets
  have hroute : s.route = r.route := hcalm.route
  have henv : s.env = r.env := hcalm.env
  have hcharges : s.route.charges = true := by
    rw [hroute]
    cases h with
    | intro requested => exact requested
  have hends := HomeController.createPlaylist_ends hid hrow
  have hlog : HomeController.Recorded user s _ :=
    HomeController.createPlaylist_log prices hid hcharges
  have hdb : (serve prices sys r).db = (final HomeController.createPlaylist s).db :=
    (congrArg Server.db (serve_server sys r)).trans hnoted.db
  have hbefore : Knoiz.balance id s.toServer = Knoiz.balance id sys.toServer := by
    unfold Knoiz.balance tokensLeft
    rw [freePlaylists_grown h.grown hcalm.playlists, hwallets]
  have hafter : Knoiz.balance id (serve prices sys r).toServer =
      Knoiz.balance id (final HomeController.createPlaylist s).toServer := by
    unfold Knoiz.balance
    rw [h.served_log prices, hdb]
  refine ⟨?_, ?_⟩
  · rw [hdb]
    exact hends.wallet_stays (by rw [hwallets]; exact hwallet)
  rw [hafter, ← hbefore]
  by_cases huser : id = user
  · subst huser
    have hown := hends.balance_own hlog hlatest hlook fun hinactive =>
      (eligible_of_eligibleForPlaylist hmay).1 hinactive
    rw [hroute, henv] at hown
    have hiff : Uncharged id sys (.request r) ↔
        row.active = false ∧ ¬ChargesOrFails r.route r.env row := by
      constructor
      · rintro ⟨r', s', row', hr', hs', hid', hrow', hfails⟩
        cases hr'
        cases hs'.unique h
        cases hrow.symm.trans hrow'
        exact hfails
      · intro hfails
        exact ⟨r, s, row, rfl, h, hid, hrow, hfails⟩
    rw [hiff]
    exact hown
  · refine ⟨?_, fun _ => hends.balance_other hlog huser⟩
    rintro ⟨r', s', row', hr', hs', hid', -⟩
    cases hr'
    cases hs'.unique h
    exact absurd (Option.some.inj (hid'.symm.trans hid)) huser

/-- A request that does not get through the filters. -/
theorem serve_walletsKept_of_stopped (prices : PaymentsController.Prices)
    (h : ¬∃ s, PassesFilters sys r s) : WalletsKept sys.toServer (serve prices sys r).toServer := by
  cases hroute : r.route.charges with
  | false => exact serve_walletsKept hroute
  | true =>
      have hcalm := (charges_served prices hroute).resolve_right h
      rw [serve_server]
      exact hcalm.walletsKept

/-- **One request.**  It raises the balance when it is uncharged, and else keeps it. -/
theorem serve_balance (prices : PaymentsController.Prices)
    (hwallet : (sys.db.wallets.lookup id).isSome = true) :
    ((serve prices sys r).db.wallets.lookup id).isSome = true ∧
      (Uncharged id sys (.request r) →
        balance id (serve prices sys r).toServer = balance id sys.toServer + 1) ∧
      (¬Uncharged id sys (.request r) →
        balance id (serve prices sys r).toServer = balance id sys.toServer) := by
  by_cases hpasses : ∃ s, PassesFilters sys r s
  · obtain ⟨s, hs⟩ := hpasses
    exact hs.balance prices hwallet
  · have hkept := serve_walletsKept_of_stopped prices hpasses
    obtain ⟨hstays, hbalance⟩ := hkept.balance (step_log (a := .request r) rfl) hwallet
    refine ⟨hstays, ?_, fun _ => hbalance⟩
    rintro ⟨r', s', row', hr', hs', -⟩
    cases hr'
    exact absurd ⟨s', hs'⟩ hpasses

/-! ### Runs -/

open Classical in
/-- What a step adds to the balance of user `id`. -/
noncomputable def uncharged (id : ℕ) (sys : System) (a : Step) : ℕ :=
  if Uncharged id sys a then 1 else 0

theorem step_balance (hwallet : (sys.db.wallets.lookup id).isSome = true)
    (hstep : step prices sys a = some sys') :
    (sys'.db.wallets.lookup id).isSome = true ∧
      balance id sys'.toServer = balance id sys.toServer + uncharged id sys a := by
  cases a with
  | request r =>
      cases hstep
      obtain ⟨hstays, hraised, hkept⟩ := serve_balance (r := r) prices hwallet
      refine ⟨hstays, ?_⟩
      unfold uncharged
      split
      · rename_i hun
        exact hraised hun
      · rename_i hun
        exact hkept hun
  | payment sessionId customer =>
      cases hstep
      refine ⟨hwallet, ?_⟩
      rw [uncharged, if_neg (by rintro ⟨r, s, row, hr, -⟩; cases hr)]
      rfl
  | statsJob other genres =>
      cases hstep
      refine ⟨hwallet, ?_⟩
      rw [uncharged, if_neg (by rintro ⟨r, s, row, hr, -⟩; cases hr)]
      rfl

/-- The balance of a new account is raised from one by the uncharged requests alone. -/
theorem balance_run {sys₀ : System} {steps : List Step} (hlog : sys₀.log = [])
    (hwallet : (sys₀.db.wallets.lookup id).map Wallet.token = some (some "1"))
    (hrun : StepRun.run (step prices) sys₀ steps = some sys) :
    balance id sys.toServer = 1 + StepRun.total (step prices) (uncharged id) sys₀ steps := by
  obtain ⟨wallet, hsome, htoken⟩ := Option.map_eq_some_iff.mp hwallet
  have hstart : balance id sys₀.toServer = 1 := by
    unfold balance tokensLeft
    rw [hlog, hsome]
    show 0 + wallet.tokens = 1
    rw [Wallet.tokens, if_pos htoken]
  rw [← hstart]
  exact StepRun.run_total (I := fun sys => (sys.db.wallets.lookup id).isSome = true)
    (q := fun sys => balance id sys.toServer)
    (fun _ _ _ hstays hstep => step_balance hstays hstep) (by rw [hsome]; rfl) hrun

/-- **One free playlist.**  Over every run from a new account, the playlists that the user has had
without a pass and the tokens that are left make one, and one more for each request that enqueued
such a playlist and failed to charge the wallet. -/
theorem free_playlists {sys₀ : System} {steps : List Step} (hlog : sys₀.log = [])
    (hwallet : (sys₀.db.wallets.lookup id).map Wallet.token = some (some "1"))
    (hrun : StepRun.run (step prices) sys₀ steps = some sys) :
    freePlaylists id sys.log + tokensLeft id sys.db =
      1 + StepRun.total (step prices) (uncharged id) sys₀ steps :=
  balance_run hlog hwallet hrun

namespace Sample

/-- A new user asks for a playlist, and for another one two minutes later. -/
def twice : List Step :=
  [.request (playlistRequest 1700000000000000 fun _ => false),
    .request (playlistRequest 120000000 fun _ => false)]

/-- The second is refused. -/
example : freePlaylists 0 (after twice).log = 1 ∧ tokensLeft 0 (after twice).db = 0 := by decide

end Sample

theorem two_requests_balanced :
    freePlaylists 0 (Sample.after Sample.twice).log + tokensLeft 0 (Sample.after Sample.twice).db =
      1 + StepRun.total (step Sample.priceIds) (uncharged 0) Sample.loggedIn Sample.twice :=
  free_playlists rfl rfl rfl

end Knoiz
