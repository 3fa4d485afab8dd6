import Knoiz.ConcurrentPlaylist
import Knoiz.FreePlaylist
import Knoiz.FreshSession

/-!
# Requests for playlists, one after another

The model of the concurrent requests splits `check_eligibility` and `create_playlist` into their
statements.  The application that serves its requests one at a time is one of its runs: whatever else
is requested in between, the playlists of a user are a serial schedule of the concurrent model, which
ends with the stored wallet and has one request for each job.
-/

namespace Knoiz

open Calendar Interleaving ProgramLogic RowTable

/-! ### One request in the concurrent model -/

namespace ConcurrentPlaylist

variable {ι : Type} (i : ι) {s : Store ι} {d₁ : ℕ}

/-- The wallet after a playlist. -/
def charged (subscription : Subscription) (wallet : Wallet) (now : ℤ) : Wallet where
  timestamp := some now
  token := if subscription.active = true then wallet.token else some "0"

theorem solo_charged (d₂ : ℕ)
    (he : HomeController.eligibleForPlaylist s.subscription s.wallet (s.clock + d₁) = some true) :
    StepRun.run (soloStep next i) (s, .idle) [0, 0, d₁, 0, d₂, 0] =
      some ({ s with
        clock := s.clock + d₁ + d₂
        wallet := charged s.subscription s.wallet (s.clock + d₁ + d₂)
        jobs := s.jobs ++ [i] }, .done) := by
  have hstamp (now : ℤ) : saveWallet s.wallet { s.wallet with timestamp := some now } s.wallet =
      { s.wallet with timestamp := some now } := by
    simp [saveWallet]
  simp only [StepRun.run_cons, StepRun.run_nil, soloStep, next, Option.bind_some, Nat.cast_zero,
    add_zero, he, if_true, hstamp]
  cases hactive : s.subscription.active with
  | true => simp [charged, hactive]
  | false => simp [charged, hactive, saveWallet]

end ConcurrentPlaylist

/-! ### One request of the application -/

variable {prices : PaymentsController.Prices} {id : ℕ} {row : Subscription} {wallet : Wallet}

namespace HomeController

variable {s t : Ctx}

/-- Whoever gets through the check is eligible when it reads the clock. -/
theorem checkEligibility_passed (hid : s.currentUser = some id)
    (hrow : s.db.subscriptions.lookup id = some row)
    (hwallet : s.db.wallets.lookup id = some wallet) (hrun : checkEligibility.run s = .ok () t)
    (hlocation : t.location = none) :
    ∃ now, s.clock ≤ now ∧ now ≤ t.clock ∧ eligibleForPlaylist row wallet now = some true := by
  obtain ⟨b, htick, hq, hrun'⟩ := checkEligibility_run_rows hid hrow hwallet
  have hnow : s.reading 1 = b.clock := by
    have hreading := htick.reading 0
    simpa [Ctx.reading] using hreading.symm
  cases heligible : eligibleForPlaylist row wallet (s.reading 1) with
  | none =>
      rw [hrun, heligible] at hrun'
      cases hrun'
  | some eligible =>
      obtain ⟨m, hm, ⟨rfl, -⟩ | ⟨-, hredirect⟩⟩ := checkEligibility_run hid hrow hwallet heligible
      · rw [hrun, heligible] at hrun'
        cases hrun'
        exact ⟨s.reading 1, hnow ▸ hq.clock, hnow.le, heligible⟩
      · cases hrun.symm.trans hm
        rw [hlocation] at hredirect
        cases hredirect

/-! ### Stamps are in the past -/

/-- The wallet has not been stamped in the future. -/
def Past (id : ℕ) (s : Ctx) : Prop :=
  ∀ wallet stamp, s.db.wallets.lookup id = some wallet → wallet.timestamp = some stamp →
    stamp ≤ s.clock

theorem Past.of_eq (h : Past id s) (hwallets : t.db.wallets = s.db.wallets)
    (hclock : s.clock ≤ t.clock) : Past id t := by
  intro wallet stamp hwallet hstamp
  rw [hwallets] at hwallet
  exact (h wallet stamp hwallet hstamp).trans hclock

theorem Past.effect (h : Past id s) (he : Effect prices s t) : Past id t := by
  cases he with
  | quiet hq => exact h.of_eq (by rw [hq.db]) hq.clock
  | @stamped user =>
      intro wallet stamp hwallet hstamp
      change (amend user _ s.db.wallets).lookup id = _ at hwallet
      rw [lookup_amend] at hwallet
      split at hwallet
      · obtain ⟨old, -, rfl⟩ := Option.map_eq_some_iff.mp hwallet
        cases hstamp
        exact le_rfl
      · exact h wallet stamp hwallet hstamp
  | @spent user =>
      intro wallet stamp hwallet hstamp
      change (amend user _ s.db.wallets).lookup id = _ at hwallet
      rw [lookup_amend] at hwallet
      split at hwallet
      · rename_i huser
        obtain ⟨old, hold, rfl⟩ := Option.map_eq_some_iff.mp hwallet
        exact h old stamp (huser ▸ hold) hstamp
      · exact h wallet stamp hwallet hstamp
  | _ => exact h.of_eq rfl le_rfl

theorem Past.effects (h : Past id s) (he : Effects prices s t) : Past id t := by
  induction he with
  | refl => exact h
  | tail _ hlast ih => exact ih.effect hlast

/-- What `create_playlist` does when no UPDATE of the wallet fails: nothing, or one job and its
charge. -/
theorem CreateEnds.paid (h : CreateEnds id row s t) (hpaid : ChargesOrFails s.route s.env row)
    (hwallet : s.db.wallets.lookup id = some wallet) :
    t = s ∨ ∃ time stamp, time ≤ stamp ∧ s.clock ≤ time ∧
      playlists t.log = playlists s.log ++ [(id, time)] ∧
      t.db.wallets.lookup id = some (ConcurrentPlaylist.charged row wallet stamp) := by
  have hlook {f : Wallet → Wallet} (hdb : t.db = s.db.amendWallet id f) :
      t.db.wallets.lookup id = some (f wallet) := by
    rw [hdb]
    show (amend id f s.db.wallets).lookup id = _
    rw [lookup_amend_self, hwallet, Option.map_some]
  cases h with
  | failed => exact .inl rfl
  | unstamped pushed db why =>
      have hclean := (pushed.chargesOrFails_iff.mp hpaid).1
      rw [why] at hclean
      cases hclean
  | kept pushed stamped db clean why =>
      have hactive : row.active = true := by
        rcases (pushed.chargesOrFails_iff.mp hpaid).2 with hactive | ⟨hraises, hrefuses⟩
        · exact hactive
        · rw [hraises, hrefuses] at why
          simpa using why
      refine .inr ⟨_, _, stamped, pushed.past, pushed.jobs, ?_⟩
      rw [hlook db, ConcurrentPlaylist.charged, if_pos hactive]
  | spent pushed stamped db clean inactive token =>
      refine .inr ⟨_, _, stamped, pushed.past, pushed.jobs, ?_⟩
      rw [hlook db, ConcurrentPlaylist.charged, inactive]
      rfl

end HomeController

/-! ### Served requests -/

variable {sys₀ sys sys' : System} {r : Request} {s : Ctx} {a : Step} {user : ℕ}

/-- How many playlists of user `id` have been enqueued. -/
def playlistCount (id : ℕ) (log : List Event) : ℕ := (playlists log).countP fun p => p.1 == id

theorem playlistCount_pushed {log log' : List Event} {time : ℤ}
    (h : playlists log' = playlists log ++ [(user, time)]) :
    playlistCount id log' = playlistCount id log + if user = id then 1 else 0 := by
  unfold playlistCount
  rw [h, List.countP_append, List.countP_singleton]
  simp

theorem HomeController.CreateEnds.count_other {t : Ctx} (h : HomeController.CreateEnds user row s t)
    (hne : id ≠ user) : playlistCount id t.log = playlistCount id s.log := by
  have hpushed {time : ℤ} (pushed : HomeController.Pushed user time s t) :
      playlistCount id t.log = playlistCount id s.log := by
    rw [playlistCount_pushed pushed.jobs, if_neg hne.symm, Nat.add_zero]
  cases h with
  | failed => rfl
  | unstamped pushed => exact hpushed pushed
  | kept pushed => exact hpushed pushed
  | spent pushed => exact hpushed pushed

/-- A request of user `id` that gets through the filters reads the subscription `row`, and no UPDATE
of the wallet fails. -/
def Pays (id : ℕ) (row : Subscription) (sys : System) (a : Step) : Prop :=
  ∀ r s, a = .request r → PassesFilters sys r s → s.currentUser = some id →
    s.db.subscriptions.lookup id = some row ∧ ChargesOrFails r.route r.env row

/-- Nothing has changed for user `id`. -/
structure Unchanged (id : ℕ) (s t : Server) : Prop where
  wallet : t.db.wallets.lookup id = s.db.wallets.lookup id
  count : playlistCount id t.log = playlistCount id s.log

/-- A playlist of user `id` has been enqueued, and the wallet charged. -/
structure Charges (id : ℕ) (row : Subscription) (wallet : Wallet) (s t : Server) : Prop where
  charged : ∃ now stamp, s.clock ≤ now ∧
    HomeController.eligibleForPlaylist row wallet now = some true ∧ now ≤ stamp ∧ stamp ≤ t.clock ∧
      t.db.wallets.lookup id = some (ConcurrentPlaylist.charged row wallet stamp)
  count : playlistCount id t.log = playlistCount id s.log + 1

theorem WalletsKept.unchanged {s t : Server} (h : WalletsKept s t)
    (hwallet : s.db.wallets.lookup id = some wallet) : Unchanged id s t :=
  ⟨(h.wallets id wallet hwallet).trans hwallet.symm, by unfold playlistCount; rw [h.jobs]⟩

/-- The clock that the check has read. -/
theorem PassesFilters.passed_at (h : PassesFilters sys r s) (hid : s.currentUser = some id)
    (hrow : s.db.subscriptions.lookup id = some row) (hwallet : s.db.wallets.lookup id = some wallet) :
    ∃ now, sys.clock ≤ now ∧ now ≤ s.clock ∧
      HomeController.eligibleForPlaylist row wallet now = some true := by
  cases h with
  | @intro a b c s requested inherited authenticated here refreshed there checked passed =>
    have hfilters := (still_applicationFilters (sys.start r)).clock
    rw [final_of_ok inherited] at hfilters
    have hab : Calm a b := (within_authenticateUser.of_ok trivial authenticated).1
    have hbc : Calm b c := (calm_refreshAccessToken.of_ok trivial refreshed).1
    have hcs : Noted c s := (HomeController.noted_checkEligibility.of_ok trivial checked).1
    have hdb : s.db = c.db := hcs.db
    rw [hdb] at hrow hwallet
    obtain ⟨now, hle, hle', heligible⟩ := HomeController.checkEligibility_passed
      (hcs.currentUser ▸ hid) hrow hwallet checked passed
    exact ⟨now, hfilters.trans (hab.clock.trans (hbc.clock.trans hle)), hle', heligible⟩

/-- The new stamp is not in the future. -/
theorem PassesFilters.stamped_past (prices : PaymentsController.Prices) (h : PassesFilters sys r s)
    (hid : s.currentUser = some id) :
    HomeController.Past id (final HomeController.createPlaylist s) := by
  obtain ⟨hcalm, ⟨user, row', wallet', now, hid', -, hlook, hmay, hnow⟩, -⟩ := h.served prices
  cases hid.symm.trans hid'
  have hcharges : s.route.charges = true := by
    rw [show s.route = r.route from hcalm.route]
    cases h with
    | intro requested => exact requested
  have hpast : HomeController.Past id s := by
    -- the last stamp is more than a minute old
    obtain ⟨-, old, hold, hlt⟩ := eligible_of_eligibleForPlaylist hmay
    intro wallet stamp hwallet hstamp
    cases hlook.symm.trans hwallet
    cases hold.symm.trans hstamp
    simp only [minute, second] at hlt
    omega
  have heffects : Effects prices s (final HomeController.createPlaylist s) :=
    (HomeController.safe_createPlaylist hcharges).final_related ⟨hid, rfl⟩
  exact hpast.effects heffects

/-- **One request.**  It changes nothing for the user, or enqueues one playlist and charges it. -/
theorem serve_charges_or (prices : PaymentsController.Prices)
    (hwallet : sys.db.wallets.lookup id = some wallet) (hpays : Pays id row sys (.request r)) :
    Unchanged id sys.toServer (serve prices sys r).toServer ∨
      Charges id row wallet sys.toServer (serve prices sys r).toServer := by
  by_cases hpasses : ∃ s, PassesFilters sys r s
  · obtain ⟨s, hs⟩ := hpasses
    obtain ⟨hcalm, ⟨user, row', wallet', now, hid, hrow, hlook, -⟩, hnoted⟩ := hs.served prices
    have hwallets : s.db.wallets = sys.db.wallets := hcalm.wallets
    have hjobs : playlists s.log = playlists sys.log := hcalm.playlists
    have hends := HomeController.createPlaylist_ends hid hrow
    have hserved : (serve prices sys r).toServer = _ := serve_server sys r
    have hlog : playlistCount id (serve prices sys r).log =
        playlistCount id (final HomeController.createPlaylist s).log := by
      unfold playlistCount
      rw [hserved]
      exact congrArg _ hnoted.playlists
    have hdb : (serve prices sys r).db = (final HomeController.createPlaylist s).db := by
      rw [hserved]
      exact hnoted.db
    have hcount : playlistCount id s.log = playlistCount id sys.log := by
      unfold playlistCount
      rw [hjobs]
    by_cases huser : id = user
    · subst huser
      obtain ⟨hrow', hpaid⟩ := hpays r s rfl hs hid
      cases hrow.symm.trans hrow'
      rw [hwallets, hwallet] at hlook
      cases hlook
      have hlook : s.db.wallets.lookup id = some wallet := by
        rw [hwallets]
        exact hwallet
      have hroute : s.route = r.route := hcalm.route
      have henv : s.env = r.env := hcalm.env
      rw [← hroute, ← henv] at hpaid
      rcases hends.paid hpaid hlook with hsame | ⟨time, stamp, hstamp, htime, hgrown, hcharged⟩
      · left
        rw [hsame] at hlog hdb
        exact ⟨by rw [hdb, hwallets], hlog.trans hcount⟩
      · right
        obtain ⟨now, hle, hle', heligible⟩ := hs.passed_at hid hrow hlook
        refine ⟨⟨now, stamp, hle, heligible, hle'.trans (htime.trans hstamp), ?_, ?_⟩, ?_⟩
        · rw [hserved]
          exact (hs.stamped_past prices hid _ _ hcharged rfl).trans hnoted.clock
        · rw [hdb]
          exact hcharged
        · rw [hlog, playlistCount_pushed hgrown, if_pos rfl, hcount]
    · left
      exact ⟨by rw [hdb, hends.wallet_other huser, hwallets],
        hlog.trans ((hends.count_other huser).trans hcount)⟩
  · exact .inl ((serve_walletsKept_of_stopped prices hpasses).unchanged hwallet)

/-! ### Runs -/

/-- After a serial schedule with one request for each playlist, the concurrent model has the stored
wallet, and its clock is not ahead. -/
structure Serialized (id : ℕ) (row : Subscription) (wallet : Wallet) (sys₀ sys : System)
    (blocks : List (List ℕ)) (c : Config ℕ (ConcurrentPlaylist.Store ℕ) ConcurrentPlaylist.Local) :
    Prop where
  run : ConcurrentPlaylist.run (ConcurrentPlaylist.start sys₀.clock row wallet) (serial 0 blocks) =
    some c
  idle : ∀ i, blocks.length ≤ i → c.locals i = .idle
  done : ∀ i, i < blocks.length → c.locals i = .done
  subscription : c.store.subscription = row
  jobs : c.store.jobs = List.range blocks.length
  clock : c.store.clock ≤ sys.clock
  wallet : sys.db.wallets.lookup id = some c.store.wallet
  count : playlistCount id sys.log = playlistCount id sys₀.log + blocks.length

variable {blocks : List (List ℕ)}
  {c : Config ℕ (ConcurrentPlaylist.Store ℕ) ConcurrentPlaylist.Local}

/-- A step that changes nothing for the user is no step of the concurrent model. -/
theorem Serialized.stutter (h : Serialized id row wallet sys₀ sys blocks c)
    (hstep : Unchanged id sys.toServer sys'.toServer) (hclock : sys.clock ≤ sys'.clock) :
    Serialized id row wallet sys₀ sys' blocks c where
  run := h.run
  idle := h.idle
  done := h.done
  subscription := h.subscription
  jobs := h.jobs
  clock := h.clock.trans hclock
  wallet := hstep.wallet.trans h.wallet
  count := hstep.count.trans h.count

/-- A playlist is one more request of the concurrent model, alone from its check to its debit. -/
theorem Serialized.charge (h : Serialized id row wallet sys₀ sys blocks c)
    (hstep : Charges id row c.store.wallet sys.toServer sys'.toServer) :
    ∃ blocks' c', Serialized id row wallet sys₀ sys' blocks' c' := by
  obtain ⟨now, stamp, hle, heligible, hstamp, hclock, hcharged⟩ := hstep.charged
  -- the time that passes before the check, and from there to the stamp
  obtain ⟨d₁, hd₁⟩ := Int.le.dest (h.clock.trans hle)
  obtain ⟨d₂, hd₂⟩ := Int.le.dest hstamp
  have heligible' : HomeController.eligibleForPlaylist c.store.subscription c.store.wallet
      (c.store.clock + d₁) = some true := by
    rw [h.subscription, hd₁]
    exact heligible
  have hsolo := ConcurrentPlaylist.solo_charged blocks.length d₂ heligible'
  rw [h.subscription, hd₁, hd₂, ← h.idle blocks.length le_rfl] at hsolo
  obtain ⟨c', hrun, hstore, hself, hothers⟩ := run_serial_concat h.run hsolo
  refine ⟨blocks ++ [[0, 0, d₁, 0, d₂, 0]], c', hrun, ?_, ?_, ?_, ?_, ?_, ?_, ?_⟩
  · intro i hi
    rw [List.length_append, List.length_singleton] at hi
    rw [hothers i (by omega)]
    exact h.idle i (by omega)
  · intro i hi
    rw [List.length_append, List.length_singleton] at hi
    by_cases hlast : i = blocks.length
    · rw [hlast, hself]
    · rw [hothers i hlast]
      exact h.done i (by omega)
  · rw [hstore]
  · rw [hstore, List.length_append, List.length_singleton, List.range_succ, ← h.jobs]
  · rw [hstore]
    exact hclock
  · rw [hstore]
    exact hcharged
  · rw [hstep.count, h.count, List.length_append, List.length_singleton, Nat.add_assoc]

/-- **One step.** -/
theorem Serialized.step (h : Serialized id row wallet sys₀ sys blocks c) (hpays : Pays id row sys a)
    (hstep : step prices sys a = some sys') :
    ∃ blocks' c', Serialized id row wallet sys₀ sys' blocks' c' := by
  cases a with
  | request r =>
      cases hstep
      rcases serve_charges_or prices h.wallet hpays with hsame | hcharges
      · exact ⟨blocks, c, h.stutter hsame (serve_clock prices sys r)⟩
      · exact h.charge hcharges
  | payment sessionId customer =>
      cases hstep
      exact ⟨blocks, c, h.stutter ⟨rfl, rfl⟩ le_rfl⟩
  | statsJob other genres =>
      cases hstep
      exact ⟨blocks, c, h.stutter ⟨rfl, rfl⟩ le_rfl⟩

/-- **Serial runs.**  In every run of the application in which the user's playlists are charged
under one subscription, some serial schedule of the concurrent requests has one request for each
playlist and ends with the stored wallet. -/
theorem served_serially {steps : List Step} (hwallet : sys₀.db.wallets.lookup id = some wallet)
    (hpays : StepRun.Along (step prices) (Pays id row) sys₀ steps)
    (hrun : StepRun.run (step prices) sys₀ steps = some sys) :
    ∃ blocks c, Serialized id row wallet sys₀ sys blocks c := by
  refine StepRun.run_invariant_along
    (I := fun sys => ∃ blocks c, Serialized id row wallet sys₀ sys blocks c)
    (fun sys a sys' hs hg hstep => ?_) ⟨[], ConcurrentPlaylist.start sys₀.clock row wallet, ?_⟩
    hpays hrun
  · obtain ⟨blocks, c, h⟩ := hs
    exact h.step hg hstep
  · exact ⟨rfl, fun _ _ => rfl, fun i hi => absurd hi (Nat.not_lt_zero i), rfl, rfl, le_rfl, hwallet,
      rfl⟩

namespace Sample

/-- A user who has had the free playlist and then bought a pass. -/
def member : System := after (.request (playlistRequest 1700000000000000 fun _ => false) :: purchase)

def memberRow : Subscription := ⟨some "cus_1", true, some 1700611199999999⟩

/-- Playlists a minute and three minutes later. -/
def memberSteps : List Step :=
  [.request (playlistRequest 60000000 fun _ => false),
    .request (playlistRequest 120000000 fun _ => false)]

def afterMember : System := (StepRun.run (step priceIds) member memberSteps).getD member

/-- The state that a request reaches behind the filters. -/
def reached (sys : System) (r : Request) : Ctx :=
  final HomeController.checkEligibility <| final HomeController.refreshAccessToken <|
    final HomeController.authenticateUser <| final applicationFilters <| sys.start r

end Sample

/-- The two playlists of a member are two serial requests. -/
theorem member_served_serially : ∃ blocks c, Serialized 0 Sample.memberRow
    ⟨some 1700000000000000, some "0"⟩ Sample.member Sample.afterMember blocks c := by
  have hpays {sys : System} {delay : ℕ}
      (hreached : PassesFilters sys (Sample.playlistRequest delay fun _ => false)
        (Sample.reached sys (Sample.playlistRequest delay fun _ => false)))
      (hrow : (Sample.reached sys (Sample.playlistRequest delay fun _ => false)).db.subscriptions.lookup
        0 = some Sample.memberRow) :
      Pays 0 Sample.memberRow sys (.request (Sample.playlistRequest delay fun _ => false)) := by
    intro r s hr hs hid
    cases hr
    cases hs.unique hreached
    exact ⟨hrow, .inr (.inr ⟨rfl, .inl rfl⟩)⟩
  have hrun : StepRun.run (step Sample.priceIds) Sample.member Sample.memberSteps =
      some Sample.afterMember := rfl
  have halong : StepRun.Along (step Sample.priceIds) (Pays 0 Sample.memberRow) Sample.member
      Sample.memberSteps := by
    refine ⟨hpays (.intro rfl rfl rfl rfl rfl rfl rfl rfl) rfl, fun t ht => ?_⟩
    cases ht
    exact ⟨hpays (.intro rfl rfl rfl rfl rfl rfl rfl rfl) rfl, fun _ _ => trivial⟩
  exact served_serially rfl halong hrun

end Knoiz
