import Knoiz.Library.Migration
import Knoiz.PlaylistCharge

/-!
# The accounts that were there before the tokens

The migrations of April 2024 add the column `token` to the wallets and `expires_at` to the
subscriptions.  A new account gets a token from the column's default; the rows that are there get
`NULL` in both columns, and both gates treat `NULL` as a value of its own.  The results follow such
rows through every later run without a purchase.
-/

namespace Knoiz

open Calendar Migration ProgramLogic RowTable

variable {prices : PaymentsController.Prices} {sys sys₀ : System} {steps : List Step} {id : ℕ}

/-! ### The tables before, and the migrations -/

/-- A row of `wallets` before the migrations. -/
structure WalletBefore where
  timestamp : Option ℤ := some defaultTimestamp
  deriving DecidableEq, Repr

/-- A row of `subscriptions` before the migrations. -/
structure SubscriptionBefore where
  stripeUserId : Option String := none
  active : Bool := false
  stripeSubscriptionId : Option String := none
  canceled : Option Bool := some false
  deriving DecidableEq, Repr

/-- A row of `subscriptions` after the second and before the third column has gone. -/
structure SubscriptionBetween where
  stripeUserId : Option String
  active : Bool
  deriving DecidableEq, Repr

/-- `20240405115429`. -/
def addTokenToWallets : Stored ℕ WalletBefore → Stored ℕ Wallet :=
  addColumn fun row token => { timestamp := row.timestamp, token := token }

/-- `20240405115850`. -/
def changeTokenDefaultInWallets : Stored ℕ Wallet → Stored ℕ Wallet :=
  changeColumnDefault fun row => { row with token := some "1" }

/-- `20240408124225`. -/
def removeCanceledAndStripeSubscriptionIdFromSubscriptions :
    Stored ℕ SubscriptionBefore → Stored ℕ SubscriptionBetween :=
  removeColumn fun row => { stripeUserId := row.stripeUserId, active := row.active }

/-- `20240408124502`. -/
def addExpiresAtToSubscriptions : Stored ℕ SubscriptionBetween → Stored ℕ Subscription :=
  addColumn fun row expiresAt =>
    { stripeUserId := row.stripeUserId, active := row.active, expiresAt := expiresAt }

/-- `20240408130254`. -/
def changeExpiresAtDefaultInSubscriptions : Stored ℕ Subscription → Stored ℕ Subscription :=
  changeColumnDefault fun row => { row with expiresAt := none }

/-- The database before the migrations, with one wallet and one subscription for every user. -/
structure Legacy where
  users : Users
  subscriptions : Table ℕ SubscriptionBefore
  profiles : Table ℕ Profile
  wallets : Table ℕ WalletBefore
  spotifydata : Table ℕ Spotifydata
  oneWallet : ∀ user ∈ users.rows, rowsOf user.id wallets = 1
  oneSubscription : ∀ user ∈ users.rows, rowsOf user.id subscriptions = 1

def Legacy.walletsAfter (l : Legacy) : Stored ℕ Wallet :=
  changeTokenDefaultInWallets (addTokenToWallets ⟨l.wallets, {}⟩)

def Legacy.subscriptionsAfter (l : Legacy) : Stored ℕ Subscription :=
  changeExpiresAtDefaultInSubscriptions <| addExpiresAtToSubscriptions <|
    removeCanceledAndStripeSubscriptionIdFromSubscriptions ⟨l.subscriptions, {}⟩

/-- The database after the migrations. -/
def Legacy.migrated (l : Legacy) : Database where
  users := l.users
  subscriptions := l.subscriptionsAfter.rows
  profiles := l.profiles
  wallets := l.walletsAfter.rows
  spotifydata := l.spotifydata

/-- What an INSERT appends after the migrations is what the creation of a user appends. -/
theorem Legacy.defaults (l : Legacy) :
    l.walletsAfter.default = {} ∧ l.subscriptionsAfter.default = {} := ⟨rfl, rfl⟩

theorem Legacy.lookup_wallets (l : Legacy) (id : ℕ) :
    l.migrated.wallets.lookup id = (l.wallets.lookup id).map fun row => ⟨row.timestamp, none⟩ := by
  show l.walletsAfter.rows.lookup id = _
  simp [Legacy.walletsAfter, changeTokenDefaultInWallets, addTokenToWallets]

theorem Legacy.lookup_subscriptions (l : Legacy) (id : ℕ) :
    l.migrated.subscriptions.lookup id =
      (l.subscriptions.lookup id).map fun row => ⟨row.stripeUserId, row.active, none⟩ := by
  show l.subscriptionsAfter.rows.lookup id = _
  simp [Legacy.subscriptionsAfter, changeExpiresAtDefaultInSubscriptions,
    addExpiresAtToSubscriptions, removeCanceledAndStripeSubscriptionIdFromSubscriptions,
    Function.comp_def]

/-! ### What the accounts are owed -/

/-- Every user of the old tables without a pass, whose cooldown has passed and who has not created a
playlist, may create one; and every pass ends. -/
structure CarriedOver (l : Legacy) (s : Server) : Prop where
  eligible : ∀ user ∈ l.users.rows, ∀ row wallet w now,
    s.db.subscriptions.lookup user.id = some row → row.active = false →
    s.db.wallets.lookup user.id = some wallet → wallet.timestamp = some w → w < now - minute →
    s.clock ≤ now → (∀ time, (user.id, time) ∉ playlists s.log) →
    HomeController.eligibleForPlaylist row wallet now = some true
  ends : ∀ id row, s.db.subscriptions.lookup id = some row → row.active = true →
    row.expiresAt.isSome = true

/-- No pass is active, and no wallet has a timestamp. -/
structure Legacy.Harmless (l : Legacy) : Prop where
  inactive : ∀ id row, l.subscriptions.lookup id = some row → row.active = false
  unstamped : ∀ user ∈ l.users.rows, ∀ row, l.wallets.lookup user.id = some row →
    row.timestamp = none

/-! ### Subscriptions in a run without a purchase -/

/-- A pass has been granted. -/
def Bought (log : List Event) : Prop := ∃ g, Event.granted g ∈ log

theorem Bought.append {log : List Event} (h : Bought log) (es : List Event) :
    Bought (log ++ es) := by
  obtain ⟨g, hg⟩ := h
  exact ⟨g, List.mem_append_left _ hg⟩

/-- What the creation of a user, a change of the customer and the expiry check keep of the
subscription of a user. -/
structure Enduring (P : Option Subscription → Prop) : Prop where
  created : P none → P (some {})
  customer : ∀ row customer, P (some row) → P (some { row with stripeUserId := customer })
  cleared : ∀ row now, P (some row) → row.expired now = true → P (some row.deactivated)

variable {P : Option Subscription → Prop}

theorem Checked.enduring {s t : Ctx} (hP : Enduring P) (h : Checked s t)
    (hs : P (s.db.subscriptions.lookup id)) : P (t.db.subscriptions.lookup id) := by
  cases h with
  | skipped => exact hs
  | live hq =>
      rw [← hq.db] at hs
      exact hs
  | @cleared m id' row hq hu hrow hpast =>
      rw [← hq.db] at hs
      show P ((amend id' Subscription.deactivated m.db.subscriptions).lookup id)
      rw [lookup_amend]
      by_cases hid : id = id'
      · rw [hid, hrow] at hs
        rw [if_pos hid, hrow]
        exact hP.cleared row m.clock hs hpast
      · rw [if_neg hid]
        exact hs

/-- Only a purchase does not keep it. -/
theorem LoginEffect.enduring {s t : Ctx} (hP : Enduring P) (h : LoginEffect prices s t)
    (hs : P (s.db.subscriptions.lookup id)) : P (t.db.subscriptions.lookup id) ∨
      ((∃ sessionId, s.route = .paymentsSuccess sessionId) ∧ Bought t.log) := by
  cases h with
  | effect h =>
    cases h with
    | quiet hq =>
        rw [hq.db]
        exact .inl hs
    | @granted _ _ _ _ _ sessionId _ _ requested =>
        exact .inr ⟨⟨sessionId, requested⟩, _, List.mem_append_right _ (List.mem_singleton.mpr rfl)⟩
    | @customer id' hu customer =>
        left
        show P ((amend id' _ s.db.subscriptions).lookup id)
        rw [lookup_amend]
        by_cases hid : id = id'
        · rw [if_pos hid, ← hid]
          cases hrow : s.db.subscriptions.lookup id with
          | none =>
              rw [hrow] at hs
              exact hs
          | some row =>
              rw [hrow] at hs
              exact hP.customer row customer hs
        · rw [if_neg hid]
          exact hs
    | _ => exact .inl hs
  | created spotifyId =>
      left
      show P ((s.db.subscriptions ++ [(s.db.users.seq, ({} : Subscription))]).lookup id)
      cases hrow : s.db.subscriptions.lookup id with
      | some row =>
          rw [lookup_append_of_some hrow]
          rw [hrow] at hs
          exact hs
      | none =>
          rw [lookup_append_of_none hrow, List.lookup_cons]
          rw [hrow] at hs
          cases id == s.db.users.seq with
          | false => exact hs
          | true => exact hP.created hs
  | _ => exact .inl hs

/-- A request for a playlist never reaches a purchase. -/
theorem Effects.enduring {s t : Ctx} (hP : Enduring P) (h : Effects prices s t)
    (hroute : s.route.charges = true) (hs : P (s.db.subscriptions.lookup id)) :
    t.route.charges = true ∧ P (t.db.subscriptions.lookup id) := by
  induction h with
  | refl => exact ⟨hroute, hs⟩
  | tail _ he ih =>
    obtain ⟨hcharges, hkept⟩ := ih
    rw [he.frame.2.1]
    rcases (LoginEffect.effect he).enduring hP hkept with hkept' | ⟨⟨sessionId, hsuccess⟩, -⟩
    · exact ⟨hcharges, hkept'⟩
    · rw [hsuccess] at hcharges
      cases hcharges

theorem Checked.bought {s t : Ctx} (h : Checked s t) (hs : Bought s.log) : Bought t.log := by
  obtain ⟨es, hlog⟩ := h.log
  rw [hlog]
  exact hs.append es

theorem LoginEffect.bought {s t : Ctx} (h : LoginEffect prices s t) (hs : Bought s.log) :
    Bought t.log := by
  obtain ⟨-, es, hlog, -⟩ := h.log
  rw [hlog]
  exact hs.append es

theorem step_bought {sys' : System} {a : Step} (h : Bought sys.log)
    (hstep : step prices sys a = some sys') : Bought sys'.log := by
  obtain ⟨es, hlog⟩ := step_log hstep
  rw [hlog]
  exact h.append es

/-- **The subscriptions of a run.** -/
theorem Enduring.step (hP : Enduring P) {sys' : System} {a : Step}
    (h : P (sys.db.subscriptions.lookup id)) (hstep : Knoiz.step prices sys a = some sys') :
    Bought sys'.log ∨ P (sys'.db.subscriptions.lookup id) := by
  refine step_invariant (I := fun s => Bought s.log ∨ P (s.db.subscriptions.lookup id))
    (fun s t hc hs => ?_) (fun s t he hs => ?_) (fun _ _ _ hs => hs) (fun _ _ _ hs => hs)
    (.inr h) hstep
  · exact hs.imp hc.bought (hc.enduring hP)
  · rcases hs with hs | hs
    · exact .inl (he.bought hs)
    · rcases he.enduring hP hs with hkept | ⟨-, hbought⟩
      · exact .inr hkept
      · exact .inl hbought

theorem Enduring.run (hP : Enduring P) (h : P (sys₀.db.subscriptions.lookup id))
    (hrun : StepRun.run (Knoiz.step prices) sys₀ steps = some sys) (hgrants : ¬ Bought sys.log) :
    P (sys.db.subscriptions.lookup id) :=
  StepRun.run_invariant_unmarked (I := fun sys : System => P (sys.db.subscriptions.lookup id))
    (M := fun sys => Bought sys.log) (fun _ _ _ => hP.step) (fun _ _ _ => step_bought) h hrun
    hgrants

/-- There is no active subscription. -/
def Inactive (o : Option Subscription) : Prop := ∀ row, o = some row → row.active = false

theorem enduring_inactive : Enduring Inactive where
  created := by
    intro _ row hrow
    cases hrow
    rfl
  customer := by
    intro row customer h row' hrow'
    cases hrow'
    exact h row rfl
  cleared := by
    intro row now _ _ row' hrow'
    cases hrow'
    rfl

/-- There is a subscription that is not active. -/
def Unsubscribed (o : Option Subscription) : Prop := ∃ row, o = some row ∧ row.active = false

theorem enduring_unsubscribed : Enduring Unsubscribed where
  created := by
    rintro ⟨row, hrow, -⟩
    cases hrow
  customer := by
    rintro row customer ⟨row', hrow', hactive⟩
    cases hrow'
    exact ⟨_, rfl, hactive⟩
  cleared := by
    intro row now _ _
    exact ⟨_, rfl, rfl⟩

/-- The subscription is active and has no end. -/
def Endless (o : Option Subscription) : Prop :=
  ∃ row, o = some row ∧ row.active = true ∧ row.expiresAt = none

theorem enduring_endless : Enduring Endless where
  created := by
    rintro ⟨row, hrow, -⟩
    cases hrow
  customer := by
    rintro row customer ⟨row', hrow', hactive, hends⟩
    cases hrow'
    exact ⟨_, rfl, hactive, hends⟩
  cleared := by
    rintro row now ⟨row', hrow', -, hends⟩ hpast
    cases hrow'
    unfold Subscription.expired at hpast
    rw [hends, Bool.and_false] at hpast
    cases hpast

/-! ### Users without a pass and without a token -/

/-- The user has no pass, the wallet is as it was, and no playlist has been enqueued. -/
structure Waiting (id : ℕ) (wallet : Wallet) (s : Server) : Prop where
  inactive : Inactive (s.db.subscriptions.lookup id)
  wallet : s.db.wallets.lookup id = some wallet
  unserved : ∀ time, (id, time) ∉ playlists s.log

variable {wallet : Wallet}

/-- A request of a user without a pass enqueues a playlist for a token only. -/
theorem Enqueues.token {r : Request} {time : ℤ} (h : Enqueues prices sys r id time)
    (hinactive : Inactive (sys.db.subscriptions.lookup id))
    (hwallet : sys.db.wallets.lookup id = some wallet) : wallet.token = some "1" := by
  obtain ⟨s, hs, hid⟩ := h.reached
  obtain ⟨hcalm, ⟨id', row, wallet', now, hid', hrow, hwallet', hmay, -⟩, -⟩ := hs.served prices
  cases hid.symm.trans hid'
  obtain ⟨m, hchecked, heffects⟩ := hs.effects prices
  have hm : Inactive (m.db.subscriptions.lookup id) :=
    hchecked.enduring enduring_inactive hinactive
  have hroute : m.route.charges = true := by
    rw [hchecked.frame.2.1]
    cases hs with
    | intro requested => exact requested
  have hlast := (heffects.enduring enduring_inactive hroute hm).2 row hrow
  have hsame : wallet' = wallet := by
    have hwallets : s.db.wallets = sys.db.wallets := hcalm.wallets
    rw [hwallets, hwallet] at hwallet'
    cases hwallet'
    rfl
  rw [← hsame]
  exact (eligible_of_eligibleForPlaylist hmay).1 hlast

/-- **One step.**  A user without a token waits until there is a purchase. -/
theorem Waiting.step (htoken : wallet.token ≠ some "1") (h : Waiting id wallet sys.toServer)
    {sys' : System} {a : Step} (hstep : Knoiz.step prices sys a = some sys') :
    Bought sys'.log ∨ Waiting id wallet sys'.toServer := by
  rcases enduring_inactive.step h.inactive hstep with hbought | hinactive
  · exact .inl hbought
  right
  have hkeeps : WalletsKept sys.toServer sys'.toServer →
      Waiting id wallet sys'.toServer := by
    intro hkept
    refine ⟨hinactive, hkept.wallets id wallet h.wallet, ?_⟩
    rw [hkept.jobs]
    exact h.unserved
  cases a with
  | payment sessionId customer =>
      cases hstep
      exact hkeeps (WalletsKept.of_eq rfl rfl)
  | statsJob user genres =>
      cases hstep
      exact hkeeps (WalletsKept.of_eq rfl rfl)
  | request r =>
    cases hstep
    cases hroute : r.route.charges with
    | false => exact hkeeps (serve_walletsKept hroute)
    | true =>
      rcases serve_charges prices hroute with hkept | ⟨id', time, henqueues⟩
      · exact hkeeps hkept
      · have hne : id ≠ id' := by
          rintro rfl
          exact htoken (henqueues.token h.inactive h.wallet)
        refine ⟨hinactive, ?_, fun time' => ?_⟩
        · rcases henqueues.wallets with ⟨-, hwallets⟩ | ⟨stamp, f, hwallets, -⟩
          · rw [hwallets]
            exact h.wallet
          · rw [hwallets, lookup_amend_of_ne hne]
            exact h.wallet
        · rw [henqueues.jobs, List.mem_append, List.mem_singleton, Prod.mk.injEq]
          rintro (hmem | ⟨hid, -⟩)
          · exact h.unserved time' hmem
          · exact hne hid

/-- **The users without a token.** -/
theorem Waiting.run (htoken : wallet.token ≠ some "1") (h : Waiting id wallet sys₀.toServer)
    (hrun : StepRun.run (Knoiz.step prices) sys₀ steps = some sys) (hgrants : ¬ Bought sys.log) :
    Waiting id wallet sys.toServer :=
  StepRun.run_invariant_unmarked (I := fun sys : System => Waiting id wallet sys.toServer)
    (M := fun sys => Bought sys.log) (fun _ _ _ hs => hs.step htoken) (fun _ _ _ => step_bought) h
    hrun hgrants

/-! ### The old accounts -/

theorem exists_lookup_of_rowsOf {ρ : Type} {t : Table ℕ ρ} (h : rowsOf id t = 1) :
    ∃ row, t.lookup id = some row := by
  have hpos : 0 < rowsOf id t := by omega
  exact Option.isSome_iff_exists.mp (lookup_isSome_of_rowsOf hpos)

/-- An active pass of the old tables never ends. -/
theorem Legacy.endless (l : Legacy) {row : SubscriptionBefore}
    (hrow : l.subscriptions.lookup id = some row) (hactive : row.active = true) :
    Endless (l.migrated.subscriptions.lookup id) := by
  rw [l.lookup_subscriptions, hrow]
  exact ⟨_, rfl, hactive, rfl⟩

/-- A user of the old tables without a pass has no token. -/
theorem Legacy.waiting (l : Legacy) {s : Server} (hdb : s.db = l.migrated) (hlog : s.log = [])
    {user : User} (hinactive : ∀ row, l.subscriptions.lookup user.id = some row → row.active = false)
    {row : WalletBefore} (hrow : l.wallets.lookup user.id = some row) :
    Waiting user.id ⟨row.timestamp, none⟩ s := by
  refine ⟨?_, ?_, fun time => ?_⟩
  · rw [hdb, l.lookup_subscriptions]
    intro row' hrow'
    obtain ⟨old, hold, rfl⟩ := Option.map_eq_some_iff.mp hrow'
    exact hinactive old hold
  · rw [hdb, l.lookup_wallets, hrow]
    rfl
  · rw [hlog]
    exact List.not_mem_nil

/-- Without a pass and without a token nobody is eligible, at any time. -/
theorem not_eligible_of_no_token {row : Subscription} {stamp : Option ℤ} (hrow : row.active = false)
    (now : ℤ) : HomeController.eligibleForPlaylist row ⟨stamp, none⟩ now = some false := by
  unfold HomeController.eligibleForPlaylist HomeController.entitled
  rw [hrow]
  rfl

/-- **The old accounts are carried over, exactly when.**  In every state that a run without a
purchase reaches after the migrations, the old accounts have what they are owed if and only if there
was nothing to carry over: no pass was active, and no wallet had a timestamp. -/
theorem carried_over_iff {l : Legacy} (hdb : sys₀.db = l.migrated) (hlog : sys₀.log = [])
    (hrun : StepRun.run (step prices) sys₀ steps = some sys) (hgrants : ¬ Bought sys.log) :
    CarriedOver l sys.toServer ↔ l.Harmless := by
  constructor
  · intro h
    have hinactive : ∀ id row, l.subscriptions.lookup id = some row → row.active = false := by
      intro id row hrow
      by_contra hactive
      rw [Bool.not_eq_false] at hactive
      have hstart : Endless (sys₀.db.subscriptions.lookup id) := by
        rw [hdb]
        exact l.endless hrow hactive
      obtain ⟨row', hrow', hactive', hends⟩ := enduring_endless.run hstart hrun hgrants
      have hsome := h.ends id row' hrow' hactive'
      rw [hends] at hsome
      cases hsome
    refine ⟨hinactive, fun user huser row hrow => ?_⟩
    by_contra hstamp
    obtain ⟨w, hw⟩ := Option.ne_none_iff_exists'.mp hstamp
    have hwaiting := (l.waiting hdb hlog (hinactive user.id) hrow).run (by simp) hrun hgrants
    have hstart : Unsubscribed (sys₀.db.subscriptions.lookup user.id) := by
      obtain ⟨old, hold⟩ := exists_lookup_of_rowsOf (l.oneSubscription user huser)
      rw [hdb, l.lookup_subscriptions, hold]
      exact ⟨_, rfl, hinactive user.id old hold⟩
    obtain ⟨last, hlast, hpass⟩ := enduring_unsubscribed.run hstart hrun hgrants
    -- a time at which the cooldown has passed
    obtain ⟨now, hclock, hpassed⟩ : ∃ now, sys.clock ≤ now ∧ w < now - minute :=
      ⟨max sys.clock (w + minute + 1), le_max_left _ _, by omega⟩
    have heligible := h.eligible user huser last _ w now hlast hpass hwaiting.wallet hw hpassed
      hclock hwaiting.unserved
    rw [not_eligible_of_no_token hpass] at heligible
    cases heligible
  · intro h
    have hends : ∀ id, Inactive (sys.db.subscriptions.lookup id) := by
      intro id
      refine enduring_inactive.run ?_ hrun hgrants
      rw [hdb, l.lookup_subscriptions]
      intro row hrow
      obtain ⟨old, hold, rfl⟩ := Option.map_eq_some_iff.mp hrow
      exact h.inactive id old hold
    refine ⟨fun user huser row wallet w now _ _ hwallet hw _ _ _ => ?_, fun id row hrow hactive => ?_⟩
    · obtain ⟨old, hold⟩ := exists_lookup_of_rowsOf (l.oneWallet user huser)
      have hwaiting := (l.waiting hdb hlog (h.inactive user.id) hold).run (by simp) hrun hgrants
      rw [hwaiting.wallet] at hwallet
      cases hwallet
      rw [h.unstamped user huser old hold] at hw
      cases hw
    · rw [hends id row hrow] at hactive
      cases hactive

namespace Sample

/-- Two old accounts, the second with a pass that was paid by the month. -/
def oldAccounts : Legacy where
  users := (Users.empty.insert "ada").insert "bob"
  subscriptions := [(0, {}), (1, { active := true, stripeSubscriptionId := some "sub_1" })]
  profiles := [(0, { updatedAt := 0 }), (1, { updatedAt := 0 })]
  wallets := [(0, {}), (1, {})]
  spotifydata := [(0, {}), (1, {})]
  oneWallet := by decide
  oneSubscription := by decide

/-- The second user at Spotify. -/
def oldListener : SpotifyUser := ⟨"bob", some "Bob", some [], some "token"⟩

/-- The application after the migrations; browser 1 is the second user's. -/
def migrated : System where
  db := oldAccounts.migrated
  stripe := []
  clock := defaultTimestamp
  log := []
  cookies := fun b =>
    if b = 1 then { userId := some 1, spotifyUserData := some oldListener } else {}

/-- The second user opens the home page a year later. -/
def yearLater : List Step :=
  [.request { browser := 1, route := .homeIndex, env := { delays := [31536000000000] } }]

/-- The state after that. -/
def stillThere : System := (StepRun.run (step priceIds) migrated yearLater).getD migrated

theorem not_bought_stillThere : ¬ Bought stillThere.log := by
  rintro ⟨g, hg⟩
  have hlog : stillThere.log = [.checked 1 1704063600000000,
      .enqueued (.stats (some oldListener) 1) 1704063600000000] := rfl
  rw [hlog] at hg
  simp at hg

end Sample

/-- A year after the migrations the old accounts have not been carried over. -/
theorem not_carried_over_yearLater : ¬ CarriedOver Sample.oldAccounts Sample.stillThere.toServer := by
  intro h
  have hrun : StepRun.run (step Sample.priceIds) Sample.migrated Sample.yearLater =
      some Sample.stillThere := rfl
  have hharmless := (carried_over_iff rfl rfl hrun Sample.not_bought_stillThere).mp h
  exact absurd (hharmless.inactive 1 _ rfl) (by decide)

/-- The first user has no token, and is refused. -/
theorem old_account_refused :
    ¬ ∀ (prices : PaymentsController.Prices) (l : Legacy) (sys₀ sys : System) (steps : List Step),
      sys₀.db = l.migrated → sys₀.log = [] →
      StepRun.run (step prices) sys₀ steps = some sys → ¬ Bought sys.log →
      CarriedOver l sys.toServer := by
  intro h
  have hcarried := h Sample.priceIds Sample.oldAccounts Sample.migrated Sample.migrated [] rfl rfl rfl
    (fun ⟨_, hg⟩ => nomatch hg)
  have heligible := hcarried.eligible ⟨0, "ada", none⟩ (by decide) {} ⟨some defaultTimestamp, none⟩
    defaultTimestamp (defaultTimestamp + minute + 1) rfl rfl rfl rfl (by decide) (by decide)
    (fun _ => List.not_mem_nil)
  exact absurd heligible (by decide)

end Knoiz
