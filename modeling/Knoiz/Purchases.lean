import Knoiz.PassWindow

/-!
# Purchases over whole runs

`payments#success` grants a pass for whatever session the query string names.  Two results say
how far that is from what a buyer is promised: when serving the same session again leaves the pass
as it is, and which requests have to be kept away for every active pass to be a paid one.
-/

namespace Knoiz

open Calendar EventLog PaymentsController ProgramLogic RowTable

variable {prices : PaymentsController.Prices} {whole : Prop} {id : ℕ}

/-! ### Serving a session again -/

/-- The session of the grant was processed for the same user before. -/
def Replays (pre : List Event) (g : Grant) : Prop :=
  ∃ g', Event.granted g' ∈ pre ∧ g'.user = g.user ∧ g'.session.id = g.session.id

/-- The write of the pass left `active` and `expires_at` as they were. -/
def Grant.LeavesRow (g : Grant) : Prop :=
  ∃ row, g.replaced = some row ∧ row.active = true ∧ row.expiresAt = some g.expiresAt

/-- The most recent pass granted to the user before, at `t` for `m` days, ends on the day on which
this one ends. -/
def SameEnd (prices : PaymentsController.Prices) (pre : List Event) (g : Grant) : Prop :=
  ∃ last m n, latest (grantOf g.user) pre = some last ∧ prices.days last.price = some m ∧
    prices.days g.price = some n ∧ dayOf (last.time + m * day) = dayOf (g.time + n * day)

/-- One payment, one pass: no paid session changes the row when it is processed again. -/
def OnePass (log : List Event) : Prop :=
  ∀ pre g post, log = pre ++ .granted g :: post → g.session.paymentStatus = .paid →
    Replays pre g → g.LeavesRow

theorem Replays.told {pre : List Event} {g : Grant} (h : Replays pre g) :
    Told whole g.user pre := by
  refine .inr ?_
  cases hl : latest (grantOf g.user) pre with
  | some _ => rfl
  | none =>
      obtain ⟨g', hmem, huser, -⟩ := h
      have hnil : pre.filterMap (grantOf g.user) = [] := List.getLast?_eq_none_iff.mp hl
      have hnone := List.filterMap_eq_nil_iff.mp hnil _ hmem
      simp [grantOf, huser] at hnone

/-- A grant leaves the row exactly when the latest grant before it has the same expiry. -/
theorem GrantWrites.leavesRow_iff {pre : List Event} {g : Grant}
    (hw : GrantWrites prices whole g.user pre g) (htold : Told whole g.user pre) :
    g.LeavesRow ↔ ∃ last, latest (grantOf g.user) pre = some last ∧
      last.expiresAt = g.expiresAt := by
  obtain ⟨row, hrow, hholds⟩ := hw.replaced rfl htold
  have hpast : ∀ c, latest (checkOf g.user) pre = some c → c ≤ g.expiresAt := by
    intro c hc
    obtain ⟨days, hdays, hexp⟩ := hw.days
    have hle := le_passEnd prices hdays g.time
    have hc' := hw.past rfl c hc
    rw [hexp]
    omega
  have hstanding : standing g.user pre = some g.expiresAt ↔
      ∃ last, latest (grantOf g.user) pre = some last ∧ last.expiresAt = g.expiresAt := by
    unfold standing
    rw [LazyLease.expected_eq_some_iff_of_le hpast, Option.map_eq_some_iff]
  rw [← hstanding]
  constructor
  · rintro ⟨row', hrow', -, hexp⟩
    cases hrow.symm.trans hrow'
    rw [← hholds.expiry, hexp]
  · intro hs
    refine ⟨row, hrow, ?_, ?_⟩
    · rw [hholds.active, hs]
      rfl
    · rw [hholds.expiry, hs]

/-- **Processing a session again.**  In every run, from any rows and sessions, it leaves the row
as it was exactly when the most recent pass ends on the same day. -/
theorem replay_leaves_row_iff {sys₀ sys : System} {steps : List Step} (hlog₀ : sys₀.log = [])
    (hrun : StepRun.run (step prices) sys₀ steps = some sys) {pre post : List Event} {g : Grant}
    (hlog : sys.log = pre ++ .granted g :: post) (hreplay : Replays pre g) :
    g.LeavesRow ↔ SameEnd prices pre g := by
  have hstart : PassWindow prices False g.user sys₀.toServer :=
    PassWindow.start hlog₀ fun hf => hf.elim
  have hwin := hstart.run hrun
  have hw := hwin.grants pre (.granted g) post hlog g rfl
  rw [hw.leavesRow_iff hreplay.told]
  obtain ⟨n, hn, hexp⟩ := hw.days
  have hdays : ∀ last, latest (grantOf g.user) pre = some last →
      ∃ m, prices.days last.price = some m ∧ last.expiresAt = passEnd last.time m := by
    intro last hlast
    obtain ⟨-, pre', hw'⟩ := hwin.latest_grant hlog hlast
    exact hw'.days
  constructor
  · rintro ⟨last, hlast, heq⟩
    obtain ⟨m, hm, hexp'⟩ := hdays last hlast
    refine ⟨last, m, n, hlast, hm, hn, ?_⟩
    rw [hexp, hexp'] at heq
    exact (endOfDay_eq_iff _ _).mp heq
  · rintro ⟨last, m, n', hlast, hm, hn', hday⟩
    obtain ⟨m', hm', hexp'⟩ := hdays last hlast
    cases hm.symm.trans hm'
    cases hn.symm.trans hn'
    refine ⟨last, hlast, ?_⟩
    rw [hexp, hexp']
    exact (endOfDay_eq_iff _ _).mpr hday

/-- For two passes of one price that is: the two were granted on one day. -/
theorem sameEnd_iff_same_day {pre : List Event} {g last : Grant} {n : ℤ}
    (hlast : latest (grantOf g.user) pre = some last) (hprice : last.price = g.price)
    (hn : prices.days g.price = some n) :
    SameEnd prices pre g ↔ dayOf last.time = dayOf g.time := by
  rw [← endOfDay_add_days_eq_iff _ _ n, endOfDay_eq_iff]
  constructor
  · rintro ⟨last', m, n', hlast', hm, hn', hday⟩
    cases hlast.symm.trans hlast'
    rw [hprice] at hm
    cases hn.symm.trans hm
    cases hn.symm.trans hn'
    exact hday
  · intro hday
    exact ⟨last, n, n, hlast, by rw [hprice, hn], hn, hday⟩

namespace Sample

/-- The session that the purchase paid for. -/
def paidSession : CheckoutSession := ⟨"cs_1", some 0, some "7", ["price_7"], some "cus_1", .paid⟩

/-- A pass from the paid session. -/
def grant (time expiresAt : ℤ) (replaced : Subscription) : Grant where
  user := 0
  session := paidSession
  price := "price_7"
  time := time
  expiresAt := expiresAt
  replaced := some replaced

def firstGrant : Grant := grant 1000000 691199999999 {}

/-- The row after the first grant. -/
def boughtRow : Subscription := ⟨some "cus_1", true, some 691199999999⟩

/-- The success page is opened again, `delay` microseconds after the purchase. -/
def replay (delay : ℕ) : System := after (purchase ++ [success delay])

theorem replays_firstGrant (time expiresAt now : ℤ) :
    Replays [.checked 0 0, .checked 0 1000000, .granted firstGrant, .checked 0 now]
      (grant time expiresAt boughtRow) :=
  ⟨firstGrant, by simp, rfl, rfl⟩

end Sample

/-- Reloading the success page a second later leaves the row. -/
theorem replay_within_the_day :
    (Sample.grant 2000000 691199999999 Sample.boughtRow).LeavesRow := by
  have hrun : StepRun.run (step Sample.priceIds) Sample.loggedIn
      (Sample.purchase ++ [Sample.success 1000000]) = some (Sample.replay 1000000) := rfl
  have hreplays := Sample.replays_firstGrant 2000000 691199999999 2000000
  exact (replay_leaves_row_iff rfl hrun rfl hreplays).mpr
    ⟨Sample.firstGrant, 7, 7, rfl, rfl, rfl, rfl⟩

/-- Reloading it a day later moves the end of the pass. -/
theorem replay_extends_pass :
    ¬ ∀ (prices : Prices) (sys₀ sys : System) (steps : List Step),
      sys₀.log = [] → StepRun.run (step prices) sys₀ steps = some sys → OnePass sys.log := by
  intro h
  have hleaves := h Sample.priceIds Sample.loggedIn (Sample.replay 86400000000)
    (Sample.purchase ++ [Sample.success 86400000000]) rfl rfl _
    (Sample.grant 86401000000 777599999999 Sample.boughtRow) [] rfl rfl
    (Sample.replays_firstGrant _ _ 86401000000)
  obtain ⟨row, hrow, -, hexp⟩ := hleaves
  cases hrow
  exact absurd hexp (by decide)

/-! ### Payment authenticity -/

/-- A paid session that the user itself created was processed for the user. -/
def Authorized (id : ℕ) (log : List Event) : Prop :=
  ∃ g, Event.granted g ∈ log ∧ g.user = id ∧ g.session.creator = some id ∧
    g.session.paymentStatus = .paid

/-- Every active pass is one that its user has paid for. -/
def Authentic (s : Server) : Prop :=
  ∀ id row, s.db.subscriptions.lookup id = some row → row.active = true → Authorized id s.log

/-- A `payments#success` that can grant a pass names a paid session of the user's own, unless the
user has had one processed already. -/
def NamesOwnPayment (prices : Prices) (sys : System) : Step → Prop
  | .request r => ∀ sessionId id session priceId days, r.route = .paymentsSuccess sessionId →
      sys.userOf r = some id → findSession sys.stripe sessionId = some session →
      session.lineItems.head? = some priceId → prices.days priceId = some days →
      (session.creator = some id ∧ session.paymentStatus = .paid) ∨ Authorized id sys.log
  | _ => True

theorem Authorized.append {log : List Event} (h : Authorized id log) (es : List Event) :
    Authorized id (log ++ es) := by
  obtain ⟨g, hg, hrest⟩ := h
  exact ⟨g, List.mem_append_left _ hg, hrest⟩

/-- A step that makes no row active, other than that of a user with an authentic purchase. -/
theorem Authentic.next {s t : Server} (h : Authentic s) {es : List Event}
    (hlog : t.log = s.log ++ es)
    (hrows : ∀ id row, t.db.subscriptions.lookup id = some row → row.active = true →
      (∃ old, s.db.subscriptions.lookup id = some old ∧ old.active = true) ∨
        Authorized id t.log) : Authentic t := by
  intro id row hrow hactive
  rcases hrows id row hrow hactive with ⟨old, hold, holda⟩ | hauth
  · rw [hlog]
    exact (h id old hold holda).append es
  · exact hauth

theorem Authentic.of_eq {s t : Server} (h : Authentic s)
    (hdb : t.db.subscriptions = s.db.subscriptions) {es : List Event}
    (hlog : t.log = s.log ++ es) : Authentic t := by
  refine h.next hlog fun id row hrow hactive => .inl ⟨row, ?_, hactive⟩
  rw [← hdb]
  exact hrow

/-- An amendment of one row that leaves inactive rows inactive. -/
theorem Authentic.amend {s t : Server} (h : Authentic s) {id : ℕ}
    {f : Subscription → Subscription} (hdb : t.db = s.db.amendSubscription id f)
    {es : List Event} (hlog : t.log = s.log ++ es)
    (hf : ∀ row, (f row).active = true → row.active = true ∨ Authorized id t.log) :
    Authentic t := by
  refine h.next hlog fun j row hrow hactive => ?_
  rw [hdb] at hrow
  change (RowTable.amend id f s.db.subscriptions).lookup j = some row at hrow
  rw [lookup_amend] at hrow
  split at hrow
  · rename_i hj
    subst hj
    obtain ⟨old, hold, rfl⟩ := Option.map_eq_some_iff.mp hrow
    rcases hf old hactive with holda | hauth
    · exact .inl ⟨old, hold, holda⟩
    · exact .inr hauth
  · exact .inl ⟨row, hrow, hactive⟩

/-- What holds while a request is served that meets the guard. -/
structure AuthenticServing (sys : System) (r : Request) (s : Ctx) : Prop where
  authentic : Authentic s.toServer
  route : s.route = r.route
  user : s.currentUser = sys.userOf r
  log : ∃ es, s.log = sys.log ++ es
  stripe : ∀ sessionId, r.route = .paymentsSuccess sessionId → s.stripe = sys.stripe

theorem AuthenticServing.next {sys : System} {r : Request} {s t : Ctx}
    (h : AuthenticServing sys r s) (hauth : Authentic t.toServer)
    (hframe : t.currentUser = s.currentUser ∧ t.route = s.route ∧ t.env = s.env)
    {es : List Event} (hlog : t.log = s.log ++ es)
    (hstripe : ∀ sessionId, s.route = .paymentsSuccess sessionId → t.stripe = s.stripe) :
    AuthenticServing sys r t := by
  refine ⟨hauth, hframe.2.1.trans h.route, hframe.1.trans h.user, ?_, fun sid hsid => ?_⟩
  · obtain ⟨es', hes'⟩ := h.log
    exact ⟨es' ++ es, by rw [hlog, hes', List.append_assoc]⟩
  · exact (hstripe sid (h.route.trans hsid)).trans (h.stripe sid hsid)

theorem AuthenticServing.checked {sys : System} {r : Request} {s t : Ctx} (hst : Checked s t)
    (h : AuthenticServing sys r s) : AuthenticServing sys r t := by
  have hframe := hst.frame
  cases hst with
  | skipped => exact h
  | @live m id row hq =>
      have hlog : m.log ++ [Event.checked id m.clock] = s.log ++ [.checked id m.clock] := by
        rw [hq.log]
      have hauth : Authentic { m.toServer with log := m.log ++ [.checked id m.clock] } :=
        h.authentic.of_eq (congrArg Database.subscriptions hq.db) hlog
      exact h.next hauth hframe hlog fun _ _ => hq.stripe
  | @cleared m id row hq =>
      have hlog : m.log ++ [Event.checked id m.clock] = s.log ++ [.checked id m.clock] := by
        rw [hq.log]
      have hdb : m.db.amendSubscription id Subscription.deactivated =
          s.db.amendSubscription id Subscription.deactivated := by rw [hq.db]
      have hauth : Authentic
          { m.toServer with
            db := m.db.amendSubscription id Subscription.deactivated
            log := m.log ++ [.checked id m.clock] } :=
        h.authentic.amend hdb hlog fun row hrow => absurd hrow Bool.false_ne_true
      exact h.next hauth hframe hlog fun _ _ => hq.stripe

theorem AuthenticServing.loginEffect {sys : System} {r : Request}
    (hguard : NamesOwnPayment prices sys (.request r)) {s t : Ctx}
    (hst : LoginEffect prices s t) (h : AuthenticServing sys r s) : AuthenticServing sys r t := by
  have hframe := hst.frame
  have hsame : ∀ {m : Ctx}, m.db.subscriptions = s.db.subscriptions → m.log = s.log →
      (m.currentUser = s.currentUser ∧ m.route = s.route ∧ m.env = s.env) →
      (∀ sessionId, s.route = .paymentsSuccess sessionId → m.stripe = s.stripe) →
      AuthenticServing sys r m := by
    intro m hdb hlog hf hstripe
    have hlog' : m.log = s.log ++ [] := by rw [hlog, List.append_nil]
    exact h.next (h.authentic.of_eq hdb hlog') hf hlog' hstripe
  cases hst with
  | effect he =>
    cases he with
    | quiet hq =>
        exact hsame (congrArg Database.subscriptions hq.db) hq.log hframe fun _ _ => hq.stripe
    | gate | enqueued | nilCall =>
        exact h.next (h.authentic.of_eq rfl rfl) hframe rfl fun _ _ => rfl
    | customer hu customer =>
        have hlog : s.log = s.log ++ [] := (List.append_nil _).symm
        exact h.next (h.authentic.amend rfl hlog fun row hrow => .inl hrow) hframe hlog
          fun _ _ => rfl
    | @granted id row session priceId days sessionId hu hrow hroute hfound hprice hdays =>
        refine h.next (h.authentic.amend rfl rfl fun row _ => .inr ?_) hframe rfl fun _ _ => rfl
        have hr : r.route = .paymentsSuccess sessionId := h.route.symm.trans hroute
        rw [h.stripe sessionId hr] at hfound
        have hown := hguard sessionId id session priceId days hr (h.user.symm.trans hu) hfound
          hprice hdays
        rcases hown with ⟨hcreator, hpaid⟩ | hauth
        · exact ⟨_, List.mem_append_right _ (List.mem_singleton.mpr rfl), rfl, hcreator, hpaid⟩
        · obtain ⟨es, hes⟩ := h.log
          show Authorized id (s.log ++ _)
          rw [hes]
          exact (hauth.append es).append _
    | checkout customer hroute hmap =>
        exact hsame rfl rfl hframe fun sid hsid => absurd (hroute.symm.trans hsid) (by simp)
    | _ => exact hsame rfl rfl hframe fun _ _ => rfl
  | created spotifyId =>
      have hlog : s.log = s.log ++ [] := (List.append_nil _).symm
      refine h.next (h.authentic.next hlog fun id row hrow hactive => ?_) hframe hlog
        fun _ _ => rfl
      -- the row of the new user is inactive
      change (s.db.subscriptions ++ [(s.db.users.seq, ({} : Subscription))]).lookup id =
        some row at hrow
      cases hold : s.db.subscriptions.lookup id with
      | some old =>
          rw [lookup_append_of_some hold] at hrow
          cases hrow
          exact .inl ⟨_, rfl, hactive⟩
      | none =>
          rw [lookup_append_of_none hold, List.lookup_cons] at hrow
          split at hrow
          · cases hrow
            cases hactive
          · cases hrow
  | _ => exact hsame rfl rfl hframe fun _ _ => rfl

/-- **Payment authenticity.**  In every run from inactive subscriptions whose `payments#success`
requests name paid sessions of their own users, every active pass is one that its user has paid
for. -/
theorem payment_authentic {sys₀ sys : System} {steps : List Step}
    (hinactive : ∀ id row, sys₀.db.subscriptions.lookup id = some row → row.active = false)
    (hguard : StepRun.Along (step prices) (NamesOwnPayment prices) sys₀ steps)
    (hrun : StepRun.run (step prices) sys₀ steps = some sys) : Authentic sys.toServer := by
  have h₀ : Authentic sys₀.toServer := by
    intro id row hrow hactive
    rw [hinactive id row hrow] at hactive
    cases hactive
  refine StepRun.run_invariant_along (I := fun sys : System => Authentic sys.toServer)
    (fun sys a sys' hs hg hstep => ?_) h₀ hguard hrun
  cases a with
  | request r =>
      cases hstep
      have hstart : AuthenticServing sys r (sys.start r).identified :=
        ⟨hs, rfl, rfl, ⟨[], (List.append_nil _).symm⟩, fun _ _ => rfl⟩
      have hend : AuthenticServing sys r (final (process prices r.route) (sys.start r)) :=
        serve_rule (fun _ _ hc hi => hi.checked hc) (fun _ _ he hi => hi.loginEffect hg he) hstart
      rw [serve_server]
      exact hend.authentic
  | payment sessionId customer =>
      cases hstep
      exact hs
  | statsJob user genres =>
      cases hstep
      exact hs

theorem Sample.loggedIn_inactive (id : ℕ) (row : Subscription)
    (h : Sample.loggedIn.db.subscriptions.lookup id = some row) : row.active = false := by
  change [(0, ({} : Subscription))].lookup id = some row at h
  rw [List.lookup_cons] at h
  split at h
  · cases h
    rfl
  · cases h

/-- The purchase of the sample run is authentic. -/
theorem purchase_authentic : Authentic (Sample.after Sample.purchase).toServer := by
  have hrun : StepRun.run (step Sample.priceIds) Sample.loggedIn Sample.purchase =
      some (Sample.after Sample.purchase) := rfl
  refine payment_authentic Sample.loggedIn_inactive ?_ hrun
  refine ⟨fun _ _ _ _ _ hroute => (nomatch hroute), fun _ hs => ?_⟩
  cases hs
  refine ⟨trivial, fun _ hs => ?_⟩
  cases hs
  refine ⟨?_, fun _ _ => trivial⟩
  intro sessionId id session priceId days hroute huser hfound _ _
  cases hroute
  cases huser
  cases hfound
  exact .inl ⟨rfl, rfl⟩

/-- A checkout that is never paid gives a pass, to a user without any paid session. -/
theorem unpaid_checkout_active :
    ¬ ∀ (prices : Prices) (sys₀ sys : System) (steps : List Step),
      (∀ id row, sys₀.db.subscriptions.lookup id = some row → row.active = false) →
      StepRun.run (step prices) sys₀ steps = some sys → Authentic sys.toServer := by
  intro h
  have hauth := h Sample.priceIds Sample.loggedIn
    (Sample.after [Sample.checkout, Sample.success 1000000])
    [Sample.checkout, Sample.success 1000000] Sample.loggedIn_inactive rfl
  obtain ⟨g, hg, -, -, hpaid⟩ := hauth 0 ⟨none, true, some 691199999999⟩ rfl rfl
  have hlog : (Sample.after [Sample.checkout, Sample.success 1000000]).log =
      [.checked 0 0, .checked 0 1000000,
        .granted ⟨0, ⟨"cs_1", some 0, some "7", ["price_7"], none, .unpaid⟩, "price_7", 1000000,
          691199999999, some {}⟩] := rfl
  rw [hlog] at hg
  simp only [List.mem_cons, reduceCtorEq, Event.granted.injEq, List.not_mem_nil, or_false,
    false_or] at hg
  rw [hg] at hpaid
  cases hpaid

end Knoiz
