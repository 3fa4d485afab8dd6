import Knoiz.Library.EventLog
import Knoiz.Library.LazyLease
import Knoiz.RequestEffects

/-!
# The window of a pass

A pass is two columns, `active` and `expires_at`, that nothing clears when the expiry passes: the
next request's check does.  The abstract account is a lazily expiring lease, decided by the latest
grant and the latest check of the log; the invariant of this file says that the stored row, every
gate's reading and every row that a grant replaced agree with that account.
-/

namespace Knoiz

open Calendar EventLog RowTable

/-! ### What the log says -/

/-- The time of a run of the expiry check for user `id`. -/
def checkOf (id : ℕ) : Event → Option ℤ
  | .checked user time => if user = id then some time else none
  | _ => none

/-- A pass granted to user `id`. -/
def grantOf (id : ℕ) : Event → Option Grant
  | .granted g => if g.user = id then some g else none
  | _ => none

/-- The expiry that the latest grant and the latest check leave standing. -/
def standing (id : ℕ) (log : List Event) : Option ℤ :=
  LazyLease.expected ((latest (grantOf id) log).map Grant.expiresAt) (latest (checkOf id) log)

theorem user_of_grantOf {id : ℕ} {e : Event} {g : Grant} (h : grantOf id e = some g) :
    e = .granted g ∧ g.user = id := by
  cases e with
  | granted g' =>
      simp only [grantOf] at h
      split at h
      · rename_i hid
        cases h
        exact ⟨rfl, hid⟩
      · cases h
  | _ => cases h

theorem standing_other {id : ℕ} {e : Event} (hc : checkOf id e = none) (hg : grantOf id e = none)
    (log : List Event) : standing id (log ++ [e]) = standing id log := by
  unfold standing
  rw [latest_concat_of_none hc, latest_concat_of_none hg]

/-- A check that is not earlier than the checks before it drops a lease that has run out. -/
theorem standing_checked {id : ℕ} {log : List Event} {now : ℤ}
    (h : ∀ c, latest (checkOf id) log = some c → c ≤ now) :
    standing id (log ++ [.checked id now]) = LazyLease.check now (standing id log) := by
  have hc : checkOf id (.checked id now) = some now := by simp [checkOf]
  have hg : grantOf id (.checked id now) = none := rfl
  unfold standing
  rw [latest_concat_of_some hc, latest_concat_of_none hg, LazyLease.check_expected h]

/-- A grant with an expiry that is not before the latest check stands. -/
theorem standing_granted {log : List Event} {g : Grant}
    (h : ∀ c, latest (checkOf g.user) log = some c → c ≤ g.expiresAt) :
    standing g.user (log ++ [.granted g]) = some g.expiresAt := by
  have hc : checkOf g.user (.granted g) = none := rfl
  have hg : grantOf g.user (.granted g) = some g := by simp [grantOf]
  unfold standing
  rw [latest_concat_of_none hc, latest_concat_of_some hg, Option.map_some]
  exact LazyLease.expected_granted h

/-- **After a check.**  What stands is the latest grant, when the check does not come too late. -/
theorem standing_eq_some_iff {id : ℕ} {log : List Event} {now d : ℤ}
    (h : latest (checkOf id) log = some now) :
    standing id log = some d ↔
      ∃ g, latest (grantOf id) log = some g ∧ g.expiresAt = d ∧ now ≤ d := by
  unfold standing
  rw [h, LazyLease.expected_eq_some_iff, Option.map_eq_some_iff]
  constructor
  · rintro ⟨⟨g, hg, hgd⟩, hle⟩
    exact ⟨g, hg, hgd, hle⟩
  · rintro ⟨g, hg, hgd, hle⟩
    exact ⟨⟨g, hg, hgd⟩, hle⟩

/-! ### What the row says -/

/-- The row holds a pass until `expiresAt`, or no pass when there is none. -/
structure Subscription.Holds (row : Subscription) (expiresAt : Option ℤ) : Prop where
  active : row.active = expiresAt.isSome
  expiry : row.expiresAt = expiresAt

theorem Subscription.expired_iff {row : Subscription} {x : Option ℤ} (h : row.Holds x) (now : ℤ) :
    row.expired now = true ↔ ∃ d, x = some d ∧ d < now := by
  unfold Subscription.expired
  rw [h.active, h.expiry]
  cases x <;> simp

/-- The check keeps a row whose pass has not run out. -/
theorem Subscription.Holds.kept {row : Subscription} {x : Option ℤ} {now : ℤ} (h : row.Holds x)
    (hk : row.expired now = false) : row.Holds (LazyLease.check now x) := by
  have hx : ¬ ∃ d, x = some d ∧ d < now := by
    rw [← Subscription.expired_iff h, hk]
    exact Bool.false_ne_true
  cases x with
  | none => exact h
  | some d =>
      have hd : ¬ d < now := fun hd => hx ⟨d, rfl, hd⟩
      simpa only [LazyLease.check, hd, if_false] using h

/-- The check clears a row whose pass has run out. -/
theorem Subscription.Holds.cleared {row : Subscription} {x : Option ℤ} {now : ℤ} (h : row.Holds x)
    (ho : row.expired now = true) : row.deactivated.Holds (LazyLease.check now x) := by
  obtain ⟨d, rfl, hd⟩ := (Subscription.expired_iff h now).mp ho
  have hnone : LazyLease.check now (some d) = none := by simp [LazyLease.check, hd]
  rw [hnone]
  exact ⟨rfl, rfl⟩

theorem Subscription.Holds.withPass (row : Subscription) (d : ℤ) :
    (PaymentsController.withPass row d).Holds (some d) := ⟨rfl, rfl⟩

/-! ### The invariant -/

/-- The log tells what the row of `id` holds: the whole story is in the log, or a grant is. -/
def Told (whole : Prop) (id : ℕ) (log : List Event) : Prop :=
  whole ∨ (latest (grantOf id) log).isSome = true

theorem told_other {whole : Prop} {id : ℕ} {e : Event} (hg : grantOf id e = none)
    (log : List Event) : Told whole id (log ++ [e]) ↔ Told whole id log := by
  unfold Told
  rw [latest_concat_of_none hg]

/-- A gate reads what stands at the time. -/
def GateReads (whole : Prop) (id : ℕ) (pre : List Event) (e : Event) : Prop :=
  ∀ active expiresAt, e = .gate id active expiresAt → Told whole id pre →
    active = (standing id pre).isSome ∧ expiresAt = standing id pre

/-- A grant is for the days of its price, comes after the checks before it, and replaces a row
that holds what stands at the time. -/
structure GrantWrites (prices : PaymentsController.Prices) (whole : Prop) (id : ℕ)
    (pre : List Event) (g : Grant) : Prop where
  days : ∃ days, prices.days g.price = some days ∧
    g.expiresAt = PaymentsController.passEnd g.time days
  past : g.user = id → ∀ c, latest (checkOf id) pre = some c → c ≤ g.time
  replaced : g.user = id → Told whole id pre →
    ∃ row, g.replaced = some row ∧ row.Holds (standing id pre)

/-- **The invariant.**  The row of `id`, and all that was ever read from it or written over it,
agree with the account that the log gives.  `whole` says that the account begins with the row. -/
structure PassWindow (prices : PaymentsController.Prices) (whole : Prop) (id : ℕ) (s : Server) :
    Prop where
  row : Told whole id s.log →
    ∃ row, s.db.subscriptions.lookup id = some row ∧ row.Holds (standing id s.log)
  past : ∀ c, latest (checkOf id) s.log = some c → c ≤ s.clock
  gates : Throughout (GateReads whole id) s.log
  grants : Throughout (fun pre e => ∀ g, e = .granted g → GrantWrites prices whole id pre g) s.log

variable {prices : PaymentsController.Prices} {whole : Prop} {id : ℕ}

/-- A step that touches neither the row nor the log. -/
theorem PassWindow.of_eq {s t : Server} (h : PassWindow prices whole id s)
    (hrow : t.db.subscriptions = s.db.subscriptions) (hlog : t.log = s.log)
    (hclock : s.clock ≤ t.clock) : PassWindow prices whole id t := by
  refine ⟨?_, ?_, ?_, ?_⟩
  · rw [hrow, hlog]
    exact h.row
  · rw [hlog]
    exact fun c hc => le_trans (h.past c hc) hclock
  · rw [hlog]
    exact h.gates
  · rw [hlog]
    exact h.grants

/-- A step that appends an event which is neither a check nor a grant of `id`. -/
theorem PassWindow.record {s t : Server} (h : PassWindow prices whole id s) {e : Event}
    (hrow : t.db.subscriptions.lookup id = s.db.subscriptions.lookup id)
    (hlog : t.log = s.log ++ [e]) (hclock : t.clock = s.clock) (hc : checkOf id e = none)
    (hg : grantOf id e = none) (hgate : GateReads whole id s.log e)
    (hgrant : ∀ g, e = .granted g → GrantWrites prices whole id s.log g) :
    PassWindow prices whole id t := by
  refine ⟨?_, ?_, ?_, ?_⟩
  · rw [hrow, hlog, standing_other hc hg, told_other hg]
    exact h.row
  · rw [hlog, latest_concat_of_none hc, hclock]
    exact h.past
  · rw [hlog]
    exact h.gates.concat hgate
  · rw [hlog]
    exact h.grants.concat hgrant

/-- A check of `id` that leaves a row holding what a check leaves of the standing lease. -/
theorem PassWindow.swept {s t : Server} (h : PassWindow prices whole id s) {row : Subscription}
    (hrow : t.db.subscriptions.lookup id = some row)
    (hholds : Told whole id s.log → row.Holds (LazyLease.check s.clock (standing id s.log)))
    (hlog : t.log = s.log ++ [.checked id s.clock]) (hclock : t.clock = s.clock) :
    PassWindow prices whole id t := by
  have hcheck : checkOf id (.checked id s.clock) = some s.clock := by simp [checkOf]
  have hgrant : grantOf id (.checked id s.clock) = none := rfl
  refine ⟨?_, ?_, ?_, ?_⟩
  · rw [hlog, standing_checked h.past, told_other hgrant]
    exact fun htold => ⟨row, hrow, hholds htold⟩
  · intro c hc
    rw [hlog, latest_concat_of_some hcheck] at hc
    cases hc
    exact hclock.ge
  · rw [hlog]
    exact h.gates.concat fun _ _ he => nomatch he
  · rw [hlog]
    exact h.grants.concat fun _ he => nomatch he

/-- A grant to `id`. -/
theorem PassWindow.bought {s t : Server} (h : PassWindow prices whole id s) {g : Grant}
    (huser : g.user = id) (hg : GrantWrites prices whole id s.log g) {row : Subscription}
    (hrow : t.db.subscriptions.lookup id = some row) (hholds : row.Holds (some g.expiresAt))
    (hlog : t.log = s.log ++ [.granted g]) (hclock : t.clock = s.clock) :
    PassWindow prices whole id t := by
  subst huser
  have hcheck : checkOf g.user (.granted g) = none := rfl
  -- the expiry is not before the grant, and the grant not before the checks so far
  have hend : ∀ c, latest (checkOf g.user) s.log = some c → c ≤ g.expiresAt := by
    intro c hc
    obtain ⟨days, hdays, hexp⟩ := hg.days
    have hle := PaymentsController.le_passEnd prices hdays g.time
    have hpast := hg.past rfl c hc
    rw [hexp]
    omega
  refine ⟨?_, ?_, ?_, ?_⟩
  · rw [hlog, standing_granted hend]
    exact fun _ => ⟨row, hrow, hholds⟩
  · rw [hlog, latest_concat_of_none hcheck, hclock]
    exact h.past
  · rw [hlog]
    exact h.gates.concat fun _ _ he => nomatch he
  · rw [hlog]
    refine h.grants.concat fun g' hg' => ?_
    cases hg'
    exact hg

/-- An amendment of a row that changes no more than the customer. -/
theorem PassWindow.customer {s : Server} (h : PassWindow prices whole id s) (id' : ℕ)
    (customer : Option String) :
    PassWindow prices whole id
      { s with db := s.db.amendSubscription id' fun row =>
          { row with stripeUserId := customer } } := by
  refine ⟨fun htold => ?_, h.past, h.gates, h.grants⟩
  obtain ⟨row, hrow, hholds⟩ := h.row htold
  by_cases hid : id' = id
  · subst hid
    refine ⟨{ row with stripeUserId := customer }, ?_, ⟨hholds.active, hholds.expiry⟩⟩
    show (amend id' _ s.db.subscriptions).lookup id' = _
    rw [lookup_amend_self, hrow, Option.map_some]
  · refine ⟨row, ?_, hholds⟩
    show (amend id' _ s.db.subscriptions).lookup id = _
    rw [lookup_amend_of_ne (Ne.symm hid), hrow]

/-! ### Every step preserves it -/

/-- A stored row holds what stands, when the log tells it. -/
theorem PassWindow.holds {s : Server} (h : PassWindow prices whole id s) {row : Subscription}
    (hrow : s.db.subscriptions.lookup id = some row) (htold : Told whole id s.log) :
    row.Holds (standing id s.log) := by
  obtain ⟨row', hrow', hholds⟩ := h.row htold
  cases hrow.symm.trans hrow'
  exact hholds

theorem PassWindow.checked {s t : Ctx} (hst : Checked s t)
    (h : PassWindow prices whole id s.toServer) : PassWindow prices whole id t.toServer := by
  cases hst with
  | skipped => exact h
  | @live m id' row hq hu hrow hkept =>
      have hm := h.of_eq (t := m.toServer) (by rw [hq.db]) hq.log hq.clock
      by_cases hid : id' = id
      · subst hid
        exact hm.swept hrow (fun htold => (hm.holds hrow htold).kept hkept) rfl rfl
      · exact hm.record rfl rfl rfl (by simp [checkOf, hid]) rfl (fun _ _ he => nomatch he)
          fun _ he => nomatch he
  | @cleared m id' row hq hu hrow hover =>
      have hm := h.of_eq (t := m.toServer) (by rw [hq.db]) hq.log hq.clock
      by_cases hid : id' = id
      · subst hid
        have hlookup : (amend id' Subscription.deactivated m.db.subscriptions).lookup id' =
            some row.deactivated := by
          rw [lookup_amend_self, hrow, Option.map_some]
        exact hm.swept hlookup (fun htold => (hm.holds hrow htold).cleared hover) rfl rfl
      · exact hm.record (lookup_amend_of_ne (Ne.symm hid) _ _) rfl rfl (by simp [checkOf, hid])
          rfl (fun _ _ he => nomatch he) fun _ he => nomatch he

theorem PassWindow.effect {s t : Ctx} (hst : Effect prices s t)
    (h : PassWindow prices whole id s.toServer) : PassWindow prices whole id t.toServer := by
  cases hst with
  | quiet hq => exact h.of_eq (by rw [hq.db]) hq.log hq.clock
  | renamed | profile | stamped | spent | statsStamped | refreshed | checkout =>
      exact h.of_eq rfl rfl le_rfl
  | nilCall | enqueued =>
      exact h.record rfl rfl rfl rfl rfl (fun _ _ he => nomatch he) fun _ he => nomatch he
  | customer hu customer => exact h.customer _ customer
  | @gate id' row hu hrow =>
      refine h.record rfl rfl rfl rfl rfl ?_ fun _ he => nomatch he
      intro active expiresAt he htold
      cases he
      have hholds := h.holds hrow htold
      exact ⟨hholds.active, hholds.expiry⟩
  | @granted id' row session priceId days sessionId hu hrow hroute hfound hprice hdays =>
      by_cases hid : id' = id
      · subst hid
        have hlookup : (amend id' (PaymentsController.withPass · (PaymentsController.passEnd s.clock
            days)) s.db.subscriptions).lookup id' =
            some (PaymentsController.withPass row (PaymentsController.passEnd s.clock days)) := by
          rw [lookup_amend_self, hrow, Option.map_some]
        exact h.bought rfl
          ⟨⟨days, hdays, rfl⟩, fun _ => h.past, fun _ htold => ⟨row, hrow, h.holds hrow htold⟩⟩
          hlookup (Subscription.Holds.withPass row _) rfl rfl
      · refine h.record (lookup_amend_of_ne (Ne.symm hid) _ _) rfl rfl rfl
          (by simp [grantOf, hid]) (fun _ _ he => nomatch he) fun g hg => ?_
        cases hg
        exact ⟨⟨days, hdays, rfl⟩, fun he => absurd he hid, fun he => absurd he hid⟩

theorem PassWindow.loginEffect {s t : Ctx} (hst : LoginEffect prices s t)
    (h : PassWindow prices whole id s.toServer) : PassWindow prices whole id t.toServer := by
  cases hst with
  | effect he => exact h.effect he
  | created spotifyId =>
      refine ⟨fun htold => ?_, h.past, h.gates, h.grants⟩
      obtain ⟨row, hrow, hholds⟩ := h.row htold
      exact ⟨row, lookup_append_of_some hrow _, hholds⟩
  | storedData | burnt | renamed | profile | startedSession | resetSession =>
      exact h.of_eq rfl rfl le_rfl

theorem PassWindow.run {sys sys' : System} {steps : List Step}
    (h : PassWindow prices whole id sys.toServer)
    (hrun : StepRun.run (step prices) sys steps = some sys') :
    PassWindow prices whole id sys'.toServer := by
  refine StepRun.run_invariant (I := fun sys : System => PassWindow prices whole id sys.toServer)
    (fun _ _ _ hs hstep => ?_) h hrun
  exact step_invariant (fun _ _ hc hi => hi.checked hc) (fun _ _ he hi => hi.loginEffect he)
    (fun _ _ _ hi => hi.of_eq rfl rfl le_rfl) (fun _ _ _ hi => hi.of_eq rfl rfl le_rfl) hs hstep

/-! ### Plans and prices -/

/-- The line item of a session made by the checkout is the price of its plan. -/
def PlanSound (prices : PaymentsController.Prices) (session : CheckoutSession) : Prop :=
  ∀ plan, session.plan = some plan →
    ∃ priceId, prices.mapping plan = some priceId ∧ session.lineItems.head? = some priceId

/-- Every session, and every session that a pass was granted for, has the price of its plan. -/
structure PlansKept (prices : PaymentsController.Prices) (s : Server) : Prop where
  stripe : ∀ session ∈ s.stripe, PlanSound prices session
  grants : ∀ g, Event.granted g ∈ s.log → ∀ plan, g.session.plan = some plan →
    prices.mapping plan = some g.price

theorem PlansKept.of_log {s t : Server} (h : PlansKept prices s) {es : List Event}
    (hstripe : t.stripe = s.stripe) (hlog : t.log = s.log ++ es)
    (hes : ∀ g, Event.granted g ∉ es) : PlansKept prices t := by
  refine ⟨by rw [hstripe]; exact h.stripe, fun g hg => ?_⟩
  rw [hlog] at hg
  rcases List.mem_append.mp hg with hg | hg
  · exact h.grants g hg
  · exact absurd hg (hes g)

theorem PlansKept.of_eq {s t : Server} (h : PlansKept prices s) (hstripe : t.stripe = s.stripe)
    (hlog : t.log = s.log) : PlansKept prices t :=
  h.of_log hstripe (hlog.trans (List.append_nil s.log).symm) fun _ hg => nomatch hg

theorem PlansKept.effect {s t : Ctx} (hst : Effect prices s t) (h : PlansKept prices s.toServer) :
    PlansKept prices t.toServer := by
  cases hst with
  | quiet hq => exact h.of_eq hq.stripe hq.log
  | gate | nilCall | enqueued => exact h.of_log rfl rfl fun g hg => by simp at hg
  | granted hu hrow hroute hfound hprice hdays =>
      refine ⟨h.stripe, fun g hg plan hplan => ?_⟩
      rcases List.mem_append.mp hg with hg | hg
      · exact h.grants g hg plan hplan
      · cases List.mem_singleton.mp hg
        obtain ⟨sid, -, hf⟩ := Option.bind_eq_some_iff.mp hfound
        obtain ⟨priceId, hmap, hhead⟩ := h.stripe _ (List.mem_of_find?_eq_some hf) plan hplan
        rw [hmap]
        exact hhead.symm.trans hprice
  | @checkout plan priceId customer hroute hmap =>
      refine ⟨fun session hsession => ?_, h.grants⟩
      rcases List.mem_append.mp hsession with hold | hnew
      · exact h.stripe session hold
      · rw [List.mem_singleton.mp hnew]
        intro chosen hchosen
        cases hchosen
        exact ⟨priceId, hmap, rfl⟩
  | _ => exact h.of_eq rfl rfl

theorem PlansKept.run {sys sys' : System} {steps : List Step} (h : PlansKept prices sys.toServer)
    (hrun : StepRun.run (step prices) sys steps = some sys') :
    PlansKept prices sys'.toServer := by
  refine StepRun.run_invariant (I := fun sys : System => PlansKept prices sys.toServer)
    (fun _ _ _ hs hstep => ?_) h hrun
  refine step_invariant (I := PlansKept prices) ?_ ?_ ?_ (fun _ _ _ hi => hi.of_eq rfl rfl) hs
    hstep
  · intro s t hc hi
    cases hc with
    | skipped => exact hi
    | live hq | cleared hq =>
        exact hi.of_log hq.stripe (congrArg (· ++ _) hq.log) fun g hg => by simp at hg
  · intro s t he hi
    cases he with
    | effect he => exact hi.effect he
    | _ => exact hi.of_eq rfl rfl
  · intro s sessionId customer hi
    refine ⟨fun session hsession => ?_, hi.grants⟩
    obtain ⟨old, hold, rfl⟩ := List.mem_map.mp hsession
    have hsound := hi.stripe old hold
    split
    · exact hsound
    · exact hsound

/-! ### The events of one request -/

/-- An event of the part of a request of user `u` that follows the expiry check. -/
def Unchecked (u : Option ℕ) (e : Event) : Prop :=
  (∀ id, checkOf id e = none) ∧
    ∀ id active expiresAt, e = .gate id active expiresAt → u = some id

theorem Checked.log {s t : Ctx} (h : Checked s t) : ∃ es, t.log = s.log ++ es := by
  cases h with
  | skipped => exact ⟨[], (List.append_nil _).symm⟩
  | live hq | cleared hq => exact ⟨_, congrArg (· ++ _) hq.log⟩

theorem LoginEffect.log {s t : Ctx} (h : LoginEffect prices s t) :
    t.currentUser = s.currentUser ∧
      ∃ es, t.log = s.log ++ es ∧ ∀ e ∈ es, Unchecked s.currentUser e := by
  have hnone : ∀ {m : Ctx}, m.log = s.log → m.currentUser = s.currentUser →
      m.currentUser = s.currentUser ∧
        ∃ es, m.log = s.log ++ es ∧ ∀ e ∈ es, Unchecked s.currentUser e := by
    intro m hlog hu
    exact ⟨hu, [], by rw [hlog, List.append_nil], fun _ he => nomatch he⟩
  have hone : ∀ {m : Ctx} {e : Event}, m.log = s.log ++ [e] → m.currentUser = s.currentUser →
      Unchecked s.currentUser e → m.currentUser = s.currentUser ∧
        ∃ es, m.log = s.log ++ es ∧ ∀ e ∈ es, Unchecked s.currentUser e := by
    intro m e hlog hu he
    refine ⟨hu, [e], hlog, fun e' he' => ?_⟩
    rw [List.mem_singleton.mp he']
    exact he
  cases h with
  | effect h =>
    cases h with
    | quiet hq => exact hnone hq.log hq.currentUser
    | gate hu hrow =>
        refine hone rfl rfl ⟨fun _ => rfl, fun id active expiresAt he => ?_⟩
        cases he
        exact hu
    | granted | enqueued | nilCall =>
        exact hone rfl rfl ⟨fun _ => rfl, fun _ _ _ he => nomatch he⟩
    | _ => exact hnone rfl rfl
  | _ => exact hnone rfl rfl

theorem LoginEffects.log {s t : Ctx} (h : LoginEffects prices s t) :
    t.currentUser = s.currentUser ∧
      ∃ es, t.log = s.log ++ es ∧ ∀ e ∈ es, Unchecked s.currentUser e := by
  induction h with
  | refl => exact ⟨rfl, [], (List.append_nil _).symm, fun _ he => nomatch he⟩
  | tail _ he ih =>
      obtain ⟨hu, es, hlog, hes⟩ := ih
      obtain ⟨hu', es', hlog', hes'⟩ := he.log
      refine ⟨hu'.trans hu, es ++ es', by rw [hlog', hlog, List.append_assoc], ?_⟩
      intro e he
      rcases List.mem_append.mp he with he | he
      · exact hes e he
      · rw [← hu]
        exact hes' e he

/-- The log of a run only grows. -/
theorem step_log {sys sys' : System} {a : Step} (hstep : step prices sys a = some sys') :
    ∃ es, sys'.log = sys.log ++ es := by
  refine step_invariant (I := fun s => ∃ es, s.log = sys.log ++ es) (fun s t hc hs => ?_)
    (fun s t he hs => ?_) (fun _ _ _ hs => hs) (fun _ _ _ hs => hs)
    ⟨[], (List.append_nil _).symm⟩ hstep
  · obtain ⟨es, hlog⟩ := hs
    obtain ⟨es', hlog'⟩ := hc.log
    exact ⟨es ++ es', by rw [hlog', hlog, List.append_assoc]⟩
  · obtain ⟨es, hlog⟩ := hs
    obtain ⟨-, es', hlog', -⟩ := he.log
    exact ⟨es ++ es', by rw [hlog', hlog, List.append_assoc]⟩

/-- **The check comes first.**  In the events of one request, a gate of a user with a subscription
row stands behind that user's check, and there is no other check before the gate. -/
theorem serve_gate {sys : System} {r : Request} {pre post : List Event} {active : Bool}
    {expiresAt : Option ℤ} {row : Subscription}
    (hlog : (serve prices sys r).log = sys.log ++ (pre ++ .gate id active expiresAt :: post))
    (hrow : sys.db.subscriptions.lookup id = some row) :
    ∃ now rest, pre = .checked id now :: rest ∧ ∀ e ∈ rest, ∀ id', checkOf id' e = none := by
  have hserver : (serve prices sys r).log = _ := congrArg Server.log (serve_server sys r)
  rw [hlog] at hserver
  -- the part of the log after a check by `id'`, when there was one
  have hsplit : ∀ {m : Ctx} {id' : ℕ} {now : ℤ}, m.currentUser = some id' →
      LoginEffects prices { m with log := sys.log ++ [.checked id' now] }
        (ProgramLogic.final (process prices r.route) (sys.start r)) →
      ∃ now rest, pre = .checked id now :: rest ∧ ∀ e ∈ rest, ∀ id', checkOf id' e = none := by
    intro m id' now hu hrest
    obtain ⟨-, es, hes, hall⟩ := LoginEffects.log hrest
    have heq : pre ++ .gate id active expiresAt :: post = .checked id' now :: es := by
      have happ := hserver.trans hes
      rw [List.append_assoc] at happ
      exact List.append_cancel_left happ
    cases pre with
    | nil => cases heq
    | cons e rest =>
        obtain ⟨rfl, hes'⟩ := List.cons.inj heq
        have hgate := (hall (.gate id active expiresAt) (by rw [← hes']; simp)).2 _ _ _ rfl
        cases hu.symm.trans hgate
        exact ⟨now, rest, rfl, fun e he => (hall e (by rw [← hes']; simp [he])).1⟩
  have hserved : Served (LoginEffects prices) _ _ := serve_served sys r
  cases hserved with
  | stopped hq =>
      have hempty : pre ++ .gate id active expiresAt :: post = [] := by
        have happ := hserver.trans hq.log
        exact List.append_right_eq_self.mp happ
      simp at hempty
  | passed hc hrest =>
    cases hc with
    | skipped hnone =>
        obtain ⟨-, es, hes, hall⟩ := LoginEffects.log hrest
        have heq : pre ++ .gate id active expiresAt :: post = es :=
          List.append_cancel_left (hserver.trans hes)
        have hgate := (hall (.gate id active expiresAt) (by rw [← heq]; simp)).2 _ _ _ rfl
        have := hnone id hgate
        exact absurd (hrow.symm.trans this) (by simp)
    | live hq hu =>
        have hm := hq.log
        rw [hm] at hrest
        exact hsplit hu hrest
    | @cleared m id' row hq hu =>
        have hm := hq.log
        rw [hm] at hrest
        exact hsplit (m := { m with db := m.db.amendSubscription id' Subscription.deactivated })
          hu hrest

/-! ### The pass window -/

/-- A user whose subscription row is as its creation left it, at the start of the log.  The
sessions that are already in the Stripe account have the prices of their plans. -/
structure JustCreated (prices : PaymentsController.Prices) (id : ℕ) (s : Server) : Prop where
  row : s.db.subscriptions.lookup id = some {}
  log : s.log = []
  plans : ∀ session ∈ s.stripe, PlanSound prices session

theorem PassWindow.start {s : Server} (hlog : s.log = [])
    (hrow : whole → ∃ row, s.db.subscriptions.lookup id = some row ∧ row.Holds none) :
    PassWindow prices whole id s := by
  refine ⟨?_, ?_, ?_, ?_⟩
  · rw [hlog]
    rintro (hw | hsome)
    · exact hrow hw
    · exact absurd hsome (by simp)
  · rw [hlog]
    exact fun _ hc => nomatch hc
  · rw [hlog]
    exact throughout_nil _
  · rw [hlog]
    exact throughout_nil _

theorem JustCreated.passWindow {s : Server} (h : JustCreated prices id s) :
    PassWindow prices True id s :=
  PassWindow.start h.log fun _ => ⟨{}, h.row, ⟨rfl, rfl⟩⟩

theorem JustCreated.plansKept {s : Server} (h : JustCreated prices id s) : PlansKept prices s := by
  refine ⟨h.plans, ?_⟩
  rw [h.log]
  exact fun _ hg => nomatch hg

theorem GrantWrites.expiresAt_eq (hd : prices.Distinct) {pre : List Event} {g : Grant}
    (hw : GrantWrites prices whole id pre g) {plan : String} {n : ℤ}
    (hmem : (plan, n) ∈ PaymentsController.plans) (hmap : prices.mapping plan = some g.price) :
    g.expiresAt = endOfDay (g.time + n * day) := by
  obtain ⟨m, hm, hexp⟩ := hw.days
  obtain ⟨plan', hmem', hmap'⟩ := PaymentsController.mapping_of_days prices hm
  have hplan := PaymentsController.mapping_injective prices hd hmap hmap'
  subst hplan
  rw [hexp, PaymentsController.plans_functional hmem hmem']
  rfl

/-- At `now`, the most recent pass granted, at `t` for the plan of `n` days chosen at the checkout,
has not run out: `now ≤ end_of_day(t + n days)`. -/
def InWindow (prices : PaymentsController.Prices) (id : ℕ) (log : List Event) (now : ℤ) : Prop :=
  ∃ g, latest (grantOf id) log = some g ∧
    ∃ plan n, (plan, n) ∈ PaymentsController.plans ∧ prices.mapping plan = some g.price ∧
      (∀ chosen, g.session.plan = some chosen → chosen = plan) ∧
      now ≤ endOfDay (g.time + n * day)

/-- The latest grant of a part of the log is as every grant of the log. -/
theorem PassWindow.latest_grant {s : Server} (h : PassWindow prices whole id s)
    {l l' : List Event} (hlog : s.log = l ++ l') {g : Grant} (hg : latest (grantOf id) l = some g) :
    Event.granted g ∈ s.log ∧ ∃ pre, GrantWrites prices whole id pre g := by
  obtain ⟨e, he, hge⟩ := exists_of_latest hg
  obtain ⟨rfl, -⟩ := user_of_grantOf hge
  have hmem : Event.granted g ∈ s.log := by
    rw [hlog]
    exact List.mem_append_left _ he
  obtain ⟨l₁, l₂, hsplit⟩ := List.append_of_mem hmem
  exact ⟨hmem, l₁, h.grants l₁ (.granted g) l₂ hsplit g rfl⟩

/-- What stands after a check at `now` is a pass exactly inside the window. -/
theorem PassWindow.standing_isSome_iff (hd : prices.Distinct) {s : Server}
    (h : PassWindow prices whole id s) (hplans : PlansKept prices s) {l l' : List Event}
    (hlog : s.log = l ++ l') {now : ℤ} (hcheck : latest (checkOf id) l = some now) :
    (standing id l).isSome = true ↔ InWindow prices id l now := by
  rw [Option.isSome_iff_exists]
  constructor
  · rintro ⟨d, hstanding⟩
    obtain ⟨g, hg, rfl, hle⟩ := (standing_eq_some_iff hcheck).mp hstanding
    obtain ⟨hmem, pre, hw⟩ := h.latest_grant hlog hg
    obtain ⟨n, hn, -⟩ := hw.days
    obtain ⟨plan, hplan, hmap⟩ := PaymentsController.mapping_of_days prices hn
    rw [hw.expiresAt_eq hd hplan hmap] at hle
    refine ⟨g, hg, plan, n, hplan, hmap, fun chosen hchosen => ?_, hle⟩
    have hmap' := hplans.grants g hmem chosen hchosen
    exact PaymentsController.mapping_injective prices hd hmap' hmap
  · rintro ⟨g, hg, plan, n, hplan, hmap, -, hle⟩
    obtain ⟨-, pre, hw⟩ := h.latest_grant hlog hg
    refine ⟨g.expiresAt, (standing_eq_some_iff hcheck).mpr ⟨g, hg, rfl, ?_⟩⟩
    rw [hw.expiresAt_eq hd hplan hmap]
    exact hle

/-- **Exact pass window.**  In every reachable state `active` and a present `expires_at` agree;
and in every request the gates stand behind the expiry check, and see an active pass exactly when
that check ran inside the window of the most recent grant, else no pass and no expiry. -/
theorem pass_window (hd : prices.Distinct) {sys₀ sys : System} {steps : List Step}
    (h₀ : JustCreated prices id sys₀.toServer)
    (hrun : StepRun.run (step prices) sys₀ steps = some sys) :
    (∃ row, sys.db.subscriptions.lookup id = some row ∧
        (row.active = true ↔ row.expiresAt.isSome = true)) ∧
      ∀ r pre active expiresAt post,
        (serve prices sys r).log = sys.log ++ (pre ++ .gate id active expiresAt :: post) →
        (∃ now, Event.checked id now ∈ pre) ∧
        ∀ now, Event.checked id now ∈ pre →
          (active = true ↔ InWindow prices id (sys.log ++ pre) now) ∧
          (active = false → expiresAt = none) := by
  have hwin := h₀.passWindow.run hrun
  obtain ⟨row, hrow, hholds⟩ := hwin.row (.inl trivial)
  refine ⟨⟨row, hrow, by rw [hholds.active, hholds.expiry]⟩, ?_⟩
  intro r pre active expiresAt post hlog
  obtain ⟨now, rest, rfl, hrest⟩ := serve_gate hlog hrow
  refine ⟨⟨now, List.mem_cons_self⟩, fun now' hnow' => ?_⟩
  -- the only check of the request is its first event
  have hsame : now' = now := by
    rcases List.mem_cons.mp hnow' with he | he
    · cases he
      rfl
    · have := hrest _ he id
      simp [checkOf] at this
  subst hsame
  have hserve : StepRun.run (step prices) sys [.request r] = some (serve prices sys r) := rfl
  have hafter := hwin.run hserve
  have hplans := (h₀.plansKept.run hrun).run hserve
  have hcheck : latest (checkOf id) (sys.log ++ .checked id now' :: rest) = some now' := by
    rw [List.append_cons, latest_append_of_none fun e he => hrest e he id]
    exact latest_concat_of_some (by simp [checkOf]) _
  have hsplit : (serve prices sys r).log =
      (sys.log ++ .checked id now' :: rest) ++ .gate id active expiresAt :: post := by
    rw [hlog, List.append_assoc]
  obtain ⟨hactive, hexpiry⟩ := hafter.gates _ _ _ hsplit active expiresAt rfl (.inl trivial)
  rw [hactive, hexpiry]
  refine ⟨hafter.standing_isSome_iff hd hplans hsplit hcheck, fun hnone => ?_⟩
  rw [Option.isSome_eq_false_iff, Option.isNone_iff_eq_none] at hnone
  exact hnone

/-! ### A sample run -/

/-- The application before its first request. -/
def System.initial : System where
  db := Database.empty
  stripe := []
  clock := 0
  log := []
  cookies := fun _ => {}

namespace Sample

def priceIds : PaymentsController.Prices := ⟨"price_7", "price_30", "price_180"⟩

theorem priceIds_distinct : priceIds.Distinct := by decide

def ada : SpotifyUser := ⟨"ada", some "Ada", some [], some "token"⟩

/-- Browser 0 logs in as `ada`, a new user. -/
def loggedIn : System :=
  serve priceIds .initial { browser := 0, route := .authCallback, env := { auth := some ada } }

theorem loggedIn_justCreated : JustCreated priceIds 0 loggedIn.toServer :=
  ⟨rfl, rfl, fun _ h => nomatch h⟩

/-- `GET /payments/success?session_id=cs_1`, `delay` microseconds later. -/
def success (delay : ℕ) : Step :=
  .request
    { browser := 0, route := .paymentsSuccess (some "cs_1"), env := { delays := [delay] } }

/-- Browser 0 asks for the plan of seven days. -/
def checkout : Step :=
  .request
    { browser := 0, route := .createCheckoutSession (some "7"), env := { checkoutId := "cs_1" } }

/-- Checkout, payment, and the page Stripe sends the buyer back to. -/
def purchase : List Step := [checkout, .payment "cs_1" (some "cus_1"), success 1000000]

/-- The system after some steps from the login on. -/
def after (steps : List Step) : System :=
  (StepRun.run (step priceIds) loggedIn steps).getD loggedIn

end Sample

/-- After a purchase the page of the user finds itself inside the window. -/
theorem pass_window_after_purchase :
    InWindow Sample.priceIds 0 ((Sample.after Sample.purchase).log ++ [.checked 0 1000000])
      1000000 := by
  have hrun : StepRun.run (step Sample.priceIds) Sample.loggedIn Sample.purchase =
      some (Sample.after Sample.purchase) := rfl
  have hwindow := pass_window Sample.priceIds_distinct Sample.loggedIn_justCreated hrun
  exact ((hwindow.2 { browser := 0, route := .usersInfo } [.checked 0 1000000] true
    (some 691199999999) [] rfl).2 1000000 (by simp)).1.mp rfl

end Knoiz
