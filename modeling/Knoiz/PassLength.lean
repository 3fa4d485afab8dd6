import Knoiz.Purchases

/-!
# Buying a pass while another one runs

`update_subscription` writes the end of the pass that is bought, without a look at the end of the
pass that it replaces.  The results say which purchases shorten a pass, and that nothing else in the
application does: in a run without such purchases the end of a running pass never comes closer.
-/

namespace Knoiz

open Calendar PaymentsController ProgramLogic RowTable

variable {prices : Prices}

/-! ### One purchase -/

/-- A running pass that the purchase replaced does not end after the one bought. -/
def Grant.NeverShortens (g : Grant) : Prop :=
  ∀ row e, g.replaced = some row → row.active = true → row.expiresAt = some e → g.time ≤ e →
    e ≤ g.expiresAt

/-- The running pass that the purchase replaced ends no more days after the purchase than the price
is for. -/
def Grant.CoversReplaced (prices : Prices) (g : Grant) : Prop :=
  ∀ row e n, g.replaced = some row → row.active = true → row.expiresAt = some e → g.time ≤ e →
    prices.days g.price = some n → dayOf e ≤ dayOf g.time + n

theorem le_passEnd_iff (e t n : ℤ) : e ≤ passEnd t n ↔ dayOf e ≤ dayOf t + n := by
  unfold passEnd
  rw [le_endOfDay_iff, dayOf_add_days]

/-- **One purchase.** -/
theorem GrantWrites.neverShortens_iff {whole : Prop} {id : ℕ} {pre : List Event} {g : Grant}
    (hw : GrantWrites prices whole id pre g) : g.NeverShortens ↔ g.CoversReplaced prices := by
  obtain ⟨n, hn, hexp⟩ := hw.days
  constructor
  · intro h row e n' hrow hactive he hle hn'
    cases hn.symm.trans hn'
    rw [← le_passEnd_iff, ← hexp]
    exact h row e hrow hactive he hle
  · intro h row e hrow hactive he hle
    rw [hexp, le_passEnd_iff]
    exact h row e n hrow hactive he hle hn

/-! ### Everything else -/

/-- A pass that is active at `s` until `e` is active at `t` until `e` at least, unless the clock has
gone past `e`. -/
structure PassesRunOn (s t : Server) : Prop where
  clock : s.clock ≤ t.clock
  row : ∀ id row e, s.db.subscriptions.lookup id = some row → row.active = true →
    row.expiresAt = some e → t.clock ≤ e →
    ∃ row' e', t.db.subscriptions.lookup id = some row' ∧ row'.active = true ∧
      row'.expiresAt = some e' ∧ e ≤ e'

theorem PassesRunOn.trans {s t u : Server} (h : PassesRunOn s t) (h' : PassesRunOn t u) :
    PassesRunOn s u := by
  refine ⟨h.clock.trans h'.clock, fun id row e hrow hactive he hle => ?_⟩
  obtain ⟨row', e', hrow', hactive', he', hee'⟩ :=
    h.row id row e hrow hactive he (h'.clock.trans hle)
  obtain ⟨row'', e'', hrow'', hactive'', he'', he'e''⟩ :=
    h'.row id row' e' hrow' hactive' he' (hle.trans hee')
  exact ⟨row'', e'', hrow'', hactive'', he'', hee'.trans he'e''⟩

/-- A step that leaves every row that can be read. -/
theorem PassesRunOn.of_lookup {s t : Server} (hclock : s.clock ≤ t.clock)
    (hrows : ∀ id row, s.db.subscriptions.lookup id = some row →
      t.db.subscriptions.lookup id = some row) : PassesRunOn s t :=
  ⟨hclock, fun id row e hrow hactive he _ => ⟨row, e, hrows id row hrow, hactive, he, le_rfl⟩⟩

theorem PassesRunOn.of_eq {s t : Server} (hdb : t.db.subscriptions = s.db.subscriptions)
    (hclock : s.clock ≤ t.clock) : PassesRunOn s t := by
  apply PassesRunOn.of_lookup hclock
  intro id row hrow
  rw [hdb]
  exact hrow

/-- An amendment of one row that keeps its pass while the pass runs. -/
theorem PassesRunOn.amend {s t : Server} {id : ℕ} {f : Subscription → Subscription}
    (hdb : t.db = s.db.amendSubscription id f) (hclock : s.clock ≤ t.clock)
    (hf : ∀ row e, s.db.subscriptions.lookup id = some row → row.active = true →
      row.expiresAt = some e → t.clock ≤ e →
      (f row).active = true ∧ ∃ e', (f row).expiresAt = some e' ∧ e ≤ e') : PassesRunOn s t := by
  refine ⟨hclock, fun j row e hrow hactive he hle => ?_⟩
  have hlookup : t.db.subscriptions.lookup j =
      if j = id then (s.db.subscriptions.lookup id).map f else s.db.subscriptions.lookup j := by
    rw [hdb]
    exact lookup_amend j id f _
  by_cases hj : j = id
  · subst hj
    obtain ⟨hactive', e', he', hee'⟩ := hf row e hrow hactive he hle
    rw [if_pos rfl, hrow, Option.map_some] at hlookup
    exact ⟨f row, e', hlookup, hactive', he', hee'⟩
  · rw [if_neg hj, hrow] at hlookup
    exact ⟨row, e, hlookup, hactive, he, le_rfl⟩

theorem Checked.passesRunOn {s t : Ctx} (h : Checked s t) :
    PassesRunOn s.toServer t.toServer := by
  cases h with
  | skipped => exact PassesRunOn.of_eq rfl le_rfl
  | live hq => exact PassesRunOn.of_eq (congrArg Database.subscriptions hq.db) hq.clock
  | @cleared m id row hq hu hrow hpast =>
      have hdb : m.db.amendSubscription id Subscription.deactivated =
          s.db.amendSubscription id Subscription.deactivated := by rw [hq.db]
      refine PassesRunOn.amend hdb hq.clock fun row' e hrow' hactive he hle => ?_
      rw [← hq.db] at hrow'
      cases hrow.symm.trans hrow'
      -- the check clears only what has run out
      have hrun : row.expired m.clock = decide (e < m.clock) := by
        unfold Subscription.expired
        rw [hactive, he, Bool.true_and]
      have hlt : e < m.clock := by simpa [hrun] using hpast
      exact absurd hle (not_le.mpr hlt)

/-- Of all effects only a purchase can bring the end of a running pass closer. -/
theorem LoginEffect.passesRunOn {s t : Ctx} (h : LoginEffect prices s t)
    (hgrants : ∀ g, Event.granted g ∈ t.log → g.CoversReplaced prices) :
    PassesRunOn s.toServer t.toServer := by
  cases h with
  | effect h =>
    cases h with
    | quiet hq => exact PassesRunOn.of_eq (congrArg Database.subscriptions hq.db) hq.clock
    | customer hu customer =>
        refine PassesRunOn.amend rfl le_rfl fun row e _ hactive he _ => ?_
        exact ⟨hactive, e, he, le_rfl⟩
    | @granted id row session priceId days sessionId hu hrow hroute hfound hprice hdays =>
        refine PassesRunOn.amend rfl le_rfl fun row' e hrow' hactive he hle => ?_
        have hcovers := hgrants _ (List.mem_append_right _ (List.mem_singleton.mpr rfl))
        have hday := hcovers row' e days hrow' hactive he hle hdays
        exact ⟨rfl, _, rfl, (le_passEnd_iff e s.clock days).mpr hday⟩
    | _ => exact PassesRunOn.of_eq rfl le_rfl
  | created spotifyId =>
      refine PassesRunOn.of_lookup le_rfl fun id row hrow => ?_
      exact lookup_append_of_some hrow _
  | _ => exact PassesRunOn.of_eq rfl le_rfl

/-! ### Runs -/

/-- A purchase of the log has replaced a running pass that it does not cover. -/
def Shortened (prices : Prices) (log : List Event) : Prop :=
  ∃ g, Event.granted g ∈ log ∧ ¬ g.CoversReplaced prices

theorem Shortened.append {log : List Event} (h : Shortened prices log) (es : List Event) :
    Shortened prices (log ++ es) := by
  obtain ⟨g, hg, hnot⟩ := h
  exact ⟨g, List.mem_append_left _ hg, hnot⟩

theorem not_shortened_iff {log : List Event} :
    ¬ Shortened prices log ↔ ∀ g, Event.granted g ∈ log → g.CoversReplaced prices := by
  unfold Shortened
  push Not
  rfl

theorem Checked.shortened {s t : Ctx} (h : Checked s t) (hs : Shortened prices s.log) :
    Shortened prices t.log := by
  obtain ⟨es, hlog⟩ := h.log
  rw [hlog]
  exact hs.append es

theorem LoginEffect.shortened {s t : Ctx} (h : LoginEffect prices s t)
    (hs : Shortened prices s.log) : Shortened prices t.log := by
  obtain ⟨-, es, hlog, -⟩ := h.log
  rw [hlog]
  exact hs.append es

theorem step_shortened {sys sys' : System} {a : Step} (hs : Shortened prices sys.log)
    (hstep : step prices sys a = some sys') : Shortened prices sys'.log := by
  obtain ⟨es, hlog⟩ := step_log hstep
  rw [hlog]
  exact hs.append es

/-- A step lets every running pass run on, or its log has a purchase that shortens one. -/
theorem step_passesRunOn {sys sys' : System} {a : Step} (hstep : step prices sys a = some sys')
    (hnot : ¬ Shortened prices sys'.log) : PassesRunOn sys.toServer sys'.toServer := by
  cases a with
  | request r =>
      cases hstep
      have hstart : Shortened prices (sys.start r).identified.log ∨
          PassesRunOn sys.toServer (sys.start r).identified.toServer :=
        .inr (PassesRunOn.of_eq rfl le_rfl)
      have hend : Shortened prices (final (process prices r.route) (sys.start r)).log ∨
          PassesRunOn sys.toServer (final (process prices r.route) (sys.start r)).toServer := by
        refine serve_rule (I := fun t => Shortened prices t.log ∨
          PassesRunOn sys.toServer t.toServer) (fun s t hc hs => ?_) (fun s t he hs => ?_) hstart
        · rcases hs with hs | hs
          · exact .inl (hc.shortened hs)
          · exact .inr (hs.trans hc.passesRunOn)
        · rcases hs with hs | hs
          · exact .inl (he.shortened hs)
          · by_cases ht : Shortened prices t.log
            · exact .inl ht
            · exact .inr (hs.trans (he.passesRunOn (not_shortened_iff.mp ht)))
      rw [serve_server] at hnot ⊢
      exact hend.resolve_left hnot
  | payment sessionId customer =>
      cases hstep
      exact PassesRunOn.of_eq rfl le_rfl
  | statsJob user genres =>
      cases hstep
      exact PassesRunOn.of_eq rfl le_rfl

/-- The end of a running pass does not come closer in the step. -/
def KeepsPasses (prices : Prices) (sys : System) (a : Step) : Prop :=
  ∀ sys', step prices sys a = some sys' → PassesRunOn sys.toServer sys'.toServer

/-- **A purchase never shortens a pass, exactly when.**  In every run, from any rows, no purchase
ends a running pass earlier, and no step brings the end of one closer, if and only if every pass
bought while another one ran was bought for at least as many days as that one had left. -/
theorem never_shortened_iff {sys₀ sys : System} {steps : List Step} (hlog₀ : sys₀.log = [])
    (hrun : StepRun.run (step prices) sys₀ steps = some sys) :
    ((∀ g, Event.granted g ∈ sys.log → g.NeverShortens) ∧
        StepRun.Along (step prices) (KeepsPasses prices) sys₀ steps) ↔
      ∀ g, Event.granted g ∈ sys.log → g.CoversReplaced prices := by
  have hgrant : ∀ g, Event.granted g ∈ sys.log →
      (g.NeverShortens ↔ g.CoversReplaced prices) := by
    intro g hg
    have hstart : PassWindow prices False g.user sys₀.toServer :=
      PassWindow.start hlog₀ fun hf => hf.elim
    obtain ⟨pre, post, hsplit⟩ := List.append_of_mem hg
    have hw := (hstart.run hrun).grants pre (.granted g) post hsplit g rfl
    exact hw.neverShortens_iff
  constructor
  · rintro ⟨hnever, -⟩ g hg
    exact (hgrant g hg).mp (hnever g hg)
  · intro hcovers
    refine ⟨fun g hg => (hgrant g hg).mpr (hcovers g hg), ?_⟩
    refine StepRun.along_of_unmarked (I := fun _ => True) (H := fun _ _ => True)
      (M := fun sys => Shortened prices sys.log) (fun _ _ _ _ _ _ _ => trivial) ?_
      (fun _ _ _ hs _ hstep => step_shortened hs hstep) trivial
      (StepRun.along_of_labels fun _ _ => trivial) hrun (not_shortened_iff.mpr hcovers)
    intro s a t _ _ hviolates hstep
    by_contra hnot
    apply hviolates
    intro t' ht'
    cases hstep.symm.trans ht'
    exact step_passesRunOn hstep hnot

namespace Sample

/-- Checkout of a plan under the session id, payment, and the success page. -/
def buy (plan sessionId : String) (delay : ℕ) : List Step :=
  [.request { browser := 0, route := .createCheckoutSession (some plan),
              env := { checkoutId := sessionId } },
    .payment sessionId (some "cus_1"),
    .request { browser := 0, route := .paymentsSuccess (some sessionId),
               env := { delays := [delay] } }]

/-- Two purchases, the second a second after the first. -/
def twoPurchases (plan plan' : String) : List Step :=
  buy plan "cs_1" 1000000 ++ buy plan' "cs_2" 1000000

/-- The pass of the first purchase, written over the row of a new user. -/
def firstPass (plan priceId : String) (expiresAt : ℤ) : Grant :=
  ⟨0, ⟨"cs_1", some 0, some plan, [priceId], some "cus_1", .paid⟩, priceId, 1000000, expiresAt,
    some {}⟩

/-- The pass of the second, written over the running first. -/
def secondPass (plan priceId : String) (expiresAt ends : ℤ) : Grant :=
  ⟨0, ⟨"cs_2", some 0, some plan, [priceId], some "cus_1", .paid⟩, priceId, 2000000, expiresAt,
    some ⟨some "cus_1", true, some ends⟩⟩

/-- The log of two purchases. -/
def twoPasses (first second : Grant) : List Event :=
  [.checked 0 0, .checked 0 1000000, .granted first, .checked 0 1000000, .checked 0 2000000,
    .granted second]

theorem granted_twoPasses {first second g : Grant}
    (h : Event.granted g ∈ twoPasses first second) : g = first ∨ g = second := by
  simpa [twoPasses] using h

end Sample

/-- A pass of 180 days a second after one of 7 covers what it replaces. -/
theorem longer_after_shorter :
    StepRun.Along (step Sample.priceIds) (KeepsPasses Sample.priceIds) Sample.loggedIn
      (Sample.twoPurchases "7" "180") := by
  have hrun : StepRun.run (step Sample.priceIds) Sample.loggedIn (Sample.twoPurchases "7" "180") =
      some (Sample.after (Sample.twoPurchases "7" "180")) := rfl
  have hlog : (Sample.after (Sample.twoPurchases "7" "180")).log =
      Sample.twoPasses (Sample.firstPass "7" "price_7" 691199999999)
        (Sample.secondPass "180" "price_180" 15638399999999 691199999999) := rfl
  refine ((never_shortened_iff rfl hrun).mpr fun g hg => ?_).2
  intro row e n hrow hactive he _ hn
  rw [hlog] at hg
  rcases Sample.granted_twoPasses hg with rfl | rfl
  · cases hrow
    cases hactive
  · cases hrow
    cases he
    cases hn
    decide

/-- A pass of 7 days a second after one of 180 ends the running pass 173 days earlier. -/
theorem shorter_after_longer :
    ¬ ∀ (prices : Prices) (sys₀ sys : System) (steps : List Step), sys₀.log = [] →
      StepRun.run (step prices) sys₀ steps = some sys →
      ∀ g, Event.granted g ∈ sys.log → g.NeverShortens := by
  intro h
  have hlog : (Sample.after (Sample.twoPurchases "180" "7")).log =
      Sample.twoPasses (Sample.firstPass "180" "price_180" 15638399999999)
        (Sample.secondPass "7" "price_7" 691199999999 15638399999999) := rfl
  have hnever := h Sample.priceIds Sample.loggedIn
    (Sample.after (Sample.twoPurchases "180" "7")) (Sample.twoPurchases "180" "7") rfl rfl
    (Sample.secondPass "7" "price_7" 691199999999 15638399999999)
    (by rw [hlog]; simp [Sample.twoPasses])
  exact absurd (hnever _ _ rfl rfl rfl (by decide)) (by decide)

end Knoiz
