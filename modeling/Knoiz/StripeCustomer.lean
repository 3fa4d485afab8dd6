import Knoiz.Permits

/-!
# One Stripe customer for a user

`payments#success` saves the customer of the checkout session as the user's `stripe_user_id`, but only
over a row that has none, and `create_checkout_session` hands the saved id to Stripe.  A user who has
a customer id keeps it through every run, and every later checkout of the user is for this customer.
-/

namespace Knoiz

open ProgramLogic Relation RowTable

/-- The customer ids stay, and the new checkout sessions are for the customers of their creators. -/
structure Billed (s t : Ctx) : Prop where
  currentUser : t.currentUser = s.currentUser
  customers : KeepsCustomers s.db t.db
  stripe : ∃ l, t.stripe = s.stripe ++ l ∧ ∀ new ∈ l, new.creator = s.currentUser ∧
    ∀ id row customer, s.currentUser = some id → s.db.subscriptions.lookup id = some row →
      row.stripeUserId = some customer → new.customer = some customer

variable {s t : Ctx} {prices : PaymentsController.Prices} {sys sys' : System}

theorem Billed.of_eq (huser : t.currentUser = s.currentUser) (hdb : KeepsCustomers s.db t.db)
    (hstripe : t.stripe = s.stripe) : Billed s t :=
  ⟨huser, hdb, [], by simp [hstripe], by simp⟩

theorem Billed.trans {m : Ctx} (h : Billed s m) (h' : Billed m t) : Billed s t := by
  obtain ⟨l, hl, hnew⟩ := h.stripe
  obtain ⟨l', hl', hnew'⟩ := h'.stripe
  refine ⟨h'.currentUser.trans h.currentUser, h.customers.trans h'.customers, l ++ l', ?_, ?_⟩
  · rw [hl', hl, List.append_assoc]
  · intro new hmem
    rcases List.mem_append.mp hmem with hmem | hmem
    · exact hnew new hmem
    · obtain ⟨hcreator, hcustomer⟩ := hnew' new hmem
      refine ⟨hcreator.trans h.currentUser, fun id row customer hid hrow hc => ?_⟩
      -- the row has the same customer when the session is created
      obtain ⟨row', hrow', hsame⟩ := h.customers id row hrow
      refine hcustomer id row' customer (h.currentUser.trans hid) hrow' ?_
      rw [hsame (by rw [hc]; rfl), hc]

theorem KeepsCustomers.refl (db : Database) : KeepsCustomers db db := KeepsCustomers.of_eq rfl

instance : Permits Billed where
  refl s := Billed.of_eq rfl (KeepsCustomers.refl _) rfl
  trans _ _ _ := Billed.trans
  quiet h := Billed.of_eq h.currentUser (KeepsCustomers.of_eq (by rw [h.db])) h.stripe
  noted _ _ _ := Billed.of_eq rfl (KeepsCustomers.refl _) rfl
  enqueued _ := Billed.of_eq rfl (KeepsCustomers.refl _) rfl
  rebuilt _ _ := Billed.of_eq rfl (KeepsCustomers.refl _) rfl
  stored _ _ h := Billed.of_eq rfl h rfl
  checkout h := by
    refine ⟨rfl, KeepsCustomers.refl _, [_], rfl, fun new hmem => ?_⟩
    cases List.mem_singleton.mp hmem
    refine ⟨h.1, fun id row customer hid hrow hc => ?_⟩
    rw [h.2 id row hid hrow, hc]

instance : Registers Billed where
  refl s := Billed.of_eq rfl (KeepsCustomers.refl _) rfl
  trans _ _ _ := Billed.trans
  quiet h := Billed.of_eq h.currentUser (KeepsCustomers.of_eq (by rw [h.db])) h.stripe
  stored _ _ h := Billed.of_eq rfl h rfl
  session _ _ := Billed.of_eq rfl (KeepsCustomers.refl _) rfl

/-- The customer id of a user. -/
def System.customerOf (sys : System) (k : ℕ) : Option String :=
  (sys.db.subscriptions.lookup k).bind Subscription.stripeUserId

theorem customerOf_keeps {k : ℕ} {customer : String} (h : sys.customerOf k = some customer)
    (hkeeps : KeepsCustomers sys.db sys'.db) : sys'.customerOf k = some customer := by
  obtain ⟨row, hrow, hc⟩ := Option.bind_eq_some_iff.mp h
  obtain ⟨row', hrow', hsame⟩ := hkeeps k row hrow
  refine Option.bind_eq_some_iff.mpr ⟨row', hrow', ?_⟩
  rw [hsame (by rw [hc]; rfl), hc]

/-- **One request.** -/
theorem serve_billed (prices : PaymentsController.Prices) (sys : System) (r : Request) :
    KeepsCustomers sys.db (serve prices sys r).db ∧
      ∃ l, (serve prices sys r).stripe = sys.stripe ++ l ∧ ∀ new ∈ l, new.creator = sys.userOf r ∧
        ∀ id customer, sys.userOf r = some id → sys.customerOf id = some customer →
          new.customer = some customer := by
  have hbilled : Billed (sys.start r).identified _ := process_related prices sys r
  have hserver : (serve prices sys r).toServer = _ := serve_server sys r
  rw [congrArg Server.db hserver, congrArg Server.stripe hserver]
  obtain ⟨l, hl, hnew⟩ := hbilled.stripe
  refine ⟨hbilled.customers, l, hl, fun new hmem => ⟨(hnew new hmem).1, ?_⟩⟩
  intro id customer hid hc
  obtain ⟨row, hrow, hc⟩ := Option.bind_eq_some_iff.mp hc
  exact (hnew new hmem).2 id row customer hid hrow hc

theorem step_keepsCustomers {a : Step} (h : step prices sys a = some sys') :
    KeepsCustomers sys.db sys'.db := by
  cases a with
  | request r =>
      cases h
      exact (serve_billed prices sys r).1
  | payment sessionId customer =>
      cases h
      exact KeepsCustomers.refl _
  | statsJob user genres =>
      cases h
      exact KeepsCustomers.of_eq rfl

/-- **One customer.**  A user's customer id never changes, and every checkout session that a request
creates for the user from then on is for this customer. -/
theorem one_customer {sys₀ : System} {steps : List Step} {k : ℕ} {customer : String}
    (h₀ : sys₀.customerOf k = some customer)
    (hrun : StepRun.run (step prices) sys₀ steps = some sys) :
    sys.customerOf k = some customer ∧
      ∀ r, ∃ l, (serve prices sys r).stripe = sys.stripe ++ l ∧
        ∀ new ∈ l, new.creator = some k → new.customer = some customer := by
  have hcustomer : sys.customerOf k = some customer :=
    StepRun.run_invariant (I := fun sys : System => sys.customerOf k = some customer)
      (fun _ _ _ h hstep => customerOf_keeps h (step_keepsCustomers hstep)) h₀ hrun
  refine ⟨hcustomer, fun r => ?_⟩
  obtain ⟨l, hl, hnew⟩ := (serve_billed prices sys r).2
  refine ⟨l, hl, fun new hmem hcreator => ?_⟩
  obtain ⟨huser, hc⟩ := hnew new hmem
  exact hc k customer (huser.symm.trans hcreator) hcustomer

namespace Sample

/-- A second purchase of the same user, which Stripe completes for another customer. -/
def secondPurchase : List Step :=
  [.request { browser := 0, route := .createCheckoutSession (some "30"),
              env := { checkoutId := "cs_2" } },
    .payment "cs_2" (some "cus_2"),
    .request { browser := 0, route := .paymentsSuccess (some "cs_2") }]

/-- The system after both purchases. -/
def afterBoth : System :=
  (StepRun.run (step priceIds) (after purchase) secondPurchase).getD (after purchase)

end Sample

/-- The second purchase leaves the first customer id in place. -/
theorem first_customer_stays :
    Sample.afterBoth.customerOf 0 = some "cus_1" ∧
      ∀ r, ∃ l, (serve Sample.priceIds Sample.afterBoth r).stripe = Sample.afterBoth.stripe ++ l ∧
        ∀ new ∈ l, new.creator = some 0 → new.customer = some "cus_1" := by
  have hfirst : (Sample.after Sample.purchase).customerOf 0 = some "cus_1" := rfl
  have hrun : StepRun.run (step Sample.priceIds) (Sample.after Sample.purchase)
      Sample.secondPurchase = some Sample.afterBoth := rfl
  exact one_customer hfirst hrun

end Knoiz
