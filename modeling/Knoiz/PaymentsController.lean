import Knoiz.ApplicationController

/-!
# `PaymentsController`: checkout and the page Stripe sends the buyer back to

`create_checkout_session` maps the form's price parameter to a configured price id and creates a
checkout session; `success` retrieves the session named by the query string, maps its price id
back to a number of days, and writes the pass.  Both swallow every exception.
-/

namespace Knoiz.PaymentsController

open Calendar

/-- `ENV["STRIPE_PRICE_7"]`, `ENV["STRIPE_PRICE_30"]` and `ENV["STRIPE_PRICE_180"]`. -/
structure Prices where
  price7 : String
  price30 : String
  price180 : String
  deriving DecidableEq, Repr

/-- The three configured ids are pairwise distinct. -/
def Prices.Distinct (prices : Prices) : Prop :=
  prices.price7 ≠ prices.price30 ∧ prices.price7 ≠ prices.price180 ∧
    prices.price30 ≠ prices.price180

instance (prices : Prices) : Decidable prices.Distinct := inferInstanceAs (Decidable (_ ∧ _))

/-- `PRICE_MAPPING[params[:price]]`. -/
def Prices.mapping (prices : Prices) (price : String) : Option String :=
  if price = "7" then some prices.price7
  else if price = "30" then some prices.price30
  else if price = "180" then some prices.price180
  else none

/-- The `case price_id` of `update_subscription`. -/
def Prices.days (prices : Prices) (priceId : String) : Option ℤ :=
  if priceId = prices.price7 then some 7
  else if priceId = prices.price30 then some 30
  else if priceId = prices.price180 then some 180
  else none

variable (prices : Prices)

/-- `Stripe::Checkout::Session.create(session_params)`: a new session, not yet paid. -/
def stripeSessionCreate (plan stripePrice : String) (customer : Option String) : Action Unit := do
  call .stripeCreate
  modify fun s =>
    { s with stripe := s.stripe ++
        [{ id := s.env.checkoutId, creator := s.currentUser, plan := some plan,
           lineItems := [stripePrice], customer := customer, paymentStatus := .unpaid }] }

/-- `create_checkout_session`. -/
def createCheckoutSession (price : Option String) : Action Unit :=
  tryCatch
    (do
      match price.bind fun p => (prices.mapping p).map fun id => (p, id) with
      | none => throw .invalidPrice
      | some (plan, stripePrice) => do
          let subscription ← theSubscription
          stripeSessionCreate plan stripePrice subscription.stripeUserId
          let s ← get
          redirectTo s.env.checkoutUrl)
    (fun _ => return)

/-- The session Stripe finds under an id. -/
def findSession (stripe : List CheckoutSession) (sessionId : Option String) :
    Option CheckoutSession :=
  sessionId.bind fun id => stripe.find? fun session => session.id = id

/-- `Stripe::Checkout::Session.retrieve`; an unknown id raises. -/
def retrieve (sessionId : Option String) : Action CheckoutSession := do
  call .stripeRetrieve
  let s ← get
  match findSession s.stripe sessionId with
  | some session => return session
  | none => throw (.raised .stripeRetrieve)

/-- `list_line_items(session_id, limit: 1).data.first.price.id`. -/
def firstPriceId (session : CheckoutSession) : Action String := do
  call .stripeLineItems
  match session.lineItems.head? with
  | some priceId => return priceId
  | none => throw .noMethodError

/-- `days.days.from_now.end_of_day`. -/
def passEnd (now days : ℤ) : ℤ := endOfDay (now + days * day)

/-- The two assignments of `update_subscription`. -/
def withPass (subscription : Subscription) (expiresAt : ℤ) : Subscription :=
  { subscription with active := true, expiresAt := some expiresAt }

/-- `subscription.save!` after the assignments; the grant is recorded with the row it replaces. -/
def savePass (id : ℕ) (session : CheckoutSession) (priceId : String) (now days : ℤ) :
    Action Unit := do
  call .saveSubscription
  modify fun s =>
    { s with
      db := s.db.amendSubscription id fun row => withPass row (passEnd now days)
      log := s.log ++
        [.granted { user := id, session := session, price := priceId, time := now,
                    expiresAt := passEnd now days,
                    replaced := s.db.subscriptions.lookup id }] }

/-- `update_subscription`.  An unknown price leaves `days` nil, and `nil.days` raises. -/
def updateSubscription (session : CheckoutSession) (priceId : String) : Action Unit := do
  let id ← theUser
  let _ ← theSubscription
  match prices.days priceId with
  | none => throw .noMethodError
  | some days => do
      let now ← currentTime
      savePass id session priceId now days

/-- `subscription.stripe_user_id = @session.customer` and its `save!`. -/
def saveCustomer (customer : Option String) : Action Unit := do
  let id ← theUser
  call .saveCustomer
  modifyDb fun db => db.amendSubscription id fun row => { row with stripeUserId := customer }

/-- `success`. -/
def success (sessionId : Option String) : Action Unit :=
  tryCatch
    (do
      let session ← retrieve sessionId
      let priceId ← firstPriceId session
      updateSubscription prices session priceId
      let subscription ← theSubscription
      if subscription.stripeUserId.isNone then
        saveCustomer session.customer
      redirectTo "/")
    (fun _ => return)

/-- `cancel`. -/
def cancel : Action Unit := redirectTo "/"

/-- The plans of the pricing page, each with its days. -/
def plans : List (String × ℤ) := [("7", 7), ("30", 30), ("180", 180)]

/-- The `case` of the success page agrees with the price table of the checkout. -/
theorem mapping_of_days {priceId : String} {days : ℤ} (h : prices.days priceId = some days) :
    ∃ plan, (plan, days) ∈ plans ∧ prices.mapping plan = some priceId := by
  unfold Prices.days at h
  split_ifs at h with h7 h30 h180 <;> cases h
  · exact ⟨"7", by simp [plans], by simp [Prices.mapping, h7]⟩
  · exact ⟨"30", by simp [plans], by simp [Prices.mapping, h30]⟩
  · exact ⟨"180", by simp [plans], by simp [Prices.mapping, h180]⟩

theorem plans_functional {plan : String} {m n : ℤ} (hm : (plan, m) ∈ plans)
    (hn : (plan, n) ∈ plans) : m = n := by
  simp only [plans, List.mem_cons, Prod.mk.injEq, List.not_mem_nil, or_false] at hm hn
  rcases hm with ⟨rfl, rfl⟩ | ⟨rfl, rfl⟩ | ⟨rfl, rfl⟩ <;> simp at hn <;> exact hn.symm

theorem plan_of_mapping {plan priceId : String} (h : prices.mapping plan = some priceId) :
    (plan = "7" ∧ priceId = prices.price7) ∨ (plan = "30" ∧ priceId = prices.price30) ∨
      (plan = "180" ∧ priceId = prices.price180) := by
  unfold Prices.mapping at h
  split_ifs at h with h7 h30 h180 <;> cases h
  · exact .inl ⟨h7, rfl⟩
  · exact .inr (.inl ⟨h30, rfl⟩)
  · exact .inr (.inr ⟨h180, rfl⟩)

/-- With distinct price ids, a price id belongs to one plan. -/
theorem mapping_injective (hd : prices.Distinct) {plan plan' priceId : String}
    (h : prices.mapping plan = some priceId) (h' : prices.mapping plan' = some priceId) :
    plan = plan' := by
  obtain ⟨h1, h2, h3⟩ := hd
  rcases plan_of_mapping prices h with ⟨rfl, rfl⟩ | ⟨rfl, rfl⟩ | ⟨rfl, rfl⟩ <;>
    rcases plan_of_mapping prices h' with ⟨rfl, hp⟩ | ⟨rfl, hp⟩ | ⟨rfl, hp⟩
  · rfl
  · exact absurd hp h1
  · exact absurd hp h2
  · exact absurd hp.symm h1
  · rfl
  · exact absurd hp h3
  · exact absurd hp.symm h2
  · exact absurd hp.symm h3
  · rfl

/-- A pass never ends before it is granted. -/
theorem le_passEnd {priceId : String} {days : ℤ} (h : prices.days priceId = some days)
    (now : ℤ) : now ≤ passEnd now days := by
  have hdays : 0 ≤ days := by
    unfold Prices.days at h
    split_ifs at h <;> cases h <;> decide
  have hday : 0 ≤ days * day := mul_nonneg hdays (by decide)
  have := le_endOfDay (now + days * day)
  unfold passEnd
  omega

end Knoiz.PaymentsController
