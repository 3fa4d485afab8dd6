import Knoiz.Library.Interleaving
import Knoiz.Library.PartialUpdate
import Knoiz.RequestEffects

/-!
# One purchase among other requests of the same user

Requests of one user run in different threads.  Each loads its own copy of the subscription row,
runs the expiry check on it, and saves with an UPDATE of the columns that it changed; no lock and
no transaction ties the load to the save.  One of the requests, `buyer`, is `payments#success` with
a known price.  A step of the model is one SELECT, one UPDATE or one reading of the clock.
-/

namespace Knoiz.ConcurrentPurchase

open Interleaving PartialUpdate

/-- The stored row after `save` on a copy that was loaded as `loaded` and is now `current`. -/
def saveRow (loaded current stored : Subscription) : Subscription where
  stripeUserId := writeColumn loaded.stripeUserId current.stripeUserId stored.stripeUserId
  active := writeColumn loaded.active current.active stored.active
  expiresAt := writeColumn loaded.expiresAt current.expiresAt stored.expiresAt

/-- The stored row of the user, and the clock. -/
structure Store where
  clock : ℤ
  row : Subscription

/-- Where a request stands, with its copy of the row. -/
inductive Local where
  | idle
  | loaded (copy : Subscription)
  | clearing (copy : Subscription)
  | checked (copy : Subscription)
  | granting (copy : Subscription) (expiresAt : ℤ)
  | saved (copy : Subscription) (expiresAt : ℤ)
  | done (bought : Option ℤ)
  deriving DecidableEq, Repr

/-- The expiry of the pass that the request has saved. -/
def Local.bought : Local → Option ℤ
  | .saved _ expiresAt => some expiresAt
  | .done bought => bought
  | _ => none

section Model

variable {ι : Type} [DecidableEq ι] (buyer : ι) (days : ℤ) (customer : Option String)

/-- One atomic step of request `i`, `delay` after the step before it.  Only `buyer` goes on, after
the expiry check, to `update_subscription` and to the customer of the session. -/
def next (i : ι) (s : Store) (l : Local) (delay : ℕ) : Option (Store × Local) :=
  let now := s.clock + delay
  match l with
  | .idle => some (⟨now, s.row⟩, .loaded s.row)
  | .loaded copy =>
      some (⟨now, s.row⟩, if copy.expired now then .clearing copy else .checked copy)
  | .clearing copy =>
      some (⟨now, saveRow copy copy.deactivated s.row⟩, .checked copy.deactivated)
  | .checked copy =>
      some (⟨now, s.row⟩,
        if i = buyer then .granting copy (PaymentsController.passEnd now days) else .done none)
  | .granting copy expiresAt =>
      let current := PaymentsController.withPass copy expiresAt
      some (⟨now, saveRow copy current s.row⟩, .saved current expiresAt)
  | .saved copy expiresAt =>
      let current :=
        if copy.stripeUserId.isNone then { copy with stripeUserId := customer } else copy
      some (⟨now, saveRow copy current s.row⟩, .done (some expiresAt))
  | .done _ => none

/-- A run of the requests, in any order, with any delays. -/
def run (c : Config ι Store Local) (schedule : List (ι × ℕ)) : Option (Config ι Store Local) :=
  StepRun.run (Interleaving.step (next buyer days customer)) c schedule

end Model

/-- Every request is still to come. -/
def start {ι : Type} (clock : ℤ) (row : Subscription) : Config ι Store Local :=
  ⟨⟨clock, row⟩, fun _ => .idle⟩

/-! ### The two UPDATEs -/

/-- A copy that is still what is stored is saved as a whole. -/
theorem saveRow_fresh (row current : Subscription) : saveRow row current row = current := by
  simp [saveRow]

/-- Clearing an active copy that has an expiry writes both columns. -/
theorem saveRow_deactivated {copy : Subscription} (ha : copy.active = true)
    (he : copy.expiresAt.isSome = true) (stored : Subscription) :
    (saveRow copy copy.deactivated stored).active = false ∧
      (saveRow copy copy.deactivated stored).expiresAt = none := by
  have hactive : copy.deactivated.active ≠ copy.active := by
    rw [ha]
    exact Bool.false_ne_true
  have hexpiry : copy.deactivated.expiresAt ≠ copy.expiresAt := by
    intro h
    rw [← h] at he
    cases he
  exact ⟨writeColumn_changed hactive _, writeColumn_changed hexpiry _⟩

/-- A customer is saved without a look at the pass. -/
theorem saveRow_customer (copy stored : Subscription) (customer : Option String) :
    let current := if copy.stripeUserId.isNone then { copy with stripeUserId := customer } else copy
    (saveRow copy current stored).active = stored.active ∧
      (saveRow copy current stored).expiresAt = stored.expiresAt := by
  intro current
  have hcur : current.active = copy.active ∧ current.expiresAt = copy.expiresAt := by
    show (ite _ _ _ : Subscription).active = _ ∧ (ite _ _ _ : Subscription).expiresAt = _
    split <;> exact ⟨rfl, rfl⟩
  simp only [saveRow, hcur.1, hcur.2, writeColumn_unchanged, and_self]

theorem expired_iff (row : Subscription) (now : ℤ) :
    row.expired now = true ↔ row.active = true ∧ ∃ d, row.expiresAt = some d ∧ d < now := by
  unfold Subscription.expired
  cases row.expiresAt <;> simp

/-! ### Alone, a request does what the serial filters and action do -/

section Alone

variable {ι : Type} [DecidableEq ι] {buyer : ι} {days : ℤ} {customer : Option String}

/-- The steps of one request up to the end of its expiry check are the serial check. -/
theorem check_refines {s t : Ctx} (h : Checked s t) {id : ℕ} (hid : s.currentUser = some id)
    {row : Subscription} (hrow : s.db.subscriptions.lookup id = some row) (i : ι) :
    ∃ schedule c row', run buyer days customer (start s.clock row) schedule = some c ∧
      c.locals i = .checked row' ∧ c.store = ⟨t.clock, row'⟩ ∧
      t.db.subscriptions.lookup id = some row' := by
  -- the reading of the clock in the serial check is the delay of the second step
  have hload : ∀ m : Ctx, Quiet s m →
      StepRun.run (soloStep (next buyer days customer) i) (⟨s.clock, row⟩, .idle)
        [0, (m.clock - s.clock).toNat] =
      some (⟨m.clock, row⟩,
        if row.expired m.clock then .clearing row else .checked row) := by
    intro m hq
    have hle := hq.clock
    have hclock : s.clock + ((0 : ℕ) : ℤ) + ((m.clock - s.clock).toNat : ℤ) = m.clock := by omega
    simp only [StepRun.run_cons, StepRun.run_nil, soloStep, next, Option.bind_some, hclock]
  cases h with
  | skipped hnone =>
      rw [hnone id hid] at hrow
      cases hrow
  | @live m id' row' hq hu hrow' hkept =>
      cases hid.symm.trans (hq.currentUser.symm.trans hu)
      have hsame := hrow'
      rw [hq.db, hrow] at hsame
      cases hsame
      have hsolo := hload m hq
      rw [hkept] at hsolo
      obtain ⟨c, hc, hstore, hself, -⟩ :=
        run_solo (c := start s.clock row) (i := i) rfl hsolo
      exact ⟨_, c, row, hc, hself, hstore, hrow'⟩
  | @cleared m id' row' hq hu hrow' hover =>
      cases hid.symm.trans (hq.currentUser.symm.trans hu)
      have hsame := hrow'
      rw [hq.db, hrow] at hsame
      cases hsame
      have hsolo := hload m hq
      rw [hover] at hsolo
      have hclear : StepRun.run (soloStep (next buyer days customer) i) (⟨s.clock, row⟩, .idle)
          ([0, (m.clock - s.clock).toNat] ++ [0]) =
          some (⟨m.clock, row.deactivated⟩, .checked row.deactivated) := by
        rw [StepRun.run_append, hsolo]
        simp only [if_true, Option.bind_some, StepRun.run_cons, StepRun.run_nil, soloStep, next,
          saveRow_fresh, Nat.cast_zero, add_zero]
      obtain ⟨c, hc, hstore, hself, -⟩ :=
        run_solo (c := start s.clock row) (i := i) rfl hclear
      refine ⟨_, c, row.deactivated, hc, hself, hstore, ?_⟩
      show (RowTable.amend id _ m.db.subscriptions).lookup id = _
      rw [RowTable.lookup_amend_self, hrow', Option.map_some]

/-- From a copy that is what is stored, the purchase writes what `savePass` writes. -/
theorem grant_refines {c : Config ι Store Local} {row : Subscription}
    (hl : c.locals buyer = .checked row) (hrow : c.store.row = row) (delay : ℕ) :
    ∃ c', run buyer days customer c [(buyer, delay), (buyer, 0)] = some c' ∧
      c'.store.row = PaymentsController.withPass row
        (PaymentsController.passEnd (c.store.clock + delay) days) := by
  have hsolo : StepRun.run (soloStep (next buyer days customer) buyer)
      (c.store, .checked row) [delay, 0] =
      some (⟨c.store.clock + delay, PaymentsController.withPass row
          (PaymentsController.passEnd (c.store.clock + delay) days)⟩,
        .saved (PaymentsController.withPass row
          (PaymentsController.passEnd (c.store.clock + delay) days))
          (PaymentsController.passEnd (c.store.clock + delay) days)) := by
    simp only [StepRun.run_cons, StepRun.run_nil, soloStep, next, if_true, Option.bind_some, hrow,
      saveRow_fresh, Nat.cast_zero, add_zero]
  obtain ⟨c', hc', hstore, -, -⟩ := run_solo (c := c) (i := buyer) (by rw [hl]) hsolo
  exact ⟨c', hc', by rw [hstore]⟩

end Alone

/-! ### What each request may rely on -/

/-- The row holds the pass bought until `expiresAt`. -/
def Stands (expiresAt : ℤ) (row : Subscription) : Prop :=
  row.active = true ∧ row.expiresAt = some expiresAt

/-- A row with the pass cleared. -/
def Cleared (row : Subscription) : Prop := row.active = false ∧ row.expiresAt = none

/-- An active copy was loaded: the row is active, or has been cleared since. -/
def Owed (copy row : Subscription) : Prop :=
  copy.active = true → row.active = true ∨ row.expiresAt = none

/-- The buyer's copy is what is stored, or the row has been cleared since. -/
def Fresh (copy row : Subscription) : Prop :=
  (row.active = copy.active ∧ row.expiresAt = copy.expiresAt) ∨
    (Cleared row ∧ (copy.active = true ∨ copy.expiresAt = none))

section Claims

variable {ι : Type} (buyer i : ι)

/-- What a copy says about the row, for the buyer and for the others. -/
def View (copy row : Subscription) : Prop := Owed copy row ∧ (i = buyer → Fresh copy row)

/-- What request `i` claims of the row in each of its local states. -/
def Claim (row : Subscription) : Local → Prop
  | .idle => True
  | .loaded copy | .checked copy => View buyer i copy row
  | .clearing copy =>
      copy.active = true ∧ copy.expiresAt.isSome = true ∧ View buyer i copy row
  | .granting copy _ => i = buyer ∧ View buyer i copy row
  | .saved _ expiresAt => i = buyer ∧ Stands expiresAt row
  | .done bought => ∀ expiresAt, bought = some expiresAt → i = buyer ∧ Stands expiresAt row

end Claims

variable {ι : Type} {buyer i : ι} {copy row row' : Subscription} {l : Local}

theorem Owed.cleared (h : Cleared row') : Owed copy row' := fun _ => .inr h.2

/-- A row that is cleared while a copy is current was active, or had no expiry, before. -/
theorem Fresh.cleared (h : Fresh copy row) (hrow : row.active = true ∨ row.expiresAt = none)
    (hc : Cleared row') : Fresh copy row' := by
  refine .inr ⟨hc, ?_⟩
  rcases h with ⟨ha, he⟩ | ⟨-, h⟩
  · rw [← ha, ← he]
    exact hrow
  · exact h

theorem View.refl (row : Subscription) : View buyer i row row :=
  ⟨fun h => .inl h, fun _ => .inl ⟨rfl, rfl⟩⟩

theorem View.cleared (h : View buyer i copy row) (hrow : row.active = true ∨ row.expiresAt = none)
    (hc : Cleared row') : View buyer i copy row' :=
  ⟨Owed.cleared hc, fun hi => (h.2 hi).cleared hrow hc⟩

/-- A claim looks at the two columns of the pass only. -/
theorem Claim.congr (h : Claim buyer i row l) (ha : row'.active = row.active)
    (he : row'.expiresAt = row.expiresAt) : Claim buyer i row' l := by
  have hview : ∀ copy, View buyer i copy row → View buyer i copy row' := by
    intro copy hv
    unfold View Owed Fresh Cleared at hv ⊢
    rw [ha, he]
    exact hv
  have hstands : ∀ expiresAt, Stands expiresAt row → Stands expiresAt row' := by
    intro expiresAt hs
    exact ⟨ha.trans hs.1, he.trans hs.2⟩
  cases l with
  | idle => trivial
  | loaded copy | checked copy => exact hview copy h
  | clearing copy => exact ⟨h.1, h.2.1, hview copy h.2.2⟩
  | granting copy expiresAt => exact ⟨h.1, hview copy h.2⟩
  | saved copy expiresAt => exact ⟨h.1, hstands expiresAt h.2⟩
  | done bought => exact fun x hx => ⟨(h x hx).1, hstands x (h x hx).2⟩

/-- Only the buyer saves a pass. -/
theorem Claim.bought_eq_none (h : Claim buyer i row l) (hi : i ≠ buyer) : l.bought = none := by
  cases l with
  | saved copy expiresAt => exact absurd h.1 hi
  | done bought =>
    cases bought with
    | none => rfl
    | some x => exact absurd (h x rfl).1 hi
  | _ => rfl

/-- What the row is after the save of a pass, the claims of the buyer say. -/
theorem Claim.bought (h : Claim buyer i row l) {expiresAt : ℤ} (hl : l.bought = some expiresAt) :
    Stands expiresAt row := by
  cases l with
  | saved copy x =>
      cases hl
      exact h.2
  | done bought => exact (h expiresAt hl).2
  | _ => cases hl

/-- Clearing the row disturbs no request that has not saved a pass. -/
theorem Claim.cleared (h : Claim buyer i row l) (hl : l.bought = none)
    (hrow : row.active = true ∨ row.expiresAt = none) (hc : Cleared row') :
    Claim buyer i row' l := by
  cases l with
  | idle => trivial
  | loaded copy | checked copy => exact View.cleared h hrow hc
  | clearing copy => exact ⟨h.1, h.2.1, h.2.2.cleared hrow hc⟩
  | granting copy expiresAt => exact ⟨h.1, h.2.cleared hrow hc⟩
  | saved copy expiresAt => cases hl
  | done bought =>
      intro x hx
      rw [Local.bought, hx] at hl
      cases hl

/-- The purchase disturbs no other request. -/
theorem Claim.purchased (h : Claim buyer i row l) (hi : i ≠ buyer) (ha : row'.active = true) :
    Claim buyer i row' l := by
  have hview : ∀ copy, View buyer i copy row' := fun _ =>
    ⟨fun _ => .inl ha, fun hb => absurd hb hi⟩
  cases l with
  | idle => trivial
  | loaded copy | checked copy => exact hview copy
  | clearing copy => exact ⟨h.1, h.2.1, hview copy⟩
  | granting copy expiresAt => exact absurd h.1 hi
  | saved copy expiresAt => exact absurd h.1 hi
  | done bought => exact fun x hx => absurd (h x hx).1 hi

/-- The save of a purchase, from a copy that is not active beside a cleared row. -/
theorem stands_of_save (h : Fresh copy row) (hguard : copy.active = true → row.active = true)
    (expiresAt : ℤ) :
    Stands expiresAt (saveRow copy (PaymentsController.withPass copy expiresAt) row) := by
  have hactive : (saveRow copy (PaymentsController.withPass copy expiresAt) row).active = true := by
    show writeColumn copy.active true row.active = true
    cases ha : copy.active with
    | false => exact writeColumn_changed (by decide) _
    | true =>
        rw [writeColumn_unchanged]
        exact hguard ha
  refine ⟨hactive, ?_⟩
  show writeColumn copy.expiresAt (some expiresAt) row.expiresAt = some expiresAt
  by_cases he : some expiresAt = copy.expiresAt
  · -- an expiry that the copy has already is not written, and is stored unless cleared
    rw [← he, writeColumn_unchanged]
    rcases h with ⟨-, hexp⟩ | ⟨hc, ha | hn⟩
    · exact hexp.trans he.symm
    · have := hguard ha
      rw [hc.1] at this
      cases this
    · rw [hn] at he
      cases he
  · exact writeColumn_changed he _

/-! ### Which schedules keep the purchase -/

section Guard

variable [DecidableEq ι] {days : ℤ} {customer : Option String}

/-- The step erases no purchase: no request clears the row once the purchase is saved, and the
purchase is not saved from an active copy over a row that has been cleared since. -/
def ErasesNothing (buyer : ι) (c : Config ι Store Local) (a : ι × ℕ) : Prop :=
  match c.locals a.1 with
  | .clearing _ => (c.locals buyer).bought = none
  | .granting copy _ => copy.active = true → c.store.row.active = true
  | _ => True

/-- Every request's claim holds. -/
def Claims (buyer : ι) (c : Config ι Store Local) : Prop :=
  Holds (fun _ => True) (fun i s l => Claim buyer i s.row l) c

/-- A step that erases nothing keeps the claim of its own request, and those of the others. -/
theorem claim_step {c : Config ι Store Local} {delay : ℕ} {s' : Store} {l' : Local}
    (hclaim : Claim buyer i c.store.row (c.locals i)) (hg : ErasesNothing buyer c (i, delay))
    (hnext : next buyer days customer i c.store (c.locals i) delay = some (s', l')) :
    Claim buyer i s'.row l' ∧
      ∀ j, j ≠ i → Claim buyer j c.store.row (c.locals j) →
        Claim buyer j s'.row (c.locals j) := by
  unfold ErasesNothing at hg
  simp only at hg
  cases hl : c.locals i with
  | idle =>
      rw [hl] at hnext
      cases hnext
      exact ⟨View.refl _, fun _ _ h => h⟩
  | loaded copy =>
      rw [hl] at hnext hclaim
      cases hnext
      refine ⟨?_, fun _ _ h => h⟩
      split
      · rename_i hexp
        obtain ⟨ha, d, hd, -⟩ := (expired_iff _ _).mp hexp
        exact ⟨ha, by rw [hd]; rfl, hclaim⟩
      · exact hclaim
  | clearing copy =>
      rw [hl] at hnext hclaim hg
      cases hnext
      obtain ⟨ha, he, hview⟩ := hclaim
      have hcleared : Cleared (saveRow copy copy.deactivated c.store.row) :=
        saveRow_deactivated ha he _
      refine ⟨⟨fun h => (nomatch h), fun _ => .inl hcleared⟩, fun j hj h => ?_⟩
      refine h.cleared ?_ (hview.1 ha) hcleared
      by_cases hb : j = buyer
      · rw [hb]
        exact hg
      · exact h.bought_eq_none hb
  | checked copy =>
      rw [hl] at hnext hclaim
      cases hnext
      refine ⟨?_, fun _ _ h => h⟩
      split
      · rename_i hi
        exact ⟨hi, hclaim⟩
      · exact fun _ h => nomatch h
  | granting copy expiresAt =>
      rw [hl] at hnext hclaim hg
      cases hnext
      obtain ⟨hi, hview⟩ := hclaim
      have hstands := stands_of_save (hview.2 hi) hg expiresAt
      refine ⟨⟨hi, hstands⟩, fun j hj h => h.purchased (fun hb => hj (hb.trans hi.symm)) hstands.1⟩
  | saved copy expiresAt =>
      rw [hl] at hnext hclaim
      cases hnext
      obtain ⟨ha, he⟩ := saveRow_customer copy c.store.row customer
      refine ⟨fun x hx => ?_, fun j _ h => h.congr ha he⟩
      cases hx
      exact ⟨hclaim.1, ha.trans hclaim.2.1, he.trans hclaim.2.2⟩
  | done bought =>
      rw [hl] at hnext
      cases hnext

theorem claims_step {c c' : Config ι Store Local} {a : ι × ℕ} (hc : Claims buyer c)
    (hg : ErasesNothing buyer c a)
    (hstep : Interleaving.step (next buyer days customer) c a = some c') : Claims buyer c' := by
  obtain ⟨i, delay⟩ := a
  have hclaim := hc.2 i
  exact holds_step (fun s' l' _ _ h => ⟨trivial, (claim_step hclaim hg h).1⟩)
    (fun s' l' j hj _ _ hj' h => (claim_step hclaim hg h).2 j hj hj') hc hstep

/-- **The purchase stands.**  In every schedule that erases nothing. -/
theorem claims_run {c c' : Config ι Store Local} {schedule : List (ι × ℕ)} (hc : Claims buyer c)
    (hg : StepRun.Along (Interleaving.step (next buyer days customer)) (ErasesNothing buyer) c
      schedule)
    (hrun : run buyer days customer c schedule = some c') : Claims buyer c' :=
  StepRun.run_invariant_along (fun _ _ _ hi hg hstep => claims_step hi hg hstep) hc hg hrun

omit [DecidableEq ι] in
theorem claims_start (clock : ℤ) (row : Subscription) : Claims buyer (start clock row) :=
  ⟨trivial, fun _ => trivial⟩

/-! ### An erased purchase stays erased -/

/-- The pass has been saved and is not there, and only the buyer ever saves one. -/
structure Erased (buyer : ι) (c : Config ι Store Local) : Prop where
  saved : (c.locals buyer).bought.isSome = true
  inactive : c.store.row.active = false
  only : ∀ i copy expiresAt, c.locals i = .granting copy expiresAt → i = buyer

/-- Without a request that grants, no step makes an inactive row active. -/
theorem inactive_step {i : ι} {s s' : Store} {l l' : Local} {delay : ℕ}
    (hnext : next buyer days customer i s l delay = some (s', l')) (hrow : s.row.active = false)
    (hl : ∀ copy expiresAt, l ≠ .granting copy expiresAt) : s'.row.active = false := by
  cases l with
  | idle | loaded copy | checked copy =>
      cases hnext
      exact hrow
  | clearing copy =>
      cases hnext
      show writeColumn copy.active false s.row.active = false
      rw [hrow]
      unfold writeColumn
      split <;> rfl
  | granting copy expiresAt => exact absurd rfl (hl copy expiresAt)
  | saved copy expiresAt =>
      cases hnext
      exact (saveRow_customer copy s.row customer).1.trans hrow
  | done bought => cases hnext

/-- Only the buyer enters `granting`, and what it has saved it keeps. -/
theorem locals_step {i : ι} {s s' : Store} {l l' : Local} {delay : ℕ}
    (hnext : next buyer days customer i s l delay = some (s', l')) :
    (∀ copy expiresAt, l' = .granting copy expiresAt → i = buyer) ∧
      (l.bought.isSome = true → l'.bought.isSome = true) := by
  cases l with
  | idle | clearing copy =>
      cases hnext
      exact ⟨fun _ _ h => (nomatch h), fun h => nomatch h⟩
  | granting copy expiresAt | saved copy expiresAt =>
      cases hnext
      exact ⟨fun _ _ h => (nomatch h), fun _ => rfl⟩
  | loaded copy =>
      cases hnext
      refine ⟨fun _ _ h => ?_, fun h => nomatch h⟩
      split at h <;> cases h
  | checked copy =>
      cases hnext
      refine ⟨fun _ _ h => ?_, fun h => nomatch h⟩
      split at h
      · rename_i hi
        exact hi
      · cases h
  | done bought => cases hnext

theorem erased_step {c c' : Config ι Store Local} {a : ι × ℕ} (h : Erased buyer c)
    (hstep : Interleaving.step (next buyer days customer) c a = some c') : Erased buyer c' := by
  obtain ⟨i, delay⟩ := a
  obtain ⟨s', l', hnext, hstore, hself, hrest⟩ := step_eq_some hstep
  obtain ⟨hgrant, hbought⟩ := locals_step hnext
  refine ⟨?_, ?_, ?_⟩
  · by_cases hb : buyer = i
    · subst hb
      rw [hself]
      exact hbought h.saved
    · rw [hrest buyer hb]
      exact h.saved
  · rw [hstore]
    refine inactive_step hnext h.inactive fun copy expiresAt hl => ?_
    have hi := h.only i copy expiresAt hl
    have hsaved := h.saved
    rw [← hi, hl] at hsaved
    cases hsaved
  · intro j copy expiresAt hj
    by_cases hji : j = i
    · subst hji
      exact hgrant copy expiresAt (hself.symm.trans hj)
    · exact h.only j copy expiresAt ((hrest j hji).symm.trans hj)

/-- A step that violates the guard erases the purchase. -/
theorem erased_of_violation {c c' : Config ι Store Local} {a : ι × ℕ} (hc : Claims buyer c)
    (hg : ¬ ErasesNothing buyer c a)
    (hstep : Interleaving.step (next buyer days customer) c a = some c') : Erased buyer c' := by
  obtain ⟨i, delay⟩ := a
  obtain ⟨s', l', hnext, hstore, hself, hrest⟩ := step_eq_some hstep
  have hgrant := (locals_step hnext).1
  have honly : ∀ j copy expiresAt, c'.locals j = .granting copy expiresAt → j = buyer := by
    intro j copy expiresAt hj
    by_cases hji : j = i
    · subst hji
      exact hgrant copy expiresAt (hself.symm.trans hj)
    · have hclaim := hc.2 j
      rw [(hrest j hji).symm.trans hj] at hclaim
      exact hclaim.1
  have hclaim := hc.2 i
  unfold ErasesNothing at hg
  simp only at hg
  cases hl : c.locals i with
  | clearing copy =>
      rw [hl] at hnext hclaim hg
      cases hnext
      -- the buyer has saved, so it is another request that clears
      have hb : buyer ≠ i := by
        rintro rfl
        rw [hl] at hg
        exact hg rfl
      refine ⟨?_, ?_, honly⟩
      · rw [hrest buyer hb]
        exact Option.isSome_iff_ne_none.mpr hg
      · rw [hstore]
        exact (saveRow_deactivated hclaim.1 hclaim.2.1 _).1
  | granting copy expiresAt =>
      rw [hl] at hnext hclaim hg
      cases hnext
      obtain ⟨hactive, hrow⟩ := Classical.not_imp.mp hg
      have hb : buyer = i := hclaim.1.symm
      refine ⟨?_, ?_, honly⟩
      · rw [hb, hself]
        rfl
      · rw [hstore]
        show writeColumn copy.active true c.store.row.active = false
        rw [hactive, writeColumn_unchanged]
        exact Bool.eq_false_iff.mpr hrow
  | _ =>
      rw [hl] at hg
      exact absurd trivial hg

/-- **No purchase is lost, exactly when.**  For any row, clock and schedule of any number of
requests: once the purchase is done, the row holds the new pass exactly when no step erased it. -/
theorem purchase_stands_iff {clock : ℤ} {row : Subscription} {schedule : List (ι × ℕ)}
    {c : Config ι Store Local} {expiresAt : ℤ}
    (hrun : run buyer days customer (start clock row) schedule = some c)
    (hdone : c.locals buyer = .done (some expiresAt)) :
    Stands expiresAt c.store.row ↔
      StepRun.Along (Interleaving.step (next buyer days customer)) (ErasesNothing buyer)
        (start clock row) schedule := by
  constructor
  · intro hstands
    refine StepRun.along_of_unmarked (I := Claims buyer) (M := Erased buyer)
      (fun _ _ _ hc _ hg hstep => claims_step hc hg hstep)
      (fun _ _ _ hc _ hg hstep => erased_of_violation hc hg hstep)
      (fun _ _ _ herased _ hstep => erased_step herased hstep)
      (claims_start clock row) (StepRun.along_of_labels fun _ _ => trivial) hrun ?_
    intro herased
    have hrow := herased.inactive
    rw [hstands.1] at hrow
    cases hrow
  · intro halong
    have hclaim := (claims_run (claims_start clock row) halong hrun).2 buyer
    rw [hdone] at hclaim
    exact hclaim.bought rfl

end Guard

/-! ### Two schedules -/

namespace Sample

/-- An active pass that runs out at 10. -/
def oldPass : Subscription := ⟨none, true, some 10⟩

/-- The buyer is request `true`.  Both load the row, find it expired at 20, and the other request
clears it before the buyer goes on. -/
def earlyClear : List (Bool × ℕ) :=
  [(false, 0), (true, 0), (false, 20), (true, 0), (false, 0), (true, 0), (true, 0), (true, 0),
    (true, 0), (false, 0)]

/-- The same, except that the other request clears the row when the purchase is done. -/
def lateClear : List (Bool × ℕ) :=
  [(false, 0), (true, 0), (false, 20), (true, 0), (true, 0), (true, 0), (true, 0), (true, 0),
    (false, 0), (false, 0)]

/-- The state after a schedule. -/
def after (schedule : List (Bool × ℕ)) : Config Bool Store Local :=
  (run true 7 none (start 0 oldPass) schedule).getD (start 0 oldPass)

end Sample

/-- The early clear erases nothing. -/
theorem earlyClear_erases_nothing :
    StepRun.Along (Interleaving.step (next true 7 none)) (ErasesNothing true) (start 0 Sample.oldPass)
      Sample.earlyClear := by
  have hdone : (Sample.after Sample.earlyClear).locals true =
      .done (some (PaymentsController.passEnd 20 7)) := rfl
  exact (purchase_stands_iff rfl hdone).mp ⟨rfl, rfl⟩

/-- A request with an old copy erases a purchase that is valid for another week. -/
theorem purchase_lost :
    ¬ ∀ (ι : Type) [DecidableEq ι] (buyer : ι) (days : ℤ) (customer : Option String) (clock : ℤ)
        (row : Subscription) (schedule : List (ι × ℕ)) (c : Config ι Store Local) (expiresAt : ℤ),
      run buyer days customer (start clock row) schedule = some c →
      (∀ i, ∃ bought, c.locals i = .done bought) →
      c.locals buyer = .done (some expiresAt) → c.store.clock < expiresAt →
      Stands expiresAt c.store.row := by
  intro h
  have hall : ∀ i, ∃ bought, (Sample.after Sample.lateClear).locals i = .done bought := by
    intro i
    cases i with
    | false => exact ⟨none, rfl⟩
    | true => exact ⟨some (PaymentsController.passEnd 20 7), rfl⟩
  have hstands := h Bool true 7 none 0 Sample.oldPass Sample.lateClear
    (Sample.after Sample.lateClear) (PaymentsController.passEnd 20 7) rfl hall rfl (by decide)
  have hrow : (Sample.after Sample.lateClear).store.row.active = false := rfl
  rw [hstands.1] at hrow
  cases hrow

end Knoiz.ConcurrentPurchase
