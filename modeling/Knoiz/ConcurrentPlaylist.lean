import Knoiz.HomeController
import Knoiz.Library.Interleaving
import Knoiz.Library.PartialUpdate

/-!
# The free token among concurrent requests

Several `POST /create_playlist` of one user run in different threads.  Each loads the subscription
and the wallet, checks its copies, hands a job to the queue, stamps the wallet and takes the token,
each in a statement of its own.  The check reads the copies, and the debit is not conditional on
what is stored.
-/

namespace Knoiz.ConcurrentPlaylist

open HomeController Interleaving PartialUpdate

/-- The stored wallet after `update` on a copy loaded as `loaded` and now `current`. -/
def saveWallet (loaded current stored : Wallet) : Wallet where
  timestamp := writeColumn loaded.timestamp current.timestamp stored.timestamp
  token := writeColumn loaded.token current.token stored.token

/-- The two rows of the user, and the requests whose job has reached the queue. -/
structure Store (ι : Type) where
  clock : ℤ
  subscription : Subscription
  wallet : Wallet
  jobs : List ι

/-- Where a request stands, with its copies of the rows. -/
inductive Local where
  | idle
  | user (subscription : Subscription)
  | loaded (subscription : Subscription) (wallet : Wallet)
  | passed (subscription : Subscription) (wallet : Wallet)
  | enqueued (subscription : Subscription) (wallet : Wallet)
  | stamped (subscription : Subscription) (wallet : Wallet)
  | done
  deriving DecidableEq, Repr

/-- The request is between passing its check and the debit. -/
def Local.inside : Local → Bool
  | .passed _ _ | .enqueued _ _ | .stamped _ _ => true
  | _ => false

section Model

variable {ι : Type}

/-- One atomic step of request `i`, `delay` after the step before it. -/
def next (i : ι) (s : Store ι) (l : Local) (delay : ℕ) : Option (Store ι × Local) :=
  let s := { s with clock := s.clock + delay }
  match l with
  | .idle => some (s, .user s.subscription)
  | .user subscription => some (s, .loaded subscription s.wallet)
  | .loaded subscription wallet =>
      some (s,
        if eligibleForPlaylist subscription wallet s.clock = some true then
          .passed subscription wallet
        else .done)
  | .passed subscription wallet =>
      some ({ s with jobs := s.jobs ++ [i] }, .enqueued subscription wallet)
  | .enqueued subscription wallet =>
      let current := { wallet with timestamp := some s.clock }
      some ({ s with wallet := saveWallet wallet current s.wallet }, .stamped subscription current)
  | .stamped subscription wallet =>
      some
        (if subscription.active then s
          else { s with
            wallet := saveWallet wallet { wallet with token := some "0" } s.wallet },
        .done)
  | .done => none

/-- A run of the requests, in any order, with any delays. -/
def run [DecidableEq ι] (c : Config ι (Store ι) Local) (schedule : List (ι × ℕ)) :
    Option (Config ι (Store ι) Local) :=
  StepRun.run (Interleaving.step next) c schedule

end Model

/-- Every request is still to come. -/
def start {ι : Type} (clock : ℤ) (subscription : Subscription) (wallet : Wallet) :
    Config ι (Store ι) Local :=
  ⟨⟨clock, subscription, wallet, []⟩, fun _ => .idle⟩

/-! ### The check and the two UPDATEs -/

/-- Without a pass, only the token lets a request through. -/
theorem token_of_eligible {subscription : Subscription} {wallet : Wallet} {now : ℤ}
    (ha : subscription.active = false)
    (h : eligibleForPlaylist subscription wallet now = some true) : wallet.token = some "1" := by
  unfold eligibleForPlaylist entitled at h
  rw [ha] at h
  split at h
  · rename_i htoken
    simpa using htoken
  · cases h

theorem saveWallet_stamp (wallet stored : Wallet) (now : ℤ) :
    (saveWallet wallet { wallet with timestamp := some now } stored).token = stored.token :=
  writeColumn_unchanged _ _

/-- The debit writes the token, whatever is stored. -/
theorem saveWallet_spend {wallet : Wallet} (h : wallet.token = some "1") (stored : Wallet) :
    (saveWallet wallet { wallet with token := some "0" } stored).token = some "0" := by
  refine writeColumn_changed ?_ _
  show some "0" ≠ wallet.token
  rw [h]
  decide

/-- **Alone.**  A request that runs by itself, for a user without a pass, hands in one job and
leaves the wallet stamped and spent, as `create_playlist` does. -/
theorem charge_refines {ι : Type} [DecidableEq ι] (i : ι) {s : Store ι}
    (ha : s.subscription.active = false) (d₁ d₂ : ℕ)
    (he : eligibleForPlaylist s.subscription s.wallet (s.clock + d₁) = some true) :
    ∃ c', run ⟨s, fun _ => Local.idle⟩ ([0, 0, d₁, 0, d₂, 0].map fun delay => (i, delay)) =
        some c' ∧
      c'.locals i = .done ∧
      c'.store = ⟨s.clock + d₁ + d₂, s.subscription,
        ⟨some (s.clock + d₁ + d₂), some "0"⟩, s.jobs ++ [i]⟩ := by
  have htoken := token_of_eligible ha he
  have hspend : saveWallet ⟨some (s.clock + d₁ + d₂), s.wallet.token⟩
      ⟨some (s.clock + d₁ + d₂), some "0"⟩ ⟨some (s.clock + d₁ + d₂), s.wallet.token⟩ =
      ⟨some (s.clock + d₁ + d₂), some "0"⟩ := by
    simp [saveWallet]
  have hstamp : saveWallet s.wallet ⟨some (s.clock + d₁ + d₂), s.wallet.token⟩ s.wallet =
      ⟨some (s.clock + d₁ + d₂), s.wallet.token⟩ := by
    simp [saveWallet]
  have hsolo : StepRun.run (soloStep next i) (s, .idle) [0, 0, d₁, 0, d₂, 0] =
      some (⟨s.clock + d₁ + d₂, s.subscription, ⟨some (s.clock + d₁ + d₂), some "0"⟩,
        s.jobs ++ [i]⟩, .done) := by
    simp only [StepRun.run_cons, StepRun.run_nil, soloStep, next, Option.bind_some, Nat.cast_zero,
      add_zero, he, if_true, ha, Bool.false_eq_true, if_false, hstamp, hspend]
  obtain ⟨c', hc', hstore, hself, -⟩ := run_solo (c := ⟨s, fun _ => Local.idle⟩) rfl hsolo
  exact ⟨c', hc', hself, hstore⟩

/-! ### What holds in every run -/

section Claims

variable {ι : Type} (token : Option String)

/-- The token is the one of the start, or has been spent behind a job; there is no pass. -/
def Spent (s : Store ι) : Prop :=
  s.subscription.active = false ∧
    (s.wallet.token = token ∨ (s.wallet.token = some "0" ∧ s.jobs ≠ []))

/-- What request `i` claims in each of its local states. -/
def Claim (i : ι) (s : Store ι) : Local → Prop
  | .idle => i ∉ s.jobs
  | .user subscription => i ∉ s.jobs ∧ subscription.active = false
  | .loaded subscription wallet =>
      i ∉ s.jobs ∧ subscription.active = false ∧
        (wallet.token = token ∨ wallet.token = some "0")
  | .passed subscription wallet =>
      i ∉ s.jobs ∧ subscription.active = false ∧ wallet.token = some "1"
  | .enqueued subscription wallet | .stamped subscription wallet =>
      i ∈ s.jobs ∧ subscription.active = false ∧ wallet.token = some "1"
  | .done => True

variable {token} {i : ι} {s s' : Store ι} {l : Local}

/-- A claim looks at the queue only, and there only for its own job. -/
theorem Claim.congr (h : Claim token i s l) (hjobs : i ∈ s'.jobs ↔ i ∈ s.jobs) :
    Claim token i s' l := by
  cases l with
  | done => trivial
  | _ =>
      simp only [Claim, hjobs] at h ⊢
      exact h

/-- Every request's claim holds. -/
def Claims (token : Option String) (c : Config ι (Store ι) Local) : Prop :=
  Holds (Spent token) (Claim token) c

theorem claims_start (clock : ℤ) {subscription : Subscription} (ha : subscription.active = false)
    (wallet : Wallet) :
    Claims wallet.token (start clock subscription wallet : Config ι (Store ι) Local) :=
  ⟨⟨ha, .inl rfl⟩, fun _ => List.not_mem_nil⟩

/-- A step of `i` keeps its own claim, and the queue as far as the others look at it. -/
theorem claim_step {l' : Local} {delay : ℕ} (hs : Spent token s) (h : Claim token i s l)
    (hnext : next i s l delay = some (s', l')) :
    Spent token s' ∧ Claim token i s' l' ∧ ∀ j, j ≠ i → (j ∈ s'.jobs ↔ j ∈ s.jobs) := by
  cases l with
  | idle =>
      cases hnext
      exact ⟨hs, ⟨h, hs.1⟩, fun _ _ => Iff.rfl⟩
  | user subscription =>
      cases hnext
      refine ⟨hs, ⟨h.1, h.2, ?_⟩, fun _ _ => Iff.rfl⟩
      rcases hs.2 with ht | ⟨ht, -⟩
      · exact .inl ht
      · exact .inr ht
  | loaded subscription wallet =>
      cases hnext
      refine ⟨hs, ?_, fun _ _ => Iff.rfl⟩
      split
      · rename_i he
        exact ⟨h.1, h.2.1, token_of_eligible h.2.1 he⟩
      · trivial
  | passed subscription wallet =>
      cases hnext
      refine ⟨⟨hs.1, ?_⟩, ⟨by simp, h.2⟩, fun j hj => by simp [hj]⟩
      rcases hs.2 with ht | ⟨ht, -⟩
      · exact .inl ht
      · exact .inr ⟨ht, by simp⟩
  | enqueued subscription wallet =>
      cases hnext
      refine ⟨⟨hs.1, ?_⟩, ⟨h.1, h.2.1, h.2.2⟩, fun _ _ => Iff.rfl⟩
      show (saveWallet _ _ _).token = _ ∨ (saveWallet _ _ _).token = _ ∧ _
      rw [saveWallet_stamp]
      exact hs.2
  | stamped subscription wallet =>
      cases hnext
      have hactive : (if subscription.active = true then { s with clock := s.clock + delay } else
          { s with
            clock := s.clock + delay
            wallet := saveWallet wallet { wallet with token := some "0" } s.wallet }) =
          { s with
            clock := s.clock + delay
            wallet := saveWallet wallet { wallet with token := some "0" } s.wallet } := by
        rw [h.2.1]
        rfl
      rw [hactive]
      refine ⟨⟨hs.1, .inr ⟨saveWallet_spend h.2.2 _, ?_⟩⟩, trivial, fun _ _ => Iff.rfl⟩
      exact List.ne_nil_of_mem h.1
  | done => cases hnext

theorem claims_step [DecidableEq ι] {c c' : Config ι (Store ι) Local} {a : ι × ℕ}
    (hc : Claims token c) (hstep : Interleaving.step next c a = some c') : Claims token c' :=
  holds_step
    (fun _ _ hs h hnext => ⟨(claim_step hs h hnext).1, (claim_step hs h hnext).2.1⟩)
    (fun _ _ j hj hs h hj' hnext => hj'.congr ((claim_step hs h hnext).2.2 j hj)) hc hstep

end Claims

/-! ### One request inside at a time -/

section Guard

variable {ι : Type} [DecidableEq ι] {token : Option String} {c c' : Config ι (Store ι) Local}

/-- A request passes its check only when the token it has read is still stored, and no other
request is between its check and its debit. -/
def OneAtATime (c : Config ι (Store ι) Local) (a : ι × ℕ) : Prop :=
  match c.locals a.1 with
  | .loaded subscription wallet =>
      eligibleForPlaylist subscription wallet (c.store.clock + a.2) = some true →
        c.store.wallet.token = wallet.token ∧ ∀ j, (c.locals j).inside = false
  | _ => True

/-- At most one job; and then the token is spent, or its request is on the way to the debit. -/
structure Single (c : Config ι (Store ι) Local) : Prop where
  one : ∀ i j, (c.locals i).inside = true → (c.locals j).inside = true → i = j
  jobs : c.store.jobs.length ≤ 1
  spent : c.store.jobs ≠ [] → c.store.wallet.token = some "0" ∨
    ∃ k, (c.locals k).inside = true ∧ k ∈ c.store.jobs
  passed : ∀ i subscription wallet, c.locals i = .passed subscription wallet → c.store.jobs = []

omit [DecidableEq ι] in
/-- A request that is inside is alone there. -/
theorem Single.alone {i : ι} (h : Single c) (hi : (c.locals i).inside = true) :
    ∀ j, j ≠ i → (c.locals j).inside = false := by
  intro j hj
  by_contra hin
  rw [Bool.not_eq_false] at hin
  exact hj (h.one j i hin hi)

omit [DecidableEq ι] in
/-- The request that is still to pay for a job is not one that is outside. -/
theorem Single.spent_elsewhere {i : ι} (h : Single c) (hi : (c.locals i).inside = false)
    (hjobs : c.store.jobs ≠ []) :
    c.store.wallet.token = some "0" ∨
      ∃ k, k ≠ i ∧ (c.locals k).inside = true ∧ k ∈ c.store.jobs := by
  rcases h.spent hjobs with ht | ⟨k, hin, hmem⟩
  · exact .inl ht
  · refine .inr ⟨k, ?_, hin, hmem⟩
    rintro rfl
    rw [hi] at hin
    cases hin

omit [DecidableEq ι] in
/-- With the token unspent and nobody on the way to the debit, nothing has been enqueued. -/
theorem Single.no_jobs (h : Single c) (htoken : c.store.wallet.token = some "1")
    (hout : ∀ j, (c.locals j).inside = false) : c.store.jobs = [] := by
  by_contra hjobs
  rcases h.spent hjobs with ht | ⟨k, hin, -⟩
  · rw [htoken] at ht
    exact absurd ht (by decide)
  · rw [hout k] at hin
    cases hin

omit [DecidableEq ι] in
/-- A step of `i` that ends outside, and leaves the queue and an open payment of another one. -/
theorem Single.of_outside {i : ι} (h : Single c) (hrest : ∀ j, j ≠ i → c'.locals j = c.locals j)
    (hout : (c'.locals i).inside = false) (hjobs : c'.store.jobs = c.store.jobs)
    (hspent : c.store.jobs ≠ [] → c'.store.wallet.token = some "0" ∨
      ∃ k, k ≠ i ∧ (c.locals k).inside = true ∧ k ∈ c.store.jobs) : Single c' := by
  have hne : ∀ j, (c'.locals j).inside = true → j ≠ i := by
    rintro j hin rfl
    rw [hout] at hin
    cases hin
  refine ⟨fun p q hp hq => ?_, ?_, fun hjobs' => ?_, fun j subscription wallet hj => ?_⟩
  · have hp' := hrest p (hne p hp) ▸ hp
    have hq' := hrest q (hne q hq) ▸ hq
    exact h.one p q hp' hq'
  · rw [hjobs]
    exact h.jobs
  · rw [hjobs] at hjobs' ⊢
    rcases hspent hjobs' with ht | ⟨k, hk, hin, hmem⟩
    · exact .inl ht
    · exact .inr ⟨k, by rw [hrest k hk]; exact hin, hmem⟩
  · have hji : j ≠ i := hne j (by rw [hj]; rfl)
    rw [hjobs]
    exact h.passed j subscription wallet ((hrest j hji).symm.trans hj)

omit [DecidableEq ι] in
/-- A step of `i` that ends inside, with all others outside. -/
theorem Single.of_inside {i : ι} (hrest : ∀ j, j ≠ i → c'.locals j = c.locals j)
    (hothers : ∀ j, j ≠ i → (c.locals j).inside = false) (hlen : c'.store.jobs.length ≤ 1)
    (hspent : c'.store.jobs ≠ [] → i ∈ c'.store.jobs ∧ (c'.locals i).inside = true)
    (hpassed : ∀ subscription wallet, c'.locals i = .passed subscription wallet →
      c'.store.jobs = []) : Single c' := by
  have heq : ∀ j, (c'.locals j).inside = true → j = i := by
    intro j hin
    by_contra hj
    rw [hrest j hj, hothers j hj] at hin
    cases hin
  refine ⟨fun p q hp hq => (heq p hp).trans (heq q hq).symm, hlen, fun hjobs => ?_, ?_⟩
  · obtain ⟨hmem, hin⟩ := hspent hjobs
    exact .inr ⟨i, hin, hmem⟩
  · intro j subscription wallet hj
    have hji : j = i := heq j (by rw [hj]; rfl)
    subst hji
    exact hpassed subscription wallet hj

theorem single_step {a : ι × ℕ} (hc : Claims token c) (h : Single c) (hg : OneAtATime c a)
    (hstep : Interleaving.step next c a = some c') : Single c' := by
  obtain ⟨i, delay⟩ := a
  obtain ⟨s', l', hnext, hstore, hself, hrest⟩ := step_eq_some hstep
  have hclaim := hc.2 i
  have halone := h.alone (i := i)
  have helsewhere := h.spent_elsewhere (i := i)
  unfold OneAtATime at hg
  simp only at hg
  cases hl : c.locals i with
  | idle | user subscription =>
      rw [hl] at hnext helsewhere
      cases hnext
      refine h.of_outside hrest ?_ ?_ ?_
      · rw [hself]
        rfl
      · rw [hstore]
      · rw [hstore]
        exact helsewhere rfl
  | loaded subscription wallet =>
      rw [hl] at hnext hclaim hg helsewhere
      cases hnext
      by_cases he : eligibleForPlaylist subscription wallet (c.store.clock + delay) = some true
      · obtain ⟨htoken, hout⟩ := hg he
        have hone : c.store.wallet.token = some "1" :=
          htoken.trans (token_of_eligible hclaim.2.1 he)
        have hnone : c.store.jobs = [] := h.no_jobs hone hout
        have hjobs : c'.store.jobs = [] := by
          rw [hstore]
          exact hnone
        refine Single.of_inside hrest (fun j _ => hout j) ?_ (fun hne => absurd hjobs hne)
          fun _ _ _ => hjobs
        rw [hjobs]
        exact Nat.zero_le 1
      · refine h.of_outside hrest ?_ ?_ ?_
        · rw [hself, if_neg he]
          rfl
        · rw [hstore]
        · rw [hstore]
          exact helsewhere rfl
  | passed subscription wallet =>
      have hnone := h.passed i subscription wallet hl
      rw [hl] at hnext halone
      cases hnext
      have hjobs : c'.store.jobs = [i] := by
        rw [hstore]
        show c.store.jobs ++ [i] = [i]
        rw [hnone]
        rfl
      refine Single.of_inside hrest (halone rfl) ?_ (fun _ => ⟨?_, ?_⟩) fun _ _ hpassed => ?_
      · rw [hjobs]
        rfl
      · rw [hjobs]
        exact List.mem_singleton_self i
      · rw [hself]
        rfl
      · rw [hself] at hpassed
        cases hpassed
  | enqueued subscription wallet =>
      rw [hl] at hnext hclaim halone
      cases hnext
      refine Single.of_inside hrest (halone rfl) ?_ (fun _ => ⟨?_, ?_⟩) fun _ _ hpassed => ?_
      · rw [hstore]
        exact h.jobs
      · rw [hstore]
        exact hclaim.1
      · rw [hself]
        rfl
      · rw [hself] at hpassed
        cases hpassed
  | stamped subscription wallet =>
      rw [hl] at hnext hclaim
      cases hnext
      refine h.of_outside hrest ?_ ?_ fun _ => .inl ?_
      · rw [hself]
        rfl
      · rw [hstore, hclaim.2.1]
        rfl
      · rw [hstore, hclaim.2.1]
        exact saveWallet_spend hclaim.2.2 _
  | done =>
      rw [hl] at hnext
      cases hnext

/-- **The token is spent once.**  In every schedule with one request inside at a time. -/
theorem single_run {schedule : List (ι × ℕ)} (hc : Claims token c) (h : Single c)
    (hg : StepRun.Along (Interleaving.step next) OneAtATime c schedule)
    (hrun : run c schedule = some c') : Claims token c' ∧ Single c' :=
  StepRun.run_invariant_along
    (I := fun c => Claims token c ∧ Single c)
    (fun _ _ _ hi hg hstep => ⟨claims_step hi.1 hstep, single_step hi.1 hi.2 hg hstep⟩)
    ⟨hc, h⟩ hg hrun

/-! ### Two requests inside enqueue two jobs -/

/-- The request has its job in the queue, or nothing can stop it from getting there. -/
def Committed (c : Config ι (Store ι) Local) (i : ι) : Prop :=
  i ∈ c.store.jobs ∨ ∃ subscription wallet, c.locals i = .passed subscription wallet

omit [DecidableEq ι] in
/-- A step of `i` appends its job when it has passed its check, and else leaves the queue. -/
theorem jobs_step {i : ι} {s s' : Store ι} {l l' : Local} {delay : ℕ}
    (hnext : next i s l delay = some (s', l')) :
    (s'.jobs = s.jobs ∧ ∀ subscription wallet, l ≠ .passed subscription wallet) ∨
      s'.jobs = s.jobs ++ [i] := by
  cases l with
  | idle | user _ | loaded _ _ | enqueued _ _ =>
      cases hnext
      exact .inl ⟨rfl, fun _ _ h => nomatch h⟩
  | passed _ _ =>
      cases hnext
      exact .inr rfl
  | stamped subscription wallet =>
      cases hnext
      refine .inl ⟨?_, fun _ _ h => nomatch h⟩
      split <;> rfl
  | done => cases hnext

theorem committed_step {a : ι × ℕ} {k : ι} (h : Committed c k)
    (hstep : Interleaving.step next c a = some c') : Committed c' k := by
  obtain ⟨i, delay⟩ := a
  obtain ⟨s', l', hnext, hstore, hself, hrest⟩ := step_eq_some hstep
  have hgrow : ∀ j, j ∈ c.store.jobs → j ∈ c'.store.jobs := by
    intro j hj
    rw [hstore]
    rcases jobs_step hnext with ⟨hjobs, -⟩ | hjobs
    · rw [hjobs]
      exact hj
    · rw [hjobs]
      exact List.mem_append_left _ hj
  rcases h with hjob | ⟨subscription, wallet, hl⟩
  · exact .inl (hgrow k hjob)
  · by_cases hk : k = i
    · subst hk
      refine .inl ?_
      rw [hstore]
      rcases jobs_step hnext with ⟨-, hne⟩ | hjobs
      · exact absurd hl (hne subscription wallet)
      · rw [hjobs]
        exact List.mem_append_right _ (List.mem_singleton.mpr rfl)
    · exact .inr ⟨subscription, wallet, (hrest k hk).trans hl⟩

/-- A step that violates the guard commits a second request. -/
theorem committed_of_violation {a : ι × ℕ} (hc : Claims token c) (hg : ¬ OneAtATime c a)
    (hstep : Interleaving.step next c a = some c') :
    ∃ j, j ≠ a.1 ∧ Committed c' j ∧ Committed c' a.1 := by
  obtain ⟨i, delay⟩ := a
  obtain ⟨s', l', hnext, hstore, hself, hrest⟩ := step_eq_some hstep
  have hclaim := hc.2 i
  unfold OneAtATime at hg
  simp only at hg
  cases hl : c.locals i with
  | loaded subscription wallet =>
      rw [hl] at hnext hclaim hg
      cases hnext
      obtain ⟨he, hviolated⟩ := Classical.not_imp.mp hg
      rw [if_pos he] at hself
      have hi : Committed c' i := .inr ⟨subscription, wallet, hself⟩
      have hone := token_of_eligible hclaim.2.1 he
      by_cases hout : ∀ j, (c.locals j).inside = false
      · -- the token has been spent since it was read, so there is a job, and not of `i`
        have hne : c.store.wallet.token ≠ wallet.token := fun ht => hviolated ⟨ht, hout⟩
        rw [hone] at hne
        have hjobs : c.store.jobs ≠ [] := by
          rcases hc.1.2 with ht | ⟨-, hjobs⟩
          · rcases hclaim.2.2 with hw | hw
            · exact absurd (ht.trans (hw.symm.trans hone)) hne
            · rw [hone] at hw
              exact absurd hw (by decide)
          · exact hjobs
        obtain ⟨j, hj⟩ := List.exists_mem_of_ne_nil _ hjobs
        refine ⟨j, ?_, .inl ?_, hi⟩
        · rintro rfl
          exact hclaim.1 hj
        · rw [hstore]
          exact hj
      · -- another request is inside: its job is in the queue, or on the way
        obtain ⟨j, hj⟩ := not_forall.mp hout
        have hji : j ≠ i := by
          rintro rfl
          rw [hl] at hj
          exact hj rfl
        have hcommitted : Committed c j := by
          have hclaimj := hc.2 j
          cases hlj : c.locals j with
          | passed sub w => exact .inr ⟨sub, w, hlj⟩
          | enqueued sub w | stamped sub w =>
              rw [hlj] at hclaimj
              exact .inl hclaimj.1
          | _ =>
              rw [hlj] at hj
              exact absurd rfl hj
        exact ⟨j, hji, committed_step hcommitted hstep, hi⟩
  | _ =>
      rw [hl] at hg
      exact absurd trivial hg

/-- **The free token, exactly.**  In every schedule of any number of requests of a user without a
pass, one request inside at a time means at most one job; and when every request that passed its
check has enqueued its job, at most one job means one inside at a time. -/
theorem one_job_iff {clock : ℤ} {subscription : Subscription} {wallet : Wallet}
    {schedule : List (ι × ℕ)} (ha : subscription.active = false)
    (hrun : run (start clock subscription wallet) schedule = some c) :
    (StepRun.Along (Interleaving.step next) OneAtATime (start clock subscription wallet) schedule →
        c.store.jobs.length ≤ 1) ∧
      ((∀ i sub w, c.locals i ≠ .passed sub w) → c.store.jobs.length ≤ 1 →
        StepRun.Along (Interleaving.step next) OneAtATime (start clock subscription wallet)
          schedule) := by
  have hclaims := claims_start (ι := ι) clock ha wallet
  have hsingle : Single (start clock subscription wallet : Config ι (Store ι) Local) := by
    refine ⟨fun i j hi => ?_, Nat.zero_le 1, fun h => absurd rfl h, fun i _ _ h => ?_⟩
    · cases hi
    · cases h
  constructor
  · intro halong
    exact (single_run hclaims hsingle halong hrun).2.jobs
  · intro hcomplete hlen
    refine StepRun.along_of_unmarked (I := Claims wallet.token)
      (M := fun c => ∃ i j, i ≠ j ∧ Committed c i ∧ Committed c j)
      (fun _ _ _ hc _ _ hstep => claims_step hc hstep) ?_ ?_ hclaims
      (StepRun.along_of_labels fun _ _ => trivial) hrun ?_
    · intro m a m' hc _ hg hstep
      obtain ⟨j, hj, hcj, hci⟩ := committed_of_violation hc hg hstep
      exact ⟨j, a.1, hj, hcj, hci⟩
    · rintro m a m' ⟨i, j, hij, hi, hj⟩ _ hstep
      exact ⟨i, j, hij, committed_step hi hstep, committed_step hj hstep⟩
    · rintro ⟨i, j, hij, hi, hj⟩
      have hjob : ∀ k, Committed c k → k ∈ c.store.jobs := by
        rintro k (hk | ⟨sub, w, hk⟩)
        · exact hk
        · exact absurd hk (hcomplete k sub w)
      have hmemi := hjob i hi
      have hmemj := hjob j hj
      match hl : c.store.jobs, hlen with
      | [], _ =>
          rw [hl] at hmemi
          cases hmemi
      | [k], _ =>
          rw [hl] at hmemi hmemj
          exact hij ((List.mem_singleton.mp hmemi).trans (List.mem_singleton.mp hmemj).symm)

end Guard

/-! ### Two schedules -/

namespace Sample

/-- Two minutes after the time stamp that a wallet is created with. -/
def now : ℤ := defaultTimestamp + 2 * Calendar.minute

/-- Request `true` from its start to its end, then request `false`, which is refused. -/
def oneByOne : List (Bool × ℕ) :=
  List.replicate 6 (true, 1) ++ List.replicate 3 (false, 1)

/-- Both requests check before either of them goes on. -/
def overlapping : List (Bool × ℕ) :=
  List.replicate 3 (true, 1) ++ List.replicate 6 (false, 1) ++ List.replicate 3 (true, 1)

/-- The state after a schedule, from the rows that a user is created with. -/
def after (schedule : List (Bool × ℕ)) : Config Bool (Store Bool) Local :=
  (run (start now {} {}) schedule).getD (start now {} {})

end Sample

/-- One request after the other keeps one inside at a time. -/
theorem oneByOne_guarded :
    StepRun.Along (Interleaving.step next) OneAtATime
      (start Sample.now {} {} : Config Bool (Store Bool) Local) Sample.oneByOne := by
  refine (one_job_iff (c := Sample.after Sample.oneByOne) rfl rfl).2 ?_ (by decide)
  intro i subscription wallet hl
  cases i <;> cases hl

/-- Two requests that check before either is charged enqueue two jobs for one token. -/
theorem token_spent_twice :
    ¬ ∀ (ι : Type) [DecidableEq ι] (clock : ℤ) (subscription : Subscription) (wallet : Wallet)
        (schedule : List (ι × ℕ)) (c : Config ι (Store ι) Local), subscription.active = false →
      run (start clock subscription wallet) schedule = some c → c.store.jobs.length ≤ 1 := by
  intro h
  have hlen := h Bool Sample.now {} {} Sample.overlapping (Sample.after Sample.overlapping) rfl rfl
  have hjobs : (Sample.after Sample.overlapping).store.jobs = [false, true] := by decide
  rw [hjobs] at hlen
  exact absurd hlen (by decide)

end Knoiz.ConcurrentPlaylist
