import Mathlib.Logic.Function.Iterate
import Knoiz.HomeController

/-!
# The countdown under the playlist form

The page of the form carries the wallet's timestamp in whole seconds.  When it is loaded, the timer
controller subtracts that number from the browser's clock, also in whole seconds, and for as long as
less than a minute has gone by it keeps the button disabled and counts down once a second.  The
server compares the instants themselves.  The result says for which loads the button is never enabled
while the server would still refuse.
-/

namespace Knoiz

open Calendar

/-! ### The page -/

namespace Timer

/-- The submit button. -/
structure Button where
  classList : List String
  disabled : Bool
  deriving DecidableEq, Repr

/-- The element of the controller: the text of the countdown, the button, and the counter of the
interval once it has been started. -/
structure Element where
  innerText : String
  submitBtn : Button
  timeLeft : Option ℤ
  deriving DecidableEq, Repr

/-- `classList.add`. -/
def Button.add (btn : Button) (names : List String) : Button :=
  { btn with classList := btn.classList ++ names.filter (· ∉ btn.classList) }

/-- `classList.remove`. -/
def Button.remove (btn : Button) (names : List String) : Button :=
  { btn with classList := btn.classList.filter (· ∉ names) }

/-- `toggleButtonState`. -/
def toggleButtonState (btn : Button) (isEnabled : Bool) : Button :=
  if isEnabled then
    { (btn.add ["cursor-pointer", "hover:bg-spotify-vert-hover"]).remove
        ["cursor-not-allowed", "opacity-50"] with disabled := false }
  else
    { (btn.remove ["cursor-pointer", "hover:bg-spotify-vert-hover"]).add
        ["cursor-not-allowed", "opacity-50"] with disabled := true }

/-- `padStart(2, "0")`. -/
def padStart (s : String) : String := "".pushn '0' (2 - s.length) ++ s

/-- The text of the countdown while it runs. -/
def countdownText (timeLeft : ℤ) : String :=
  let days := timeLeft / (3600 * 24)
  let hours := timeLeft % (3600 * 24) / 3600
  let minutes := timeLeft % 3600 / 60
  let seconds := timeLeft % 60
  toString days ++ "d " ++ padStart (toString hours) ++ "h " ++ padStart (toString minutes) ++ "m "
    ++ padStart (toString seconds) ++ "s"

/-- `startCountdown`: the text, and an interval that nothing ever clears. -/
def startCountdown (element : Element) (timeLeft : ℤ) : Element :=
  { element with innerText := toString timeLeft, timeLeft := some timeLeft }

/-- One call of the interval's function. -/
def tick (element : Element) : Element :=
  match element.timeLeft with
  | none => element
  | some counter =>
      let timeLeft := counter - 1
      if timeLeft ≤ 0 then
        { innerText := "", submitBtn := toggleButtonState element.submitBtn true,
          timeLeft := some timeLeft }
      else { element with innerText := countdownText timeLeft, timeLeft := some timeLeft }

/-- `connect`; `timestamp` is the `data-timestamp` attribute, `dateNow` is `Date.now()` in
milliseconds. -/
def connect (element : Element) (timestamp dateNow : ℤ) : Element :=
  let now := dateNow / 1000
  let timeLeft := 60 - (now - timestamp)
  if 0 < timeLeft then
    { startCountdown element timeLeft with
      submitBtn := toggleButtonState element.submitBtn false }
  else element

end Timer

open Timer

/-- `@current_user.wallet.timestamp.to_i`. -/
def Wallet.dataTimestamp (wallet : Wallet) : ℤ :=
  match wallet.timestamp with
  | none => 0
  | some timestamp => timestamp / second

/-- The page as it is rendered. -/
def Timer.rendered : Element where
  innerText := ""
  submitBtn := ⟨["cursor-pointer", "w-full", "text-center", "items-center", "rounded-md", "border",
    "border-transparent", "bg-knoiz-violet-principale", "px-4", "py-2", "text-base", "font-medium",
    "text-white", "shadow-sm", "hover:bg-knoiz-violet-principale-hover", "focus:outline-none"], false⟩
  timeLeft := none

/-- The page at the time `t`, when it was loaded at the time `p`. -/
def pageAt (wallet : Wallet) (p t : ℤ) : Element :=
  tick^[((t - p) / second).toNat] (connect rendered wallet.dataTimestamp (p / 1000))

/-! ### The countdown -/

namespace Timer

/-- The interval runs, its counter is at `k`, and the button is disabled while the counter is
positive. -/
structure Counts (k : ℤ) (element : Element) : Prop where
  timeLeft : element.timeLeft = some k
  disabled : element.submitBtn.disabled = decide (0 < k)

theorem Counts.tick {k : ℤ} {element : Element} (h : Counts k element) :
    Counts (k - 1) (Timer.tick element) := by
  unfold Timer.tick
  rw [h.timeLeft]
  by_cases hk : k - 1 ≤ 0
  · simp only [if_pos hk]
    have hnot : ¬ 0 < k - 1 := by omega
    exact ⟨rfl, (decide_eq_false hnot).symm⟩
  · simp only [if_neg hk]
    have hpos : 0 < k := by omega
    have hpos' : 0 < k - 1 := by omega
    refine ⟨rfl, ?_⟩
    show element.submitBtn.disabled = _
    rw [h.disabled, decide_eq_true hpos, decide_eq_true hpos']

/-- After `n` calls the counter is `n` lower. -/
theorem Counts.iterate {k : ℤ} {element : Element} (h : Counts k element) (n : ℕ) :
    Counts (k - n) (Timer.tick^[n] element) := by
  induction n with
  | zero => simpa using h
  | succ n ih =>
      rw [Function.iterate_succ_apply']
      have hnext := ih.tick
      have hk : k - (n : ℤ) - 1 = k - ((n + 1 : ℕ) : ℤ) := by
        push_cast
        omega
      rw [← hk]
      exact hnext

/-- Nothing happens on a page whose interval was not started. -/
theorem iterate_tick_idle {element : Element} (h : element.timeLeft = none) (n : ℕ) :
    tick^[n] element = element := by
  have hfix : tick element = element := by
    unfold tick
    rw [h]
  exact Function.iterate_fixed hfix n

/-- The milliseconds of the browser's clock make no difference to its whole seconds. -/
theorem dateNow_div (p : ℤ) : p / 1000 / 1000 = p / second := by
  unfold second
  omega

/-- **When the button is disabled.**  Until as many whole seconds have gone by since the load as were
missing to a minute, on the whole seconds of the two clocks. -/
theorem pageAt_disabled (wallet : Wallet) (p t : ℤ) (hpt : p ≤ t) :
    (pageAt wallet p t).submitBtn.disabled = true ↔
      (t - p) / second < 60 - (p / second - wallet.dataTimestamp) := by
  have hticks : (((t - p) / second).toNat : ℤ) = (t - p) / second := by
    apply Int.toNat_of_nonneg
    unfold second
    omega
  unfold pageAt connect
  rw [dateNow_div]
  by_cases hleft : 0 < 60 - (p / second - wallet.dataTimestamp)
  · simp only [if_pos hleft]
    have hstart : Counts (60 - (p / second - wallet.dataTimestamp))
        { startCountdown rendered (60 - (p / second - wallet.dataTimestamp)) with
          submitBtn := toggleButtonState rendered.submitBtn false } :=
      ⟨rfl, (decide_eq_true hleft).symm⟩
    rw [(hstart.iterate _).disabled, hticks, decide_eq_true_iff]
    omega
  · simp only [if_neg hleft]
    rw [iterate_tick_idle rfl]
    have hnonneg : 0 ≤ (t - p) / second := by
      unfold second
      omega
    constructor
    · intro h
      cases h
    · intro h
      omega

end Timer

/-! ### Browser and server -/

open HomeController in
/-- A user with a pass or a token is eligible exactly when more than a minute has gone by. -/
theorem eligible_iff_of_entitled {subscription : Subscription} {wallet : Wallet} {w : ℤ}
    (hw : wallet.timestamp = some w) (hentitled : entitled subscription wallet = true) (t : ℤ) :
    eligibleForPlaylist subscription wallet t = some true ↔ w < t - minute := by
  unfold eligibleForPlaylist
  rw [if_pos hentitled, hw, Option.map_some, Option.some_inj, decide_eq_true_iff]

/-- The first instant at which the button is enabled. -/
theorem enabled_iff (wallet : Wallet) (p t : ℤ) (hpt : p ≤ t) :
    (pageAt wallet p t).submitBtn.disabled = false ↔
      60 - (p / second - wallet.dataTimestamp) ≤ (t - p) / second := by
  rw [← not_lt, ← pageAt_disabled wallet p t hpt, Bool.not_eq_true]

/-- **The countdown and the cooldown agree, exactly when.**  The button is never enabled before the
server would accept, if and only if the page was loaded more than sixty whole seconds after the last
playlist, or later in its second than the last playlist was in its own. -/
theorem countdown_agrees_iff {subscription : Subscription} {wallet : Wallet} {w p : ℤ}
    (hw : wallet.timestamp = some w)
    (hentitled : HomeController.entitled subscription wallet = true) (hwp : w ≤ p) :
    (∀ t, p ≤ t → (pageAt wallet p t).submitBtn.disabled = false →
        HomeController.eligibleForPlaylist subscription wallet t = some true) ↔
      60 < p / second - w / second ∨ w % second < p % second := by
  have hdata : wallet.dataTimestamp = w / second := by
    unfold Wallet.dataTimestamp
    rw [hw]
  constructor
  · intro h
    by_contra hnot
    -- the button is enabled at the end of the countdown, or at once when there is none
    obtain ⟨wait, hwait, hmax⟩ : ∃ wait, wait = max 0 (60 - (p / second - w / second)) ∧
        0 ≤ wait := ⟨_, rfl, le_max_left _ _⟩
    have hlate : p ≤ p + wait * second := by
      unfold second
      omega
    have hticks : (p + wait * second - p) / second = wait := by
      unfold second
      omega
    have henabled : (pageAt wallet p (p + wait * second)).submitBtn.disabled = false := by
      rw [enabled_iff wallet p _ hlate, hdata, hticks, hwait]
      exact le_max_right _ _
    have heligible := (eligible_iff_of_entitled hw hentitled _).mp (h _ hlate henabled)
    simp only [second, minute] at *
    omega
  · intro h t hpt henabled
    rw [enabled_iff wallet p t hpt, hdata] at henabled
    rw [eligible_iff_of_entitled hw hentitled]
    simp only [second, minute] at *
    omega

namespace Sample

/-- A wallet that was stamped at `w`. -/
def stampedWallet (w : ℤ) : Wallet := { timestamp := some w }

end Sample

/-- A playlist at 0.1 s, and the page loaded at 1.5 s: the countdown ends at 60.5 s, and the server
accepts. -/
theorem accepted_after_countdown :
    HomeController.eligibleForPlaylist {} (Sample.stampedWallet 100000) 60500000 = some true := by
  have hentitled : HomeController.entitled {} (Sample.stampedWallet 100000) = true := rfl
  have hpage : (100000 : ℤ) ≤ 1500000 := by decide
  have hagrees := (countdown_agrees_iff rfl hentitled hpage).mpr (.inr (by decide))
  exact hagrees 60500000 (by decide) rfl

/-- A playlist at 0.9 s, and the page loaded at 60.1 s: the button is enabled at once, and the server
refuses until 60.9 s. -/
theorem enabled_within_minute :
    ¬ ∀ (subscription : Subscription) (wallet : Wallet) (w p t : ℤ), wallet.timestamp = some w →
      HomeController.entitled subscription wallet = true → w ≤ p → p ≤ t →
      (pageAt wallet p t).submitBtn.disabled = false →
        HomeController.eligibleForPlaylist subscription wallet t = some true := by
  intro h
  have heligible := h {} (Sample.stampedWallet 900000) 900000 60100000 60100000 rfl rfl (by decide)
    le_rfl rfl
  exact absurd heligible (by decide)

end Knoiz
