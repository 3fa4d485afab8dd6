import Knoiz.PlaylistPipeline
import Knoiz.SerialPlaylist
import Mathlib.Algebra.Order.BigOperators.Group.List

/-!
# From the form to Spotify

The application enqueues `Playlist` jobs; the two workers take each of them, with Sidekiq's reruns,
to the playlists on Spotify.  Here they run together: requests, payments and executions of jobs in
any order.  What a user finds on Spotify is compared with what has been enqueued, and, for a user
who never had a pass, with the free token.
-/

namespace Knoiz

open Calendar EventLog PlaylistPipeline ProgramLogic RowTable

/-! ### The service -/

/-- The arguments of a playlist job. -/
def playlistArgsOf : Event → Option Playlist.Args
  | .enqueued (.playlist text data user) _ => some ⟨text, data, user⟩
  | _ => none

/-- The playlist jobs of a log, as Sidekiq has them. -/
def playlistArgs (log : List Event) : List Playlist.Args := log.filterMap playlistArgsOf

/-- The application, and what has become of each playlist job. -/
structure Service where
  system : System
  pipelines : ℕ → Pipeline

/-- A step of the application, or an execution of one of the workers for a playlist job. -/
inductive Act where
  | application (a : Step)
  | execution (job : ℕ) (e : Execution)

/-- One act; a job has to be in the queue to be executed. -/
def Service.step (prices : PaymentsController.Prices) (json : JsonText) (w : Service) :
    Act → Option Service
  | .application a => (Knoiz.step prices w.system a).map fun system => { w with system := system }
  | .execution k e =>
      (playlistArgs w.system.log)[k]?.bind fun args =>
        (PlaylistPipeline.step json args (w.pipelines k) e).map fun p =>
          { w with pipelines := Function.update w.pipelines k p }

/-- The application at work, and every job still to be executed. -/
def Service.opened (sys : System) : Service := ⟨sys, fun _ => PlaylistPipeline.start⟩

/-- The jobs of user `id`, with their numbers. -/
def orders (id : ℕ) (log : List Event) : List (Playlist.Args × ℕ) :=
  (playlistArgs log).zipIdx.filter fun job => job.1.spotifyUserId == id

/-- How many playlists the jobs of user `id` have created on Spotify. -/
def delivered (id : ℕ) (w : Service) : ℕ :=
  ((orders id w.system.log).map fun job => (w.pipelines job.2).spotify.length).sum

/-- What an execution may be asked for. -/
def OnExecution (P : Pipeline → Playlist.Args → Execution → Prop) (w : Service) : Act → Prop
  | .application _ => True
  | .execution k e => ∀ args, (playlistArgs w.system.log)[k]? = some args → P (w.pipelines k) args e

/-- No execution goes wrong behind a write. -/
def Undisturbed (json : JsonText) : Service → Act → Prop :=
  OnExecution fun p args e => Clean json args p e

/-- Every search finds a song. -/
def FindsSongs (json : JsonText) : Service → Act → Prop :=
  OnExecution fun p _ e => FindsSong json p e

/-- Every playlist job has returned, and so have the jobs behind it. -/
def Service.Drained (w : Service) : Prop :=
  ∀ k < (playlistArgs w.system.log).length, Over (w.pipelines k)

/-! ### One pipeline -/

variable {prices : PaymentsController.Prices} {json : JsonText} {w w' : Service} {a : Act} {id : ℕ}

/-- What the executions of the pipelines keep, the service keeps of each of them. -/
theorem Service.step_pipelines {I : Pipeline → Prop} {P : Pipeline → Playlist.Args → Execution → Prop}
    (hkeep : ∀ p args e p', I p → P p args e → PlaylistPipeline.step json args p e = some p' → I p')
    (hw : ∀ k, I (w.pipelines k)) (hg : OnExecution P w a) (hstep : w.step prices json a = some w') :
    ∀ k, I (w'.pipelines k) := by
  cases a with
  | application a =>
      obtain ⟨system, -, rfl⟩ := Option.map_eq_some_iff.mp hstep
      exact hw
  | execution j e =>
      obtain ⟨args, hargs, hexecuted⟩ := Option.bind_eq_some_iff.mp hstep
      obtain ⟨p, hp, rfl⟩ := Option.map_eq_some_iff.mp hexecuted
      intro k
      by_cases hk : k = j
      · subst hk
        show I (Function.update w.pipelines k p k)
        rw [Function.update_self]
        exact hkeep _ args e p (hw k) (hg args hargs) hp
      · show I (Function.update w.pipelines j p k)
        rw [Function.update_of_ne hk]
        exact hw k

variable {w₀ : Service} {acts : List Act}

theorem Service.run_pipelines {I : Pipeline → Prop} {P : Pipeline → Playlist.Args → Execution → Prop}
    (hkeep : ∀ p args e p', I p → P p args e → PlaylistPipeline.step json args p e = some p' → I p')
    (hstart : ∀ k, I (w₀.pipelines k))
    (hg : StepRun.Along (Service.step prices json) (OnExecution P) w₀ acts)
    (hrun : StepRun.run (Service.step prices json) w₀ acts = some w) : ∀ k, I (w.pipelines k) :=
  StepRun.run_invariant_along (I := fun w : Service => ∀ k, I (w.pipelines k))
    (fun _ _ _ hw hg hstep => step_pipelines hkeep hw hg hstep) hstart hg hrun

/-! ### Orders and playlists -/

theorem length_orders (id : ℕ) (log : List Event) : (orders id log).length = playlistCount id log := by
  have hcount : (playlistArgs log).countP (fun args => args.spotifyUserId == id) =
      playlistCount id log := by
    unfold playlistCount playlistArgs playlists
    rw [List.countP_filterMap, List.countP_filterMap]
    congr 1
    funext e
    cases e with
    | enqueued job time => cases job <;> rfl
    | _ => rfl
  unfold orders
  rw [← List.countP_eq_length_filter, ← hcount]
  conv_rhs => rw [← List.zipIdx_map_fst 0 (playlistArgs log), List.countP_map]
  rfl

theorem mem_orders {log : List Event} {job : Playlist.Args × ℕ} (h : job ∈ orders id log) :
    job.2 < (playlistArgs log).length := by
  have hmem := (List.mem_filter.mp h).1
  have hlt := List.snd_lt_add_of_mem_zipIdx hmem
  omega

/-- As long as nothing goes wrong behind a write, there is at most one playlist for each job. -/
theorem delivered_le {sys : System} (id : ℕ)
    (hrun : StepRun.run (Service.step prices json) (.opened sys) acts = some w)
    (hclean : StepRun.Along (Service.step prices json) (Undisturbed json) (.opened sys) acts) :
    delivered id w ≤ playlistCount id w.system.log := by
  have hexpected : ∀ k, expected (w.pipelines k) ≤ 1 :=
    Service.run_pipelines (I := fun p => expected p ≤ 1)
      (fun _ _ _ _ hp hg hstep => expected_step hp hg hstep) (fun _ => le_rfl) hclean hrun
  have hone : ∀ n ∈ (orders id w.system.log).map fun job => (w.pipelines job.2).spotify.length,
      n ≤ 1 := by
    intro n hn
    obtain ⟨job, -, rfl⟩ := List.mem_map.mp hn
    have hle := hexpected job.2
    unfold expected at hle
    omega
  rw [← length_orders]
  simpa [delivered] using List.sum_le_card_nsmul _ 1 hone

/-- When every job has returned and every search has found a song, there is at least one. -/
theorem le_delivered {sys : System} (id : ℕ)
    (hrun : StepRun.run (Service.step prices json) (.opened sys) acts = some w)
    (hsongs : StepRun.Along (Service.step prices json) (FindsSongs json) (.opened sys) acts)
    (hdrained : w.Drained) : playlistCount id w.system.log ≤ delivered id w := by
  have htotal : ∀ k, 1 ≤ expected (w.pipelines k) + givenUp (w.pipelines k) :=
    Service.run_pipelines (I := fun p => 1 ≤ expected p + givenUp p)
      (fun _ _ _ _ hp hg hstep => hp.trans (total_step hg hstep).1) (fun _ => le_rfl) hsongs hrun
  have hone : ∀ n ∈ (orders id w.system.log).map fun job => (w.pipelines job.2).spotify.length,
      1 ≤ n := by
    intro n hn
    obtain ⟨job, hjob, rfl⟩ := List.mem_map.mp hn
    rw [← (hdrained job.2 (mem_orders hjob)).total]
    exact htotal job.2
  rw [← length_orders]
  simpa [delivered] using List.card_nsmul_le_sum _ 1 hone

/-- **Delivery.**  In every run of the service, as long as nothing goes wrong behind a write, a user
has at most one playlist on Spotify for each job that the application has enqueued; and when every
job has returned and every search has found a song, exactly one. -/
theorem playlists_delivered {sys : System} (id : ℕ)
    (hrun : StepRun.run (Service.step prices json) (.opened sys) acts = some w)
    (hclean : StepRun.Along (Service.step prices json) (Undisturbed json) (.opened sys) acts) :
    delivered id w ≤ playlistCount id w.system.log ∧
      (StepRun.Along (Service.step prices json) (FindsSongs json) (.opened sys) acts → w.Drained →
        delivered id w = playlistCount id w.system.log) := by
  have hle := delivered_le id hrun hclean
  exact ⟨hle, fun hsongs hdrained => hle.antisymm (le_delivered id hrun hsongs hdrained)⟩

/-! ### The free playlist -/

/-- Without a pass ever, a gate reads none. -/
theorem gate_inactive {s : Server} {log es : List Event} {active : Bool}
    (hwin : PassWindow prices True id s) (hlog : s.log = log ++ es)
    (hnone : s.log.filterMap (grantOf id) = []) (hgate : latest (gateOf id) log = some active) :
    active = false := by
  obtain ⟨e, he, hread⟩ := exists_of_latest hgate
  obtain ⟨pre, post, rfl⟩ := List.append_of_mem he
  have hpre : latest (grantOf id) pre = none := by
    rw [hlog, List.append_assoc, List.filterMap_append] at hnone
    unfold latest
    rw [(List.append_eq_nil_iff.mp hnone).1]
    rfl
  cases e with
  | gate user active' expiresAt =>
      change (if user = id then some active' else none) = some active at hread
      split at hread
      · rename_i huser
        cases hread
        subst huser
        have hsplit : s.log = pre ++ .gate user active expiresAt :: (post ++ es) := by
          rw [hlog]
          simp
        obtain ⟨hactive, -⟩ := hwin.gates pre _ _ hsplit active expiresAt rfl (.inl trivial)
        have hnothing : standing user pre = none := by
          unfold standing
          rw [hpre]
          exact LazyLease.expected_none _
        rw [hactive, hnothing]
        rfl
      · cases hread
  | _ => cases hread

variable {sys sys' : System} {r : Request} {s : Ctx}

/-- A request that gets through the filters when the gate reads no pass: what it enqueues is free. -/
theorem PassesFilters.free (prices : PaymentsController.Prices) (h : PassesFilters sys r s)
    (hread : s.currentUser = some id → latest (gateOf id) s.log = some false)
    (hfree : freePlaylists id sys.log = playlistCount id sys.log) :
    freePlaylists id (serve prices sys r).log = playlistCount id (serve prices sys r).log := by
  obtain ⟨hcalm, ⟨user, row, wallet, now, hid, hrow, -⟩, -⟩ := h.served prices
  have hcharges : s.route.charges = true := by
    rw [show s.route = r.route from hcalm.route]
    cases h with
    | intro requested => exact requested
  have hjobs : playlists s.log = playlists sys.log := hcalm.playlists
  have hbefore : freePlaylists id s.log = playlistCount id s.log := by
    rw [freePlaylists_grown h.grown hjobs, hfree]
    unfold playlistCount
    rw [hjobs]
  have hends := HomeController.createPlaylist_ends hid hrow
  have hlog : HomeController.Recorded user s _ :=
    HomeController.createPlaylist_log prices hid hcharges
  rw [h.served_log prices]
  have hpushed {time : ℤ} {t : Ctx} (pushed : HomeController.Pushed user time s t)
      (hlog : HomeController.Recorded user s t) :
      freePlaylists id t.log = playlistCount id t.log := by
    rw [pushed.free hlog, playlistCount_pushed pushed.jobs, hbefore]
    by_cases huser : user = id
    · rw [hread (huser ▸ hid)]
      simp [huser]
    · simp [huser]
  generalize final HomeController.createPlaylist s = t at hends hlog
  cases hends with
  | failed => exact hbefore
  | unstamped pushed => exact hpushed pushed hlog
  | kept pushed => exact hpushed pushed hlog
  | spent pushed => exact hpushed pushed hlog

/-- The invariant of an account without a pass: all its playlists have been free. -/
structure AllFree (prices : PaymentsController.Prices) (id : ℕ) (sys : System) : Prop where
  window : PassWindow prices True id sys.toServer
  free : sys.log.filterMap (grantOf id) = [] →
    freePlaylists id sys.log = playlistCount id sys.log

theorem grants_nil_of_step {a : Step} (hstep : step prices sys a = some sys')
    (hnone : sys'.log.filterMap (grantOf id) = []) : sys.log.filterMap (grantOf id) = [] := by
  obtain ⟨es, hes⟩ := step_log hstep
  rw [hes, List.filterMap_append] at hnone
  exact (List.append_eq_nil_iff.mp hnone).1

/-- What the filters have recorded stays. -/
theorem PassesFilters.served_grown (prices : PaymentsController.Prices) (h : PassesFilters sys r s) :
    ∃ es, (serve prices sys r).log = s.log ++ es := by
  obtain ⟨hcalm, ⟨user, row, wallet, now, hid, -⟩, -⟩ := h.served prices
  have hcharges : s.route.charges = true := by
    rw [show s.route = r.route from hcalm.route]
    cases h with
    | intro requested => exact requested
  rw [h.served_log prices]
  rcases HomeController.createPlaylist_log prices hid hcharges with
    hsame | ⟨text, data, time, es, hgrown⟩
  · exact ⟨[], by rw [hsame, List.append_nil]⟩
  · exact ⟨_, hgrown⟩

theorem AllFree.serve (h : AllFree prices id sys) (r : Request)
    (hnone : (serve prices sys r).log.filterMap (grantOf id) = []) :
    freePlaylists id (Knoiz.serve prices sys r).log =
      playlistCount id (Knoiz.serve prices sys r).log := by
  have hstep : step prices sys (.request r) = some (Knoiz.serve prices sys r) := rfl
  have hfree := h.free (grants_nil_of_step hstep hnone)
  by_cases hpasses : ∃ s, PassesFilters sys r s
  · obtain ⟨s, hs⟩ := hpasses
    refine hs.free prices (fun hid => ?_) hfree
    obtain ⟨user, row, hid', -, hlatest⟩ := hs.read
    cases hid.symm.trans hid'
    have hserve : StepRun.run (step prices) sys [.request r] = some (Knoiz.serve prices sys r) := rfl
    obtain ⟨es, hes⟩ := hs.served_grown prices
    rw [hlatest, gate_inactive (h.window.run hserve) hes hnone hlatest]
  · have hkept := serve_walletsKept_of_stopped prices hpasses
    rw [freePlaylists_grown (step_log hstep) hkept.jobs, hfree]
    unfold playlistCount
    rw [hkept.jobs]

theorem AllFree.step {a : Step} (h : AllFree prices id sys) (hstep : step prices sys a = some sys') :
    AllFree prices id sys' := by
  have hrun : StepRun.run (Knoiz.step prices) sys [a] = some sys' :=
    StepRun.run_cons_eq_some.mpr ⟨sys', hstep, rfl⟩
  refine ⟨h.window.run hrun, fun hnone => ?_⟩
  cases a with
  | request r =>
      cases hstep
      exact h.serve r hnone
  | payment =>
      cases hstep
      exact h.free hnone
  | statsJob =>
      cases hstep
      exact h.free hnone

/-! ### The application in the service -/

/-- The step of the application, when the act is one. -/
def Act.applied : Act → Option Step
  | .application a => some a
  | .execution _ _ => none

/-- The application takes its own steps, and the workers leave it alone. -/
theorem projects_application (prices : PaymentsController.Prices) (json : JsonText) :
    StepRun.Projects (Service.step prices json) (step prices) Service.system Act.applied where
  own w a w' b hstep hpart := by
    cases a with
    | application a =>
        cases hpart
        obtain ⟨system, hsystem, rfl⟩ := Option.map_eq_some_iff.mp hstep
        exact hsystem
    | execution k e => cases hpart
  others w a w' hstep hpart := by
    cases a with
    | application a => cases hpart
    | execution k e =>
        obtain ⟨args, -, hexecuted⟩ := Option.bind_eq_some_iff.mp hstep
        obtain ⟨p, -, rfl⟩ := Option.map_eq_some_iff.mp hexecuted
        rfl

/-- Without a pass, the playlists enqueued and the tokens left are one, and one more for each
request that enqueued a playlist and failed to charge the wallet. -/
theorem orders_balanced {sys : System} (h₀ : JustCreated prices id sys.toServer)
    (htoken : (sys.db.wallets.lookup id).map Wallet.token = some (some "1"))
    (hrun : StepRun.run (Service.step prices json) (.opened sys) acts = some w)
    (hnone : w.system.log.filterMap (grantOf id) = []) :
    playlistCount id w.system.log + tokensLeft id w.system.db =
      1 + StepRun.total (step prices) (uncharged id) sys (acts.filterMap Act.applied) := by
  have happlied : StepRun.run (step prices) sys (acts.filterMap Act.applied) = some w.system :=
    (projects_application prices json).run hrun
  have hfree : AllFree prices id w.system :=
    StepRun.run_invariant (fun _ _ _ h hstep => h.step hstep)
      ⟨h₀.passWindow, fun _ => by rw [h₀.log]; rfl⟩ happlied
  have hbalance := balance_run h₀.log htoken happlied
  rwa [balance, hfree.free hnone] at hbalance

/-- **One free playlist on Spotify.**  For a user who never gets a pass, in every run of the service
from the new account: as long as nothing goes wrong behind a write of the workers, the playlists on
Spotify and the tokens left are at most one, and one more for each request that enqueued a playlist
and failed to charge the wallet; and when every job has returned and every search has found a song,
at least as many. -/
theorem one_free_playlist {sys : System} (h₀ : JustCreated prices id sys.toServer)
    (htoken : (sys.db.wallets.lookup id).map Wallet.token = some (some "1"))
    (hrun : StepRun.run (Service.step prices json) (.opened sys) acts = some w)
    (hnone : w.system.log.filterMap (grantOf id) = []) :
    (StepRun.Along (Service.step prices json) (Undisturbed json) (.opened sys) acts →
        delivered id w + tokensLeft id w.system.db ≤
          1 + StepRun.total (step prices) (uncharged id) sys (acts.filterMap Act.applied)) ∧
      (StepRun.Along (Service.step prices json) (FindsSongs json) (.opened sys) acts → w.Drained →
        1 + StepRun.total (step prices) (uncharged id) sys (acts.filterMap Act.applied) ≤
          delivered id w + tokensLeft id w.system.db) := by
  rw [← orders_balanced h₀ htoken hrun hnone]
  constructor
  · intro hclean
    have hle := delivered_le id hrun hclean
    omega
  · intro hsongs hdrained
    have hle := le_delivered id hrun hsongs hdrained
    omega

/-! ### A sample run -/

namespace Sample

/-- A playlist of a new user, and the two jobs behind it. -/
def ordered : List Act :=
  [.application (.request (playlistRequest 1700000000000000 fun _ => false)),
    .execution 0 (.playlist PlaylistPipeline.Sample.playlistAnswers),
    .execution 0 (.create 0 (PlaylistPipeline.Sample.createAnswers (.status 201)))]

/-- The service after some acts from the login on. -/
def servedAfter (acts : List Act) : Service :=
  (StepRun.run (Service.step priceIds PlaylistPipeline.Sample.json) (.opened loggedIn) acts).getD
    (.opened loggedIn)

theorem ordered_undisturbed :
    StepRun.Along (Service.step priceIds PlaylistPipeline.Sample.json)
      (Undisturbed PlaylistPipeline.Sample.json) (.opened loggedIn) ordered := by
  refine ⟨trivial, fun _ _ => ⟨fun _ _ _ _ => by decide, fun _ _ => ⟨fun _ _ => ?_, ?_⟩⟩⟩
  · intro _ _ _ _ _ _
    rfl
  · exact fun _ _ => trivial

theorem ordered_findsSongs :
    StepRun.Along (Service.step priceIds PlaylistPipeline.Sample.json)
      (FindsSongs PlaylistPipeline.Sample.json) (.opened loggedIn) ordered := by
  refine ⟨trivial, fun w hw => ⟨fun _ _ => trivial, fun w' hw' => ⟨fun _ _ => ?_, ?_⟩⟩⟩
  · cases hw
    cases hw'
    intro job hjob
    cases hjob
    exact fun hfound => nomatch hfound
  · exact fun _ _ => trivial

theorem ordered_drained : (servedAfter ordered).Drained := by
  intro k hk
  have hone : (playlistArgs (servedAfter ordered).system.log).length = 1 := rfl
  obtain rfl : k = 0 := by omega
  exact ⟨rfl, List.forall_mem_singleton.mpr rfl⟩

end Sample

/-- The playlist is on Spotify, and it has been ordered. -/
theorem ordered_delivered :
    delivered 0 (Sample.servedAfter Sample.ordered) =
      playlistCount 0 (Sample.servedAfter Sample.ordered).system.log :=
  (playlists_delivered 0 rfl Sample.ordered_undisturbed).2 Sample.ordered_findsSongs
    Sample.ordered_drained

/-- The token is spent, and the playlist is there. -/
theorem ordered_one :
    delivered 0 (Sample.servedAfter Sample.ordered) +
        tokensLeft 0 (Sample.servedAfter Sample.ordered).system.db =
      1 + StepRun.total (step Sample.priceIds) (uncharged 0) Sample.loggedIn
        (Sample.ordered.filterMap Act.applied) := by
  obtain ⟨hmost, hleast⟩ := one_free_playlist Sample.loggedIn_justCreated rfl
    (show StepRun.run (Service.step Sample.priceIds PlaylistPipeline.Sample.json)
      (.opened Sample.loggedIn) Sample.ordered = some (Sample.servedAfter Sample.ordered)
        from rfl) rfl
  exact le_antisymm (hmost Sample.ordered_undisturbed)
    (hleast Sample.ordered_findsSongs Sample.ordered_drained)

end Knoiz
