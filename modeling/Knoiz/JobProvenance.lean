import Knoiz.Authentication
import Knoiz.Permits

/-!
# Where a job comes from

A Sidekiq job names a user and carries the Spotify data with which it will act.  Every job in the
log was enqueued by one request: in the name of the user as whom the request ran, with the squished
text that the request posted, and with Spotify data of the account that the session held.  Where the
sessions are coherent this account is the user's own.
-/

namespace Knoiz

open ProgramLogic Relation RowTable

/-- Data of the account of which there were data before. -/
def SameAccount (old new : Option SpotifyUser) : Prop :=
  ∀ data, new = some data → ∃ data', old = some data' ∧ data.id = data'.id

theorem SameAccount.refl (data : Option SpotifyUser) : SameAccount data data :=
  fun d hd => ⟨d, hd, rfl⟩

theorem SameAccount.trans {a b c : Option SpotifyUser} (h : SameAccount a b)
    (h' : SameAccount b c) : SameAccount a c := by
  intro d hd
  obtain ⟨d', hd', hid⟩ := h' d hd
  obtain ⟨d'', hd'', hid'⟩ := h d' hd'
  exact ⟨d'', hd'', hid.trans hid'⟩

/-- The job is one that a request may enqueue in this state. -/
structure Issued (s : Ctx) (job : Job) : Prop where
  user : s.currentUser = some job.user
  text : ∀ text data user, job = .playlist text data user →
    ∃ raw, s.route = .createPlaylist (some raw) ∧ text = HomeController.squish raw
  data : RebuildsAccount s.env → SameAccount s.session.spotifyUserData job.spotifyUserData

/-- The jobs enqueued between two states of a request are issued in the first of them. -/
structure Hands (s t : Ctx) : Prop where
  currentUser : t.currentUser = s.currentUser
  route : t.route = s.route
  env : t.env = s.env
  clock : s.clock ≤ t.clock
  data : RebuildsAccount s.env → SameAccount s.session.spotifyUserData t.session.spotifyUserData
  log : ∃ l, t.log = s.log ++ l ∧ ∀ job time, Event.enqueued job time ∈ l →
    Issued s job ∧ s.clock ≤ time ∧ time ≤ t.clock

variable {s t : Ctx}

/-- Nothing has been enqueued. -/
theorem Hands.of_log (huser : t.currentUser = s.currentUser) (hroute : t.route = s.route)
    (henv : t.env = s.env) (hclock : s.clock ≤ t.clock)
    (hdata : t.session.spotifyUserData = s.session.spotifyUserData) (hlog : t.log = s.log) :
    Hands s t := by
  refine ⟨huser, hroute, henv, hclock, fun _ => ?_, [], by simp [hlog], fun _ _ h => nomatch h⟩
  rw [hdata]
  exact SameAccount.refl _

theorem Hands.trans {m : Ctx} (h : Hands s m) (h' : Hands m t) : Hands s t := by
  obtain ⟨l, hl, hjobs⟩ := h.log
  obtain ⟨l', hl', hjobs'⟩ := h'.log
  refine ⟨h'.currentUser.trans h.currentUser, h'.route.trans h.route, h'.env.trans h.env,
    h.clock.trans h'.clock, fun hr => (h.data hr).trans (h'.data (h.env ▸ hr)), l ++ l', ?_, ?_⟩
  · rw [hl', hl, List.append_assoc]
  · intro job time hmem
    rcases List.mem_append.mp hmem with hmem | hmem
    · obtain ⟨hissued, hle, hle'⟩ := hjobs job time hmem
      exact ⟨hissued, hle, hle'.trans h'.clock⟩
    · obtain ⟨hissued, hle, hle'⟩ := hjobs' job time hmem
      refine ⟨⟨h.currentUser ▸ hissued.user, h.route ▸ hissued.text, fun hr => ?_⟩,
        h.clock.trans hle, hle'⟩
      exact (h.data hr).trans (hissued.data (h.env ▸ hr))

/-- A job enqueued now is issued now. -/
theorem Issues.issued {job : Job} (h : Issues s job) : Issued s job := by
  refine ⟨h.user, h.text, fun _ => ?_⟩
  rw [h.data]
  exact SameAccount.refl _

instance : Permits Hands where
  refl s := Hands.of_log rfl rfl rfl le_rfl rfl rfl
  trans _ _ _ := Hands.trans
  quiet h := Hands.of_log h.currentUser h.route h.env h.clock (by rw [h.session]) h.log
  noted s e he := by
    refine ⟨rfl, rfl, rfl, le_rfl, fun _ => SameAccount.refl _, [e], rfl, fun job time hmem => ?_⟩
    exact absurd (List.mem_singleton.mp hmem).symm (he job time)
  enqueued h := by
    refine ⟨rfl, rfl, rfl, le_rfl, fun _ => SameAccount.refl _, [_], rfl, fun job' time hmem => ?_⟩
    cases List.mem_singleton.mp hmem
    exact ⟨h.issued, le_rfl, le_rfl⟩
  rebuilt hold hnew := by
    refine ⟨rfl, rfl, rfl, le_rfl, fun hr data hdata => ⟨_, hold, ?_⟩, [], by simp,
      fun _ _ h => nomatch h⟩
    cases hdata
    exact hr _ _ hnew
  stored _ _ _ := Hands.of_log rfl rfl rfl le_rfl rfl rfl
  checkout _ := Hands.of_log rfl rfl rfl le_rfl rfl rfl

/-! ### Requests -/

theorem Checked.hands (h : Checked s t) : Hands s t := by
  have hnoted : ∀ (m : Ctx) {e : Event}, (∀ job time, e ≠ .enqueued job time) →
      Hands m { m with log := m.log ++ [e] } := Permits.noted
  cases h with
  | skipped => exact Hands.of_log rfl rfl rfl le_rfl rfl rfl
  | @live m id row hq => exact (Permits.quiet hq : Hands s m).trans (hnoted m fun _ _ => nofun)
  | @cleared m id row hq =>
      have hdb : Hands m { m with db := m.db.amendSubscription id Subscription.deactivated } :=
        Hands.of_log rfl rfl rfl le_rfl rfl rfl
      exact (Permits.quiet hq : Hands s m).trans (hdb.trans (hnoted _ fun _ _ => nofun))

/-- Nothing has been recorded. -/
structure Silent (s t : Ctx) : Prop where
  log : t.log = s.log
  clock : s.clock ≤ t.clock

instance : Registers Silent where
  refl _ := ⟨rfl, le_rfl⟩
  trans _ _ _ h h' := ⟨h'.log.trans h.log, h.clock.trans h'.clock⟩
  quiet h := ⟨h.log, h.clock⟩
  stored _ _ _ := ⟨rfl, le_rfl⟩
  session _ _ := ⟨rfl, le_rfl⟩

/-- The jobs enqueued since are issued in the first state; login and logout change its session. -/
structure Logged (s t : Ctx) : Prop where
  clock : s.clock ≤ t.clock
  log : ∃ l, t.log = s.log ++ l ∧ ∀ job time, Event.enqueued job time ∈ l →
    Issued s job ∧ s.clock ≤ time ∧ time ≤ t.clock

theorem Hands.logged (h : Hands s t) : Logged s t := ⟨h.clock, h.log⟩

theorem Logged.then_silent {m : Ctx} (h : Logged s m) (h' : Silent m t) : Logged s t := by
  obtain ⟨l, hl, hjobs⟩ := h.log
  refine ⟨h.clock.trans h'.clock, l, h'.log.trans hl, fun job time hmem => ?_⟩
  obtain ⟨hissued, hle, hle'⟩ := hjobs job time hmem
  exact ⟨hissued, hle, hle'.trans h'.clock⟩

theorem Hands.then_logged {m : Ctx} (h : Hands s m) (h' : Logged m t) : Logged s t := by
  -- a job issued in `m` is issued in `s`: as for two relations `Hands` in a row
  obtain ⟨l', hl', hjobs'⟩ := h'.log
  have htail : Hands m { m with log := m.log ++ l', clock := t.clock } :=
    ⟨rfl, rfl, rfl, h'.clock, fun _ => SameAccount.refl _, l', rfl, hjobs'⟩
  obtain ⟨l, hl, hjobs⟩ := (h.trans htail).log
  exact ⟨h.clock.trans h'.clock, l, hl'.trans hl, hjobs⟩

variable {prices : PaymentsController.Prices} {sys sys' : System} {r : Request}

theorem dispatch_logged (prices : PaymentsController.Prices) (route : Route) (s : Ctx) :
    Logged s (final (dispatch prices route) s) := by
  cases hr : route.isLogin with
  | false =>
      have hhands : Within Hands (dispatch prices route) := permits_dispatch hr
      exact (hhands.final s).logged
  | true =>
      have hrefl : Hands s s := Hands.of_log rfl rfl rfl le_rfl rfl rfl
      have hlogin : Silent s (final (dispatch prices route) s) := by
        cases route with
        | authCallback => exact SessionsController.registers_create.final s
        | logout => exact SessionsController.registers_destroy.final s
        | _ => cases hr
      exact hrefl.logged.then_silent hlogin

theorem afterCheck_logged (prices : PaymentsController.Prices) (route : Route) (s : Ctx) :
    Logged s (final (afterCheck prices route) s) := by
  have hfilters : Within Hands (do refreshSpotifyAccessToken; collectStats : Action Unit) :=
    Within.bind permits_refreshSpotifyAccessToken fun _ => permits_collectStats
  have hs := hfilters.final s
  rw [afterCheck_eq]
  cases hf : (do refreshSpotifyAccessToken; collectStats : Action Unit).run s with
  | error e m =>
      rw [final_of_error hf] at hs
      rw [final_bind_error hf]
      exact hs.logged
  | ok _ m =>
      rw [final_of_ok hf] at hs
      rw [final_bind_ok hf]
      refine hs.then_logged ?_
      have hm := dispatch_logged prices route m
      cases hd : (dispatch prices route).run m with
      | error e t =>
          rw [final_of_error hd] at hm
          rw [final_bind_error hd]
          exact hm
      | ok _ t =>
          rw [final_of_ok hd] at hm
          rw [final_bind_ok hd]
          have hpage := quiet_renderPage t
          exact hm.then_silent ⟨hpage.log, hpage.clock⟩

/-- **One request.**  The jobs that it enqueues are those of the user as whom it runs. -/
theorem serve_logged (prices : PaymentsController.Prices) (sys : System) (r : Request) :
    ∃ l, (serve prices sys r).log = sys.log ++ l ∧ ∀ job time, Event.enqueued job time ∈ l →
      Issued (sys.start r).identified job ∧ sys.clock ≤ time ∧
        time ≤ (serve prices sys r).clock := by
  have hserved : Served (fun _ t => Logged (sys.start r).identified t) (sys.start r).identified
      (final (process prices r.route) (sys.start r)) :=
    process_served fun m hc => hc.hands.then_logged (afterCheck_logged prices r.route m)
  have hlogged : Logged (sys.start r).identified
      (final (process prices r.route) (sys.start r)) := by
    cases hserved with
    | stopped hq => exact (Allows.quiet hq : Hands _ _).logged
    | passed _ hrest => exact hrest
  have hserver : (serve prices sys r).toServer = _ := serve_server sys r
  rw [congrArg Server.log hserver, congrArg Server.clock hserver]
  exact hlogged.log

/-- **Provenance.**  Every job in the log has been enqueued by a request of the run: it names the
user as whom the request ran, and carries the request's text and data of the session's account. -/
theorem job_issued {sys₀ : System} {steps : List Step} {job : Job} {time : ℤ}
    (hrun : StepRun.run (step prices) sys₀ steps = some sys)
    (h₀ : Event.enqueued job time ∉ sys₀.log) (hjob : Event.enqueued job time ∈ sys.log) :
    ∃ pre r post m, steps = pre ++ .request r :: post ∧
      StepRun.run (step prices) sys₀ pre = some m ∧ Issued (m.start r).identified job ∧
      m.clock ≤ time ∧ time ≤ (serve prices m r).clock := by
  obtain ⟨pre, a, post, m, m', rfl, hpre, ha, ⟨r, rfl, hissued⟩, -⟩ :=
    StepRun.exists_origin (Q := fun sys : System => Event.enqueued job time ∈ sys.log)
      (P := fun sys a sys' => ∃ r, a = .request r ∧ Issued (sys.start r).identified job ∧
        sys.clock ≤ time ∧ time ≤ sys'.clock)
      (fun sys a sys' hstep hq => by
        cases a with
        | request r =>
            cases hstep
            obtain ⟨l, hl, hjobs⟩ := serve_logged prices sys r
            rw [hl] at hq
            exact (List.mem_append.mp hq).imp_right fun hmem => ⟨r, rfl, hjobs job time hmem⟩
        | payment | statsJob =>
            cases hstep
            exact .inl hq)
      h₀ hrun hjob
  cases ha
  exact ⟨pre, r, post, m, rfl, hpre, hissued.1, hissued.2⟩

/-- The Spotify data of the new jobs are of their users' accounts. -/
def JobsOwn (sys₀ sys : System) : Prop :=
  ∀ job time, Event.enqueued job time ∈ sys.log → Event.enqueued job time ∉ sys₀.log →
    ∀ data, job.spotifyUserData = some data → sys.accountOf job.user = some data.id

theorem serve_jobsOwn {sys₀ : System} (h : JobsOwn sys₀ sys) (hcookies : CookiesCoherent sys)
    (hr : RebuildsAccount r.env) : JobsOwn sys₀ (serve prices sys r) := by
  intro job time hmem h₀ data hdata
  obtain ⟨l, hl, hjobs⟩ := serve_logged prices sys r
  rw [hl] at hmem
  rcases List.mem_append.mp hmem with hmem | hmem
  · exact accountOf_extends (h job time hmem h₀ data hdata) (serve_extends sys r)
  · obtain ⟨⟨huser, -, hsame⟩, -⟩ := hjobs job time hmem
    obtain ⟨old, hold, hid⟩ := hsame hr data hdata
    obtain ⟨uid, huid, hfound⟩ := Option.bind_eq_some_iff.mp huser
    obtain ⟨user, huser', hstored⟩ := coherent_sessionOf hcookies r uid huid
    -- the user as whom the request runs is the one that the session names
    have hjobuser : job.user = uid := by
      obtain ⟨u, hu, hu'⟩ := Option.map_eq_some_iff.mp hfound
      rw [← hu']
      exact Users.id_of_findById hu
    have haccount : sys.accountOf job.user = some data.id := by
      rw [System.accountOf, hjobuser, huser', Option.map_some, hstored old hold, hid]
    exact accountOf_extends haccount (serve_extends sys r)

/-- **Jobs act on their user's account.**  In every run whose logins keep the sessions coherent, the
Spotify data of every job enqueued are of the account stored for the job's user. -/
theorem jobs_own_account {sys₀ : System} {steps : List Step} (h₀ : CookiesCoherent sys₀)
    (hrebuild : ∀ r, Step.request r ∈ steps → RebuildsAccount r.env)
    (hguard : StepRun.Along (step prices) FailsNotBetween sys₀ steps)
    (hrun : StepRun.run (step prices) sys₀ steps = some sys) :
    ∀ job time, Event.enqueued job time ∈ sys.log → Event.enqueued job time ∉ sys₀.log →
      ∀ data, job.spotifyUserData = some data → sys.accountOf job.user = some data.id := by
  have hinv : CookiesCoherent sys ∧ JobsOwn sys₀ sys := by
    refine StepRun.run_invariant_along (I := fun sys => CookiesCoherent sys ∧ JobsOwn sys₀ sys)
      (fun sys a sys' hs hg hstep => ?_) ⟨h₀, fun _ _ hmem hnot => absurd hmem hnot⟩
      (hguard.and_labels (request_labels hrebuild)) hrun
    cases a with
    | request r =>
        cases hstep
        exact ⟨serve_coherent hs.1 (hg.2 r rfl) hg.1, serve_jobsOwn hs.2 hs.1 (hg.2 r rfl)⟩
    | payment | statsJob =>
        cases hstep
        exact hs
  exact hinv.2

namespace Sample

/-- The job of Ada's first request for a playlist. -/
def adasJob : Job := .playlist (HomeController.squish "90s playlist") (some ada) 0

def firstPlaylist : Step := .request (playlistRequest 1700000000000000 fun _ => false)

/-- The system after the request. -/
def afterFirst : System := (StepRun.run (step priceIds) loggedIn [firstPlaylist]).getD loggedIn

theorem adasJob_enqueued : Event.enqueued adasJob 1700000000000000 ∈ afterFirst.log := by
  have hlog : afterFirst.log = [.checked 0 1700000000000000,
      .enqueued (.stats (some ada) 0) 1700000000000000, .gate 0 false none,
      .enqueued adasJob 1700000000000000, .gate 0 false none] := rfl
  rw [hlog]
  simp

theorem adasJob_new : Event.enqueued adasJob 1700000000000000 ∉ loggedIn.log := by
  show _ ∉ ([] : List Event)
  exact List.not_mem_nil

end Sample

/-- That job goes back to the request. -/
theorem adas_job_issued :
    ∃ pre r post m, [Sample.firstPlaylist] = pre ++ .request r :: post ∧
      StepRun.run (step Sample.priceIds) Sample.loggedIn pre = some m ∧
      Issued (m.start r).identified Sample.adasJob ∧ m.clock ≤ 1700000000000000 ∧
      1700000000000000 ≤ (serve Sample.priceIds m r).clock :=
  job_issued rfl Sample.adasJob_new Sample.adasJob_enqueued

/-- And it acts on Ada's account. -/
theorem adas_job_own : Sample.afterFirst.accountOf 0 = some "ada" := by
  have hcookies : CookiesCoherent Sample.loggedIn := by
    have hempty : CookiesCoherent System.initial := fun _ _ huid => nomatch huid
    have hlogin : FailsNotBetween System.initial (Sample.login Sample.ada fun _ => false) := by
      intro _ account haccount
      cases haccount
      exact .inr (.inl (Sample.not_failsBetween _ _ (by decide) fun id h => nomatch h))
    exact serve_coherent hempty (fun old new hnew => by cases hnew; rfl) hlogin
  have hrebuild : ∀ r, Step.request r ∈ [Sample.firstPlaylist] → RebuildsAccount r.env := by
    intro r hr old new hnew
    simp only [Sample.firstPlaylist, List.mem_cons, Step.request.injEq, List.not_mem_nil,
      or_false] at hr
    subst hr
    cases hnew
    rfl
  have hguard : StepRun.Along (step Sample.priceIds) FailsNotBetween Sample.loggedIn
      [Sample.firstPlaylist] := ⟨fun h => (nomatch h), fun _ _ => trivial⟩
  have hrun : StepRun.run (step Sample.priceIds) Sample.loggedIn [Sample.firstPlaylist] =
      some Sample.afterFirst := rfl
  exact jobs_own_account hcookies hrebuild hguard hrun Sample.adasJob _ Sample.adasJob_enqueued
    Sample.adasJob_new Sample.ada rfl

end Knoiz
