import Knoiz.Library.Retry
import Knoiz.Library.StepRun
import Knoiz.Workers

/-!
# One playlist request through the two workers

A `Playlist` job hands `Create` jobs in, and Sidekiq reruns whichever job raises, from its
beginning, at most five times.  A step is one execution of one job, with its own answers from
outside.  `Create` makes three writes in a row and records none of them, and it does not look at the
responses: the two results say when that makes a second playlist, and when an empty one.
-/

namespace Knoiz.PlaylistPipeline

open ProgramLogic Retry
open Create (SpotifyPlaylist Track CreatesAndFills foundSongs tracksString)
open Playlist (CreateArgs createJob)

/-- `sidekiq_options retry: 5`, of both workers. -/
def retries : ℕ := 5

/-- The `Playlist` job, the `Create` jobs that it has handed in, and the playlists they have
created. -/
structure Pipeline where
  playlist : Status
  creates : Pool CreateArgs
  spotify : List SpotifyPlaylist

/-- The job is in the queue. -/
def start : Pipeline := ⟨.pending retries, [], []⟩

/-- An execution of the `Playlist` job, or of one of the `Create` jobs. -/
inductive Execution where
  | playlist (a : Playlist.Answers)
  | create (job : ℕ) (a : Create.Answers)

section Model

variable (json : JsonText) (args : Playlist.Args)

/-- One execution, of a job that is pending. -/
def step (p : Pipeline) : Execution → Option Pipeline
  | .playlist a =>
      let perform := Playlist.perform json args a
      (p.playlist.next (raises perform [])).map fun status =>
        { p with
          playlist := status
          creates := p.creates ++ (final perform []).map fun job => (job, .pending retries) }
  | .create k a =>
      match p.creates[k]? with
      | none => none
      | some job =>
          let perform := Create.perform json job.1 a
          (execute k (raises perform p.spotify) p.creates).map fun creates =>
            { p with creates := creates, spotify := final perform p.spotify }

/-- A run of executions, in any order. -/
def run (p : Pipeline) (executions : List Execution) : Option Pipeline :=
  StepRun.run (step json args) p executions

/-! ### The two ways in which an execution goes wrong -/

/-- A `Playlist` execution that gets to its push learns whether the push has worked, and in a
`Create` execution that has created its playlist no later call raises. -/
def Clean (p : Pipeline) : Execution → Prop
  | .playlist a =>
      ∀ job, (createJob json args a : Worker (List CreateArgs) _).run [] = .ok job [] →
        a.performAsync ≠ .unanswered
  | .create k a =>
      ∀ job tracks, p.creates[k]? = some job →
        (foundSongs json job.1 a).run p.spotify = .ok tracks p.spotify → tracks ≠ [] →
        a.createPlaylist ≠ .lost → a.goesThrough = true

/-- A `Create` execution that gets to the end of its search has found a song. -/
def FindsSong (p : Pipeline) : Execution → Prop
  | .playlist _ => True
  | .create k a =>
      ∀ job, p.creates[k]? = some job →
        (foundSongs json job.1 a).run p.spotify ≠ .ok [] p.spotify

end Model

/-! ### Playlists created and still to come -/

/-- The playlists there are, and one for every job that is still pending. -/
def expected (p : Pipeline) : ℕ :=
  p.spotify.length + pendingCount p.creates + if p.playlist.isPending then 1 else 0

/-- How many jobs have been given up. -/
def givenUp (p : Pipeline) : ℕ := deadCount p.creates + if p.playlist.isDead then 1 else 0

section Steps

variable {json : JsonText} {args : Playlist.Args} {p p' : Pipeline}

/-- What one execution does to the playlists and the jobs: it does what it is there for; it finds no
song; it raises and has written nothing; or it raises after it has written. -/
inductive Outcome (json : JsonText) (args : Playlist.Args) (p p' : Pipeline) (e : Execution) : Prop
  | went (hexpected : expected p' = expected p) (hgivenUp : givenUp p' = givenUp p)
      (clean : Clean json args p e)
  | empty (hexpected : expected p' + 1 = expected p) (songs : ¬ FindsSong json p e)
      (clean : Clean json args p e)
  | failed (h : expected p' = expected p ∧ givenUp p' = givenUp p ∨
        expected p' + 1 = expected p ∧ givenUp p' = givenUp p + 1)
      (clean : Clean json args p e)
  | broke (h : expected p' = expected p + 1 ∧ givenUp p' = givenUp p ∨
        expected p' = expected p ∧ givenUp p' = givenUp p + 1)
      (broken : ¬ Clean json args p e)

theorem playlist_outcome {a : Playlist.Answers} (h : step json args p (.playlist a) = some p') :
    Outcome json args p p' (.playlist a) := by
  obtain ⟨status, hstatus, rfl⟩ := Option.map_eq_some_iff.mp h
  obtain ⟨hpending, hdead, hnext⟩ := Status.next_eq_some hstatus
  rcases Playlist.perform_run json args a [] with
    ⟨e, hrun, hlost⟩ | ⟨job, hjob, ⟨hpush, hrun⟩ | ⟨hpush, e, hrun⟩⟩
  · -- raised before the push, or in it and without effect
    have hclean : Clean json args p (.playlist a) := by
      intro job hjob
      rw [hlost job hjob]
      decide
    rw [raises_of_error hrun] at hnext
    refine .failed ?_ hclean
    simp only [expected, givenUp, final_of_error hrun, List.map_nil, List.append_nil, hpending,
      hdead]
    rcases hnext with ⟨hp, hd⟩ | ⟨hp, hd⟩
    · exact .inl (by simp [hp, hd])
    · exact .inr (by simp [hp, hd])
  · -- handed in
    have hclean : Clean json args p (.playlist a) := by
      intro _ _
      rw [hpush]
      decide
    rw [raises_of_ok hrun] at hnext
    have hp : status.isPending = false := congrArg Status.isPending hnext
    have hd : status.isDead = false := congrArg Status.isDead hnext
    refine .went ?_ ?_ hclean
    · simp only [expected, final_of_ok hrun, List.nil_append, List.map_cons, List.map_nil,
        pendingCount_concat, hpending, hp]
      simp
      omega
    · simp only [givenUp, final_of_ok hrun, List.nil_append, List.map_cons, List.map_nil,
        deadCount_concat, hdead, hd]
  · -- handed in, and the answer lost
    have hbroken : ¬ Clean json args p (.playlist a) := fun hclean => hclean job hjob hpush
    rw [raises_of_error hrun] at hnext
    refine .broke ?_ hbroken
    simp only [expected, givenUp, final_of_error hrun, List.nil_append, List.map_cons,
      List.map_nil, pendingCount_concat, deadCount_concat, hpending, hdead]
    rcases hnext with ⟨hp, hd⟩ | ⟨hp, hd⟩
    · refine .inl ⟨?_, by simp [hd]⟩
      simp [hp]
      omega
    · refine .inr ⟨?_, by simp [hd]⟩
      simp [hp]
      omega

theorem create_outcome {k : ℕ} {a : Create.Answers}
    (h : step json args p (.create k a) = some p') :
    Outcome json args p p' (.create k a) := by
  cases hjob : p.creates[k]? with
  | none =>
      simp only [step, hjob] at h
      cases h
  | some job =>
    simp only [step, hjob] at h
    obtain ⟨creates, hcreates, rfl⟩ := Option.map_eq_some_iff.mp h
    have hclean : ∀ tracks, (foundSongs json job.1 a).run p.spotify = .ok tracks p.spotify →
        (Clean json args p (.create k a) ↔
          (tracks ≠ [] → a.createPlaylist ≠ .lost → a.goesThrough = true)) := by
      intro tracks hfound
      constructor
      · exact fun hclean => hclean job tracks hjob hfound
      · intro hthrough job' tracks' hjob' hfound'
        cases hjob.symm.trans hjob'
        cases hfound.symm.trans hfound'
        exact hthrough
    rcases Create.perform_run json job.1 a p.spotify with
      ⟨e, hrun, hfound⟩ | ⟨tracks, hfound, ⟨hnil, hrun⟩ | ⟨hne, hfills⟩⟩
    · -- raised before the end of the search
      have hvacuous : Clean json args p (.create k a) := by
        intro job' tracks hjob' hfound'
        cases hjob.symm.trans hjob'
        cases hfound.symm.trans hfound'
      rw [raises_of_error hrun] at hcreates
      refine .failed ?_ hvacuous
      simp only [expected, givenUp, final_of_error hrun]
      rcases execute_raised hcreates with ⟨hp, hd⟩ | ⟨hp, hd⟩
      · exact .inl ⟨by rw [hp], by rw [hd]⟩
      · exact .inr ⟨by omega, by omega⟩
    · -- returned without any song
      rw [raises_of_ok hrun] at hcreates
      obtain ⟨hp, -⟩ := execute_returned hcreates
      refine .empty ?_ (fun hsongs => hsongs job hjob ?_) ((hclean tracks hfound).mpr ?_)
      · simp only [expected, final_of_ok hrun]
        omega
      · rw [hfound, hnil]
      · exact fun hne => absurd hnil hne
    · -- gone on to the playlist
      generalize hresult : (Create.perform json job.1 a).run p.spotify = result at hfills
      cases hfills with
      | lost e hlost =>
          rw [raises_of_error hresult] at hcreates
          refine .failed ?_ ((hclean tracks hfound).mpr fun _ hnot => absurd hlost hnot)
          simp only [expected, givenUp, final_of_error hresult]
          rcases execute_raised hcreates with ⟨hp, hd⟩ | ⟨hp, hd⟩
          · exact .inl ⟨by rw [hp], by rw [hd]⟩
          · exact .inr ⟨by omega, by omega⟩
      | broken e playlist hcreated hbroken =>
          rw [raises_of_error hresult] at hcreates
          refine .broke ?_ fun h => ?_
          · simp only [expected, givenUp, final_of_error hresult, List.length_append,
              List.length_singleton]
            rcases execute_raised hcreates with ⟨hp, hd⟩ | ⟨hp, hd⟩
            · exact .inl ⟨by omega, by omega⟩
            · exact .inr ⟨by omega, by omega⟩
          · have hthrough := (hclean tracks hfound).mp h hne hcreated
            rw [hbroken] at hthrough
            cases hthrough
      | through playlist hthrough htracks =>
          rw [raises_of_ok hresult] at hcreates
          obtain ⟨hp, hd⟩ := execute_returned hcreates
          refine .went ?_ ?_ ((hclean tracks hfound).mpr fun _ _ => hthrough)
          · simp only [expected, final_of_ok hresult, List.length_append, List.length_singleton]
            omega
          · simp only [givenUp, hd]

theorem step_outcome {e : Execution} (h : step json args p e = some p') :
    Outcome json args p p' e := by
  cases e with
  | playlist a => exact playlist_outcome h
  | create k a => exact create_outcome h

end Steps

/-! ### At most one playlist -/

section Runs

variable {json : JsonText} {args : Playlist.Args} {p p' : Pipeline}

/-- Without a mishap no playlist is expected on top of the one. -/
theorem expected_step {e : Execution} (hp : expected p ≤ 1) (hclean : Clean json args p e)
    (h : step json args p e = some p') : expected p' ≤ 1 := by
  cases step_outcome h with
  | went hexpected => omega
  | empty hexpected => omega
  | failed h =>
      rcases h with ⟨h, -⟩ | ⟨h, -⟩
      · omega
      · omega
  | broke _ broken => exact absurd hclean broken

/-- What is expected and what has been given up, together, only grow, and a mishap makes them
grow. -/
theorem total_step {e : Execution} (hsong : FindsSong json p e)
    (h : step json args p e = some p') :
    expected p + givenUp p ≤ expected p' + givenUp p' ∧
      (¬ Clean json args p e → expected p + givenUp p < expected p' + givenUp p') := by
  cases step_outcome h with
  | went hexpected hgivenUp clean => exact ⟨by omega, fun h => absurd clean h⟩
  | empty _ songs => exact absurd hsong songs
  | failed h clean =>
      refine ⟨?_, fun h => absurd clean h⟩
      rcases h with ⟨hp, hd⟩ | ⟨hp, hd⟩
      · omega
      · omega
  | broke h broken =>
      have hlt : expected p + givenUp p < expected p' + givenUp p' := by
        rcases h with ⟨hp, hd⟩ | ⟨hp, hd⟩
        · omega
        · omega
      exact ⟨hlt.le, fun _ => hlt⟩

/-- Every job has returned. -/
def Over (p : Pipeline) : Prop := p.playlist = .done ∧ ∀ job ∈ p.creates, job.2 = .done

theorem Over.total (h : Over p) : expected p + givenUp p = p.spotify.length := by
  have hpending : pendingCount p.creates = 0 := by
    refine List.countP_eq_zero.mpr fun job hjob => ?_
    rw [h.2 job hjob]
    decide
  have hdead : deadCount p.creates = 0 := by
    refine List.countP_eq_zero.mpr fun job hjob => ?_
    rw [h.2 job hjob]
    decide
  unfold expected givenUp
  rw [hpending, hdead, h.1]
  rfl

/-- **One request, one playlist.**  In every run of a `Playlist` job and the `Create` jobs behind it,
with any answers, there is at most one playlist as long as nothing raises behind a write; and when
every job ends by returning and no search comes back empty, at most one playlist means that nothing
has raised behind a write. -/
theorem one_playlist_iff {executions : List Execution}
    (hrun : run json args start executions = some p) :
    (StepRun.Along (step json args) (Clean json args) start executions → p.spotify.length ≤ 1) ∧
      (Over p → StepRun.Along (step json args) (FindsSong json) start executions →
        p.spotify.length ≤ 1 →
        StepRun.Along (step json args) (Clean json args) start executions) := by
  constructor
  · intro hclean
    have hexpected : expected p ≤ 1 :=
      StepRun.run_invariant_along (I := fun p => expected p ≤ 1)
        (fun _ _ _ hp hg hstep => expected_step hp hg hstep) le_rfl hclean hrun
    unfold expected at hexpected
    omega
  · intro hover hsongs hone
    refine StepRun.along_of_unmarked (I := fun p => 1 ≤ expected p + givenUp p)
      (M := fun p => 2 ≤ expected p + givenUp p) ?_ ?_ ?_ le_rfl hsongs hrun ?_
    · intro m e m' hm hsong _ hstep
      exact hm.trans (total_step hsong hstep).1
    · intro m e m' hm hsong hbroken hstep
      have hlt := (total_step hsong hstep).2 hbroken
      omega
    · intro m e m' hm hsong hstep
      exact hm.trans (total_step hsong hstep).1
    · rw [hover.total]
      omega

end Runs

/-! ### No empty playlist -/

section Fill

variable (json : JsonText)

/-- A `Create` execution that has found songs and returns has created a playlist with their tracks,
in order. -/
def Filled (p : Pipeline) : Execution → Prop
  | .playlist _ => True
  | .create k a =>
      ∀ job tracks playlists, p.creates[k]? = some job →
        (foundSongs json job.1 a).run p.spotify = .ok tracks p.spotify → tracks ≠ [] →
        (Create.perform json job.1 a).run p.spotify = .ok () playlists →
        ∃ playlist, playlists = p.spotify ++ [playlist] ∧
          playlist.tracks = tracks.map Track.uri

/-- In a `Create` execution that has found songs, and in which no later call raises, the POST of the
tracks is answered with a 2xx status. -/
def PostAccepted (p : Pipeline) : Execution → Prop
  | .playlist _ => True
  | .create k a =>
      ∀ job tracks, p.creates[k]? = some job →
        (foundSongs json job.1 a).run p.spotify = .ok tracks p.spotify → tracks ≠ [] →
        a.goesThrough = true → a.postTracks.accepted = true

variable {json}

theorem filled_iff_postAccepted (p : Pipeline) (e : Execution) :
    Filled json p e ↔ PostAccepted json p e := by
  cases e with
  | playlist a => exact Iff.rfl
  | create k a =>
      constructor
      · intro hfilled job tracks hjob hfound hne hthrough
        rcases Create.perform_run json job.1 a p.spotify with
          ⟨e, -, hfound'⟩ | ⟨tracks', hfound', ⟨hnil, -⟩ | ⟨-, hfills⟩⟩
        · cases hfound.symm.trans hfound'
        · cases hfound.symm.trans hfound'
          exact absurd hnil hne
        · cases hfound.symm.trans hfound'
          generalize hresult : (Create.perform json job.1 a).run p.spotify = result at hfills
          cases hfills with
          | lost e hlost =>
              unfold Create.Answers.goesThrough at hthrough
              rw [hlost] at hthrough
              cases hthrough
          | broken e playlist _ hbroken =>
              rw [hbroken] at hthrough
              cases hthrough
          | through playlist _ htracks =>
              obtain ⟨playlist', hplaylists, htracks'⟩ :=
                hfilled job tracks _ hjob hfound hne hresult
              have hsame : playlist = playlist' :=
                List.singleton_inj.mp (List.append_cancel_left hplaylists)
              subst hsame
              cases haccepted : a.postTracks.accepted with
              | true => rfl
              | false =>
                  rw [haccepted, htracks'] at htracks
                  exact absurd (List.map_eq_nil_iff.mp htracks) hne
      · intro hpost job tracks playlists hjob hfound hne hrun
        rcases Create.perform_run json job.1 a p.spotify with
          ⟨e, hrun', -⟩ | ⟨tracks', hfound', ⟨hnil, -⟩ | ⟨-, hfills⟩⟩
        · cases hrun.symm.trans hrun'
        · cases hfound.symm.trans hfound'
          exact absurd hnil hne
        · cases hfound.symm.trans hfound'
          rw [hrun] at hfills
          cases hfills with
          | through playlist hthrough htracks =>
              refine ⟨playlist, rfl, ?_⟩
              rw [htracks, hpost job tracks hjob hfound hne hthrough, if_pos rfl]
              exact Create.urisOf_tracksString hne

/-- **No silent empty playlist, exactly.**  In every run of the pipeline, every `Create` execution
that returns has filled the playlist it has created, if and only if the POST of every such execution
is answered with a 2xx status. -/
theorem playlists_filled_iff (args : Playlist.Args) (executions : List Execution) :
    StepRun.Along (step json args) (Filled json) start executions ↔
      StepRun.Along (step json args) (PostAccepted json) start executions :=
  ⟨StepRun.Along.imp fun p e => (filled_iff_postAccepted p e).mp,
    StepRun.Along.imp fun p e => (filled_iff_postAccepted p e).mpr⟩

end Fill

/-! ### Two runs -/

namespace Sample

def content (text : String) : Json :=
  .object [("choices", .array [.object [("message", .object [("content", .string text)])]])]

def titleBody : String :=
  "\x7b\"choices\":[\x7b\"message\":\x7b\"content\":\"Mix\"\x7d\x7d]\x7d"

def songsBody : String :=
  "\x7b\"choices\":[\x7b\"message\":\x7b\"content\":\"[\x7b\\\"Track\\\":\\\"Song\\\"\x7d]\"\x7d\x7d]\x7d"

def tracksText : String := "[\x7b\"Track\":\"Song\"\x7d]"

/-- JSON on the texts of the sample runs. -/
def json : JsonText where
  parse text :=
    if text = titleBody then some (content "Mix")
    else if text = songsBody then some (content tracksText)
    else if text = tracksText then some (.array [.object [("Track", .string "Song")]])
    else if text = "[\"Song\"]" then some (.array [.string "Song"])
    else none
  generate _ := "[\"Song\"]"

def args : Playlist.Args := ⟨"a song", some ⟨"ada", some "Ada", some [], none⟩, 0⟩

def playlistAnswers : Playlist.Answers :=
  ⟨fun _ => false, fun _ => some titleBody, fun _ => some songsBody, .answered⟩

def track : Track := ⟨"6rqhFgbbKwnb9MLmUQDhG6", List.all_eq_true.mp rfl⟩

/-- One search that finds a track, and a POST that is answered with `reply`. -/
def createAnswers (reply : Reply) : Create.Answers :=
  ⟨fun _ => false, some, fun _ _ => some [track], .answered, reply, .status 202⟩

/-- The title is not answered, and Sidekiq reruns the `Playlist` job; then the search raises, and it
reruns the `Create` job. -/
def undisturbed : List Execution :=
  [.playlist { playlistAnswers with title := fun _ => none }, .playlist playlistAnswers,
    .create 0 { createAnswers (.status 201) with search := fun _ _ => none },
    .create 0 (createAnswers (.status 201))]

/-- The POST of the tracks gets no response, and Sidekiq reruns the `Create` job. -/
def lostResponse : List Execution :=
  [.playlist playlistAnswers, .create 0 (createAnswers (.noResponse false)),
    .create 0 (createAnswers (.status 201))]

/-- The state after some executions. -/
def after (executions : List Execution) : Pipeline :=
  (run json args start executions).getD start

/-- The `Create` job of the sample runs. -/
def job : CreateArgs × Status :=
  (⟨"[\"Song\"]", some ⟨"ada", some "Ada", some [], none⟩, 0, "Mix"⟩, .pending retries)

end Sample

/-- Executions that raise before their write, and are rerun, make no second playlist. -/
theorem undisturbed_one : (Sample.after Sample.undisturbed).spotify.length ≤ 1 := by
  have hrun : run Sample.json Sample.args start Sample.undisturbed =
      some (Sample.after Sample.undisturbed) := rfl
  refine (one_playlist_iff hrun).1 ⟨fun _ _ => by decide, fun m hm => ⟨fun _ _ => by decide,
    fun m' hm' => ⟨?_, fun _ _ => ⟨fun _ _ _ _ _ _ => rfl, fun _ _ => trivial⟩⟩⟩⟩
  cases hm
  cases hm'
  intro job tracks hjob hfound
  cases hjob
  cases hfound

/-- A lost response and a rerun make two playlists for one request. -/
theorem two_playlists :
    ¬ ∀ (json : JsonText) (args : Playlist.Args) (executions : List Execution) (p : Pipeline),
      run json args start executions = some p → p.spotify.length ≤ 1 := by
  intro h
  have hone := h Sample.json Sample.args Sample.lostResponse (Sample.after Sample.lostResponse) rfl
  have htwo : (Sample.after Sample.lostResponse).spotify.length = 2 := rfl
  rw [htwo] at hone
  exact absurd hone (by decide)

/-- A POST that is answered with 401 leaves the playlist empty, and the job returns. -/
theorem playlist_left_empty :
    ¬ ∀ (json : JsonText) (args : Playlist.Args) (executions : List Execution),
      StepRun.Along (step json args) (Filled json) start executions := by
  intro h
  obtain ⟨-, hrest⟩ := h Sample.json Sample.args
    [.playlist Sample.playlistAnswers, .create 0 (Sample.createAnswers (.status 401))]
  obtain ⟨hfilled, -⟩ := hrest (Sample.after [.playlist Sample.playlistAnswers]) rfl
  obtain ⟨playlist, hplaylists, htracks⟩ := hfilled Sample.job [Sample.track]
    [⟨"Knoiz | Mix", [], true⟩] rfl rfl (List.cons_ne_nil _ _) rfl
  cases hplaylists
  cases htracks

end Knoiz.PlaylistPipeline
