import Mathlib.Data.List.Sort
import Mathlib.Data.List.ReduceOption
import Knoiz.Library.Tally
import Knoiz.Workers

/-!
# The `Stats` worker: the five genres of a listener

`Stats` loads the top tracks of a listener, takes up to three genres of the first artist of each,
counts them, and stores the five that occur most often.  The sort behind the cut at five may order
genres of the same count in any way.
-/

namespace Knoiz.Stats

open ProgramLogic RowTable

/-! ### The worker -/

/-- An artist; `genres` is `none` where the list is missing or cannot be loaded. -/
structure Artist where
  genres : Option (List (Option String))
  deriving DecidableEq, Repr

structure Track where
  artists : List Artist
  deriving DecidableEq, Repr

/-- What one execution of `Stats.perform` is answered.  `saves` is what `save` returns. -/
structure Answers where
  raises : WorkerCall → Bool
  rspotifyUser : SpotifyUser → Option SpotifyUser
  topTracks : Option (List Track)
  saves : Bool

/-- `track.artists.first.genres.take(3)`; `none` where one of the calls raises. -/
def Track.topGenres (track : Track) : Option (List (Option String)) := do
  let artist ← track.artists.head?
  let genres ← artist.genres
  return genres.take 3

/-- `extract_genres_from_tracks`: `flat_map`, then `compact`. -/
def extractGenresFromTracks (topTracks : List Track) : Option (List String) :=
  (topTracks.mapM Track.topGenres).map fun genres => genres.flatten.reduceOption

/-- The block of `sort_by`: `-count`. -/
def byCount (entry : String × ℕ) : ℤ := -(entry.2 : ℤ)

variable (sortBy : SortBy byCount)

/-- `calculate_top_genres`. -/
def calculateTopGenres (genres : List String) : List (String × ℕ) :=
  sortBy.top 5 (Tally.tally genres)

/-- `update_user_data`. -/
def updateUserData (a : Answers) (user : Option ℕ) (topGenres : List (String × ℕ)) :
    Worker Database Unit := do
  let id ← orNoMethod user
  let db ← get
  let _ ← orNoMethod (db.spotifydata.lookup id)
  workerCall a.raises .saveSpotifydata
  if a.saves then
    set (db.amendSpotifydata id fun row => { row with favoriteGenre := topGenres })

/-- `Stats#perform`, over the database. -/
def perform (a : Answers) (spotifyUserContent : Option SpotifyUser) (spotifyUserId : ℕ) :
    Worker Database Unit := do
  workerCall a.raises .findUser
  let db ← get
  let currentUser := (db.users.findById spotifyUserId).map User.id
  match spotifyUserContent.bind a.rspotifyUser, a.topTracks with
  | none, _ => throw (.raised .newSpotifyUser)
  | some _, none => throw (.raised .topTracks)
  | some _, some tempTopTracks =>
      match extractGenresFromTracks tempTopTracks with
      | none => throw (.raised .genres)
      | some tempGenres => updateUserData a currentUser (calculateTopGenres sortBy tempGenres)

/-! ### What an execution does -/

/-- The genres that a track contributes: the first three of its first artist. -/
def Track.listed (track : Track) : List String :=
  (((track.artists.head?.bind Artist.genres).getD []).take 3).reduceOption

theorem Track.listed_of_topGenres {track : Track} {genres : List (Option String)}
    (h : track.topGenres = some genres) : genres.reduceOption = track.listed := by
  unfold topGenres at h
  unfold listed
  cases hartist : track.artists.head? with
  | none =>
      rw [hartist] at h
      cases h
  | some artist =>
      rw [hartist] at h
      cases hgenres : artist.genres with
      | none =>
          rw [Option.bind_eq_bind, Option.bind_some, hgenres] at h
          cases h
      | some gs =>
          rw [Option.bind_eq_bind, Option.bind_some, hgenres] at h
          cases h
          rw [Option.bind_some, hgenres, Option.getD_some]

/-- What is extracted is what the tracks contribute, in their order. -/
theorem extracted_eq {tracks : List Track} {genres : List String}
    (h : extractGenresFromTracks tracks = some genres) : genres = tracks.flatMap Track.listed := by
  induction tracks generalizing genres with
  | nil =>
      cases h
      rfl
  | cons track tracks ih =>
      obtain ⟨lists, hlists, rfl⟩ := Option.map_eq_some_iff.mp h
      rw [List.mapM_cons] at hlists
      obtain ⟨list, hlist, htracks⟩ := Option.bind_eq_some_iff.mp hlists
      obtain ⟨rest, hrest, hpure⟩ := Option.bind_eq_some_iff.mp htracks
      cases hpure
      have htail := ih (Option.map_eq_some_iff.mpr ⟨rest, hrest, rfl⟩)
      rw [List.flatten_cons, List.reduceOption_append, List.flatMap_cons, ← htail,
        Track.listed_of_topGenres hlist]

theorem updateUserData_run {a : Answers} {user : Option ℕ} {top : List (String × ℕ)}
    {db db' : Database} (hrun : (updateUserData a user top).run db = .ok () db') :
    ∃ id row, user = some id ∧ db.spotifydata.lookup id = some row ∧
      db' = if a.saves then db.amendSpotifydata id fun row => { row with favoriteGenre := top }
        else db := by
  unfold updateUserData workerCall orNoMethod at hrun
  cases user with
  | none => cases hrun
  | some id =>
    cases hrow : db.spotifydata.lookup id with
    | none =>
        simp only [EStateM.run_bind, EStateM.run_pure, EStateM.run_get, hrow] at hrun
        cases hrun
    | some row =>
      simp only [EStateM.run_bind, EStateM.run_pure, EStateM.run_get, hrow] at hrun
      refine ⟨id, row, rfl, hrow, ?_⟩
      cases hsave : a.raises .saveSpotifydata with
      | true =>
          rw [hsave] at hrun
          cases hrun
      | false =>
          rw [hsave] at hrun
          cases hsaves : a.saves with
          | true =>
              rw [hsaves] at hrun
              cases hrun
              rfl
          | false =>
              rw [hsaves] at hrun
              cases hrun
              rfl

/-- An execution that returns has stored the top genres of its tracks, unless `save` refused. -/
theorem perform_run {a : Answers} {content : Option SpotifyUser} {id : ℕ} {db db' : Database}
    (hrun : (perform sortBy a content id).run db = .ok () db') :
    ∃ tracks row, a.topTracks = some tracks ∧ db.spotifydata.lookup id = some row ∧
      db' = if a.saves then db.amendSpotifydata id fun row =>
          { row with favoriteGenre := calculateTopGenres sortBy (tracks.flatMap Track.listed) }
        else db := by
  unfold perform workerCall at hrun
  cases hfind : a.raises .findUser with
  | true =>
      rw [hfind] at hrun
      cases hrun
  | false =>
    rw [hfind] at hrun
    cases huser : content.bind a.rspotifyUser with
    | none =>
        rw [huser] at hrun
        cases hrun
    | some user =>
      cases htracks : a.topTracks with
      | none =>
          rw [huser, htracks] at hrun
          cases hrun
      | some tracks =>
        cases hgenres : extractGenresFromTracks tracks with
        | none =>
            simp only [huser, htracks, hgenres] at hrun
            cases hrun
        | some genres =>
          have hlisted := extracted_eq hgenres
          subst hlisted
          simp only [huser, htracks, hgenres, Bool.false_eq_true, if_false, EStateM.run_bind,
            EStateM.run_pure, EStateM.run_get] at hrun
          obtain ⟨id', row, hid', hrow, hdb⟩ := updateUserData_run hrun
          obtain ⟨u, hu, rfl⟩ := Option.map_eq_some_iff.mp hid'
          rw [Users.id_of_findById hu] at hrow hdb
          exact ⟨tracks, row, rfl, hrow, hdb⟩

theorem updateUserData_error {a : Answers} {user : Option ℕ} {top : List (String × ℕ)}
    {db db' : Database} {e : WorkerError} (hrun : (updateUserData a user top).run db = .error e db') :
    db' = db := by
  unfold updateUserData workerCall orNoMethod at hrun
  cases user with
  | none =>
      cases hrun
      rfl
  | some id =>
    cases hrow : db.spotifydata.lookup id with
    | none =>
        simp only [EStateM.run_bind, EStateM.run_pure, EStateM.run_get, hrow] at hrun
        cases hrun
        rfl
    | some row =>
      simp only [EStateM.run_bind, EStateM.run_pure, EStateM.run_get, hrow] at hrun
      cases hsave : a.raises .saveSpotifydata with
      | true =>
          rw [hsave] at hrun
          cases hrun
          rfl
      | false =>
          rw [hsave] at hrun
          cases hsaves : a.saves with
          | true =>
              rw [hsaves] at hrun
              cases hrun
          | false =>
              rw [hsaves] at hrun
              cases hrun

/-- An execution that raises has stored nothing. -/
theorem perform_error {a : Answers} {content : Option SpotifyUser} {id : ℕ} {db db' : Database}
    {e : WorkerError} (hrun : (perform sortBy a content id).run db = .error e db') : db' = db := by
  unfold perform workerCall at hrun
  cases hfind : a.raises .findUser with
  | true =>
      rw [hfind] at hrun
      cases hrun
      rfl
  | false =>
    rw [hfind] at hrun
    cases huser : content.bind a.rspotifyUser with
    | none =>
        rw [huser] at hrun
        cases hrun
        rfl
    | some user =>
      cases htracks : a.topTracks with
      | none =>
          rw [huser, htracks] at hrun
          cases hrun
          rfl
      | some tracks =>
        cases hgenres : extractGenresFromTracks tracks with
        | none =>
            simp only [huser, htracks, hgenres] at hrun
            cases hrun
            rfl
        | some genres =>
            simp only [huser, htracks, hgenres, Bool.false_eq_true, if_false, EStateM.run_bind,
              EStateM.run_pure, EStateM.run_get] at hrun
            exact updateUserData_error hrun

/-! ### The top genres -/

/-- What the top five of a list of genres are, whichever way ties are broken. -/
structure TopGenres (listed : List String) (top : List (String × ℕ)) : Prop where
  distinct : (top.map Prod.fst).Nodup
  length : top.length = min 5 listed.dedup.length
  occurs : ∀ p ∈ top, p.1 ∈ listed
  count : ∀ p ∈ top, p.2 = listed.count p.1
  ordered : top.Pairwise fun p q => q.2 ≤ p.2
  best : ∀ p ∈ top, ∀ genre ∈ listed, genre ∉ top.map Prod.fst → listed.count genre ≤ p.2

theorem byCount_le_iff (p q : String × ℕ) : byCount p ≤ byCount q ↔ q.2 ≤ p.2 := by
  unfold byCount
  omega

theorem topGenres_calculate (listed : List String) :
    TopGenres listed (calculateTopGenres sortBy listed) := by
  have hcounts := Tally.counts_tally listed
  refine ⟨sortBy.nodup_map_top 5 hcounts.nodup, ?_, fun p hp => ?_, fun p hp => ?_, ?_, ?_⟩
  · rw [calculateTopGenres, sortBy.length_top, Tally.length_tally]
  · have hmem := sortBy.mem_of_mem_top 5 hp
    exact (hcounts.keys p.1).mp (List.mem_map_of_mem hmem)
  · exact hcounts.count p (sortBy.mem_of_mem_top 5 hp)
  · exact (sortBy.pairwise_top 5 _).imp fun hle => (byCount_le_iff _ _).mp hle
  · intro p hp genre hgenre hout
    obtain ⟨q, hq, rfl⟩ := List.mem_map.mp ((hcounts.keys genre).mpr hgenre)
    have hnot : q ∉ sortBy.top 5 (Tally.tally listed) := fun hin =>
      hout (List.mem_map_of_mem hin)
    have hle := (byCount_le_iff _ _).mp (sortBy.le_of_not_mem_top 5 hp hq hnot)
    rw [← hcounts.count q hq]
    exact hle

/-- The counts of the top five depend neither on the order of the genres nor on the sort. -/
theorem counts_calculate (sortBy' : SortBy byCount) {listed listed' : List String}
    (h : listed.Perm listed') :
    (calculateTopGenres sortBy listed).map Prod.snd =
      (calculateTopGenres sortBy' listed').map Prod.snd := by
  have hkeys := sortBy.map_key_top sortBy' 5 (Tally.tally_congr h)
  have hmap : ∀ l : List (String × ℕ), l.map byCount = (l.map Prod.snd).map fun n : ℕ => -(n : ℤ) := by
    intro l
    rw [List.map_map]
    rfl
  have hinj : Function.Injective fun n : ℕ => -(n : ℤ) := by
    intro m n hmn
    simp only at hmn
    omega
  rw [hmap, hmap] at hkeys
  exact List.map_injective_iff.mpr hinj hkeys

/-- The first artist of the track is there and has a list of genres. -/
def Track.Listable (track : Track) : Prop :=
  ∃ (artist : Artist) (genres : List String),
    track.artists.head? = some artist ∧ artist.genres = some (genres.map some)

theorem exists_extracted {tracks : List Track} (h : ∀ track ∈ tracks, track.Listable) :
    ∃ genres, extractGenresFromTracks tracks = some genres := by
  induction tracks with
  | nil => exact ⟨[], rfl⟩
  | cons track tracks ih =>
      obtain ⟨artist, gs, hartist, hgs⟩ := h track List.mem_cons_self
      obtain ⟨genres, hgenres⟩ := ih fun t ht => h t (List.mem_cons_of_mem _ ht)
      obtain ⟨lists, hlists, -⟩ := Option.map_eq_some_iff.mp hgenres
      have htop : track.topGenres = some ((gs.map some).take 3) := by
        unfold Track.topGenres
        rw [hartist, Option.bind_eq_bind, Option.bind_some, hgs]
        rfl
      unfold extractGenresFromTracks
      rw [List.mapM_cons, htop, hlists]
      exact ⟨_, rfl⟩

/-- **The top genres are right.**  For all tracks whose first artists have genres, the stored list is
the top five of the genres listed, whatever the sort does with ties; and its counts are the same for
every order of the tracks. -/
theorem top_genres_right {tracks : List Track} (h : ∀ track ∈ tracks, track.Listable) :
    ∃ genres, extractGenresFromTracks tracks = some genres ∧
      TopGenres (tracks.flatMap Track.listed) (calculateTopGenres sortBy genres) ∧
      ∀ (sortBy' : SortBy byCount) (tracks' : List Track), tracks.Perm tracks' →
        ∃ genres', extractGenresFromTracks tracks' = some genres' ∧
          (calculateTopGenres sortBy' genres').map Prod.snd =
            (calculateTopGenres sortBy genres).map Prod.snd := by
  obtain ⟨genres, hgenres⟩ := exists_extracted h
  refine ⟨genres, hgenres, ?_, fun sortBy' tracks' hperm => ?_⟩
  · rw [extracted_eq hgenres]
    exact topGenres_calculate sortBy _
  · have hlistable : ∀ track ∈ tracks', track.Listable := fun track htrack =>
      h track (hperm.mem_iff.mpr htrack)
    obtain ⟨genres', hgenres'⟩ := exists_extracted hlistable
    refine ⟨genres', hgenres', ?_⟩
    rw [extracted_eq hgenres, extracted_eq hgenres']
    exact counts_calculate sortBy' sortBy (hperm.symm.flatMap_right Track.listed)

namespace Sample

/-- A sort by count. -/
def sortByCount : SortBy byCount where
  sort := List.insertionSort fun p q => byCount p ≤ byCount q
  perm := List.perm_insertionSort _
  sorted := by
    have : Std.Total fun p q : String × ℕ => byCount p ≤ byCount q :=
      ⟨fun p q => le_total (byCount p) (byCount q)⟩
    have : IsTrans (String × ℕ) fun p q => byCount p ≤ byCount q :=
      ⟨fun _ _ _ => le_trans⟩
    exact List.pairwise_insertionSort _

/-- A track whose first artist has the given genres. -/
def track (genres : List String) : Track := ⟨[⟨some (genres.map some)⟩]⟩

theorem track_listable (genres : List String) : (track genres).Listable :=
  ⟨⟨some (genres.map some)⟩, genres, rfl, rfl⟩

end Sample

/-- Two tracks with a genre in common. -/
theorem top_genres_of_two :
    ∃ genres, extractGenresFromTracks [Sample.track ["pop", "rock"], Sample.track ["rock"]] =
        some genres ∧
      TopGenres ["pop", "rock", "rock"] (calculateTopGenres Sample.sortByCount genres) := by
  have hlistable : ∀ track ∈ [Sample.track ["pop", "rock"], Sample.track ["rock"]],
      track.Listable := by
    intro track htrack
    rcases List.mem_pair.mp htrack with rfl | rfl
    · exact Sample.track_listable _
    · exact Sample.track_listable _
  obtain ⟨genres, hgenres, htop, -⟩ := top_genres_right Sample.sortByCount hlistable
  exact ⟨genres, hgenres, htop⟩

end Knoiz.Stats
