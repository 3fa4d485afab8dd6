import Knoiz.StatsPage

/-!
# The rankings of the statistics pages

The actions of the statistics pages ask Spotify for lists and leave them in instance variables; the
views number the entries of each list in a grid of cards.  A view reads an instance variable by a name
that it puts together, as the action did when it set it.  An entry that lacks what a card shows makes
the page raise.

The index page shows the first entries of the lists that the other pages show in full.
-/

namespace Knoiz

open RowTable

/-! ### What Spotify answers -/

/-- An artist of a ranking. -/
structure ListedArtist where
  name : Option String
  images : List Image
  externalUrls : Option (List (String × String))
  deriving DecidableEq, Repr

/-- The answers to the calls of one page, `none` where a call raises. -/
structure SpotifyApi where
  topTracks : ℕ → String → Option (List PlayedTrack)
  topArtists : ℕ → String → Option (List ListedArtist)
  recentlyPlayed : ℕ → Option (List PlayedTrack)
  globalPlaylist : Option (List PlayedTrack)

/-! ### The actions -/

/-- A list in an instance variable. -/
inductive Listing where
  | tracks (tracks : List PlayedTrack)
  | artists (artists : List ListedArtist)
  deriving DecidableEq, Repr

abbrev InstanceVariables := Table String Listing

/-- `instance_variable_set`. -/
def InstanceVariables.set (vars : InstanceVariables) (name : String) (listing : Listing) :
    InstanceVariables := (name, listing) :: vars

namespace StatsController

/-- The `time_ranges` of the action, and the terms of the view. -/
def timeRanges : List String := ["short_term", "medium_term", "long_term"]

/-- One round of the loop of `fetch_top_tracks_and_artists`. -/
def fetchTerm (api : SpotifyApi) (limit : ℕ) (vars : InstanceVariables) (timeRange : String) :
    Option InstanceVariables := do
  let tracks ← api.topTracks limit timeRange
  let vars := vars.set ("@top_tracks_" ++ timeRange) (.tracks tracks)
  let artists ← api.topArtists limit timeRange
  return vars.set ("@top_artists_" ++ timeRange) (.artists artists)

/-- `fetch_top_tracks_and_artists`. -/
def fetchTopTracksAndArtists (api : SpotifyApi) (limit : ℕ) (vars : InstanceVariables) :
    Option InstanceVariables := timeRanges.foldlM (fetchTerm api limit) vars

/-- `fetch_recently_played`. -/
def fetchRecentlyPlayed (api : SpotifyApi) (limit : ℕ) (vars : InstanceVariables) :
    Option InstanceVariables := do
  let tracks ← api.recentlyPlayed limit
  return vars.set "@recently_played" (.tracks tracks)

/-- `fetch_top_global_tracks`; `@top_global_playlist` is kept as the list of its tracks. -/
def fetchTopGlobalTracks (api : SpotifyApi) (vars : InstanceVariables) :
    Option InstanceVariables := do
  let tracks ← api.globalPlaylist
  return (vars.set "@top_global_playlist" (.tracks tracks)).set "@top_global_tracks"
    (.tracks (tracks.take 5))

/-- `fetch_stats`, the player apart. -/
def fetchStats (api : SpotifyApi) : Option InstanceVariables := do
  let vars ← fetchRecentlyPlayed api 5 []
  let vars ← fetchTopTracksAndArtists api 5 vars
  fetchTopGlobalTracks api vars

/-- `recently`, `tops` and `top_global`. -/
def recently (api : SpotifyApi) : Option InstanceVariables := fetchRecentlyPlayed api 50 []

def tops (api : SpotifyApi) : Option InstanceVariables := fetchTopTracksAndArtists api 50 []

def topGlobal (api : SpotifyApi) : Option InstanceVariables := fetchTopGlobalTracks api []

end StatsController

/-! ### The partials -/

/-- A card of a grid: the link, the picture, the numbered name and the lines under it. -/
structure Card where
  href : Option String
  image : Option String
  caption : String
  lines : List String
  deriving DecidableEq, Repr

/-- The numbered name. -/
def caption (i : ℕ) (name : Option String) : String := toString i ++ "# - " ++ name.getD ""

/-- The loop of both partials: `i` counts from the number that it has at the head of the list. -/
def numbered {α : Type} (card : ℕ → α → Option Card) : ℕ → List α → Option (List Card)
  | _, [] => some []
  | i, x :: xs => do
      let first ← card i x
      let rest ← numbered card (i + 1) xs
      return first :: rest

def trackCard (i : ℕ) (song : PlayedTrack) : Option Card := do
  let externalUrls ← song.externalUrls
  let image ← song.images.head?
  let artist ← song.artists.head?
  return ⟨externalUrls.lookup "spotify", image.url, caption i song.name,
    [artist.getD "", song.album.getD ""]⟩

def artistCard (i : ℕ) (artist : ListedArtist) : Option Card := do
  let externalUrls ← artist.externalUrls
  let image ← artist.images.head?
  return ⟨externalUrls.lookup "spotify", image.url, caption i artist.name, []⟩

/-- `_track_partial`; it raises on anything but tracks. -/
def trackPartial : Option Listing → Option (List Card)
  | some (.tracks tracks) => numbered trackCard 1 tracks
  | _ => none

/-- `_artist_partial`. -/
def artistPartial : Option Listing → Option (List Card)
  | some (.artists artists) => numbered artistCard 1 artists
  | _ => none

/-! ### The views -/

/-- The types of the view. -/
def types : List String := ["tracks", "artists"]

/-- The grid of a type and a term, on the index page and on the page of the tops. -/
def topsGrid (vars : InstanceVariables) (type term : String) : Option (List Card) :=
  if type = "tracks" then trackPartial (vars.lookup ("@top_" ++ type ++ "_" ++ term))
  else artistPartial (vars.lookup ("@top_" ++ type ++ "_" ++ term))

/-- A grid, with the type and the term that the id of its element is made of. -/
structure Grid where
  type : String
  term : String
  cards : List Card
  deriving DecidableEq, Repr

def Grid.id (grid : Grid) : String := grid.term ++ "_" ++ grid.type

/-- The rounds of the two loops, over the types and over the terms. -/
def gridKeys : List (String × String) :=
  types.flatMap fun type => StatsController.timeRanges.map (Prod.mk type)

def topsGrids (vars : InstanceVariables) : Option (List Grid) :=
  gridKeys.mapM fun p => (topsGrid vars p.1 p.2).map (Grid.mk p.1 p.2)

/-- The rankings of the index page: the grids of the tops and the two sections under them. -/
structure Rankings where
  tops : List Grid
  recentlyPlayed : List Card
  topGlobal : List Card
  deriving DecidableEq, Repr

/-- `index.html.erb`, from the tops on. -/
def indexRankings (vars : InstanceVariables) : Option Rankings := do
  let tops ← topsGrids vars
  let recentlyPlayed ← trackPartial (vars.lookup "@recently_played")
  let topGlobal ← trackPartial (vars.lookup "@top_global_tracks")
  return ⟨tops, recentlyPlayed, topGlobal⟩

/-- `recently.html.erb` and `top_global.html.erb`. -/
def recentlyPage (vars : InstanceVariables) : Option (List Card) :=
  trackPartial (vars.lookup "@recently_played")

def topGlobalPage (vars : InstanceVariables) : Option (List Card) :=
  trackPartial (vars.lookup "@top_global_playlist")

/-! ### Numbering -/

section Numbered

variable {α : Type} {card : ℕ → α → Option Card}

/-- What the first entries of a list look like does not depend on the others. -/
theorem numbered_take {xs : List α} {i : ℕ} {cards : List Card} (h : numbered card i xs = some cards)
    (n : ℕ) : numbered card i (xs.take n) = some (cards.take n) := by
  induction xs generalizing i n cards with
  | nil =>
      cases h
      simp [numbered]
  | cons x xs ih =>
      simp only [numbered, Option.bind_eq_bind, Option.bind_eq_some_iff] at h
      obtain ⟨first, hfirst, rest, hrest, hcards⟩ := h
      cases hcards
      cases n with
      | zero => rfl
      | succ n => simp [numbered, hfirst, ih hrest n]

/-- The captions count from the first number on. -/
theorem numbered_captions {name : α → Option String}
    (hcard : ∀ i x c, card i x = some c → c.caption = caption i (name x)) {xs : List α} {i : ℕ}
    {cards : List Card} (h : numbered card i xs = some cards) :
    cards.map Card.caption = (xs.zipIdx i).map fun p => caption p.2 (name p.1) := by
  induction xs generalizing i cards with
  | nil =>
      cases h
      rfl
  | cons x xs ih =>
      simp only [numbered, Option.bind_eq_bind, Option.bind_eq_some_iff] at h
      obtain ⟨first, hfirst, rest, hrest, hcards⟩ := h
      cases hcards
      simp [ih hrest, hcard i x first hfirst]

end Numbered

theorem trackCard_caption {i : ℕ} {song : PlayedTrack} {c : Card} (h : trackCard i song = some c) :
    c.caption = caption i song.name := by
  simp only [trackCard, Option.bind_eq_bind, Option.bind_eq_some_iff] at h
  obtain ⟨urls, -, image, -, artist, -, hc⟩ := h
  cases hc
  rfl

theorem artistCard_caption {i : ℕ} {artist : ListedArtist} {c : Card}
    (h : artistCard i artist = some c) : c.caption = caption i artist.name := by
  simp only [artistCard, Option.bind_eq_bind, Option.bind_eq_some_iff] at h
  obtain ⟨urls, -, image, -, hc⟩ := h
  cases hc
  rfl

/-! ### Previews -/

/-- Spotify answers a lower limit with the head of what it answers a higher one. -/
structure SpotifyApi.Ranked (api : SpotifyApi) : Prop where
  topTracks : ∀ {m n}, m ≤ n → ∀ term,
    api.topTracks m term = (api.topTracks n term).map (List.take m)
  topArtists : ∀ {m n}, m ≤ n → ∀ term,
    api.topArtists m term = (api.topArtists n term).map (List.take m)
  recentlyPlayed : ∀ {m n}, m ≤ n →
    api.recentlyPlayed m = (api.recentlyPlayed n).map (List.take m)

/-- The first entries of a listing. -/
def Listing.take (n : ℕ) : Listing → Listing
  | .tracks songs => .tracks (songs.take n)
  | .artists listed => .artists (listed.take n)

theorem trackPartial_take {listing : Option Listing} {cards : List Card}
    (h : trackPartial listing = some cards) (n : ℕ) :
    trackPartial (listing.map (Listing.take n)) = some (cards.take n) := by
  rcases listing with _ | (tracks | artists)
  · cases h
  · exact numbered_take h n
  · cases h

theorem artistPartial_take {listing : Option Listing} {cards : List Card}
    (h : artistPartial listing = some cards) (n : ℕ) :
    artistPartial (listing.map (Listing.take n)) = some (cards.take n) := by
  rcases listing with _ | (tracks | artists)
  · cases h
  · cases h
  · exact numbered_take h n

theorem InstanceVariables.lookup_set (vars : InstanceVariables) (name key : String)
    (listing : Listing) :
    List.lookup key (vars.set name listing)
      = if key = name then some listing else List.lookup key vars := by
  simp only [InstanceVariables.set, List.lookup_cons]
  by_cases h : key = name
  · simp [h]
  · have hk : (key == name) = false := by simpa using h
    rw [hk, if_neg h]

/-- The names of the tops. -/
def TopsName (name : String) : Prop :=
  ∃ term, name = "@top_tracks_" ++ term ∨ name = "@top_artists_" ++ term

theorem not_topsName_recently : ¬TopsName "@recently_played" := by
  rintro ⟨term, h | h⟩
  · simpa using congrArg String.toList h
  · simpa using congrArg String.toList h

theorem not_topsName_playlist : ¬TopsName "@top_global_playlist" := by
  rintro ⟨term, h | h⟩
  · simpa using congrArg String.toList h
  · simpa using congrArg String.toList h

theorem not_topsName_global : ¬TopsName "@top_global_tracks" := by
  rintro ⟨term, h | h⟩
  · simpa using congrArg String.toList h
  · simpa using congrArg String.toList h

/-- Each of the tops is held in short. -/
def Previews (n : ℕ) (full short : InstanceVariables) : Prop :=
  ∀ name, TopsName name →
    List.lookup name short = (List.lookup name full).map (Listing.take n)

section Previews

variable {n : ℕ} {full short : InstanceVariables}

theorem Previews.set (h : Previews n full short) (name : String) (listing : Listing) :
    Previews n (full.set name listing) (short.set name (listing.take n)) := by
  intro key hkey
  rw [InstanceVariables.lookup_set, InstanceVariables.lookup_set]
  by_cases hk : key = name
  · simp [hk]
  · simpa [hk] using h key hkey

/-- An instance variable of another page does not matter. -/
theorem Previews.set_other (h : Previews n full short) {name : String} (hname : ¬TopsName name)
    (listing : Listing) : Previews n full (short.set name listing) := by
  intro key hkey
  have hk : key ≠ name := by
    rintro rfl
    exact hname hkey
  simpa [InstanceVariables.lookup_set, hk] using h key hkey

theorem previews_nil_of_not_topsName {name : String} (hname : ¬TopsName name) (listing : Listing) :
    Previews n [] (InstanceVariables.set [] name listing) := by
  apply Previews.set_other ?_ hname
  intro key _
  rfl

end Previews

/-! ### One page in the light of another -/

section Ranked

open StatsController

variable {api : SpotifyApi} {m n : ℕ} {full short full' : InstanceVariables}

/-- **A round.**  With the lower limit it succeeds as well and fetches the same in short, and it
leaves the instance variables of the other pages. -/
theorem fetchTerm_previews (hapi : api.Ranked) (hmn : m ≤ n) {term : String}
    (h : Previews m full short) (hround : fetchTerm api n full term = some full') :
    ∃ short', fetchTerm api m short term = some short' ∧ Previews m full' short' ∧
      ∀ name, ¬TopsName name → List.lookup name short' = List.lookup name short := by
  simp only [fetchTerm, Option.bind_eq_bind, Option.bind_eq_some_iff] at hround
  obtain ⟨tracks, htracks, artists, hartists, hfull⟩ := hround
  cases hfull
  have hshort : fetchTerm api m short term
      = some ((short.set ("@top_tracks_" ++ term) (.tracks (tracks.take m))).set
          ("@top_artists_" ++ term) (.artists (artists.take m))) := by
    simp [fetchTerm, hapi.topTracks hmn, hapi.topArtists hmn, htracks, hartists]
  refine ⟨_, hshort, ?_, ?_⟩
  · exact (h.set ("@top_tracks_" ++ term) (.tracks tracks)).set ("@top_artists_" ++ term)
      (.artists artists)
  · intro name hname
    have hartist : name ≠ "@top_artists_" ++ term := fun hk => hname ⟨term, .inr hk⟩
    have htrack : name ≠ "@top_tracks_" ++ term := fun hk => hname ⟨term, .inl hk⟩
    rw [InstanceVariables.lookup_set, if_neg hartist, InstanceVariables.lookup_set, if_neg htrack]

/-- **The loop.** -/
theorem fetchTerms_previews (hapi : api.Ranked) (hmn : m ≤ n) {terms : List String}
    (h : Previews m full short) (hrun : terms.foldlM (fetchTerm api n) full = some full') :
    ∃ short', terms.foldlM (fetchTerm api m) short = some short' ∧ Previews m full' short' ∧
      ∀ name, ¬TopsName name → List.lookup name short' = List.lookup name short := by
  induction terms generalizing full short with
  | nil =>
      cases hrun
      exact ⟨short, rfl, h, fun name _ => rfl⟩
  | cons term terms ih =>
      rw [List.foldlM_cons, Option.bind_eq_bind, Option.bind_eq_some_iff] at hrun
      obtain ⟨full₁, hround, hrest⟩ := hrun
      obtain ⟨short₁, hshort₁, h₁, hframe₁⟩ := fetchTerm_previews hapi hmn h hround
      obtain ⟨short₂, hshort₂, h₂, hframe₂⟩ := ih h₁ hrest
      refine ⟨short₂, ?_, h₂, ?_⟩
      · rw [List.foldlM_cons, hshort₁]
        exact hshort₂
      · intro name hname
        rw [hframe₂ name hname, hframe₁ name hname]

end Ranked

theorem topsName_tracks (term : String) : TopsName ("@top_" ++ "tracks" ++ "_" ++ term) :=
  ⟨term, .inl (by simp)⟩

theorem topsName_artists (term : String) : TopsName ("@top_" ++ "artists" ++ "_" ++ term) :=
  ⟨term, .inr (by simp)⟩

section Grids

variable {n : ℕ} {full short : InstanceVariables}

theorem topsGrid_take (h : Previews n full short) {type term : String} (htype : type ∈ types)
    {cards : List Card} (hgrid : topsGrid full type term = some cards) :
    topsGrid short type term = some (cards.take n) := by
  simp only [types, List.mem_cons, List.not_mem_nil, or_false] at htype
  unfold topsGrid at hgrid ⊢
  rcases htype with rfl | rfl
  · rw [if_pos rfl] at hgrid ⊢
    rw [h _ (topsName_tracks term)]
    exact trackPartial_take hgrid n
  · rw [if_neg (by decide)] at hgrid ⊢
    rw [h _ (topsName_artists term)]
    exact artistPartial_take hgrid n

def Grid.take (n : ℕ) (grid : Grid) : Grid := { grid with cards := grid.cards.take n }

theorem mapM_topsGrid_take (h : Previews n full short) {keys : List (String × String)}
    (hkeys : ∀ p ∈ keys, p.1 ∈ types) {grids : List Grid}
    (hgrids : (keys.mapM fun p => (topsGrid full p.1 p.2).map (Grid.mk p.1 p.2)) = some grids) :
    (keys.mapM fun p => (topsGrid short p.1 p.2).map (Grid.mk p.1 p.2))
      = some (grids.map (Grid.take n)) := by
  induction keys generalizing grids with
  | nil =>
      cases hgrids
      rfl
  | cons p keys ih =>
      simp only [List.mapM_cons, Option.bind_eq_bind, Option.bind_eq_some_iff, Option.pure_def,
        Option.map_eq_some_iff] at hgrids
      obtain ⟨first, ⟨cards, hcards, hfirst⟩, rest, hrest, hgrids⟩ := hgrids
      cases hfirst
      cases hgrids
      have hhead := topsGrid_take h (hkeys p (List.mem_cons_self ..)) hcards
      have htail := ih (fun q hq => hkeys q (List.mem_cons_of_mem _ hq)) hrest
      simp [List.mapM_cons, hhead, htail, Grid.take]

theorem mem_types_of_gridKeys : ∀ p ∈ gridKeys, p.1 ∈ types := by
  intro p hp
  obtain ⟨type, htype, hmem⟩ := List.mem_flatMap.mp hp
  obtain ⟨term, -, rfl⟩ := List.mem_map.mp hmem
  exact htype

theorem topsGrids_take (h : Previews n full short) {grids : List Grid}
    (hgrids : topsGrids full = some grids) :
    topsGrids short = some (grids.map (Grid.take n)) :=
  mapM_topsGrid_take h mem_types_of_gridKeys hgrids

end Grids

open StatsController in
/-- **Previews.**  Where the three pages of the rankings are shown, so are the rankings of the index
page, and each of them is the head of the ranking that the full page shows. -/
theorem previews_agree {api : SpotifyApi} (hapi : api.Ranked) {grids : List Grid}
    {recent global : List Card} (htops : (tops api).bind topsGrids = some grids)
    (hrecent : (recently api).bind recentlyPage = some recent)
    (hglobal : (topGlobal api).bind topGlobalPage = some global) :
    (fetchStats api).bind indexRankings
      = some ⟨grids.map (Grid.take 5), recent.take 5, global.take 5⟩ := by
  obtain ⟨full, hfull, hgrids⟩ := Option.bind_eq_some_iff.mp htops
  obtain ⟨played, hplayed, hcards⟩ := Option.bind_eq_some_iff.mp hrecent
  obtain ⟨charts, hcharts, hchartCards⟩ := Option.bind_eq_some_iff.mp hglobal
  simp only [recently, fetchRecentlyPlayed, Option.bind_eq_bind, Option.bind_eq_some_iff,
    Option.pure_def, Option.some.injEq] at hplayed
  obtain ⟨listened, hlistened, rfl⟩ := hplayed
  simp only [topGlobal, fetchTopGlobalTracks, Option.bind_eq_bind, Option.bind_eq_some_iff,
    Option.pure_def, Option.some.injEq] at hcharts
  obtain ⟨charted, hcharted, rfl⟩ := hcharts
  -- the loop of the index page starts from the tracks listened to lately
  have hstart : Previews 5 [] (InstanceVariables.set [] "@recently_played"
      (.tracks (listened.take 5))) :=
    previews_nil_of_not_topsName not_topsName_recently _
  obtain ⟨short, hshort, hpreviews, hframe⟩ :=
    fetchTerms_previews hapi (by decide : 5 ≤ 50) hstart hfull
  have hrecently : List.lookup "@recently_played" short = some (.tracks (listened.take 5)) := by
    rw [hframe _ not_topsName_recently]
    rfl
  have hindex : fetchStats api = some ((short.set "@top_global_playlist" (.tracks charted)).set
      "@top_global_tracks" (.tracks (charted.take 5))) := by
    have hplayer : fetchRecentlyPlayed api 5 []
        = some (InstanceVariables.set [] "@recently_played" (.tracks (listened.take 5))) := by
      simp [fetchRecentlyPlayed, hapi.recentlyPlayed (by decide : 5 ≤ 50), hlistened]
    have hloop : fetchTopTracksAndArtists api 5
        (InstanceVariables.set [] "@recently_played" (.tracks (listened.take 5)))
        = some short := hshort
    simp [fetchStats, hplayer, hloop, fetchTopGlobalTracks, hcharted]
  rw [hindex, Option.bind_some]
  have hlast := (hpreviews.set_other not_topsName_playlist (.tracks charted)).set_other
    not_topsName_global (.tracks (charted.take 5))
  have htopCards := topsGrids_take hlast hgrids
  have hplayedCards : trackPartial (some (.tracks listened)) = some recent := hcards
  have hchartedCards : trackPartial (some (.tracks charted)) = some global := hchartCards
  have hrecentCards : trackPartial (some (.tracks (listened.take 5))) = some (recent.take 5) :=
    trackPartial_take hplayedCards 5
  have hglobalCards : trackPartial (some (.tracks (charted.take 5))) = some (global.take 5) :=
    trackPartial_take hchartedCards 5
  simp only [indexRankings, htopCards, InstanceVariables.lookup_set, hrecently, hrecentCards,
    hglobalCards, Option.bind_eq_bind, Option.bind_some, Option.pure_def, if_true,
    if_neg (by decide : ("@recently_played" : String) ≠ "@top_global_tracks"),
    if_neg (by decide : ("@recently_played" : String) ≠ "@top_global_playlist")]

/-! ### An example -/

namespace Sample

def song (name : String) : PlayedTrack :=
  ⟨some name, some "Album", [⟨some "cover"⟩], [some "Artist"], some [("spotify", "link")]⟩

def songs : List PlayedTrack := ["a", "b", "c", "d", "e", "f", "g"].map song

def artists : List ListedArtist :=
  ["A", "B", "C", "D", "E", "F"].map fun name =>
    ⟨some name, [⟨some "portrait"⟩], some [("spotify", "link")]⟩

/-- A Spotify with seven tracks and six artists in each ranking. -/
def spotify : SpotifyApi where
  topTracks limit _ := some (songs.take limit)
  topArtists limit _ := some (artists.take limit)
  recentlyPlayed limit := some (songs.take limit)
  globalPlaylist := some songs

theorem spotify_ranked : spotify.Ranked where
  topTracks hmn term := by simp [spotify, List.take_take, Nat.min_eq_left hmn]
  topArtists hmn term := by simp [spotify, List.take_take, Nat.min_eq_left hmn]
  recentlyPlayed hmn := by simp [spotify, List.take_take, Nat.min_eq_left hmn]

def songCard (caption : String) : Card :=
  ⟨some "link", some "cover", caption, ["Artist", "Album"]⟩

def songCards : List Card :=
  ["1# - a", "2# - b", "3# - c", "4# - d", "5# - e", "6# - f", "7# - g"].map songCard

def artistCards : List Card :=
  ["1# - A", "2# - B", "3# - C", "4# - D", "5# - E", "6# - F"].map fun caption =>
    ⟨some "link", some "portrait", caption, []⟩

def grids (tracks artists : List Card) : List Grid :=
  [⟨"tracks", "short_term", tracks⟩, ⟨"tracks", "medium_term", tracks⟩,
   ⟨"tracks", "long_term", tracks⟩, ⟨"artists", "short_term", artists⟩,
   ⟨"artists", "medium_term", artists⟩, ⟨"artists", "long_term", artists⟩]

end Sample

open StatsController in
theorem songs_previewed : (fetchStats Sample.spotify).bind indexRankings
    = some ⟨Sample.grids (Sample.songCards.take 5) (Sample.artistCards.take 5),
        Sample.songCards.take 5, Sample.songCards.take 5⟩ := by
  have htops : (tops Sample.spotify).bind topsGrids =
      some (Sample.grids Sample.songCards Sample.artistCards) := by
    decide
  have hrecent : (recently Sample.spotify).bind recentlyPage = some Sample.songCards := by
    decide
  have hglobal : (topGlobal Sample.spotify).bind topGlobalPage = some Sample.songCards := by
    decide
  exact previews_agree Sample.spotify_ranked htops hrecent hglobal

end Knoiz
