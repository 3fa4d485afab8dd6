import Knoiz.StatsWorker

/-!
# The statistics page: what is playing, and the five genres

`fetch_currently_playing` reaches into the answer of Spotify's player, or into the track played
last, and the page reads five fields of what it has found; further down the page reads five entries
of the stored genres.  None of the accesses asks whether there is something to read from.  The
results say exactly for which answers, and for which listening histories, the page renders.
-/

namespace Knoiz

/-! ### Reaching into a JSON value -/

namespace Json

/-- `[name]` or `[0]`. -/
inductive Access where
  | key (name : String)
  | first

/-- `value[0]`: the first item or `nil`, the first character of a string or `nil`, `nil` in a hash
with string keys, the lowest bit of an integer; everything else raises. -/
def item0 : Json → Option Json
  | .array items => some (items.head?.getD .null)
  | .string s => some ((s.toList.head?.map fun c => .string (String.singleton c)).getD .null)
  | .object _ => some .null
  | .number n => some (.number (n % 2))
  | .null | .bool _ => none

def access (value : Json) : Access → Option Json
  | .key name => value.key name
  | .first => value.item0

/-- A chain of accesses, `none` where one of them raises. -/
def dig (value : Json) (path : List Access) : Option Json := path.foldlM access value

/-- A value that a string key can be looked up in. -/
def opens : Json → Bool
  | .object _ | .string _ => true
  | _ => false

/-- A value whose first item a string key can be looked up in. -/
def leads : Json → Bool
  | .array (item :: _) => item.opens
  | .string s => s ≠ ""
  | _ => false

/-- The field of a hash, `null` where it is missing. -/
def field (fields : List (String × Json)) (name : String) : Json :=
  (fields.lookup name).getD .null

theorem dig_key_isSome (value : Json) (name : String) :
    (value.dig [.key name]).isSome = value.opens := by
  cases value <;> rfl

end Json

/-! ### The player -/

/-- A track of the recently played ones.  A list that is missing reads as an empty one, and so does
an album that is missing: in both cases the first item is asked for something and there is none. -/
structure PlayedTrack where
  name : Option String
  album : Option String
  images : List Image
  artists : List (Option String)
  externalUrls : Option (List (String × String))
  deriving DecidableEq, Repr

/-- `@spotify_info`. -/
structure SpotifyInfo where
  imageUrl : Json
  name : Json
  artist : Json
  album : Json
  trackLink : Json

/-- The instance variables that `fetch_currently_playing` sets. -/
structure Player where
  isPlayingStatut : Option Json := none
  lastPlayed : Option (List PlayedTrack) := none
  spotifyInfo : Option SpotifyInfo := none

/-- A string or `nil`. -/
def Json.ofString? (s : Option String) : Json := (s.map .string).getD .null

namespace StatsController

/-- `fetch_currently_playing` once the response is there; `none` where a call raises.  `body` is the
parsed body, and `recentlyPlayed` what `recently_played(limit: 1)` returns. -/
def fetchCurrentlyPlaying (code : String) (body : Json) (recentlyPlayed : List PlayedTrack) :
    Option Player :=
  if code = "200" then do
    let statut ← body.dig [.key "is_playing"]
    let albumImage ← body.dig [.key "item", .key "album", .key "images", .first, .key "url"]
    let name ← body.dig [.key "item", .key "name"]
    let artist ← body.dig [.key "item", .key "artists", .first, .key "name"]
    let album ← body.dig [.key "item", .key "album", .key "name"]
    let trackLink ← body.dig [.key "item", .key "external_urls", .key "spotify"]
    return {
      isPlayingStatut := some statut
      spotifyInfo := some ⟨albumImage, name, artist, album, trackLink⟩ }
  else if code = "204" then do
    let track ← recentlyPlayed.head?
    let image ← track.images.head?
    let artist ← track.artists.head?
    let externalUrls ← track.externalUrls
    return {
      lastPlayed := some recentlyPlayed
      spotifyInfo := some ⟨Json.ofString? image.url, Json.ofString? track.name,
        Json.ofString? artist, Json.ofString? track.album,
        Json.ofString? (externalUrls.lookup "spotify")⟩ }
  else return {}

end StatsController

/-! ### The page -/

/-- The header of the player. -/
def Player.title (player : Player) : String :=
  if player.lastPlayed.isSome then "Lastly played on Spotify"
  else
    match player.isPlayingStatut with
    | none | some .null | some (.bool false) => "Currently paused on Spotify"
    | some _ => "Currently played on Spotify"

/-- `_spotify_song_info`: the five fields it reads; `none` where it reads one of `nil`. -/
def spotifySongInfo (spotifyInfo : Option SpotifyInfo) : Option (List Json) :=
  spotifyInfo.map fun info => [info.imageUrl, info.name, info.artist, info.album, info.trackLink]

/-- The widths of the bars of the genres. -/
def genreWidths : List ℕ := [90, 75, 70, 60, 45]

/-- The bars: a width and `favorite_genre[index][0]` each; `none` where there is no such entry. -/
def genreBars (favoriteGenre : List (String × ℕ)) : Option (List (ℕ × String)) :=
  genreWidths.zipIdx.mapM fun bar => favoriteGenre[bar.2]?.map fun genre => (bar.1, genre.1)

/-! ### When the player is shown -/

namespace Json

/-- An album with the url of an image and a name to read. -/
def showsAlbum : Json → Bool
  | .object fields => (field fields "images").leads
  | .string s => "images".toList <:+: s.toList
  | _ => false

/-- An item with all that is read from it. -/
def showsItem : Json → Bool
  | .object fields =>
      (field fields "album").showsAlbum && (field fields "artists").leads &&
        (field fields "external_urls").opens
  | _ => false

/-- A body with an item that has all that is read from it. -/
def showsBody : Json → Bool
  | .object fields => (field fields "item").showsItem
  | _ => false

end Json

namespace Json

theorem dig_first_isSome (value : Json) (name : String) :
    (value.dig [.first, .key name]).isSome = value.leads := by
  cases value with
  | array items =>
      cases items with
      | nil => rfl
      | cons item items => exact dig_key_isSome item name
  | string s =>
      show ((((s.toList.head?.map fun c => Json.string (String.singleton c)).getD .null).dig
        [.key name]).isSome) = decide (s ≠ "")
      rw [dig_key_isSome]
      cases hs : s.toList with
      | nil =>
          have hempty : s = "" := String.toList_inj.mp hs
          rw [hempty]
          rfl
      | cons c cs =>
          have hne : s ≠ "" := by
            rintro rfl
            cases hs
          rw [decide_eq_true hne]
          rfl
  | _ => rfl

theorem dig_images_isSome (album : Json) :
    (album.dig [.key "images", .first, .key "url"]).isSome = album.showsAlbum := by
  cases album with
  | object fields => exact dig_first_isSome _ "url"
  | string s =>
      show ((if "images".toList <:+: s.toList then Json.string "images" else .null).dig
        [.first, .key "url"]).isSome = _
      rw [dig_first_isSome]
      by_cases h : "images".toList <:+: s.toList
      · rw [if_pos h]
        exact (decide_eq_true h).symm
      · rw [if_neg h]
        exact (decide_eq_false h).symm
  | _ => rfl

theorem opens_of_showsAlbum {album : Json} (h : album.showsAlbum = true) : album.opens = true := by
  cases album with
  | object fields | string s => rfl
  | _ => cases h

/-- Only in a hash can an image of the album be found. -/
theorem dig_album_isSome (item : Json) :
    (item.dig [.key "album", .key "images", .first, .key "url"]).isSome = true ↔
      ∃ fields, item = .object fields ∧ (field fields "album").showsAlbum = true := by
  cases item with
  | object fields =>
      show (((field fields "album").dig [.key "images", .first, .key "url"]).isSome = true) ↔ _
      rw [dig_images_isSome]
      constructor
      · exact fun h => ⟨fields, rfl, h⟩
      · rintro ⟨fields', hfields, h⟩
        cases hfields
        exact h
  | string s =>
      show ((if "album".toList <:+: s.toList then Json.string "album" else .null).dig
        [.key "images", .first, .key "url"]).isSome = true ↔ _
      rw [dig_images_isSome]
      constructor
      · intro h
        split at h <;> cases h
      · rintro ⟨_, hfields, -⟩
        cases hfields
  | _ =>
      constructor
      · intro h
        cases h
      · rintro ⟨_, hfields, -⟩
        cases hfields

/-- The image is found in a body exactly if the body is a hash, and its item one with an album. -/
theorem dig_image_isSome (body : Json) :
    (body.dig [.key "item", .key "album", .key "images", .first, .key "url"]).isSome = true ↔
      ∃ fields item, body = .object fields ∧ field fields "item" = .object item ∧
        (field item "album").showsAlbum = true := by
  cases body with
  | object fields =>
      show ((field fields "item").dig _).isSome = true ↔ _
      rw [dig_album_isSome]
      constructor
      · rintro ⟨item, hitem, h⟩
        exact ⟨fields, item, rfl, hitem, h⟩
      · rintro ⟨fields', item, hfields, hitem, h⟩
        cases hfields
        exact ⟨item, hitem, h⟩
  | string s =>
      show ((if "item".toList <:+: s.toList then Json.string "item" else .null).dig _).isSome =
        true ↔ _
      rw [dig_album_isSome]
      constructor
      · rintro ⟨item, hitem, -⟩
        split at hitem <;> cases hitem
      · rintro ⟨_, _, hfields, -⟩
        cases hfields
  | _ =>
      constructor
      · intro h
        cases h
      · rintro ⟨_, _, hfields, -⟩
        cases hfields

/-- What is dug out behind the item of a body is dug out of the item. -/
theorem dig_item {fields item : List (String × Json)} (h : field fields "item" = .object item)
    (path : List Access) :
    (Json.object fields).dig (.key "item" :: path) = (Json.object item).dig path := by
  rw [← h]
  rfl

/-- All that `fetch_currently_playing` reads from a body is there. -/
def Readable (body : Json) : Prop :=
  (body.dig [.key "item", .key "album", .key "images", .first, .key "url"]).isSome = true ∧
    (body.dig [.key "item", .key "artists", .first, .key "name"]).isSome = true ∧
    (body.dig [.key "item", .key "external_urls", .key "spotify"]).isSome = true

theorem readable_iff (body : Json) : body.Readable ↔ body.showsBody = true := by
  unfold Readable
  rw [dig_image_isSome]
  constructor
  · rintro ⟨⟨fields, item, rfl, hitem, halbum⟩, hartist, hlink⟩
    rw [dig_item hitem] at hartist hlink
    have hleads : (field item "artists").leads = true := by
      rw [← dig_first_isSome _ "name"]
      exact hartist
    have hopens : (field item "external_urls").opens = true := by
      rw [← dig_key_isSome _ "spotify"]
      exact hlink
    show (field fields "item").showsItem = true
    rw [hitem]
    show ((field item "album").showsAlbum && (field item "artists").leads &&
      (field item "external_urls").opens) = true
    rw [halbum, hleads, hopens]
    rfl
  · intro h
    cases body with
    | object fields =>
        change (field fields "item").showsItem = true at h
        cases hitem : field fields "item" with
        | object item =>
            rw [hitem] at h
            simp only [showsItem, Bool.and_eq_true] at h
            obtain ⟨⟨halbum, hleads⟩, hopens⟩ := h
            refine ⟨⟨fields, item, rfl, hitem, halbum⟩, ?_, ?_⟩
            · rw [dig_item hitem]
              show ((field item "artists").dig [.first, .key "name"]).isSome = true
              rw [dig_first_isSome, hleads]
            · rw [dig_item hitem]
              show ((field item "external_urls").dig [.key "spotify"]).isSome = true
              rw [dig_key_isSome, hopens]
        | _ =>
            rw [hitem] at h
            cases h
    | _ => cases h

end Json

/-! ### The player on the page -/

/-- A played track with an image, an artist and its links. -/
def PlayedTrack.complete (track : PlayedTrack) : Bool :=
  !track.images.isEmpty && !track.artists.isEmpty && track.externalUrls.isSome

/-- The page gets through the player: nothing raises, and there is something to show. -/
def ShowsPlayer (code : String) (body : Json) (recentlyPlayed : List PlayedTrack) : Prop :=
  ∃ player, StatsController.fetchCurrentlyPlaying code body recentlyPlayed = some player ∧
    (spotifySongInfo player.spotifyInfo).isSome = true

theorem fetch_playing (body : Json) (recentlyPlayed : List PlayedTrack) :
    ShowsPlayer "200" body recentlyPlayed ↔ body.showsBody = true := by
  rw [← Json.readable_iff]
  unfold ShowsPlayer StatsController.fetchCurrentlyPlaying
  rw [if_pos rfl]
  constructor
  · rintro ⟨player, hplayer, -⟩
    obtain ⟨_, -, hplayer⟩ := Option.bind_eq_some_iff.mp hplayer
    obtain ⟨_, himage, hplayer⟩ := Option.bind_eq_some_iff.mp hplayer
    obtain ⟨_, -, hplayer⟩ := Option.bind_eq_some_iff.mp hplayer
    obtain ⟨_, hartist, hplayer⟩ := Option.bind_eq_some_iff.mp hplayer
    obtain ⟨_, -, hplayer⟩ := Option.bind_eq_some_iff.mp hplayer
    obtain ⟨_, hlink, -⟩ := Option.bind_eq_some_iff.mp hplayer
    unfold Json.Readable
    rw [himage, hartist, hlink]
    exact ⟨rfl, rfl, rfl⟩
  · rintro ⟨himage, hartist, hlink⟩
    obtain ⟨fields, item, rfl, hitem, halbum⟩ := (Json.dig_image_isSome body).mp himage
    have hname : ((Json.object fields).dig [.key "item", .key "name"]).isSome = true := by
      rw [Json.dig_item hitem]
      rfl
    have halbumName : ((Json.object fields).dig
        [.key "item", .key "album", .key "name"]).isSome = true := by
      rw [Json.dig_item hitem]
      show ((Json.field item "album").dig [.key "name"]).isSome = true
      rw [Json.dig_key_isSome]
      exact Json.opens_of_showsAlbum halbum
    obtain ⟨statut, hstatut⟩ : ∃ statut, (Json.object fields).dig [.key "is_playing"] =
        some statut := ⟨_, rfl⟩
    obtain ⟨image, himage⟩ := Option.isSome_iff_exists.mp himage
    obtain ⟨name, hname⟩ := Option.isSome_iff_exists.mp hname
    obtain ⟨artist, hartist⟩ := Option.isSome_iff_exists.mp hartist
    obtain ⟨album, halbumName⟩ := Option.isSome_iff_exists.mp halbumName
    obtain ⟨link, hlink⟩ := Option.isSome_iff_exists.mp hlink
    rw [hstatut, himage, hname, hartist, halbumName, hlink]
    exact ⟨_, rfl, rfl⟩

theorem fetch_played (body : Json) (recentlyPlayed : List PlayedTrack) :
    ShowsPlayer "204" body recentlyPlayed ↔
      ∃ track rest, recentlyPlayed = track :: rest ∧ track.complete = true := by
  unfold ShowsPlayer StatsController.fetchCurrentlyPlaying
  rw [if_neg (by decide), if_pos rfl]
  cases recentlyPlayed with
  | nil =>
      constructor
      · rintro ⟨player, hplayer, -⟩
        cases hplayer
      · rintro ⟨track, rest, hplayed, -⟩
        cases hplayed
  | cons track rest =>
      have hcomplete : track.complete = true ↔ ∃ image artist urls,
          track.images.head? = some image ∧ track.artists.head? = some artist ∧
            track.externalUrls = some urls := by
        unfold PlayedTrack.complete
        cases track.images <;> cases track.artists <;> cases track.externalUrls <;> simp
      constructor
      · rintro ⟨player, hplayer, -⟩
        obtain ⟨_, htrack, hplayer⟩ := Option.bind_eq_some_iff.mp hplayer
        cases htrack
        obtain ⟨image, himage, hplayer⟩ := Option.bind_eq_some_iff.mp hplayer
        obtain ⟨artist, hartist, hplayer⟩ := Option.bind_eq_some_iff.mp hplayer
        obtain ⟨urls, hurls, -⟩ := Option.bind_eq_some_iff.mp hplayer
        exact ⟨track, rest, rfl, hcomplete.mpr ⟨image, artist, urls, himage, hartist, hurls⟩⟩
      · rintro ⟨track', rest', hplayed, h⟩
        cases hplayed
        obtain ⟨image, artist, urls, himage, hartist, hurls⟩ := hcomplete.mp h
        rw [List.head?_cons, Option.bind_eq_bind, Option.bind_some, himage, hartist, hurls]
        exact ⟨_, rfl, rfl⟩

/-- **The player is shown, exactly when.**  With status 200 and a body whose item has an album with
an image, an artist and links, or with status 204 and a track played last that has them; for every
other answer a call raises, or the page reads a field of `nil`. -/
theorem shows_player_iff (code : String) (body : Json) (recentlyPlayed : List PlayedTrack) :
    ShowsPlayer code body recentlyPlayed ↔
      (code = "200" ∧ body.showsBody = true) ∨
        (code = "204" ∧
          ∃ track rest, recentlyPlayed = track :: rest ∧ track.complete = true) := by
  by_cases h200 : code = "200"
  · subst h200
    rw [fetch_playing]
    constructor
    · exact fun h => .inl ⟨rfl, h⟩
    · rintro (⟨-, h⟩ | ⟨h204, -⟩)
      · exact h
      · exact absurd h204 (by decide)
  · by_cases h204 : code = "204"
    · subst h204
      rw [fetch_played]
      constructor
      · exact fun h => .inr ⟨rfl, h⟩
      · rintro (⟨h, -⟩ | ⟨-, h⟩)
        · exact absurd h h200
        · exact h
    · constructor
      · rintro ⟨player, hplayer, hshown⟩
        unfold StatsController.fetchCurrentlyPlaying at hplayer
        rw [if_neg h200, if_neg h204] at hplayer
        cases hplayer
        cases hshown
      · rintro (⟨h, -⟩ | ⟨h, -⟩)
        · exact absurd h h200
        · exact absurd h h204

/-- An advertisement between two songs: the player answers 200 and there is no item. -/
theorem null_item_not_shown :
    ¬ ∀ (code : String) (body : Json) (recentlyPlayed : List PlayedTrack),
      ShowsPlayer code body recentlyPlayed := by
  intro h
  obtain ⟨player, hplayer, -⟩ :=
    h "200" (.object [("is_playing", .bool true), ("item", .null)]) []
  cases hplayer

/-! ### The genres on the page -/

namespace Stats

/-- The page has five bars, and needs five genres. -/
theorem genreBars_isSome_iff (favoriteGenre : List (String × ℕ)) :
    (genreBars favoriteGenre).isSome = true ↔ 5 ≤ favoriteGenre.length := by
  match favoriteGenre with
  | [] | [_] | [_, _] | [_, _, _] | [_, _, _, _] =>
      constructor
      · intro h
        cases h
      · intro h
        simp only [List.length_cons, List.length_nil] at h
        omega
  | a :: b :: c :: d :: e :: rest =>
      constructor
      · intro _
        simp only [List.length_cons]
        omega
      · intro _
        rfl

/-- **The genres are shown, exactly when.**  An execution that stores the genres of the tracks leaves
a row that the page renders if and only if five different genres are listed among them. -/
theorem genres_shown_iff (sortBy : SortBy byCount) {a : Answers} {content : Option SpotifyUser}
    {id : ℕ} {db db' : Database} {tracks : List Track}
    (hrun : (perform sortBy a content id).run db = .ok () db') (htracks : a.topTracks = some tracks)
    (hsaves : a.saves = true) :
    ∃ row, db'.spotifydata.lookup id = some row ∧
      ((genreBars row.favoriteGenre).isSome = true ↔
        5 ≤ (tracks.flatMap Track.listed).dedup.length) := by
  obtain ⟨tracks', row, htracks', hrow, hdb⟩ := perform_run sortBy hrun
  cases htracks.symm.trans htracks'
  rw [if_pos hsaves] at hdb
  have hlookup : db'.spotifydata.lookup id = some { row with
      favoriteGenre := calculateTopGenres sortBy (tracks.flatMap Track.listed) } := by
    rw [hdb]
    show (RowTable.amend id _ db.spotifydata).lookup id = _
    rw [RowTable.lookup_amend_self, hrow, Option.map_some]
  have hlength := (topGenres_calculate sortBy (tracks.flatMap Track.listed)).length
  refine ⟨_, hlookup, ?_⟩
  rw [genreBars_isSome_iff, hlength]
  omega

namespace Sample

/-- The database with one user. -/
def db : Database := Database.empty.withUser 0 "ada"

def user : SpotifyUser := ⟨"ada", some "Ada", some [], some "token"⟩

/-- Spotify answers with the given tracks, and nothing fails. -/
def answers (tracks : List Track) : Answers where
  raises := fun _ => false
  rspotifyUser := some
  topTracks := some tracks
  saves := true

/-- The row after an execution over the given tracks. -/
def stored (tracks : List Track) : Database :=
  db.amendSpotifydata 0 fun row =>
    { row with favoriteGenre := calculateTopGenres sortByCount (tracks.flatMap Track.listed) }

end Sample

/-- Two tracks with three genres each fill the page. -/
theorem six_genres_shown :
    ∃ row, (Sample.stored [Sample.track ["a", "b", "c"], Sample.track ["d", "e", "f"]]).spotifydata.lookup
        0 = some row ∧ (genreBars row.favoriteGenre).isSome = true := by
  have hrun : (perform Sample.sortByCount
      (Sample.answers [Sample.track ["a", "b", "c"], Sample.track ["d", "e", "f"]])
      (some Sample.user) 0).run Sample.db =
      .ok () (Sample.stored [Sample.track ["a", "b", "c"], Sample.track ["d", "e", "f"]]) := rfl
  obtain ⟨row, hrow, hshown⟩ := genres_shown_iff Sample.sortByCount hrun rfl rfl
  exact ⟨row, hrow, hshown.mpr (by decide)⟩

/-- A listener without a history has no genres, and the page reads an entry of `nil`. -/
theorem no_tracks_not_shown :
    ¬ ∀ (sortBy : SortBy byCount) (a : Answers) (content : Option SpotifyUser) (id : ℕ)
        (db db' : Database), (perform sortBy a content id).run db = .ok () db' → a.saves = true →
      ∃ row, db'.spotifydata.lookup id = some row ∧
        (genreBars row.favoriteGenre).isSome = true := by
  intro h
  obtain ⟨row, hrow, hshown⟩ := h Sample.sortByCount (Sample.answers []) (some Sample.user) 0
    Sample.db (Sample.stored []) rfl rfl
  cases hrow
  cases hshown

end Stats

end Knoiz
