import Mathlib.Data.List.DropRight
import Knoiz.PlaylistTitle

/-!
# From a list of songs to a list of track URIs

The songs go from `Playlist` to `Create` as a JSON text, `Create` looks each of them up, and what it
finds goes out as one query value with its own percent-encoding.  Decoded and split, that value lists
the first results again, also when there is one of them or none; and a playlist is created for any
list but the empty one.
-/

namespace Knoiz.TrackUris

open ProgramLogic
open Create (SpotifyPlaylist Track foundSongs newSpotifyUser searchSongs tracksString urisOf)
open Playlist (CreateArgs createJob generateSongList)

/-! ### The query value -/

section Search

variable {σ : Type} {a : Create.Answers} {find : String → List Track} {songs : List String}

end Search

/-! ### One execution of `Create` -/

section Uris

variable {json : JsonText} {job : CreateArgs} {a : Create.Answers} {playlists : List SpotifyPlaylist}

end Uris

/-! ### Several songs -/

namespace Sample

open PlaylistPipeline.Sample (args content playlistAnswers titleBody)

/-- Four songs, one of them twice. -/
def songs : List String := ["Hey", "Nobody", "Yes", "Hey"]

def songsBody : String := "songs"

def tracksText : String := "[Hey, Nobody, Yes, Hey]"

/-- JSON on the texts of the sample run. -/
def json : JsonText where
  parse text :=
    if text = titleBody then some (content "Mix")
    else if text = songsBody then some (content tracksText)
    else if text = tracksText then
      some (.array (songs.map fun song => .object [("Track", .string song)]))
    else if text = "[\"Hey\",\"Nobody\",\"Yes\",\"Hey\"]" then some (.array (songs.map .string))
    else none
  generate _ := "[\"Hey\",\"Nobody\",\"Yes\",\"Hey\"]"

def answers : Playlist.Answers := { playlistAnswers with songs := fun _ => some songsBody }

/-- A track of the sample run. -/
def track (id : String) (h : id.toList.all Char.isAlphanum = true) : Track :=
  ⟨id, List.all_eq_true.mp h⟩

/-- Two results for one song, none for another, and one for the third. -/
def find (song : String) : List Track :=
  if song = "Hey" then [track "6rqhFgbb" rfl, track "0aBcD" rfl]
  else if song = "Yes" then [track "0aBcD" rfl]
  else []

def createAnswers : Create.Answers where
  raises _ := false
  rspotifyUser := some
  search
    | _, .string song => some (find song)
    | _, _ => none
  createPlaylist := .answered
  postTracks := .status 201
  putImage := .status 202

def job : CreateArgs :=
  ⟨"[\"Hey\",\"Nobody\",\"Yes\",\"Hey\"]", args.spotifyUserContent, args.spotifyUserId, "Mix"⟩

end Sample

end Knoiz.TrackUris
