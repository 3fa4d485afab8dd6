import Mathlib.Data.List.Infix
import Knoiz.Library.PercentEncoding
import Knoiz.Library.ProgramLogic
import Knoiz.Request

/-!
# The two Sidekiq workers behind `create_playlist`

`Playlist` asks OpenAI for a title and for a list of songs and hands a `Create` job in; `Create`
searches the songs on Spotify, creates a playlist, and fills it with a POST and a PUT of its own.
Each is a program over what it writes outside: the queue of `Create` jobs, and the playlists of the
Spotify account.  One execution is given what every call outside will answer.

A call that raises may have taken effect all the same, when only its answer was lost.  HTTParty
returns a response for every status and raises only when none arrives; Spotify carries a request
out when it answers 2xx.
-/

namespace Knoiz

/-! ### JSON values -/

/-- What `JSON.parse` returns. -/
inductive Json where
  | null
  | bool (b : Bool)
  | number (n : ℤ)
  | string (s : String)
  | array (items : List Json)
  | object (fields : List (String × Json))

namespace Json

/-- `value[key]` for a string key: a hash gives the field or `nil`, a string its substring or
`nil`, and everything else raises. -/
def key (name : String) : Json → Option Json
  | .object fields => some ((fields.lookup name).getD .null)
  | .string s => some (if name.toList <:+: s.toList then .string name else .null)
  | _ => none

/-- `value.each` and `value.map`: a hash yields its pairs. -/
def each : Json → Option (List Json)
  | .array items => some items
  | .object fields => some (fields.map fun field => .array [.string field.1, field.2])
  | _ => none

/-- `value.first`, also of a string as ActiveSupport has it. -/
def first : Json → Option Json
  | .string s => some (.string (String.ofList (s.toList.take 1)))
  | value => value.each.map fun items => items.head?.getD .null

/-- `response_json["choices"].first["message"]["content"]`. -/
def content (response : Json) : Option Json := do
  let choices ← response.key "choices"
  let choice ← choices.first
  let message ← choice.key "message"
  message.key "content"

end Json

/-- `JSON.parse`, which raises on a text that is not JSON, and `to_json`. -/
structure JsonText where
  parse : String → Option Json
  generate : List Json → String

/-! ### Calls outside and their answers -/

inductive WorkerCall where
  | openaiClient | titleRequest | songsRequest | performAsync
  | findUser | newSpotifyUser | readImage | search | createPlaylist | credentials | postTracks
  | readImageAgain | putImage
  | topTracks | genres | saveSpotifydata
  deriving DecidableEq, Repr

inductive WorkerError where
  | raised (c : WorkerCall)
  | parserError
  | noMethodError
  deriving DecidableEq, Repr

/-- How a write ends: it has taken effect and answered; it has raised without effect; it has taken
effect, and the answer was lost. -/
inductive Delivery where
  | answered | lost | unanswered
  deriving DecidableEq, Repr

/-- The answer to an HTTParty call: a status, or none, and then Spotify may have carried the
request out or not. -/
inductive Reply where
  | status (code : ℕ)
  | noResponse (carriedOut : Bool)
  deriving DecidableEq, Repr

/-- Spotify has carried the request out. -/
def Reply.accepted : Reply → Bool
  | .status code => 200 ≤ code && code < 300
  | .noResponse carriedOut => carriedOut

def Reply.isStatus : Reply → Bool
  | .status _ => true
  | .noResponse _ => false

/-- A program of a worker over what it writes outside. -/
abbrev Worker (σ : Type) := EStateM WorkerError σ

/-- A call that reads, or computes, and may raise. -/
def workerCall {σ : Type} (raises : WorkerCall → Bool) (c : WorkerCall) : Worker σ Unit :=
  if raises c then throw (.raised c) else return

/-- A value, or the exception of a call on something that has not got the method. -/
def orNoMethod {σ α : Type} : Option α → Worker σ α
  | some a => return a
  | none => throw .noMethodError

/-! ### `Playlist` -/

namespace Playlist

/-- The arguments of a `Playlist` job. -/
structure Args where
  textSearch : String
  spotifyUserContent : Option SpotifyUser
  spotifyUserId : ℕ

/-- The arguments of a `Create` job. -/
structure CreateArgs where
  myArrayJson : String
  spotifyUserContent : Option SpotifyUser
  spotifyUserId : ℕ
  playlistTitle : String

/-- What one execution of `Playlist.perform` is answered: the bodies of the two completions, as
functions of the prompt, and what becomes of the push. -/
structure Answers where
  raises : WorkerCall → Bool
  title : String → Option String
  songs : String → Option String
  performAsync : Delivery

/-- `str.gsub(pattern, "")` for a fixed pattern: every occurrence from the left is dropped. -/
def dropAll (pattern : List Char) : ℕ → List Char → List Char
  | _, [] => []
  | n + 1, _ :: cs => dropAll pattern n cs
  | 0, c :: cs =>
      if pattern.isPrefixOf (c :: cs) then dropAll pattern (pattern.length - 1) cs
      else c :: dropAll pattern 0 cs

/-- The characters that `strip` drops at both ends. -/
def isBlank (c : Char) : Bool := c.isWhitespace || c.toNat == 0 || c.toNat == 11 || c.toNat == 12

/-- ``response_ai.gsub("```json", "").gsub("```", "").strip``. -/
def unfenced (responseAi : String) : String :=
  let text := dropAll "```".toList 0 (dropAll "```json".toList 0 responseAi.toList)
  String.ofList ((text.dropWhile isBlank).reverse.dropWhile isBlank).reverse

/-- `clean_string`: `gsub` of a backslash with the `n` behind it, of double quotes, of square
brackets and of single backslashes. -/
def cleanString : List Char → List Char
  | [] => []
  | '\\' :: 'n' :: cs => cleanString cs
  | c :: cs =>
      if c = '"' ∨ c = '[' ∨ c = ']' ∨ c = '\\' then cleanString cs else c :: cleanString cs

def titlePrompt (textSearch : String) : String :=
  "Create a playlist title without quotes that matches this description : " ++ textSearch

def songsPrompt (textSearch : String) : String :=
  "Create a playlist of strictly 30 songs by 30 different artists, all in a similar style " ++
    "and era to " ++ textSearch ++ ". Each song should be unique without any repetitions and " ++
    "should only list the main artist, excluding any featured artists. I want the output " ++
    "presented as text that resembles JSON format, with each entry combining the song and " ++
    "artist into a single string under a 'Track' key. The entries should be formatted like " ++
    "this: ( Track : Song Title - Artist Name ). Please generate the playlist in this mock " ++
    "JSON text format."

section Perform

variable (json : JsonText) {σ : Type}

def parseText (text : String) : Worker σ Json :=
  match json.parse text with
  | some value => return value
  | none => throw .parserError

/-- A completion: the request, and the content of the first choice. -/
def completion (c : WorkerCall) (body : Option String) : Worker σ Json :=
  match body with
  | none => throw (.raised c)
  | some body => do
      let response ← parseText json body
      orNoMethod response.content

/-- `gsub` on a value that is not a string raises. -/
def textOf : Json → Worker σ String
  | .string s => return s
  | _ => throw .noMethodError

/-- `generate_playlist_title`.  The value of `clean_string` is dropped. -/
def generatePlaylistTitle (a : Answers) (textSearch : String) : Worker σ String := do
  let content ← completion json .titleRequest (a.title (titlePrompt textSearch))
  let playlistTitle ← textOf content
  let _cleaned := cleanString playlistTitle.toList
  return playlistTitle

/-- `generate_song_list`. -/
def generateSongList (a : Answers) (textSearch : String) : Worker σ (List Json) := do
  let content ← completion json .songsRequest (a.songs (songsPrompt textSearch))
  let responseAi ← textOf content
  let tracksArray ← parseText json (unfenced responseAi)
  let tracks ← orNoMethod tracksArray.each
  orNoMethod (tracks.mapM fun track => track.key "Track")

/-- `Create.perform_async(…)`. -/
def createPerformAsync (a : Answers) (job : CreateArgs) : Worker (List CreateArgs) Unit :=
  match a.performAsync with
  | .answered => modify fun jobs => jobs ++ [job]
  | .lost => throw (.raised .performAsync)
  | .unanswered => do
      modify fun jobs => jobs ++ [job]
      throw (.raised .performAsync)

/-- `Playlist#perform` up to the push: the job that it hands in. -/
def createJob (args : Args) (a : Answers) : Worker σ CreateArgs := do
  workerCall a.raises .openaiClient
  let playlistTitle ← generatePlaylistTitle json a args.textSearch
  let myArray ← generateSongList json a args.textSearch
  let myArrayJson := json.generate myArray
  return ⟨myArrayJson, args.spotifyUserContent, args.spotifyUserId, playlistTitle⟩

/-- `Playlist#perform`, over the queue of `Create` jobs. -/
def perform (args : Args) (a : Answers) : Worker (List CreateArgs) Unit := do
  let job ← createJob json args a
  createPerformAsync a job

end Perform

end Playlist

/-! ### `Create` -/

namespace Create

open Playlist (CreateArgs parseText)

/-- A track that Spotify has found, with its base-62 id. -/
structure Track where
  id : String
  base62 : ∀ c ∈ id.toList, c.isAlphanum = true

/-- The URI of a track. -/
def Track.uri (track : Track) : String := "spotify:track:" ++ track.id

/-- A playlist of the Spotify account; it is known by its place in the list. -/
structure SpotifyPlaylist where
  name : String
  tracks : List String
  image : Bool
  deriving DecidableEq, Repr

/-- What one execution of `Create.perform` is answered. -/
structure Answers where
  raises : WorkerCall → Bool
  rspotifyUser : SpotifyUser → Option SpotifyUser
  search : ℕ → Json → Option (List Track)
  createPlaylist : Delivery
  postTracks : Reply
  putImage : Reply

/-- The tracks that a `uris` query value lists. -/
def urisOf (query : String) : List String :=
  ((PercentEncoding.decode query.toList).splitOn ',').map String.ofList

/-- The tracks come in at position 0. -/
def SpotifyPlaylist.addTracks (query : String) (playlist : SpotifyPlaylist) : SpotifyPlaylist :=
  { playlist with tracks := urisOf query ++ playlist.tracks }

def SpotifyPlaylist.setImage (playlist : SpotifyPlaylist) : SpotifyPlaylist :=
  { playlist with image := true }

/-- `RSpotify::User.new(spotify_user_content)`. -/
def newSpotifyUser {σ : Type} (a : Answers) (content : Option SpotifyUser) : Worker σ SpotifyUser :=
  match content.bind a.rspotifyUser with
  | some user => return user
  | none => throw (.raised .newSpotifyUser)

/-- The loop over the songs, from the `k`-th on: the first result of each search, if it has one. -/
def searchSongs {σ : Type} (a : Answers) : ℕ → List Json → List Track → Worker σ (List Track)
  | _, [], tempPlaylist => return tempPlaylist
  | k, song :: songs, tempPlaylist =>
      match a.search k song with
      | none => throw (.raised .search)
      | some tracks =>
          match tracks.head? with
          | some track => searchSongs a (k + 1) songs (tempPlaylist ++ [track])
          | none => searchSongs a (k + 1) songs tempPlaylist

/-- `temp_playlist.map { |track| "spotify%3Atrack%3A#{track.id}" }.join('%2C')`. -/
def tracksString (tempPlaylist : List Track) : String :=
  "%2C".intercalate (tempPlaylist.map fun track => "spotify%3Atrack%3A" ++ track.id)

/-- `spotify_user.create_playlist!(name)`. -/
def createPlaylist (a : Answers) (name : String) : Worker (List SpotifyPlaylist) ℕ := do
  let playlists ← get
  match a.createPlaylist with
  | .answered => do
      set (playlists ++ [⟨name, [], false⟩])
      return playlists.length
  | .lost => throw (.raised .createPlaylist)
  | .unanswered => do
      set (playlists ++ [⟨name, [], false⟩])
      throw (.raised .createPlaylist)

/-- `HTTParty.post` and `HTTParty.put` on a playlist: the status that arrives, if one does. -/
def httparty (c : WorkerCall) (reply : Reply) (playlist : ℕ)
    (effect : SpotifyPlaylist → SpotifyPlaylist) : Worker (List SpotifyPlaylist) ℕ := do
  if reply.accepted then modify fun playlists => playlists.modify playlist effect
  match reply with
  | .status code => return code
  | .noResponse _ => throw (.raised c)

/-- What `Create#perform` does once it has found some songs.  Neither response is looked at. -/
def createAndFill (a : Answers) (playlistTitle tracksString : String) :
    Worker (List SpotifyPlaylist) Unit := do
  let playlist ← createPlaylist a ("Knoiz | " ++ playlistTitle)
  workerCall a.raises .credentials
  let _response ← httparty .postTracks a.postTracks playlist (·.addTracks tracksString)
  workerCall a.raises .readImageAgain
  let _response ← httparty .putImage a.putImage playlist SpotifyPlaylist.setImage
  return

/-- `Create#perform` up to the test whether any songs have been found. -/
def foundSongs {σ : Type} (json : JsonText) (args : CreateArgs) (a : Answers) :
    Worker σ (List Track) := do
  workerCall a.raises .findUser
  let _spotifyUser ← newSpotifyUser a args.spotifyUserContent
  workerCall a.raises .readImage
  let myArray ← parseText json args.myArrayJson
  let songs ← orNoMethod myArray.each
  searchSongs a 0 songs []

/-- `Create#perform`, over the playlists of the Spotify account. -/
def perform (json : JsonText) (args : CreateArgs) (a : Answers) :
    Worker (List SpotifyPlaylist) Unit := do
  let tempPlaylist ← foundSongs json args a
  let tracksString := tracksString tempPlaylist
  if tempPlaylist.isEmpty then return
  else createAndFill a args.playlistTitle tracksString

end Create

/-! ### What an execution writes -/

section Writes

open ProgramLogic

variable {σ α β : Type}

theorem reads_workerCall (raises : WorkerCall → Bool) (c : WorkerCall) :
    Reads (workerCall raises c : Worker σ Unit) := by
  unfold workerCall
  split
  · exact Reads.raise _
  · exact Reads.pure _

theorem reads_orNoMethod (o : Option α) : Reads (orNoMethod o : Worker σ α) := by
  cases o with
  | some a => exact Reads.pure a
  | none => exact Reads.raise _

namespace Playlist

variable (json : JsonText)

theorem reads_parseText (text : String) : Reads (parseText json text : Worker σ Json) := by
  unfold parseText
  cases json.parse text with
  | some value => exact Reads.pure value
  | none => exact Reads.raise _

theorem reads_completion (c : WorkerCall) (body : Option String) :
    Reads (completion json c body : Worker σ Json) := by
  cases body with
  | none => exact Reads.raise _
  | some body => exact (reads_parseText json body).bind fun _ => reads_orNoMethod _

theorem reads_textOf (value : Json) : Reads (textOf value : Worker σ String) := by
  cases value with
  | string s => exact Reads.pure s
  | _ => exact Reads.raise _

theorem reads_generatePlaylistTitle (a : Answers) (textSearch : String) :
    Reads (generatePlaylistTitle json a textSearch : Worker σ String) :=
  (reads_completion json _ _).bind fun _ => (reads_textOf _).bind fun _ => Reads.pure _

theorem reads_generateSongList (a : Answers) (textSearch : String) :
    Reads (generateSongList json a textSearch : Worker σ (List Json)) :=
  (reads_completion json _ _).bind fun _ => (reads_textOf _).bind fun _ =>
    (reads_parseText json _).bind fun _ => (reads_orNoMethod _).bind fun _ => reads_orNoMethod _

theorem reads_createJob (args : Args) (a : Answers) :
    Reads (createJob json args a : Worker σ CreateArgs) :=
  (reads_workerCall _ _).bind fun _ => (reads_generatePlaylistTitle json _ _).bind fun _ =>
    (reads_generateSongList json _ _).bind fun _ => Reads.pure _

/-- A job is made of the title and of the list of songs. -/
theorem createJob_ok {args : Args} {a : Answers} {s : σ} {job : CreateArgs}
    (h : (createJob json args a).run s = .ok job s) :
    ∃ title songs, (generatePlaylistTitle json a args.textSearch).run s = .ok title s ∧
      (generateSongList json a args.textSearch).run s = .ok songs s ∧
      job = ⟨json.generate songs, args.spotifyUserContent, args.spotifyUserId, title⟩ := by
  unfold createJob workerCall at h
  rw [EStateM.run_bind] at h
  cases hclient : a.raises .openaiClient with
  | true =>
      simp only [hclient, if_true] at h
      cases h
  | false =>
      simp only [hclient, Bool.false_eq_true, if_false, EStateM.run_pure, EStateM.run_bind] at h
      rcases reads_generatePlaylistTitle json a args.textSearch s with ⟨title, htitle⟩ | ⟨e, he⟩
      · rw [htitle] at h
        rcases reads_generateSongList json a args.textSearch s with ⟨songs, hsongs⟩ | ⟨e, he⟩
        · simp only [hsongs, EStateM.Result.ok.injEq] at h
          exact ⟨title, songs, htitle, hsongs, h.1.symm⟩
        · simp only [he] at h
          cases h
      · rw [he] at h
        cases h

/-- One execution of `Playlist` raises and hands no job in, or hands in the one that it has
prepared. -/
theorem perform_run (args : Args) (a : Answers) (jobs : List CreateArgs) :
    (∃ e, (perform json args a).run jobs = .error e jobs ∧
        ∀ job, (createJob json args a).run jobs = .ok job jobs → a.performAsync = .lost) ∨
      ∃ job, (createJob json args a).run jobs = .ok job jobs ∧
        (a.performAsync = .answered ∧ (perform json args a).run jobs = .ok () (jobs ++ [job]) ∨
          a.performAsync = .unanswered ∧
            ∃ e, (perform json args a).run jobs = .error e (jobs ++ [job])) := by
  unfold perform
  rw [EStateM.run_bind]
  rcases reads_createJob json args a jobs with ⟨job, hjob⟩ | ⟨e, hjob⟩
  · rw [hjob]
    unfold createPerformAsync
    cases hpush : a.performAsync with
    | answered => exact .inr ⟨job, rfl, .inl ⟨rfl, rfl⟩⟩
    | lost => exact .inl ⟨_, rfl, fun _ _ => rfl⟩
    | unanswered => exact .inr ⟨job, rfl, .inr ⟨rfl, _, rfl⟩⟩
  · rw [hjob]
    exact .inl ⟨e, rfl, fun _ h => nomatch h⟩

end Playlist

namespace Create

open Playlist (CreateArgs reads_parseText)

theorem reads_searchSongs (a : Answers) (k : ℕ) (songs : List Json) (tempPlaylist : List Track) :
    Reads (searchSongs a k songs tempPlaylist : Worker σ (List Track)) := by
  induction songs generalizing k tempPlaylist with
  | nil => exact Reads.pure tempPlaylist
  | cons song songs ih =>
      unfold searchSongs
      cases a.search k song with
      | none => exact Reads.raise _
      | some tracks =>
          simp only
          cases tracks.head? with
          | some track => exact ih _ _
          | none => exact ih _ _

theorem reads_foundSongs (json : JsonText) (args : CreateArgs) (a : Answers) :
    Reads (foundSongs json args a : Worker σ (List Track)) := by
  have huser : Reads (newSpotifyUser a args.spotifyUserContent : Worker σ SpotifyUser) := by
    unfold newSpotifyUser
    cases args.spotifyUserContent.bind a.rspotifyUser with
    | some user => exact Reads.pure user
    | none => exact Reads.raise _
  exact (reads_workerCall _ _).bind fun _ => huser.bind fun _ =>
    (reads_workerCall _ _).bind fun _ => (reads_parseText json _).bind fun _ =>
    (reads_orNoMethod _).bind fun _ => reads_searchSongs a _ _ _

/-- Nothing raises from `create_playlist!` on: the playlist and both responses arrive. -/
def Answers.goesThrough (a : Answers) : Bool :=
  a.createPlaylist = .answered && !a.raises .credentials && a.postTracks.isStatus &&
    !a.raises .readImageAgain && a.putImage.isStatus

theorem modify_concat (playlists : List SpotifyPlaylist) (playlist : SpotifyPlaylist)
    (f : SpotifyPlaylist → SpotifyPlaylist) :
    (playlists ++ [playlist]).modify playlists.length f = playlists ++ [f playlist] := by
  induction playlists with
  | nil => rfl
  | cons p playlists ih =>
      rw [List.cons_append, List.length_cons, List.modify_succ_cons, ih, List.cons_append]

/-- An HTTParty call on the last playlist. -/
theorem httparty_run (c : WorkerCall) (reply : Reply) (playlists : List SpotifyPlaylist)
    (playlist : SpotifyPlaylist) (effect : SpotifyPlaylist → SpotifyPlaylist) :
    (reply.isStatus = true ∧ ∃ code, (httparty c reply playlists.length effect).run
        (playlists ++ [playlist]) = .ok code
          (playlists ++ [if reply.accepted then effect playlist else playlist])) ∨
      (reply.isStatus = false ∧ ∃ e, (httparty c reply playlists.length effect).run
        (playlists ++ [playlist]) = .error e
          (playlists ++ [if reply.accepted then effect playlist else playlist])) := by
  have hmodify := modify_concat playlists playlist effect
  unfold httparty
  cases reply with
  | status code =>
      refine .inl ⟨rfl, code, ?_⟩
      cases hr : (Reply.status code).accepted with
      | true =>
          simp only [if_true, EStateM.run_bind, ← hmodify]
          rfl
      | false => rfl
  | noResponse carriedOut =>
      refine .inr ⟨rfl, .raised c, ?_⟩
      cases carriedOut with
      | true =>
          simp only [Reply.accepted, if_true, EStateM.run_bind, ← hmodify]
          rfl
      | false => rfl

/-- What `createAndFill` ends in: no playlist; a playlist and an exception; or a playlist, which has
the listed tracks exactly if the POST was accepted. -/
inductive CreatesAndFills (a : Answers) (query : String) (playlists : List SpotifyPlaylist) :
    EStateM.Result WorkerError (List SpotifyPlaylist) Unit → Prop
  | lost (e : WorkerError) (h : a.createPlaylist = .lost) :
      CreatesAndFills a query playlists (.error e playlists)
  | broken (e : WorkerError) (playlist : SpotifyPlaylist) (h : a.createPlaylist ≠ .lost)
      (hbroken : a.goesThrough = false) :
      CreatesAndFills a query playlists (.error e (playlists ++ [playlist]))
  | through (playlist : SpotifyPlaylist) (h : a.goesThrough = true)
      (htracks : playlist.tracks = if a.postTracks.accepted then urisOf query else []) :
      CreatesAndFills a query playlists (.ok () (playlists ++ [playlist]))

theorem createAndFill_run (a : Answers) (playlistTitle query : String)
    (playlists : List SpotifyPlaylist) :
    CreatesAndFills a query playlists ((createAndFill a playlistTitle query).run playlists) := by
  unfold createAndFill createPlaylist workerCall
  simp only [EStateM.run_bind, EStateM.run_get]
  cases hcreate : a.createPlaylist with
  | lost => exact .lost _ hcreate
  | unanswered =>
      refine .broken _ _ (by rw [hcreate]; decide) ?_
      unfold Answers.goesThrough
      rw [hcreate]
      rfl
  | answered =>
    have hne : a.createPlaylist ≠ .lost := by
      rw [hcreate]
      decide
    simp only [EStateM.run_bind, EStateM.run_set, EStateM.run_pure]
    cases hcredentials : a.raises .credentials with
    | true =>
        refine .broken _ _ hne ?_
        unfold Answers.goesThrough
        rw [hcredentials]
        simp
    | false =>
      simp only [Bool.false_eq_true, if_false, EStateM.run_pure]
      rcases httparty_run .postTracks a.postTracks playlists ⟨"Knoiz | " ++ playlistTitle, [], false⟩
          (·.addTracks query) with ⟨hpost, code, hrun⟩ | ⟨hpost, e, hrun⟩
      · rw [hrun]
        simp only
        cases himage : a.raises .readImageAgain with
        | true =>
            refine .broken _ _ hne ?_
            unfold Answers.goesThrough
            rw [himage]
            simp
        | false =>
          simp only [Bool.false_eq_true, if_false, EStateM.run_pure]
          rcases httparty_run .putImage a.putImage playlists _ SpotifyPlaylist.setImage with
            ⟨hput, code', hrun'⟩ | ⟨hput, e, hrun'⟩
          · rw [hrun']
            refine .through _ ?_ ?_
            · unfold Answers.goesThrough
              rw [hcreate, hcredentials, hpost, himage, hput]
              rfl
            · cases a.postTracks.accepted <;> cases a.putImage.accepted <;>
                simp [SpotifyPlaylist.addTracks, SpotifyPlaylist.setImage]
          · rw [hrun']
            refine .broken _ _ hne ?_
            unfold Answers.goesThrough
            rw [hput]
            simp
      · rw [hrun]
        refine .broken _ _ hne ?_
        unfold Answers.goesThrough
        rw [hpost]
        simp

/-- One execution of `Create` raises before it has found songs, finds none, or goes on. -/
theorem perform_run (json : JsonText) (args : CreateArgs) (a : Answers)
    (playlists : List SpotifyPlaylist) :
    (∃ e, (perform json args a).run playlists = .error e playlists ∧
        (foundSongs json args a).run playlists = .error e playlists) ∨
      ∃ tracks, (foundSongs json args a).run playlists = .ok tracks playlists ∧
        (tracks = [] ∧ (perform json args a).run playlists = .ok () playlists ∨
          tracks ≠ [] ∧ CreatesAndFills a (tracksString tracks) playlists
            ((perform json args a).run playlists)) := by
  unfold perform
  rw [EStateM.run_bind]
  rcases reads_foundSongs json args a playlists with ⟨tracks, hfound⟩ | ⟨e, hfound⟩
  · rw [hfound]
    refine .inr ⟨tracks, rfl, ?_⟩
    cases tracks with
    | nil => exact .inl ⟨rfl, rfl⟩
    | cons track tracks =>
        exact .inr ⟨List.cons_ne_nil _ _, createAndFill_run a args.playlistTitle _ playlists⟩
  · rw [hfound]
    exact .inl ⟨e, rfl, rfl⟩

/-! ### The tracks of a playlist -/

theorem encodes_uri (track : Track) :
    PercentEncoding.Encodes ("spotify%3Atrack%3A" ++ track.id).toList track.uri.toList := by
  have hid : PercentEncoding.Encodes track.id.toList track.id.toList := by
    refine PercentEncoding.encodes_plain fun hmem => ?_
    have := track.base62 _ hmem
    exact absurd this (by decide)
  have hcolon := PercentEncoding.encodes_escape (show PercentEncoding.unescape '3' 'A' = some ':' by
    decide)
  have hspotify := PercentEncoding.encodes_plain (show '%' ∉ "spotify".toList by decide)
  have htrack := PercentEncoding.encodes_plain (show '%' ∉ "track".toList by decide)
  rw [String.toList_append, Track.uri, String.toList_append]
  exact (((hspotify.append hcolon).append htrack).append hcolon).append hid

/-- **The query lists the tracks.**  Decoded and split at its commas, the `uris` value is the list of
the URIs of the tracks that it was built from. -/
theorem urisOf_tracksString {tracks : List Track} (h : tracks ≠ []) :
    urisOf (tracksString tracks) = tracks.map Track.uri := by
  have hcomma : PercentEncoding.Encodes "%2C".toList [','] :=
    PercentEncoding.encodes_escape (show PercentEncoding.unescape '2' 'C' = some ',' by decide)
  have hdecode := (hcomma.intercalate (fun track : Track => ("spotify%3Atrack%3A" ++ track.id).toList)
    (fun track => track.uri.toList) tracks fun track _ => encodes_uri track).decode
  have hquery : (tracksString tracks).toList = "%2C".toList.intercalate
      (tracks.map fun track => ("spotify%3Atrack%3A" ++ track.id).toList) := by
    unfold tracksString
    rw [String.toList_intercalate, List.map_map]
    rfl
  have hplain : ∀ uri ∈ tracks.map fun track => track.uri.toList, ',' ∉ uri := by
    intro uri huri hmem
    obtain ⟨track, -, rfl⟩ := List.mem_map.mp huri
    rw [Track.uri, String.toList_append] at hmem
    rcases List.mem_append.mp hmem with hmem | hmem
    · exact absurd hmem (by decide)
    · exact absurd (track.base62 _ hmem) (by decide)
  unfold urisOf
  rw [hquery, hdecode, List.splitOn_intercalate ',' hplain (by simpa using h), List.map_map]
  refine List.map_congr_left fun track _ => ?_
  exact String.ofList_toList

end Create

end Writes

end Knoiz
