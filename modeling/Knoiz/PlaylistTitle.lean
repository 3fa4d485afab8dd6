import Knoiz.Library.Lookbehind
import Knoiz.PlaylistPipeline

/-!
# The title of a playlist

`clean_string` is one pass from left to right over an alternation whose first branch, a backslash
with the `n` behind it, overlaps its last, a backslash alone.  It looks ahead; what it drops can be
said by looking back: the four characters, and every `n` with a backslash before it.
`generate_playlist_title` calls it and drops what it returns.
-/

namespace Knoiz.PlaylistTitle

open Lookbehind ProgramLogic
open Create (SpotifyPlaylist)
open Playlist (CreateArgs cleanString completion createJob generatePlaylistTitle titlePrompt)

/-! ### `clean_string` -/

/-- The four characters that `clean_string` is there to remove. -/
def Forbidden (c : Char) : Prop := c = '"' ∨ c = '[' ∨ c = ']' ∨ c = '\\'

instance (c : Char) : Decidable (Forbidden c) := inferInstanceAs (Decidable (_ ∨ _))

/-- A character stays unless it is one of the four, or an `n` right behind a backslash. -/
def stays (before : Option Char) (c : Char) : Bool :=
  decide (¬ Forbidden c ∧ ¬ (c = 'n' ∧ before = some '\\'))

theorem stays_iff {before : Option Char} {c : Char} :
    stays before c = true ↔ ¬ Forbidden c ∧ ¬ (c = 'n' ∧ before = some '\\') :=
  decide_eq_true_iff

theorem not_stays_of_forbidden {c : Char} (h : Forbidden c) (before : Option Char) :
    ¬ stays before c = true :=
  fun hstays => (stays_iff.mp hstays).1 h

/-- Behind a character that the first branch has not matched, the pass is not between a backslash
and its `n`. -/
theorem not_between {c : Char} {cs : List Char}
    (h : ∀ rest, c = '\\' → cs = 'n' :: rest → False) :
    some c = some '\\' → cs.head? ≠ some 'n' := by
  intro hc hn
  obtain ⟨rest, rfl⟩ := List.head?_eq_some_iff.mp hn
  exact h rest (Option.some_inj.mp hc) rfl

/-- **Looking ahead and looking back agree.**  The pass keeps what the filter keeps, from any
position that is not between a backslash and its `n`. -/
theorem cleanString_eq_filterBehind (before : Option Char) (s : List Char)
    (h : before = some '\\' → s.head? ≠ some 'n') :
    cleanString s = filterBehind stays before s := by
  fun_induction cleanString s generalizing before with
  | case1 => rfl
  | case2 cs ih =>
      -- the backslash goes, and the `n` goes because the backslash stands before it
      have hbackslash : ¬ stays before '\\' = true := not_stays_of_forbidden (by decide) _
      have hn : ¬ stays (some '\\') 'n' = true := by decide
      rw [filterBehind_cons_of_neg hbackslash, filterBehind_cons_of_neg hn]
      exact ih (some 'n') fun hne => absurd hne (by decide)
  | case3 c cs hlook hc ih =>
      rw [filterBehind_cons_of_neg (not_stays_of_forbidden hc before)]
      exact ih (some c) (not_between hlook)
  | case4 c cs hlook hc ih =>
      have hstays : stays before c = true := by
        refine stays_iff.mpr ⟨hc, fun hn => h hn.2 ?_⟩
        rw [hn.1]
        rfl
      rw [filterBehind_cons_of_pos hstays]
      exact congrArg (c :: ·) (ih (some c) (not_between hlook))

/-- What `clean_string` leaves is free of the four characters. -/
theorem not_forbidden_of_mem {s : List Char} {c : Char} (h : c ∈ cleanString s) :
    ¬ Forbidden c := by
  rw [cleanString_eq_filterBehind none s fun hne => absurd hne (by simp)] at h
  obtain ⟨before, hstays⟩ := exists_behind_of_mem h
  exact (stays_iff.mp hstays).1

/-- A text without the four characters has no backslash for an `n` to stand behind. -/
theorem cleanString_of_clean {s : List Char} (h : ∀ c ∈ s, ¬ Forbidden c) : cleanString s = s := by
  rw [cleanString_eq_filterBehind none s fun hne => absurd hne (by simp)]
  refine filterBehind_eq_self fun p hp => stays_iff.mpr ⟨h p.2 (mem_of_mem_withBehind hp), ?_⟩
  rintro ⟨-, hbefore⟩
  have hbackslash : (some '\\', p.2) ∈ withBehind none s := hbefore ▸ hp
  rcases behind_mem hbackslash with hnone | hmem
  · exact absurd hnone (by simp)
  · exact h _ hmem (by decide)

/-- **`clean_string` meets its specification.**  Of every text it keeps the characters, in order,
that are none of the four and no `n` right behind a backslash; so none of the four is left, a second
pass changes nothing, and the texts that it does not change are those without the four. -/
theorem cleanString_spec (s : List Char) :
    (∀ c ∈ cleanString s, c ≠ '"' ∧ c ≠ '[' ∧ c ≠ ']' ∧ c ≠ '\\') ∧
      (cleanString s).Sublist s ∧
      cleanString s = (((none :: s.map some).zip s).filter fun p =>
        decide (¬ (p.2 = '"' ∨ p.2 = '[' ∨ p.2 = ']' ∨ p.2 = '\\') ∧
          ¬ (p.2 = 'n' ∧ p.1 = some '\\'))).map Prod.snd ∧
      cleanString (cleanString s) = cleanString s ∧
      (cleanString s = s ↔ ∀ c ∈ s, c ≠ '"' ∧ c ≠ '[' ∧ c ≠ ']' ∧ c ≠ '\\') := by
  have hfilter := cleanString_eq_filterBehind none s fun hne => absurd hne (by simp)
  have hfree : ∀ c ∈ cleanString s, c ≠ '"' ∧ c ≠ '[' ∧ c ≠ ']' ∧ c ≠ '\\' :=
    fun c hc => by simpa [Forbidden] using not_forbidden_of_mem hc
  refine ⟨hfree, ?_, hfilter, cleanString_of_clean fun c hc => not_forbidden_of_mem hc, ?_, ?_⟩
  · rw [hfilter]
    exact filterBehind_sublist none s
  · intro hself c hc
    exact hfree c (hself.symm ▸ hc)
  · intro hclean
    exact cleanString_of_clean fun c hc => by simpa [Forbidden] using hclean c hc

example : cleanString "a\\\\nb[\"n\"]".toList = "abn".toList := by decide

/-! ### The name of a playlist -/

/-- Playlists of this name are added, and none is renamed. -/
def AddsNamed (name : String) (p q : List SpotifyPlaylist) : Prop :=
  ∃ k, q.map SpotifyPlaylist.name = p.map SpotifyPlaylist.name ++ List.replicate k name

instance (name : String) : IsPreorder (List SpotifyPlaylist) (AddsNamed name) where
  refl p := ⟨0, by simp⟩
  trans p q r := by
    rintro ⟨k, hk⟩ ⟨l, hl⟩
    exact ⟨k + l, by rw [hl, hk, List.append_assoc, List.replicate_append_replicate]⟩

theorem map_name_modify {f : SpotifyPlaylist → SpotifyPlaylist} (h : ∀ p, (f p).name = p.name)
    (i : ℕ) (p : List SpotifyPlaylist) :
    (p.modify i f).map SpotifyPlaylist.name = p.map SpotifyPlaylist.name := by
  induction p generalizing i with
  | nil => simp
  | cons a p ih =>
      cases i with
      | zero => simp [h a]
      | succ i => simp [ih i]

section Create

variable (json : JsonText) (job : CreateArgs) (a : Create.Answers) {name : String}

theorem httparty_names (c : WorkerCall) (reply : Reply) (playlist : ℕ)
    {effect : SpotifyPlaylist → SpotifyPlaylist} (h : ∀ p, (effect p).name = p.name) :
    Within (AddsNamed name) (Create.httparty c reply playlist effect) := by
  have heffect : Within (AddsNamed name)
      (modify fun p => p.modify playlist effect : Worker (List SpotifyPlaylist) PUnit) :=
    Within.update fun p => ⟨0, by simp [map_name_modify h]⟩
  cases reply with
  | status code => exact Within.ite (heffect.bind fun _ => Within.pure code) (Within.pure code)
  | noResponse carriedOut =>
      exact Within.ite (heffect.bind fun _ => Within.raise _) (Within.raise _)

theorem createPlaylist_names : Within (AddsNamed name) (Create.createPlaylist a name) := by
  intro p _
  have hadded : AddsNamed name p (p ++ [⟨name, [], false⟩]) := ⟨1, by simp⟩
  unfold Create.createPlaylist
  simp only [EStateM.run_bind, EStateM.run_get]
  cases a.createPlaylist with
  | answered => exact ⟨hadded, trivial⟩
  | lost => exact refl (r := AddsNamed name) p
  | unanswered => exact hadded

theorem createAndFill_names (title query : String) :
    Within (AddsNamed ("Knoiz | " ++ title)) (Create.createAndFill a title query) := by
  have hread (c : WorkerCall) : Within (AddsNamed ("Knoiz | " ++ title))
      (workerCall a.raises c : Worker (List SpotifyPlaylist) Unit) :=
    Within.of_reads (reads_workerCall _ _)
  have hpost (playlist : ℕ) : Within (AddsNamed ("Knoiz | " ++ title))
      (Create.httparty .postTracks a.postTracks playlist (·.addTracks query)) :=
    httparty_names _ _ _ fun _ => rfl
  have hput (playlist : ℕ) : Within (AddsNamed ("Knoiz | " ++ title))
      (Create.httparty .putImage a.putImage playlist SpotifyPlaylist.setImage) :=
    httparty_names _ _ _ fun _ => rfl
  apply (createPlaylist_names a).bind
  intro playlist
  apply (hread _).bind
  intro _
  apply (hpost playlist).bind
  intro _
  apply (hread _).bind
  intro _
  exact (hput playlist).bind fun _ => Within.pure _

/-- One execution of `Create` adds playlists under the title that it has been handed. -/
theorem perform_names :
    Within (AddsNamed ("Knoiz | " ++ job.playlistTitle)) (Create.perform json job a) :=
  (Within.of_reads (Create.reads_foundSongs json job a)).bind fun _ =>
    Within.ite (Within.pure _) (createAndFill_names a _ _)

/-- The playlist that an execution of `Create` adds has the title behind its name. -/
theorem name_of_added {playlists : List SpotifyPlaylist} {playlist : SpotifyPlaylist}
    (h : final (Create.perform json job a) playlists = playlists ++ [playlist]) :
    playlist.name = "Knoiz | " ++ job.playlistTitle := by
  obtain ⟨k, hk⟩ := (perform_names json job a).final playlists
  rw [h, List.map_append] at hk
  have hnames : [playlist.name] = List.replicate k _ := List.append_cancel_left hk
  exact (List.eq_replicate_iff.mp hnames).2 _ List.mem_cons_self

end Create

/-! ### The title that is handed on -/

section Title

variable {json : JsonText} {args : Playlist.Args} {a : Playlist.Answers} {content : String}

/-- The title completion answers with this content. -/
def TitleContent (json : JsonText) (args : Playlist.Args) (a : Playlist.Answers)
    (content : String) : Prop :=
  ∃ body response, a.title (titlePrompt args.textSearch) = some body ∧
    json.parse body = some response ∧ response.content = some (.string content)

theorem generatePlaylistTitle_run {σ : Type} (h : TitleContent json args a content) (s : σ) :
    (generatePlaylistTitle json a args.textSearch).run s = .ok content s := by
  obtain ⟨body, response, hbody, hparse, hcontent⟩ := h
  simp [generatePlaylistTitle, completion, Playlist.parseText, Playlist.textOf, orNoMethod, hbody,
    hparse, hcontent]

/-- A job that one execution of `Playlist` hands in is one that it has made. -/
theorem createJob_of_handed {jobs : List CreateArgs} {job : CreateArgs}
    (h : final (Playlist.perform json args a) jobs = jobs ++ [job]) :
    (createJob json args a).run jobs = .ok job jobs := by
  rcases Playlist.perform_run json args a jobs with
    ⟨e, hrun, -⟩ | ⟨job', hmade, ⟨-, hrun⟩ | ⟨-, e, hrun⟩⟩
  · rw [final_of_error hrun] at h
    exact absurd (congrArg List.length h) (by simp)
  · rw [final_of_ok hrun] at h
    exact List.singleton_inj.mp (List.append_cancel_left h) ▸ hmade
  · rw [final_of_error hrun] at h
    exact List.singleton_inj.mp (List.append_cancel_left h) ▸ hmade

/-- It has the title as the completion returned it. -/
theorem title_of_handed {jobs : List CreateArgs} {job : CreateArgs}
    (h : TitleContent json args a content)
    (hjob : final (Playlist.perform json args a) jobs = jobs ++ [job]) :
    job.playlistTitle = content := by
  obtain ⟨title, songs, htitle, -, rfl⟩ := Playlist.createJob_ok json (createJob_of_handed hjob)
  cases htitle.symm.trans (generatePlaylistTitle_run h jobs)
  rfl

/-- **The title is cleaned exactly when it is clean already.**  The job that `Playlist` hands in has
the cleaned title, and `Create` names its playlist by it, if and only if the title completion has
returned none of the four characters. -/
theorem title_cleaned_iff {jobs : List CreateArgs} {job : CreateArgs}
    (h : TitleContent json args a content)
    (hjob : final (Playlist.perform json args a) jobs = jobs ++ [job]) :
    (job.playlistTitle.toList = cleanString content.toList ∧
        (∀ c ∈ job.playlistTitle.toList, c ≠ '"' ∧ c ≠ '[' ∧ c ≠ ']' ∧ c ≠ '\\') ∧
        ∀ (b : Create.Answers) (playlists : List SpotifyPlaylist) (playlist : SpotifyPlaylist),
          final (Create.perform json job b) playlists = playlists ++ [playlist] →
            playlist.name = "Knoiz | " ++ String.ofList (cleanString content.toList)) ↔
      ∀ c ∈ content.toList, c ≠ '"' ∧ c ≠ '[' ∧ c ≠ ']' ∧ c ≠ '\\' := by
  rw [title_of_handed h hjob]
  constructor
  · rintro ⟨-, hfree, -⟩
    exact hfree
  · intro hfree
    have hclean : cleanString content.toList = content.toList :=
      cleanString_of_clean fun c hc => by simpa [Forbidden] using hfree c hc
    refine ⟨hclean.symm, hfree, fun b playlists playlist hadded => ?_⟩
    rw [name_of_added json job b hadded, title_of_handed h hjob, hclean, String.ofList_toList]

end Title

/-! ### A clean title and a quoted one -/

namespace Sample

open PlaylistPipeline.Sample (args content createAnswers json playlistAnswers titleBody)

theorem mix_content : TitleContent json args playlistAnswers "Mix" :=
  ⟨titleBody, content "Mix", rfl, rfl, rfl⟩

theorem mix_handed : final (Playlist.perform json args playlistAnswers) [] =
    [] ++ [PlaylistPipeline.Sample.job.1] := rfl

/-- The body of a completion whose content is `"Hits"`, with the quotes. -/
def quotedBody : String :=
  "\x7b\"choices\":[\x7b\"message\":\x7b\"content\":\"\\\"Hits\\\"\"\x7d\x7d]\x7d"

def quotedJson : JsonText where
  parse text := if text = quotedBody then some (content "\"Hits\"") else json.parse text
  generate := json.generate

def quotedAnswers : Playlist.Answers := { playlistAnswers with title := fun _ => some quotedBody }

theorem quoted_content : TitleContent quotedJson args quotedAnswers "\"Hits\"" :=
  ⟨quotedBody, content "\"Hits\"", rfl, rfl, rfl⟩

/-- The job that `Playlist` hands in for the quoted title. -/
def quotedJob : CreateArgs :=
  ⟨"[\"Song\"]", args.spotifyUserContent, args.spotifyUserId, "\"Hits\""⟩

end Sample

/-- The title `Mix` goes through as it is. -/
theorem mix_cleaned :
    PlaylistPipeline.Sample.job.1.playlistTitle.toList = cleanString "Mix".toList := by
  refine ((title_cleaned_iff Sample.mix_content Sample.mix_handed).mpr ?_).1
  show ∀ c ∈ ['M', 'i', 'x'], c ≠ '"' ∧ c ≠ '[' ∧ c ≠ ']' ∧ c ≠ '\\'
  simp

/-- A title in double quotes reaches the job with them. -/
theorem title_not_cleaned :
    ¬ ∀ (json : JsonText) (args : Playlist.Args) (a : Playlist.Answers) (content : String)
        (jobs : List CreateArgs) (job : CreateArgs), TitleContent json args a content →
        final (Playlist.perform json args a) jobs = jobs ++ [job] →
          job.playlistTitle.toList = cleanString content.toList ∧
            ∀ c ∈ job.playlistTitle.toList, c ≠ '"' ∧ c ≠ '[' ∧ c ≠ ']' ∧ c ≠ '\\' := by
  intro h
  have hquoted := (h _ _ _ _ [] Sample.quotedJob Sample.quoted_content rfl).1
  exact absurd hquoted (by decide)

end Knoiz.PlaylistTitle
