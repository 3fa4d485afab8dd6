import Knoiz.Library.Interleaving
import Knoiz.Library.PartialUpdate
import Knoiz.RequestEffects

/-!
# Login callbacks interleaved

Any number of `SessionsController#create` callbacks, each for the Spotify user that OmniAuth handed
it, run in different threads.  A step is one SELECT, one INSERT, one UPDATE, the COMMIT of a
creation, or one reading of the clock, and any of the statements may raise.

A creation is a transaction.  Its rows stay in a draft that no other callback sees; the COMMIT
appends them to the five tables, and an exception in one of the four `create_…` methods drops them.
The key of the user has been drawn from the sequence by then and is not given back.
-/

namespace Knoiz.ConcurrentLogin

open Interleaving PartialUpdate RowTable

/-! ### The open transaction of a creation -/

/-- The rows inserted so far by the transaction that creates user `id`. -/
structure Draft where
  id : ℕ
  subscriptions : List Subscription := []
  profiles : List Profile := []
  wallets : List Wallet := []
  spotifydata : List Spotifydata := []
  deriving DecidableEq, Repr

/-- The four creations of `initialize_related_models`, in their order. -/
def relatedModels : List Creation := [.subscription, .profile, .wallet, .spotifydata]

/-- One of the INSERTs, into the draft. -/
def Draft.insert (now : ℤ) (draft : Draft) : Creation → Draft
  | .user => draft
  | .subscription => { draft with subscriptions := draft.subscriptions ++ [{}] }
  | .profile => { draft with profiles := draft.profiles ++ [{ updatedAt := now }] }
  | .wallet => { draft with wallets := draft.wallets ++ [{}] }
  | .spotifydata => { draft with spotifydata := draft.spotifydata ++ [{}] }

/-- COMMIT: the user and the rows of the draft become visible together. -/
def commit (db : Database) (spotifyId : String) (draft : Draft) : Option Database :=
  (db.users.commit ⟨draft.id, spotifyId, none⟩).map fun users =>
    { users := users
      subscriptions := db.subscriptions ++ draft.subscriptions.map (Prod.mk draft.id)
      profiles := db.profiles ++ draft.profiles.map (Prod.mk draft.id)
      wallets := db.wallets ++ draft.wallets.map (Prod.mk draft.id)
      spotifydata := db.spotifydata ++ draft.spotifydata.map (Prod.mk draft.id) }

/-! ### The two saves -/

/-- `user.username = …; user.save!`, on a user that was loaded or created as `user`. -/
def saveUsername (db : Database) (user : User) (username : Option String) : Database :=
  if username = user.username then db else { db with users := db.users.rename user.id username }

/-- The stored profile after `update!` on a copy loaded as `loaded` and now `current`. -/
def saveRow (loaded current stored : Profile) : Profile where
  image := writeColumn loaded.image current.image stored.image
  timestamp := writeColumn loaded.timestamp current.timestamp stored.timestamp
  updatedAt := writeColumn loaded.updatedAt current.updatedAt stored.updatedAt

def saveProfile (db : Database) (id : ℕ) (loaded current : Profile) : Database :=
  db.amendProfile id (saveRow loaded current)

/-! ### One callback -/

/-- The database and the clock. -/
structure Store where
  clock : ℤ
  db : Database

/-- Where a callback stands. -/
inductive Local where
  | idle
  | missing
  | creating (draft : Draft) (rest : List Creation)
  | found (user : User)
  | named (id : ℕ)
  | loaded (id : ℕ) (profile : Profile)
  | built (id : ℕ) (profile changed : Profile)
  | done
  | failed
  deriving DecidableEq, Repr

/-- The SELECT has found nothing, and the creation is not over. -/
def Local.pending : Local → Bool
  | .missing | .creating _ _ => true
  | _ => false

/-- The time since the step before, and which statement raises. -/
structure Input where
  delay : ℕ := 0
  raises : Call → Bool := fun _ => false

section Model

variable {ι : Type} (auth : ι → SpotifyUser)

/-- One atomic step of callback `i`, which logs in the Spotify user `auth i`. -/
def next (i : ι) (s : Store) (l : Local) (a : Input) : Option (Store × Local) :=
  let s := { s with clock := s.clock + a.delay }
  match l with
  | .idle =>
      some (s,
        if a.raises .selectUser then .failed
        else
          match s.db.users.findBySpotifyId (auth i).id with
          | some user => .found user
          | none => .missing)
  | .missing =>
      some ({ s with db := { s.db with users := s.db.users.burn } },
        if a.raises (.createUser .user) then .failed
        else .creating { id := s.db.users.seq } relatedModels)
  | .creating draft (c :: rest) =>
      some (s,
        if a.raises (.createUser c) then .failed
        else .creating (draft.insert s.clock c) rest)
  | .creating draft [] =>
      match commit s.db (auth i).id draft with
      | some db => some ({ s with db := db }, .found ⟨draft.id, (auth i).id, none⟩)
      | none => some (s, .failed)
  | .found user =>
      if a.raises .saveUsername then some (s, .failed)
      else some ({ s with db := saveUsername s.db user (auth i).displayName }, .named user.id)
  | .named id =>
      some (s,
        match s.db.profiles.lookup id with
        | some profile => .loaded id profile
        | none => .failed)
  | .loaded id profile =>
      some (s,
        match (auth i).images with
        | some images =>
            let image := images.head?.bind Image.url
            .built id profile (SessionsController.profileChanges s.clock image profile)
        | none => .failed)
  | .built id profile changed =>
      if a.raises .saveProfile then some (s, .failed)
      else
        some ({ s with db := saveProfile s.db id profile (profile.saved s.clock changed) }, .done)
  | .done | .failed => none

/-- A run of the callbacks, in any order, with any delays and exceptions. -/
def run [DecidableEq ι] (c : Config ι Store Local) (schedule : List (ι × Input)) :
    Option (Config ι Store Local) :=
  StepRun.run (Interleaving.step (next auth)) c schedule

end Model

/-- Every callback is still to come. -/
def start {ι : Type} (clock : ℤ) (db : Database) : Config ι Store Local :=
  ⟨⟨clock, db⟩, fun _ => .idle⟩

/-! ### What a step does -/

/-- What a step of a callback changes, and where it leads. -/
inductive Change (spotifyId : String) (a : Input) (db : Database) :
    Local → Database → Local → Prop
  | quiet {l l' : Local} (hl : l.pending = false) (hl' : l'.pending = false) :
      Change spotifyId a db l db l'
  | missed (hselect : a.raises .selectUser = false)
      (h : db.users.findBySpotifyId spotifyId = none) : Change spotifyId a db .idle db .missing
  | drawn :
      Change spotifyId a db .missing { db with users := db.users.burn }
        (.creating { id := db.users.seq } relatedModels)
  | inserted (now : ℤ) (draft : Draft) (c : Creation) (rest : List Creation) :
      Change spotifyId a db (.creating draft (c :: rest)) db
        (.creating (draft.insert now c) rest)
  | committed {draft : Draft} {db' : Database} (h : commit db spotifyId draft = some db') :
      Change spotifyId a db (.creating draft []) db' (.found ⟨draft.id, spotifyId, none⟩)
  | refused {draft : Draft} (h : commit db spotifyId draft = none) :
      Change spotifyId a db (.creating draft []) db .failed
  | raised {l : Local} {db' : Database} {c : Creation} (hl : l.pending = true)
      (h : a.raises (.createUser c) = true)
      (hdb : db' = db ∨ db' = { db with users := db.users.burn }) :
      Change spotifyId a db l db' .failed
  | renamed (user : User) (username : Option String) :
      Change spotifyId a db (.found user) { db with users := db.users.rename user.id username }
        (.named user.id)
  | saved {l : Local} (hl : l.pending = false) (id : ℕ) (f : Profile → Profile) :
      Change spotifyId a db l (db.amendProfile id f) .done

/-- Every step is one of the changes. -/
theorem next_change {ι : Type} {auth : ι → SpotifyUser} {i : ι} {s s' : Store} {l l' : Local}
    {a : Input} (h : next auth i s l a = some (s', l')) :
    Change (auth i).id a s.db l s'.db l' := by
  cases l with
  | idle =>
      cases hselect : a.raises .selectUser with
      | true =>
          simp only [next, hselect, if_true] at h
          cases h
          exact .quiet rfl rfl
      | false =>
          cases hf : s.db.users.findBySpotifyId (auth i).id with
          | some user =>
              simp only [next, hselect, Bool.false_eq_true, if_false, hf] at h
              cases h
              exact .quiet rfl rfl
          | none =>
              simp only [next, hselect, Bool.false_eq_true, if_false, hf] at h
              cases h
              exact .missed hselect hf
  | missing =>
      cases hr : a.raises (.createUser .user) with
      | true =>
          simp only [next, hr, if_true] at h
          cases h
          exact .raised rfl hr (.inr rfl)
      | false =>
          simp only [next, hr, Bool.false_eq_true, if_false] at h
          cases h
          exact .drawn
  | creating draft rest =>
      cases rest with
      | cons c rest =>
          cases hr : a.raises (.createUser c) with
          | true =>
              simp only [next, hr, if_true] at h
              cases h
              exact .raised rfl hr (.inl rfl)
          | false =>
              simp only [next, hr, Bool.false_eq_true, if_false] at h
              cases h
              exact .inserted _ draft c rest
      | nil =>
          cases hc : commit s.db (auth i).id draft with
          | some db =>
              simp only [next, hc] at h
              cases h
              exact .committed hc
          | none =>
              simp only [next, hc] at h
              cases h
              exact .refused hc
  | found user =>
      cases hr : a.raises .saveUsername with
      | true =>
          simp only [next, hr, if_true] at h
          cases h
          exact .quiet rfl rfl
      | false =>
          simp only [next, hr, Bool.false_eq_true, if_false] at h
          cases h
          simp only [saveUsername]
          split
          · exact .quiet rfl rfl
          · exact .renamed user _
  | named id =>
      cases h
      refine .quiet rfl ?_
      split <;> rfl
  | loaded id profile =>
      cases h
      refine .quiet rfl ?_
      split <;> rfl
  | built id profile changed =>
      cases hr : a.raises .saveProfile with
      | true =>
          simp only [next, hr, if_true] at h
          cases h
          exact .quiet rfl rfl
      | false =>
          simp only [next, hr, Bool.false_eq_true, if_false] at h
          cases h
          exact .saved rfl id _
  | done | failed => cases h

theorem commit_eq_some {db db' : Database} {spotifyId : String} {draft : Draft}
    (h : commit db spotifyId draft = some db') :
    draft.id < db.users.seq ∧ draft.id ∉ db.users.rows.map User.id ∧
      db'.users.rows = db.users.rows ++ [⟨draft.id, spotifyId, none⟩] ∧
      db'.users.seq = db.users.seq ∧
      db'.subscriptions = db.subscriptions ++ draft.subscriptions.map (Prod.mk draft.id) ∧
      db'.profiles = db.profiles ++ draft.profiles.map (Prod.mk draft.id) ∧
      db'.wallets = db.wallets ++ draft.wallets.map (Prod.mk draft.id) ∧
      db'.spotifydata = db.spotifydata ++ draft.spotifydata.map (Prod.mk draft.id) := by
  obtain ⟨users, husers, rfl⟩ := Option.map_eq_some_iff.mp h
  obtain ⟨⟨hlt, hfree⟩, hrows, hseq⟩ := Users.commit_eq_some.mp husers
  exact ⟨hlt, hfree, hrows, hseq, rfl, rfl, rfl, rfl⟩

/-! ### The keys of open transactions -/

/-- The key that an open transaction has drawn. -/
def Local.key : Local → Option ℕ
  | .creating draft _ => some draft.id
  | _ => none

theorem key_of_not_pending {l : Local} (h : l.pending = false) : l.key = none := by
  cases l with
  | creating => cases h
  | _ => rfl

/-- A step keeps the keys, draws the next one, or commits the row of the one it has. -/
theorem Change.keys {spotifyId : String} {a : Input} {db db' : Database} {l l' : Local}
    (h : Change spotifyId a db l db' l') :
    ((l'.key = none ∨ l'.key = l.key) ∧ db.users.seq ≤ db'.users.seq ∧
        db'.users.rows.map User.id = db.users.rows.map User.id) ∨
      (l'.key = some db.users.seq ∧ db'.users.seq = db.users.seq + 1 ∧
        db'.users.rows.map User.id = db.users.rows.map User.id) ∨
      ∃ k, l.key = some k ∧ l'.key = none ∧ db'.users.seq = db.users.seq ∧
        db'.users.rows.map User.id = db.users.rows.map User.id ++ [k] := by
  cases h with
  | quiet hl hl' => exact .inl ⟨.inl (key_of_not_pending hl'), le_rfl, rfl⟩
  | missed hselect h => exact .inl ⟨.inl rfl, le_rfl, rfl⟩
  | drawn => exact .inr (.inl ⟨rfl, rfl, rfl⟩)
  | inserted now draft c rest =>
      refine .inl ⟨.inr ?_, le_rfl, rfl⟩
      cases c <;> rfl
  | @committed draft db' h =>
      obtain ⟨-, -, hrows, hseq, -⟩ := commit_eq_some h
      refine .inr (.inr ⟨draft.id, rfl, rfl, hseq, ?_⟩)
      rw [hrows, List.map_append]
      rfl
  | refused h => exact .inl ⟨.inl rfl, le_rfl, rfl⟩
  | raised hl hc hdb =>
      rcases hdb with rfl | rfl
      · exact .inl ⟨.inl rfl, le_rfl, rfl⟩
      · exact .inl ⟨.inl rfl, Nat.le_succ _, rfl⟩
  | renamed user username =>
      exact .inl ⟨.inl rfl, le_rfl, Users.map_id_renamed _ _ _⟩
  | saved hl id f => exact .inl ⟨.inl rfl, le_rfl, rfl⟩

section Keys

variable {ι : Type} [DecidableEq ι] {auth : ι → SpotifyUser} {c c' : Config ι Store Local}

/-- The keys of the open transactions are drawn, in no row, and distinct. -/
structure Reserved (c : Config ι Store Local) : Prop where
  drawn : ∀ i k, (c.locals i).key = some k → k < c.store.db.users.seq
  free : ∀ i k, (c.locals i).key = some k → k ∉ c.store.db.users.rows.map User.id
  distinct : ∀ i j k, (c.locals i).key = some k → (c.locals j).key = some k → i = j

omit [DecidableEq ι] in
theorem reserved_start (clock : ℤ) (db : Database) :
    Reserved (start clock db : Config ι Store Local) :=
  ⟨fun _ _ h => (nomatch h), fun _ _ h => (nomatch h), fun _ _ _ h => (nomatch h)⟩

section KeySteps

omit [DecidableEq ι]

variable {i : ι}

/-- A step after which `i` holds no other key than before. -/
theorem Reserved.kept (hc : Reserved c) (hrest : ∀ j, j ≠ i → c'.locals j = c.locals j)
    (hkey : (c'.locals i).key = none ∨ (c'.locals i).key = (c.locals i).key)
    (hseq : c.store.db.users.seq ≤ c'.store.db.users.seq)
    (hids : c'.store.db.users.rows.map User.id = c.store.db.users.rows.map User.id) :
    Reserved c' := by
  have hback : ∀ j k, (c'.locals j).key = some k → (c.locals j).key = some k := by
    intro j k hk
    by_cases hj : j = i
    · subst hj
      rcases hkey with hnone | hsame
      · rw [hnone] at hk
        cases hk
      · rw [← hsame]
        exact hk
    · rw [← hrest j hj]
      exact hk
  refine ⟨fun j k hk => ?_, fun j k hk => ?_, fun j j' k hk hk' => ?_⟩
  · exact lt_of_lt_of_le (hc.drawn j k (hback j k hk)) hseq
  · rw [hids]
    exact hc.free j k (hback j k hk)
  · exact hc.distinct j j' k (hback j k hk) (hback j' k hk')

/-- A step in which `i` draws the next key, which is above all the others. -/
theorem Reserved.draw (hc : Reserved c) (hrest : ∀ j, j ≠ i → c'.locals j = c.locals j)
    (hkey : (c'.locals i).key = some c.store.db.users.seq)
    (hseq : c'.store.db.users.seq = c.store.db.users.seq + 1)
    (hids : c'.store.db.users.rows.map User.id = c.store.db.users.rows.map User.id) :
    Reserved c' := by
  have hnew : ∀ k, (c'.locals i).key = some k → k = c.store.db.users.seq := by
    intro k hk
    rw [hkey] at hk
    exact (Option.some.inj hk).symm
  have hold : ∀ j k, j ≠ i → (c'.locals j).key = some k → (c.locals j).key = some k := by
    intro j k hj hk
    rw [← hrest j hj]
    exact hk
  refine ⟨fun j k hk => ?_, fun j k hk => ?_, fun j j' k hk hk' => ?_⟩
  · by_cases hj : j = i
    · subst hj
      have := hnew k hk
      omega
    · have := hc.drawn j k (hold j k hj hk)
      omega
  · rw [hids]
    by_cases hj : j = i
    · subst hj
      intro hmem
      obtain ⟨u, hu, hid⟩ := List.mem_map.mp hmem
      have hlt := c.store.db.users.fresh u hu
      have := hnew k hk
      omega
    · exact hc.free j k (hold j k hj hk)
  · by_cases hj : j = i <;> by_cases hj' : j' = i
    · rw [hj, hj']
    · subst hj
      have hlt := hc.drawn j' k (hold j' k hj' hk')
      have := hnew k hk
      omega
    · subst hj'
      have hlt := hc.drawn j k (hold j k hj hk)
      have := hnew k hk'
      omega
    · exact hc.distinct j j' k (hold j k hj hk) (hold j' k hj' hk')

/-- A step in which `i` commits its key, and holds it no longer. -/
theorem Reserved.release (hc : Reserved c) (hrest : ∀ j, j ≠ i → c'.locals j = c.locals j)
    {key : ℕ} (hkey : (c.locals i).key = some key) (hnone : (c'.locals i).key = none)
    (hseq : c'.store.db.users.seq = c.store.db.users.seq)
    (hids : c'.store.db.users.rows.map User.id = c.store.db.users.rows.map User.id ++ [key]) :
    Reserved c' := by
  have hback : ∀ j k, (c'.locals j).key = some k → j ≠ i ∧ (c.locals j).key = some k := by
    intro j k hk
    have hj : j ≠ i := by
      rintro rfl
      rw [hnone] at hk
      cases hk
    rw [← hrest j hj]
    exact ⟨hj, hk⟩
  refine ⟨fun j k hk => ?_, fun j k hk hmem => ?_, fun j j' k hk hk' => ?_⟩
  · rw [hseq]
    exact hc.drawn j k (hback j k hk).2
  · obtain ⟨hj, hk'⟩ := hback j k hk
    rw [hids] at hmem
    rcases List.mem_append.mp hmem with hrow | hrow
    · exact hc.free j k hk' hrow
    · rw [List.mem_singleton.mp hrow] at hk'
      exact hj (hc.distinct j i key hk' hkey)
  · exact hc.distinct j j' k (hback j k hk).2 (hback j' k hk').2

end KeySteps

theorem reserved_step {a : ι × Input} (hc : Reserved c)
    (hstep : Interleaving.step (next auth) c a = some c') : Reserved c' := by
  obtain ⟨i, a⟩ := a
  obtain ⟨s', l', hnext, hstore, hself, hrest⟩ := step_eq_some hstep
  subst hstore hself
  rcases (next_change hnext).keys with ⟨hkey, hseq, hids⟩ | ⟨hkey, hseq, hids⟩ |
    ⟨key, hkey, hnone, hseq, hids⟩
  · exact hc.kept hrest hkey hseq hids
  · exact hc.draw hrest hkey hseq hids
  · exact hc.release hrest hkey hnone hseq hids

omit [DecidableEq ι] in
/-- The COMMIT of a creation is never refused. -/
theorem Reserved.commit (hc : Reserved c) {i : ι} {draft : Draft}
    (hl : c.locals i = .creating draft []) (spotifyId : String) :
    ∃ db', commit c.store.db spotifyId draft = some db' := by
  have hkey : (c.locals i).key = some draft.id := by
    rw [hl]
    rfl
  obtain ⟨users, husers⟩ := Users.exists_commit (u := ⟨draft.id, spotifyId, none⟩)
    (hc.drawn i _ hkey) (hc.free i _ hkey)
  unfold ConcurrentLogin.commit
  rw [husers]
  exact ⟨_, rfl⟩

end Keys

/-! ### Alone, a callback does what `create` does to the database -/

section Alone

variable {ι : Type} (auth : ι → SpotifyUser) (i : ι)

/-- The INSERTs of a creation in which nothing raises fill the draft. -/
theorem creating_alone {raises : Call → Bool} (s : Store) (draft : Draft) {rest : List Creation}
    (h : ∀ c ∈ rest, raises (.createUser c) = false) :
    StepRun.run (soloStep (next auth) i) (s, .creating draft rest)
      (List.replicate rest.length ⟨0, raises⟩) =
      some (s, .creating (rest.foldl (Draft.insert s.clock) draft) []) := by
  induction rest generalizing draft with
  | nil => rfl
  | cons c rest ih =>
      have hc := h c List.mem_cons_self
      rw [List.length_cons, List.replicate_succ, StepRun.run_cons]
      simp only [soloStep, next, Nat.cast_zero, add_zero, hc, Bool.false_eq_true, if_false,
        Option.bind_some, List.foldl_cons]
      exact ih (draft.insert s.clock c) fun d hd => h d (List.mem_cons_of_mem c hd)

/-- An INSERT that raises ends the creation, and the stored rows are as they were. -/
theorem creating_raises {raises : Call → Bool} (s : Store) (draft : Draft) {rest : List Creation}
    (h : ∃ c ∈ rest, raises (.createUser c) = true) :
    ∃ n, StepRun.run (soloStep (next auth) i) (s, .creating draft rest)
      (List.replicate n ⟨0, raises⟩) = some (s, .failed) := by
  induction rest generalizing draft with
  | nil =>
      obtain ⟨c, hc, -⟩ := h
      cases hc
  | cons c rest ih =>
      cases hc : raises (.createUser c) with
      | true =>
          refine ⟨1, ?_⟩
          rw [List.replicate_one, StepRun.run_cons]
          simp only [soloStep, next, Nat.cast_zero, add_zero, hc, if_true, Option.bind_some,
            StepRun.run_nil]
      | false =>
          have hrest : ∃ d ∈ rest, raises (.createUser d) = true := by
            obtain ⟨d, hd, hraises⟩ := h
            rcases List.mem_cons.mp hd with rfl | hd
            · rw [hc] at hraises
              cases hraises
            · exact ⟨d, hd, hraises⟩
          obtain ⟨n, hn⟩ := ih (draft.insert s.clock c) hrest
          refine ⟨n + 1, ?_⟩
          rw [List.replicate_succ, StepRun.run_cons]
          simp only [soloStep, next, Nat.cast_zero, add_zero, hc, Bool.false_eq_true, if_false,
            Option.bind_some]
          exact hn

/-- The COMMIT of a whole draft is the creation of the user. -/
theorem commit_withUser (db : Database) (now : ℤ) (spotifyId : String) :
    commit { db with users := db.users.burn } spotifyId
      (relatedModels.foldl (Draft.insert now) { id := db.users.seq }) =
      some (db.withUser now spotifyId) := by
  have husers := Users.commit_burn db.users spotifyId
  show Option.map _ (db.users.burn.commit ⟨db.users.seq, spotifyId, none⟩) = _
  rw [husers]
  rfl

/-- The SELECT and the creation of one callback are the serial `find_or_create_by`. -/
theorem findOrCreateBy_alone (s : Ctx) :
    (∃ user t inputs, (SessionsController.findOrCreateBy (auth i).id).run s = .ok user.id t ∧
        t.env = s.env ∧ user ∈ t.db.users.rows ∧
        StepRun.run (soloStep (next auth) i) (⟨s.clock, s.db⟩, .idle) inputs =
          some (⟨t.clock, t.db⟩, .found user)) ∨
      ∃ e t inputs, (SessionsController.findOrCreateBy (auth i).id).run s = .error e t ∧
        StepRun.run (soloStep (next auth) i) (⟨s.clock, s.db⟩, .idle) inputs =
          some (⟨t.clock, t.db⟩, .failed) := by
  let input (delay : ℕ) : Input := ⟨delay, s.env.raises⟩
  rcases SessionsController.findOrCreateBy_run (auth i).id s with
    ⟨id, t, hrun, hfound⟩ | ⟨e, t, hrun, hnot⟩
  · cases hfound with
    | @found user hf hselect =>
        refine .inl ⟨user, s, [input 0], hrun, rfl, List.mem_of_find?_eq_some hf, ?_⟩
        simp only [StepRun.run_cons, StepRun.run_nil, soloStep, next, input, Nat.cast_zero,
          add_zero, hselect, Bool.false_eq_true, if_false, hf, Option.bind_some]
    | @created m hq hf hselect hclean =>
        refine .inl ⟨⟨m.db.users.seq, (auth i).id, none⟩, _,
          [input 0, input (m.clock - s.clock).toNat] ++
            (List.replicate relatedModels.length (input 0) ++ [input 0]), hrun, hq.env, ?_, ?_⟩
        · exact List.mem_append_right _ (List.mem_singleton.mpr rfl)
        · have hclock : s.clock + ((m.clock - s.clock).toNat : ℤ) = m.clock := by
            have := hq.clock
            omega
          have hbegin : StepRun.run (soloStep (next auth) i) (⟨s.clock, s.db⟩, .idle)
              [input 0, input (m.clock - s.clock).toNat] =
              some (⟨m.clock, { s.db with users := s.db.users.burn }⟩,
                .creating { id := s.db.users.seq } relatedModels) := by
            simp only [StepRun.run_cons, StepRun.run_nil, soloStep, next, input, Nat.cast_zero,
              add_zero, hselect, hclean, Bool.false_eq_true, if_false, hf, Option.bind_some, hclock]
          have hcommit := commit_withUser s.db m.clock (auth i).id
          rw [StepRun.run_append, hbegin, Option.bind_some, StepRun.run_append,
            creating_alone auth i _ _ fun c _ => hclean c, Option.bind_some, hq.db]
          simp only [StepRun.run_cons, StepRun.run_nil, soloStep, next, input, Nat.cast_zero,
            add_zero, hcommit, Option.bind_some]
          rfl
  · cases hnot with
    | select hselect =>
        refine .inr ⟨e, s, [input 0], hrun, ?_⟩
        simp only [StepRun.run_cons, StepRun.run_nil, soloStep, next, input, Nat.cast_zero,
          add_zero, hselect, if_true, Option.bind_some]
    | @create m c hq hf hraised hselect =>
        have hclock : s.clock + ((m.clock - s.clock).toNat : ℤ) = m.clock := by
          have := hq.clock
          omega
        cases huser : s.env.raises (.createUser .user) with
        | true =>
            refine .inr ⟨e, _, [input 0, input (m.clock - s.clock).toNat], hrun, ?_⟩
            simp only [StepRun.run_cons, StepRun.run_nil, soloStep, next, input, Nat.cast_zero,
              add_zero, hselect, huser, Bool.false_eq_true, if_false, if_true, hf,
              Option.bind_some, hclock, hq.db]
        | false =>
            have hmem : c ∈ relatedModels := by
              cases c with
              | user =>
                  rw [huser] at hraised
                  cases hraised
              | _ => decide
            obtain ⟨n, hn⟩ := creating_raises auth i
              ⟨m.clock, { s.db with users := s.db.users.burn }⟩ { id := s.db.users.seq }
              ⟨c, hmem, hraised⟩
            refine .inr ⟨e, _, [input 0, input (m.clock - s.clock).toNat] ++
              List.replicate n (input 0), hrun, ?_⟩
            rw [StepRun.run_append]
            simp only [StepRun.run_cons, StepRun.run_nil, soloStep, next, input, Nat.cast_zero,
              add_zero, hselect, huser, Bool.false_eq_true, if_false, hf, Option.bind_some, hclock,
              hq.db]
            exact hn

/-- With the save of the user's name, they are the serial `find_or_create_user`. -/
theorem findOrCreateUser_alone (s : Ctx) :
    (∃ id t inputs, (SessionsController.findOrCreateUser (auth i)).run s = .ok id t ∧
        StepRun.run (soloStep (next auth) i) (⟨s.clock, s.db⟩, .idle) inputs =
          some (⟨t.clock, t.db⟩, .named id)) ∨
      ∃ e t inputs, (SessionsController.findOrCreateUser (auth i)).run s = .error e t ∧
        StepRun.run (soloStep (next auth) i) (⟨s.clock, s.db⟩, .idle) inputs =
          some (⟨t.clock, t.db⟩, .failed) := by
  unfold SessionsController.findOrCreateUser
  rw [EStateM.run_bind]
  rcases findOrCreateBy_alone auth i s with
    ⟨user, t, inputs, hrun, henv, hmem, hsolo⟩ | ⟨e, t, inputs, hrun, hsolo⟩
  · rw [hrun]
    simp only [call, modifyDb, EStateM.run_bind, EStateM.run_get]
    cases hname : t.env.raises .saveUsername with
    | true =>
        refine .inr ⟨_, t, inputs ++ [⟨0, t.env.raises⟩], rfl, ?_⟩
        rw [StepRun.run_append, hsolo]
        simp only [StepRun.run_cons, StepRun.run_nil, soloStep, next, Nat.cast_zero, add_zero,
          hname, if_true, Option.bind_some]
    | false =>
        refine .inl ⟨user.id, _, inputs ++ [⟨0, t.env.raises⟩], rfl, ?_⟩
        have hsave : saveUsername t.db user (auth i).displayName =
            { t.db with users := t.db.users.rename user.id (auth i).displayName } := by
          unfold saveUsername
          split
          · rename_i hsame
            rw [hsame, Users.rename_self hmem]
          · rfl
        rw [StepRun.run_append, hsolo]
        simp only [StepRun.run_cons, StepRun.run_nil, soloStep, next, Nat.cast_zero, add_zero,
          hname, Bool.false_eq_true, if_false, Option.bind_some, hsave]
  · rw [hrun]
    exact .inr ⟨e, t, inputs, rfl, hsolo⟩

/-- The rest of the callback is the serial `update_user_profile!`. -/
theorem updateUserProfile_alone (id : ℕ) (s : Ctx) :
    (∃ t inputs, (SessionsController.updateUserProfile id (auth i)).run s = .ok () t ∧
        StepRun.run (soloStep (next auth) i) (⟨s.clock, s.db⟩, .named id) inputs =
          some (⟨t.clock, t.db⟩, .done)) ∨
      ∃ e t inputs, (SessionsController.updateUserProfile id (auth i)).run s = .error e t ∧
        StepRun.run (soloStep (next auth) i) (⟨s.clock, s.db⟩, .named id) inputs =
          some (⟨t.clock, t.db⟩, .failed) := by
  let input (delay : ℕ) : Input := ⟨delay, s.env.raises⟩
  rcases SessionsController.updateUserProfile_run id (auth i) s with
    ⟨t, f, hrun, hupdated⟩ | ⟨e, t, hrun, hq, hfails⟩
  · cases hupdated with
    | @intro m t images hrow himages hsave hbuilt hsaved =>
        obtain ⟨row, hrow⟩ := Option.isSome_iff_exists.mp hrow
        have hclock : s.clock + ((m.clock - s.clock).toNat : ℤ) = m.clock := by
          have := hbuilt.clock
          omega
        have hclock' : m.clock + ((t.clock - m.clock).toNat : ℤ) = t.clock := by
          have := hsaved.clock
          omega
        have hdb : t.db = s.db := hsaved.db.trans hbuilt.db
        refine .inl ⟨_, [input 0, input (m.clock - s.clock).toNat,
          input (t.clock - m.clock).toNat], hrun, ?_⟩
        simp only [StepRun.run_cons, StepRun.run_nil, soloStep, next, input, Nat.cast_zero,
          add_zero, hrow, himages, hsave, hclock, hclock', Bool.false_eq_true, if_false,
          Option.bind_some, hdb, saveProfile, Database.amendProfile]
        rw [amend_congr hrow]
        simp [saveRow]
  · have hclock : s.clock + ((t.clock - s.clock).toNat : ℤ) = t.clock := by
      have := hq.clock
      omega
    cases hrow : s.db.profiles.lookup id with
    | none =>
        refine .inr ⟨e, t, [input (t.clock - s.clock).toNat], hrun, ?_⟩
        simp only [StepRun.run_cons, StepRun.run_nil, soloStep, next, input, hclock, hrow,
          Option.bind_some, hq.db]
    | some row =>
        rw [hrow] at hfails
        cases himages : (auth i).images with
        | none =>
            refine .inr ⟨e, t, [input 0, input (t.clock - s.clock).toNat], hrun, ?_⟩
            simp only [StepRun.run_cons, StepRun.run_nil, soloStep, next, input, Nat.cast_zero,
              add_zero, hclock, hrow, himages, Option.bind_some, hq.db]
        | some images =>
            have hsave : s.env.raises .saveProfile = true := by
              rcases hfails with h | h | h
              · cases h
              · rw [himages] at h
                cases h
              · exact h
            refine .inr ⟨e, t, [input 0, input (t.clock - s.clock).toNat, input 0], hrun, ?_⟩
            simp only [StepRun.run_cons, StepRun.run_nil, soloStep, next, input, Nat.cast_zero,
              add_zero, hclock, hrow, himages, hsave, if_true, Option.bind_some, hq.db]

/-- **Alone.**  A callback that runs by itself changes the database as `create` does. -/
theorem create_refines [DecidableEq ι] {s : Ctx} (hauth : s.env.auth = some (auth i)) :
    ∃ (inputs : List Input) (c : Config ι Store Local) (t : Ctx),
      run auth (start s.clock s.db) (inputs.map fun a => (i, a)) = some c ∧
      SessionsController.create.run s = .ok () t ∧ c.store.db = t.db := by
  obtain ⟨t, hrun, hends⟩ := SessionsController.create_run s
  -- the steps of one callback, carried over to the run of all
  have hlift : ∀ {inputs : List Input} {store : Store} {l : Local},
      StepRun.run (soloStep (next auth) i) (⟨s.clock, s.db⟩, .idle) inputs = some (store, l) →
      store.db = t.db → ∃ (inputs : List Input) (c : Config ι Store Local) (t : Ctx),
        run auth (start s.clock s.db) (inputs.map fun a => (i, a)) = some c ∧
        SessionsController.create.run s = .ok () t ∧ c.store.db = t.db := by
    intro inputs store l hsolo hdb
    obtain ⟨c, hc, hstore, -⟩ :=
      run_solo (c := (start s.clock s.db : Config ι Store Local)) rfl hsolo
    exact ⟨inputs, c, t, hc, hrun, (congrArg Store.db hstore).trans hdb⟩
  cases hends with
  | rejected => exact hlift (StepRun.run_nil _) rfl
  | unidentified hauth' _ hfind =>
      cases hauth'.symm.trans hauth
      rcases findOrCreateUser_alone auth i (s.storedData (auth i)) with
        ⟨id, m, inputs, hfind', -⟩ | ⟨e, m, inputs, hfind', hsolo⟩
      · cases hfind.symm.trans hfind'
      · cases hfind.symm.trans hfind'
        exact hlift hsolo rfl
  | @unprofiled _ id m _ _ hauth' _ hfind hprofile =>
      cases hauth'.symm.trans hauth
      rcases findOrCreateUser_alone auth i (s.storedData (auth i)) with
        ⟨id', m', inputs, hfind', hsolo⟩ | ⟨e, m', inputs, hfind', -⟩
      · cases hfind.symm.trans hfind'
        rcases updateUserProfile_alone auth i id m with
          ⟨t', inputs', hprofile', -⟩ | ⟨e', t', inputs', hprofile', hsolo'⟩
        · cases hprofile.symm.trans hprofile'
        · cases hprofile.symm.trans hprofile'
          exact hlift (StepRun.run_append_eq_some.mpr ⟨_, hsolo, hsolo'⟩) rfl
      · cases hfind.symm.trans hfind'
  | @loggedIn _ id m m₁ _ hauth' _ hfind hprofile hwelcome =>
      cases hauth'.symm.trans hauth
      rcases findOrCreateUser_alone auth i (s.storedData (auth i)) with
        ⟨id', m', inputs, hfind', hsolo⟩ | ⟨e, m', inputs, hfind', -⟩
      · cases hfind.symm.trans hfind'
        rcases updateUserProfile_alone auth i id m with
          ⟨t', inputs', hprofile', hsolo'⟩ | ⟨e', t', inputs', hprofile', -⟩
        · cases hprofile.symm.trans hprofile'
          exact hlift (StepRun.run_append_eq_some.mpr ⟨_, hsolo, hsolo'⟩) hwelcome.db.symm
        · cases hprofile.symm.trans hprofile'
      · cases hfind.symm.trans hfind'

end Alone

end Knoiz.ConcurrentLogin
