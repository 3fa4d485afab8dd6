import Knoiz.ConcurrentLogin

/-!
# Every user has its four rows

A user is committed together with one row in each association table, or not at all, whichever of
the INSERTs of whichever callbacks raise and however the callbacks overlap.  A login that finds its
user writes the `users` row and the profile only.
-/

namespace Knoiz.ConcurrentLogin

open Interleaving ProgramLogic RowTable

/-! ### Counting rows -/

/-- How many rows user `id` has in the table that a step of a creation inserts into. -/
def rowsFor (db : Database) (id : ℕ) : Creation → ℕ
  | .user => (db.users.rows.map User.id).count id
  | .subscription => rowsOf id db.subscriptions
  | .profile => rowsOf id db.profiles
  | .wallet => rowsOf id db.wallets
  | .spotifydata => rowsOf id db.spotifydata

/-- How many rows for one table are in a draft. -/
def Draft.count (draft : Draft) : Creation → ℕ
  | .user => 1
  | .subscription => draft.subscriptions.length
  | .profile => draft.profiles.length
  | .wallet => draft.wallets.length
  | .spotifydata => draft.spotifydata.length

theorem count_insert (now : ℤ) (draft : Draft) {c : Creation} (hc : c ≠ .user) (d : Creation) :
    (draft.insert now c).count d = draft.count d + [c].count d := by
  cases c with
  | user => exact absurd rfl hc
  | _ => cases d <;> simp [Draft.insert, Draft.count]

/-- A COMMIT adds to each table what the draft has for it. -/
theorem rowsFor_commit {db db' : Database} {spotifyId : String} {draft : Draft}
    (h : commit db spotifyId draft = some db') (id : ℕ) (c : Creation) :
    rowsFor db' id c = rowsFor db id c + if draft.id = id then draft.count c else 0 := by
  obtain ⟨-, -, hrows, -, hsubscriptions, hprofiles, hwallets, hspotifydata⟩ := commit_eq_some h
  cases c with
  | user =>
      simp only [rowsFor, Draft.count, hrows, List.map_append, List.count_append, List.map_cons,
        List.map_nil, List.count_singleton, beq_iff_eq]
  | subscription =>
      unfold rowsFor Draft.count
      rw [hsubscriptions, rowsOf_append_map]
  | profile =>
      unfold rowsFor Draft.count
      rw [hprofiles, rowsOf_append_map]
  | wallet =>
      unfold rowsFor Draft.count
      rw [hwallets, rowsOf_append_map]
  | spotifydata =>
      unfold rowsFor Draft.count
      rw [hspotifydata, rowsOf_append_map]

/-! ### The invariant -/

/-- Every table has as many rows of a user as `users` has. -/
def Balanced (db : Database) : Prop := ∀ id c, rowsFor db id c = rowsFor db id .user

/-- What a creation has inserted and what it still has to insert make up one row for each table. -/
def Local.Filling : Local → Prop
  | .creating draft rest => ∀ c, draft.count c + rest.count c = 1
  | _ => True

theorem filling_of_not_pending {l : Local} (h : l.pending = false) : l.Filling := by
  cases l with
  | creating => cases h
  | _ => trivial

/-- A step keeps the tables balanced and its own draft on the way to one row each. -/
theorem Change.balanced {spotifyId : String} {a : Input} {db db' : Database} {l l' : Local}
    (h : Change spotifyId a db l db' l') (hdb : Balanced db) (hl : l.Filling) :
    Balanced db' ∧ l'.Filling := by
  cases h with
  | quiet _ hl' => exact ⟨hdb, filling_of_not_pending hl'⟩
  | missed => exact ⟨hdb, trivial⟩
  | drawn =>
      refine ⟨fun id c => ?_, fun c => ?_⟩
      · have hc := hdb id c
        cases c <;> exact hc
      · cases c <;> rfl
  | inserted now draft c rest =>
      refine ⟨hdb, fun d => ?_⟩
      have hc : c ≠ .user := by
        rintro rfl
        have hone := hl .user
        rw [List.count_cons_self] at hone
        simp only [Draft.count] at hone
        omega
      have hd := hl d
      rw [List.count_cons] at hd
      rw [count_insert now draft hc, List.count_singleton]
      omega
  | committed h =>
      refine ⟨fun id c => ?_, trivial⟩
      have hc := hl c
      have huser := hl .user
      rw [List.count_nil] at hc huser
      rw [rowsFor_commit h, rowsFor_commit h, hdb id c]
      split <;> omega
  | refused => exact ⟨hdb, trivial⟩
  | raised _ _ hdb' =>
      rcases hdb' with rfl | rfl
      · exact ⟨hdb, trivial⟩
      · refine ⟨fun id c => ?_, trivial⟩
        have hc := hdb id c
        cases c <;> exact hc
  | renamed user username =>
      refine ⟨fun id c => ?_, trivial⟩
      have hc := hdb id c
      have hids := Users.map_id_renamed db.users.rows user.id username
      unfold rowsFor Users.rename at *
      simp only [hids]
      exact hc
  | saved _ id f =>
      refine ⟨fun id' c => ?_, trivial⟩
      have hc := hdb id' c
      unfold rowsFor Database.amendProfile at *
      simp only [rowsOf_amend]
      exact hc

section Run

variable {ι : Type} [DecidableEq ι] {auth : ι → SpotifyUser} {c c' : Config ι Store Local}

/-- The tables are balanced, and every draft is on its way to one row each. -/
def Filled (c : Config ι Store Local) : Prop :=
  Holds (fun s => Balanced s.db) (fun _ _ l => l.Filling) c

theorem filled_step {a : ι × Input} (hc : Filled c)
    (hstep : Interleaving.step (next auth) c a = some c') : Filled c' :=
  holds_step (fun _ _ hdb hl hnext => (next_change hnext).balanced hdb hl)
    (fun _ _ _ _ _ _ hj _ => hj) hc hstep

theorem filled_run {schedule : List (ι × Input)} (hc : Filled c)
    (hrun : run auth c schedule = some c') : Filled c' :=
  StepRun.run_invariant (fun _ _ _ hc hstep => filled_step hc hstep) hc hrun

omit [DecidableEq ι] in
theorem filled_start (clock : ℤ) : Filled (start clock .empty : Config ι Store Local) := by
  refine ⟨fun id c => ?_, fun _ => trivial⟩
  cases c <;> rfl

/-- Balanced tables have exactly one row of every user. -/
theorem Balanced.rowsFor_eq_one {db : Database} (h : Balanced db) {u : User}
    (hu : u ∈ db.users.rows) (c : Creation) : rowsFor db u.id c = 1 := by
  rw [h u.id c]
  exact List.count_eq_one_of_mem db.users.keys (List.mem_map_of_mem hu)

/-! ### A login leaves the pass, the wallet and the statistics -/

/-- User `id` has the same subscription, wallet and statistics in both databases. -/
structure SameAccount (id : ℕ) (db db' : Database) : Prop where
  subscription : db'.subscriptions.lookup id = db.subscriptions.lookup id
  wallet : db'.wallets.lookup id = db.wallets.lookup id
  spotifydata : db'.spotifydata.lookup id = db.spotifydata.lookup id

theorem SameAccount.refl (id : ℕ) (db : Database) : SameAccount id db db := ⟨rfl, rfl, rfl⟩

theorem SameAccount.trans {id : ℕ} {db db₁ db₂ : Database} (h : SameAccount id db db₁)
    (h' : SameAccount id db₁ db₂) : SameAccount id db db₂ :=
  ⟨h'.subscription.trans h.subscription, h'.wallet.trans h.wallet,
    h'.spotifydata.trans h.spotifydata⟩

/-- No step of any callback writes to the rows that a user has. -/
theorem Change.sameAccount {spotifyId : String} {a : Input} {db db' : Database} {l l' : Local}
    (h : Change spotifyId a db l db' l') {id : ℕ} (hid : ∀ c, rowsFor db id c = 1) :
    SameAccount id db db' := by
  cases h with
  | committed h =>
      obtain ⟨-, -, -, -, hsubscriptions, -, hwallets, hspotifydata⟩ := commit_eq_some h
      have hkept : ∀ {ρ : Type} (t u : Table ℕ ρ), rowsOf id t = 1 →
          (t ++ u).lookup id = t.lookup id := by
        intro ρ t u ht
        have hpos : 0 < rowsOf id t := by omega
        obtain ⟨row, hrow⟩ := Option.isSome_iff_exists.mp (lookup_isSome_of_rowsOf hpos)
        rw [lookup_append_of_some hrow, hrow]
      refine ⟨?_, ?_, ?_⟩
      · rw [hsubscriptions]
        exact hkept _ _ (hid .subscription)
      · rw [hwallets]
        exact hkept _ _ (hid .wallet)
      · rw [hspotifydata]
        exact hkept _ _ (hid .spotifydata)
  | raised _ _ hdb' => rcases hdb' with rfl | rfl <;> exact ⟨rfl, rfl, rfl⟩
  | _ => exact ⟨rfl, rfl, rfl⟩

/-- The keys of the users stay. -/
theorem Change.mem_keys {spotifyId : String} {a : Input} {db db' : Database} {l l' : Local}
    (h : Change spotifyId a db l db' l') {id : ℕ} (hid : id ∈ db.users.rows.map User.id) :
    id ∈ db'.users.rows.map User.id := by
  rcases h.keys with ⟨-, -, hids⟩ | ⟨-, -, hids⟩ | ⟨k, -, -, -, hids⟩
  · rw [hids]
    exact hid
  · rw [hids]
    exact hid
  · rw [hids]
    exact List.mem_append_left _ hid

theorem sameAccount_run {schedule : List (ι × Input)} (hc : Filled c) {u : User}
    (hu : u ∈ c.store.db.users.rows) (hrun : run auth c schedule = some c') :
    SameAccount u.id c.store.db c'.store.db := by
  have hinv : Filled c' ∧ u.id ∈ c'.store.db.users.rows.map User.id ∧
      SameAccount u.id c.store.db c'.store.db := by
    refine StepRun.run_invariant
      (I := fun m => Filled m ∧ u.id ∈ m.store.db.users.rows.map User.id ∧
        SameAccount u.id c.store.db m.store.db) ?_
      ⟨hc, List.mem_map_of_mem hu, SameAccount.refl _ _⟩ hrun
    rintro m ⟨i, a⟩ m' ⟨hm, hid, hsame⟩ hstep
    obtain ⟨s', l', hnext, hstore, -, -⟩ := step_eq_some hstep
    subst hstore
    have hchange := next_change hnext
    obtain ⟨v, hv, hvid⟩ := List.mem_map.mp hid
    have hone : ∀ c, rowsFor m.store.db u.id c = 1 := by
      intro c
      rw [← hvid]
      exact hm.1.rowsFor_eq_one hv c
    exact ⟨filled_step hm hstep, hchange.mem_keys hid, hsame.trans (hchange.sameAccount hone)⟩
  exact hinv.2.2

end Run

/-! ### The action body -/

/-- The three tables that a login of a known user does not write to. -/
def SameTables (db db' : Database) : Prop :=
  db'.subscriptions = db.subscriptions ∧ db'.wallets = db.wallets ∧
    db'.spotifydata = db.spotifydata

theorem findOrCreateUser_sameTables {s : Ctx} {spotifyUser : SpotifyUser} {user : User}
    (hfound : s.db.users.findBySpotifyId spotifyUser.id = some user) :
    SameTables s.db (final (SessionsController.findOrCreateUser spotifyUser) s).db := by
  unfold SessionsController.findOrCreateUser
  rcases SessionsController.findOrCreateBy_run spotifyUser.id s with
    ⟨id, t, hrun, hby⟩ | ⟨e, t, hrun, hnot⟩
  · rw [final_bind_ok hrun]
    cases hby with
    | found =>
        unfold final call modifyDb
        simp only [EStateM.run_bind, EStateM.run_get]
        cases s.env.raises .saveUsername <;> exact ⟨rfl, rfl, rfl⟩
    | created _ hnone =>
        rw [hnone] at hfound
        cases hfound
  · rw [final_bind_error hrun]
    cases hnot with
    | select => exact ⟨rfl, rfl, rfl⟩
    | create _ hnone =>
        rw [hnone] at hfound
        cases hfound

theorem updateUserProfile_sameTables (id : ℕ) (spotifyUser : SpotifyUser) (s : Ctx) :
    SameTables s.db (final (SessionsController.updateUserProfile id spotifyUser) s).db := by
  rcases SessionsController.updateUserProfile_run id spotifyUser s with
    ⟨t, f, hrun, hupdated⟩ | ⟨e, t, hrun, hq, -⟩
  · have hdb := hupdated.quiet.db
    rw [final_of_ok hrun, ← hdb]
    exact ⟨rfl, rfl, rfl⟩
  · rw [final_of_error hrun, hq.db]
    exact ⟨rfl, rfl, rfl⟩

theorem SameTables.trans {db db₁ db₂ : Database} (h : SameTables db db₁)
    (h' : SameTables db₁ db₂) : SameTables db db₂ :=
  ⟨h'.1.trans h.1, h'.2.1.trans h.2.1, h'.2.2.trans h.2.2⟩

/-- A `create` that finds its user leaves the three tables, wherever it ends. -/
theorem create_sameTables {s t : Ctx} {spotifyUser : SpotifyUser} {user : User}
    (hauth : s.env.auth = some spotifyUser)
    (hfound : s.db.users.findBySpotifyId spotifyUser.id = some user)
    (hrun : SessionsController.create.run s = .ok () t) : SameTables s.db t.db := by
  obtain ⟨t', hrun', hends⟩ := SessionsController.create_run s
  cases hrun.symm.trans hrun'
  have hfind := findOrCreateUser_sameTables (s := s.storedData spotifyUser) hfound
  cases hends with
  | rejected => exact ⟨rfl, rfl, rfl⟩
  | unidentified hauth' _ hfind' =>
      cases hauth'.symm.trans hauth
      rw [final_of_error hfind'] at hfind
      exact hfind
  | @unprofiled _ id m e _ hauth' _ hfind' hprofile' =>
      cases hauth'.symm.trans hauth
      have hprofile := updateUserProfile_sameTables id spotifyUser m
      rw [final_of_ok hfind'] at hfind
      rw [final_of_error hprofile'] at hprofile
      exact hfind.trans hprofile
  | @loggedIn _ id m m' _ hauth' _ hfind' hprofile' hwelcome =>
      cases hauth'.symm.trans hauth
      have hprofile := updateUserProfile_sameTables id spotifyUser m
      rw [final_of_ok hfind'] at hfind
      rw [final_of_ok hprofile'] at hprofile
      rw [hwelcome.db]
      exact hfind.trans hprofile

/-- **A login keeps the account.**  From the empty database, in every run of any callbacks with any
exceptions, every user has exactly one row in each table, and none of them but the profile is
written to by what follows; and `create`, when it finds its user, writes to none of these tables. -/
theorem login_keeps_accounts {ι : Type} [DecidableEq ι] {auth : ι → SpotifyUser} {clock : ℤ}
    {schedule : List (ι × Input)} {c : Config ι Store Local}
    (hrun : run auth (start clock .empty) schedule = some c) :
    (∀ u ∈ c.store.db.users.rows, ∀ k, rowsFor c.store.db u.id k = 1) ∧
      (∀ later c', run auth c later = some c' →
        ∀ u ∈ c.store.db.users.rows, SameAccount u.id c.store.db c'.store.db) ∧
      ∀ (s t : Ctx) (spotifyUser : SpotifyUser) (user : User), s.env.auth = some spotifyUser →
        s.db.users.findBySpotifyId spotifyUser.id = some user →
        SessionsController.create.run s = .ok () t → SameTables s.db t.db := by
  have hfilled := filled_run (filled_start clock) hrun
  refine ⟨fun u hu k => hfilled.1.rowsFor_eq_one hu k, fun later c' hlater u hu => ?_,
    fun s t spotifyUser user hauth hfound hcreate => create_sameTables hauth hfound hcreate⟩
  exact sameAccount_run hfilled hu hlater

namespace Sample

/-- Callback `true` raises in its last creation, and callback `false` overlaps it and goes on. -/
def oneFails : List (Bool × Input) :=
  List.replicate 5 (true, ⟨1, fun _ => false⟩) ++ List.replicate 2 (false, ⟨1, fun _ => false⟩) ++
    [(true, ⟨1, fun call => call = .createUser .spotifydata⟩)] ++
    List.replicate 9 (false, ⟨1, fun _ => false⟩)

/-- The state after a schedule of logins of one Spotify user, from the empty database. -/
def afterFailure (schedule : List (Bool × Input)) : Config Bool Store Local :=
  (run (fun _ => ⟨"ada", some "Ada", some [], none⟩) (start 0 .empty) schedule).getD
    (start 0 .empty)

end Sample

/-- After one creation that fails and one that succeeds, the one user there is has its wallet. -/
theorem oneFails_complete :
    (Sample.afterFailure Sample.oneFails).store.db.users.rows = [⟨1, "ada", some "Ada"⟩] ∧
      rowsFor (Sample.afterFailure Sample.oneFails).store.db 1 .wallet = 1 := by
  have hrun : run (fun _ : Bool => ⟨"ada", some "Ada", some [], none⟩) (start 0 .empty)
      Sample.oneFails = some (Sample.afterFailure Sample.oneFails) := rfl
  have hrows : (Sample.afterFailure Sample.oneFails).store.db.users.rows =
      [⟨1, "ada", some "Ada"⟩] := by decide
  have huser : (⟨1, "ada", some "Ada"⟩ : User) ∈
      (Sample.afterFailure Sample.oneFails).store.db.users.rows := by
    rw [hrows]
    exact List.mem_singleton_self _
  exact ⟨hrows, (login_keeps_accounts hrun).1 _ huser .wallet⟩

end Knoiz.ConcurrentLogin
