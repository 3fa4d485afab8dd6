import Knoiz.Library.Calendar
import Knoiz.Library.RowTable
import Mathlib.Data.List.Nodup

/-!
# The database: five tables and the creation of a user

The rows of `db/schema.rb` with the columns the application reads or writes, the column
defaults, and the `User` model's `after_create` callback, which inserts one row into each of the
four association tables inside the transaction of the user's own INSERT.

The primary keys of `users` are distinct and come from a sequence that a rolled back INSERT does
not give back; `Users` carries both as fields.  An association row is reached through
its `user_id`, and `has_one` reads the first row it finds.
-/

namespace Knoiz

open RowTable

/-! ### Rows -/

structure User where
  id : ℕ
  spotifyId : String
  username : Option String
  deriving DecidableEq, Repr

structure Subscription where
  stripeUserId : Option String := none
  active : Bool := false
  expiresAt : Option ℤ := none
  deriving DecidableEq, Repr

structure Profile where
  image : Option String := none
  timestamp : Option ℤ := none
  updatedAt : ℤ
  deriving DecidableEq, Repr

/-- The default `"2022-12-31 23:00:00"` of the two `timestamp` columns. -/
def defaultTimestamp : ℤ := 1672527600 * Calendar.second

structure Wallet where
  timestamp : Option ℤ := some defaultTimestamp
  token : Option String := some "1"
  deriving DecidableEq, Repr

structure Spotifydata where
  favoriteGenre : List (String × ℕ) :=
    [("Genre 1", 5), ("Genre 2", 4), ("Genre 3", 3), ("Genre 4", 2), ("Genre 5", 1)]
  timestamp : Option ℤ := some defaultTimestamp
  deriving DecidableEq, Repr

/-- Saving a changed profile touches `updated_at`; saving an unchanged one writes nothing. -/
def Profile.saved (p : Profile) (now : ℤ) (changed : Profile) : Profile :=
  if changed = p then p else { changed with updatedAt := now }

/-! ### The users table -/

/-- The rows of `users` with the next value of the primary key sequence. -/
structure Users where
  rows : List User
  seq : ℕ
  fresh : ∀ u ∈ rows, u.id < seq
  keys : (rows.map User.id).Nodup

namespace Users

def empty : Users := ⟨[], 0, by simp, List.nodup_nil⟩

/-- `User.find_by(id: id)`. -/
def findById (us : Users) (id : ℕ) : Option User := us.rows.find? fun u => u.id = id

/-- `User.find_by(spotify_id: s)`. -/
def findBySpotifyId (us : Users) (s : String) : Option User :=
  us.rows.find? fun u => u.spotifyId = s

/-- INSERT of a user with the given Spotify id; the key is the sequence's next value. -/
def insert (us : Users) (s : String) : Users where
  rows := us.rows ++ [⟨us.seq, s, none⟩]
  seq := us.seq + 1
  fresh := by
    intro u hu
    rcases List.mem_append.mp hu with hu | hu
    · exact Nat.lt_succ_of_lt (us.fresh u hu)
    · rw [List.mem_singleton.mp hu]
      exact Nat.lt_succ_self us.seq
  keys := by
    rw [List.map_append]
    refine us.keys.append (List.nodup_singleton _) ?_
    intro id hid hseq
    obtain ⟨u, hu, rfl⟩ := List.mem_map.mp hid
    rw [List.map_cons, List.map_nil, List.mem_singleton] at hseq
    exact absurd hseq (us.fresh u hu).ne

/-- A rolled back INSERT has used up a key and left no row. -/
def burn (us : Users) : Users where
  rows := us.rows
  seq := us.seq + 1
  fresh := fun u hu => Nat.lt_succ_of_lt (us.fresh u hu)
  keys := us.keys

/-- COMMIT of a row whose key was drawn from the sequence by an earlier `burn`; the primary key
refuses a second row with that key. -/
def commit (us : Users) (u : User) : Option Users :=
  if h : u.id < us.seq ∧ u.id ∉ us.rows.map User.id then
    some
      { rows := us.rows ++ [u]
        seq := us.seq
        fresh := by
          intro v hv
          rcases List.mem_append.mp hv with hv | hv
          · exact us.fresh v hv
          · rw [List.mem_singleton.mp hv]
            exact h.1
        keys := by
          rw [List.map_append]
          refine us.keys.append (List.nodup_singleton _) ?_
          intro id hid hu
          rw [List.map_cons, List.map_nil, List.mem_singleton] at hu
          rw [hu] at hid
          exact h.2 hid }
  else none

/-- Renaming a row changes no key. -/
theorem map_id_renamed (rows : List User) (id : ℕ) (name : Option String) :
    (rows.map fun u => if u.id = id then { u with username := name } else u).map User.id =
      rows.map User.id := by
  rw [List.map_map]
  refine List.map_congr_left fun u _ => ?_
  by_cases h : u.id = id <;> simp [h]

/-- UPDATE of the `username` column of the row with key `id`. -/
def rename (us : Users) (id : ℕ) (name : Option String) : Users where
  rows := us.rows.map fun u => if u.id = id then { u with username := name } else u
  seq := us.seq
  fresh := by
    intro u hu
    obtain ⟨v, hv, rfl⟩ := List.mem_map.mp hu
    by_cases h : v.id = id <;> simpa [h] using us.fresh v hv
  keys := by
    rw [map_id_renamed]
    exact us.keys

/-- How many rows carry the Spotify id `s`. -/
def countSpotifyId (us : Users) (s : String) : ℕ := us.rows.countP fun u => u.spotifyId = s

theorem id_of_findById {us : Users} {id : ℕ} {u : User} (h : us.findById id = some u) :
    u.id = id := by
  simpa using List.find?_some h

theorem mem_of_findById {us : Users} {id : ℕ} {u : User} (h : us.findById id = some u) :
    u ∈ us.rows := List.mem_of_find?_eq_some h

/-- A row is found under its own key. -/
theorem findById_of_mem {us : Users} {u : User} (h : u ∈ us.rows) :
    us.findById u.id = some u := by
  cases hf : us.findById u.id with
  | none =>
      have := List.find?_eq_none.mp hf u h
      simp at this
  | some v =>
      have hid : v.id = u.id := id_of_findById hf
      rw [List.inj_on_of_nodup_map us.keys (mem_of_findById hf) h hid]

theorem spotifyId_of_find {us : Users} {s : String} {u : User}
    (h : us.findBySpotifyId s = some u) : u.spotifyId = s := by
  simpa using List.find?_some h

theorem findById_insert_of_some {us : Users} {id : ℕ} {u : User} (s : String)
    (h : us.findById id = some u) : (us.insert s).findById id = some u := by
  simp only [findById, insert, List.find?_append] at h ⊢
  rw [h, Option.some_or]

/-- The row just inserted is found under its new key. -/
theorem findById_insert_self (us : Users) (s : String) :
    (us.insert s).findById us.seq = some ⟨us.seq, s, none⟩ := by
  have hnone : us.rows.find? (fun u => decide (u.id = us.seq)) = none := by
    rw [List.find?_eq_none]
    intro u hu
    have := us.fresh u hu
    simp only [decide_eq_true_eq]
    omega
  simp [findById, insert, List.find?_append, hnone]

theorem commit_eq_some {us vs : Users} {u : User} :
    us.commit u = some vs ↔ (u.id < us.seq ∧ u.id ∉ us.rows.map User.id) ∧
      vs.rows = us.rows ++ [u] ∧ vs.seq = us.seq := by
  unfold commit
  split
  · rename_i h
    constructor
    · intro hvs
      cases hvs
      exact ⟨h, rfl, rfl⟩
    · rintro ⟨-, hrows, hseq⟩
      cases vs
      subst hrows hseq
      rfl
  · rename_i h
    constructor
    · intro hvs
      cases hvs
    · intro hvs
      exact absurd hvs.1 h

theorem exists_commit {us : Users} {u : User} (hlt : u.id < us.seq)
    (hfree : u.id ∉ us.rows.map User.id) : ∃ vs, us.commit u = some vs := by
  unfold commit
  rw [dif_pos ⟨hlt, hfree⟩]
  exact ⟨_, rfl⟩

/-- Drawing the key and committing the row is the INSERT. -/
theorem commit_burn (us : Users) (s : String) :
    us.burn.commit ⟨us.seq, s, none⟩ = some (us.insert s) := by
  refine commit_eq_some.mpr ⟨⟨Nat.lt_succ_self us.seq, fun hmem => ?_⟩, rfl, rfl⟩
  obtain ⟨u, hu, hid⟩ := List.mem_map.mp hmem
  exact absurd hid (us.fresh u hu).ne

/-- Renaming a row to the name that it has changes nothing. -/
theorem rename_self {us : Users} {u : User} (h : u ∈ us.rows) :
    us.rename u.id u.username = us := by
  have hrows : (us.rename u.id u.username).rows = us.rows := by
    refine (List.map_congr_left fun v hv => ?_).trans (List.map_id us.rows)
    by_cases hid : v.id = u.id
    · have hvu : v = u := List.inj_on_of_nodup_map us.keys hv h hid
      rw [if_pos hid, hvu]
      rfl
    · rw [if_neg hid]
      rfl
  cases us
  unfold rename at hrows ⊢
  simp only at hrows
  simp only [hrows]

theorem findById_rename (us : Users) (id j : ℕ) (name : Option String) :
    (us.rename id name).findById j =
      (us.findById j).map fun u => if u.id = id then { u with username := name } else u := by
  simp only [findById, rename, List.find?_map, Function.comp_def]
  congr 2
  funext u
  by_cases h : u.id = id <;> simp [h]

theorem findBySpotifyId_rename (us : Users) (id : ℕ) (x : String) (name : Option String) :
    (us.rename id name).findBySpotifyId x =
      (us.findBySpotifyId x).map fun u => if u.id = id then { u with username := name } else u := by
  simp only [findBySpotifyId, rename, List.find?_map, Function.comp_def]
  congr 2
  funext u
  by_cases h : u.id = id <;> simp [h]

/-- No statement of the application changes the Spotify id stored under a key. -/
def Extends (us vs : Users) : Prop :=
  ∀ id u, us.findById id = some u → ∃ v, vs.findById id = some v ∧ v.spotifyId = u.spotifyId

theorem Extends.refl (us : Users) : us.Extends us := fun _ u h => ⟨u, h, rfl⟩

theorem Extends.trans {us vs ws : Users} (h : us.Extends vs) (h' : vs.Extends ws) :
    us.Extends ws := by
  intro id u hu
  obtain ⟨v, hv, huv⟩ := h id u hu
  obtain ⟨w, hw, hvw⟩ := h' id v hv
  exact ⟨w, hw, hvw.trans huv⟩

theorem extends_insert (us : Users) (s : String) : us.Extends (us.insert s) :=
  fun _ u h => ⟨u, findById_insert_of_some s h, rfl⟩

theorem extends_burn (us : Users) : us.Extends us.burn := fun _ u h => ⟨u, h, rfl⟩

end Users

/-! ### The database and the creation of a user -/

structure Database where
  users : Users
  subscriptions : Table ℕ Subscription
  profiles : Table ℕ Profile
  wallets : Table ℕ Wallet
  spotifydata : Table ℕ Spotifydata

def Database.empty : Database := ⟨Users.empty, [], [], [], []⟩

/-- The five INSERTs that make up the creation of a user. -/
inductive Creation where
  | user | subscription | profile | wallet | spotifydata
  deriving DecidableEq, Repr

/-- The statements of one database transaction, any of which may raise. -/
abbrev Transaction := EStateM Creation Database

section CreateUser

variable (raises : Creation → Bool) (now : ℤ)

/-- Runs an INSERT unless it raises. -/
def inserting (c : Creation) (insert : Database → Database) : Transaction Unit :=
  if raises c then throw c else modify insert

def createSubscription (id : ℕ) : Transaction Unit :=
  inserting raises .subscription fun db =>
    { db with subscriptions := db.subscriptions ++ [(id, {})] }

def createProfile (id : ℕ) : Transaction Unit :=
  inserting raises .profile fun db =>
    { db with profiles := db.profiles ++ [(id, { updatedAt := now })] }

def createWallet (id : ℕ) : Transaction Unit :=
  inserting raises .wallet fun db => { db with wallets := db.wallets ++ [(id, {})] }

def createSpotifydata (id : ℕ) : Transaction Unit :=
  inserting raises .spotifydata fun db => { db with spotifydata := db.spotifydata ++ [(id, {})] }

/-- `User#initialize_related_models`, run after the INSERT of the user. -/
def initializeRelatedModels (id : ℕ) : Transaction Unit := do
  createSubscription raises id
  createProfile raises now id
  createWallet raises id
  createSpotifydata raises id

/-- The INSERT of a user and its `after_create` callback. -/
def insertUser (spotifyId : String) : Transaction ℕ := do
  let db ← get
  inserting raises .user fun db => { db with users := db.users.insert spotifyId }
  initializeRelatedModels raises now db.users.seq
  return db.users.seq

/-- Creating a user is one transaction: when a statement raises, the database is as before,
except that a primary key has been used up. -/
def Database.createUser (db : Database) (spotifyId : String) :
    EStateM.Result Creation Database ℕ :=
  match (insertUser raises now spotifyId).run db with
  | .ok id db' => .ok id db'
  | .error c _ => .error c { db with users := db.users.burn }

/-- The database after a creation in which nothing raised. -/
def Database.withUser (db : Database) (spotifyId : String) : Database where
  users := db.users.insert spotifyId
  subscriptions := db.subscriptions ++ [(db.users.seq, {})]
  profiles := db.profiles ++ [(db.users.seq, { updatedAt := now })]
  wallets := db.wallets ++ [(db.users.seq, {})]
  spotifydata := db.spotifydata ++ [(db.users.seq, {})]

theorem run_inserting (c : Creation) (insert : Database → Database) (db : Database) :
    (inserting raises c insert).run db = if raises c then .error c db else .ok () (insert db) := by
  unfold inserting
  split <;> rfl

/-- **All or nothing.**  A creation inserts all five rows or none of them. -/
theorem createUser_cases (db : Database) (spotifyId : String) :
    ((∀ c, raises c = false) ∧
        db.createUser raises now spotifyId = .ok db.users.seq (db.withUser now spotifyId)) ∨
      ∃ c, raises c = true ∧
        db.createUser raises now spotifyId = .error c { db with users := db.users.burn } := by
  simp only [Database.createUser, insertUser, initializeRelatedModels, createSubscription,
    createProfile, createWallet, createSpotifydata, EStateM.run_bind, EStateM.run_get,
    EStateM.run_pure, run_inserting]
  cases hu : raises .user with
  | true => exact .inr ⟨.user, hu, rfl⟩
  | false =>
    cases hs : raises .subscription with
    | true => exact .inr ⟨.subscription, hs, rfl⟩
    | false =>
      cases hp : raises .profile with
      | true => exact .inr ⟨.profile, hp, rfl⟩
      | false =>
        cases hw : raises .wallet with
        | true => exact .inr ⟨.wallet, hw, rfl⟩
        | false =>
          cases hd : raises .spotifydata with
          | true => exact .inr ⟨.spotifydata, hd, rfl⟩
          | false => exact .inl ⟨fun c => by cases c <;> assumption, rfl⟩

end CreateUser

end Knoiz
