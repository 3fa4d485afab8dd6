import Knoiz.ConcurrentLogin

/-!
# One user per Spotify account

`find_or_create_by` is a SELECT and then, when it has found nothing, an INSERT; the schema has no
unique index on `users.spotify_id`.  So an account has one user as long as no two callbacks of it
are both between an empty SELECT and the end of their creation, and two users as soon as two such
callbacks both go through.
-/

namespace Knoiz.ConcurrentLogin

open Interleaving

/-! ### What a step means for the accounts -/

theorem countSpotifyId_eq_zero {us : Users} {s : String} (h : us.findBySpotifyId s = none) :
    us.countSpotifyId s = 0 :=
  List.countP_eq_zero.mpr (List.find?_eq_none.mp h)

theorem countSpotifyId_rename (us : Users) (id : ℕ) (username : Option String) (s : String) :
    (us.rename id username).countSpotifyId s = us.countSpotifyId s := by
  unfold Users.countSpotifyId Users.rename
  simp only [List.countP_map, Function.comp_def]
  congr 1
  funext u
  by_cases h : u.id = id <;> simp [h]

/-- What a step does to the number of users of each account, and to the creation under way. -/
inductive Registers (spotifyId : String) (a : Input) (db : Database) (l : Local) (db' : Database)
    (l' : Local) : Prop
  | kept (count : ∀ s, db'.users.countSpotifyId s = db.users.countSpotifyId s)
      (h : l'.pending = l.pending)
  | began (count : ∀ s, db'.users.countSpotifyId s = db.users.countSpotifyId s) (hl : l = .idle)
      (hselect : a.raises .selectUser = false)
      (h : db.users.findBySpotifyId spotifyId = none) (hl' : l'.pending = true)
  | created (count : ∀ s, db'.users.countSpotifyId s =
        db.users.countSpotifyId s + if spotifyId = s then 1 else 0)
      (hl : l.pending = true) (hl' : l'.pending = false)
  | gaveUp (count : ∀ s, db'.users.countSpotifyId s = db.users.countSpotifyId s)
      (hl : l.pending = true) (hl' : l'.pending = false)
      (h : (∃ c, a.raises (.createUser c) = true) ∨
        ∃ draft, l = .creating draft [] ∧ commit db spotifyId draft = none)

theorem Change.registers {spotifyId : String} {a : Input} {db db' : Database} {l l' : Local}
    (h : Change spotifyId a db l db' l') : Registers spotifyId a db l db' l' := by
  cases h with
  | quiet hl hl' => exact .kept (fun _ => rfl) (hl'.trans hl.symm)
  | missed hselect h => exact .began (fun _ => rfl) rfl hselect h rfl
  | drawn => exact .kept (fun _ => rfl) rfl
  | inserted now draft c rest => exact .kept (fun _ => rfl) rfl
  | @committed draft db' h =>
      obtain ⟨-, -, hrows, -⟩ := commit_eq_some h
      refine .created (fun s => ?_) rfl rfl
      unfold Users.countSpotifyId
      rw [hrows, List.countP_append, List.countP_singleton]
      simp only [decide_eq_true_eq]
  | @refused draft h => exact .gaveUp (fun _ => rfl) rfl rfl (.inr ⟨draft, rfl, h⟩)
  | @raised l db' c hl h hdb =>
      refine .gaveUp (fun s => ?_) hl rfl (.inl ⟨c, h⟩)
      rcases hdb with rfl | rfl <;> rfl
  | renamed user username => exact .kept (fun s => countSpotifyId_rename _ _ _ s) rfl
  | saved hl id f => exact .kept (fun _ => rfl) hl.symm

section Run

variable {ι : Type} [DecidableEq ι] {auth : ι → SpotifyUser} {c c' : Config ι Store Local}

/-! ### One creation of an account at a time -/

/-- A SELECT that finds nothing runs only while no other callback of the account is between such a
SELECT of its own and the end of its creation. -/
def OneCreation (auth : ι → SpotifyUser) (c : Config ι Store Local) (a : ι × Input) : Prop :=
  c.locals a.1 = .idle → a.2.raises .selectUser = false →
    c.store.db.users.findBySpotifyId (auth a.1).id = none →
    ∀ j, (auth j).id = (auth a.1).id → (c.locals j).pending = false

/-- Each account has at most one user, or one creation under way and no user yet. -/
structure Unique (auth : ι → SpotifyUser) (c : Config ι Store Local) : Prop where
  users : ∀ s, c.store.db.users.countSpotifyId s ≤ 1
  creations : ∀ i j, (c.locals i).pending = true → (c.locals j).pending = true →
    (auth i).id = (auth j).id → i = j
  missing : ∀ i, (c.locals i).pending = true → c.store.db.users.countSpotifyId (auth i).id = 0

section UniqueSteps

omit [DecidableEq ι]

variable {i : ι}

/-- A step of `i` that adds no user and begins no creation. -/
theorem Unique.kept (hc : Unique auth c) (hrest : ∀ j, j ≠ i → c'.locals j = c.locals j)
    (hcount : ∀ s, c'.store.db.users.countSpotifyId s = c.store.db.users.countSpotifyId s)
    (hpending : (c'.locals i).pending = true → (c.locals i).pending = true) : Unique auth c' := by
  have hback : ∀ j, (c'.locals j).pending = true → (c.locals j).pending = true := by
    intro j hj
    by_cases hji : j = i
    · subst hji
      exact hpending hj
    · rw [← hrest j hji]
      exact hj
  refine ⟨fun s => ?_, fun j k hj hk => hc.creations j k (hback j hj) (hback k hk),
    fun j hj => ?_⟩
  · rw [hcount]
    exact hc.users s
  · rw [hcount]
    exact hc.missing j (hback j hj)

/-- A step in which `i` begins the only creation of its account, which has no user. -/
theorem Unique.began (hc : Unique auth c) (hrest : ∀ j, j ≠ i → c'.locals j = c.locals j)
    (hcount : ∀ s, c'.store.db.users.countSpotifyId s = c.store.db.users.countSpotifyId s)
    (hnone : ∀ j, (auth j).id = (auth i).id → (c.locals j).pending = false)
    (hmissing : c.store.db.users.countSpotifyId (auth i).id = 0) : Unique auth c' := by
  refine ⟨fun s => ?_, fun j k hj hk hjk => ?_, fun j hj => ?_⟩
  · rw [hcount]
    exact hc.users s
  · by_cases hji : j = i <;> by_cases hki : k = i
    · rw [hji, hki]
    · subst hji
      rw [hrest k hki, hnone k hjk.symm] at hk
      cases hk
    · subst hki
      rw [hrest j hji, hnone j hjk] at hj
      cases hj
    · rw [hrest j hji] at hj
      rw [hrest k hki] at hk
      exact hc.creations j k hj hk hjk
  · rw [hcount]
    by_cases hji : j = i
    · subst hji
      exact hmissing
    · rw [hrest j hji] at hj
      exact hc.missing j hj

/-- A step in which `i` ends its creation with a new user. -/
theorem Unique.created (hc : Unique auth c) (hrest : ∀ j, j ≠ i → c'.locals j = c.locals j)
    (hcount : ∀ s, c'.store.db.users.countSpotifyId s =
      c.store.db.users.countSpotifyId s + if (auth i).id = s then 1 else 0)
    (hi : (c.locals i).pending = true) (hended : (c'.locals i).pending = false) :
    Unique auth c' := by
  have hback : ∀ j, (c'.locals j).pending = true → j ≠ i ∧ (c.locals j).pending = true := by
    intro j hj
    have hji : j ≠ i := by
      rintro rfl
      rw [hended] at hj
      cases hj
    rw [← hrest j hji]
    exact ⟨hji, hj⟩
  refine ⟨fun s => ?_, fun j k hj hk hjk => ?_, fun j hj => ?_⟩
  · rw [hcount]
    split
    · rename_i hs
      rw [← hs, hc.missing i hi]
    · exact hc.users s
  · exact hc.creations j k (hback j hj).2 (hback k hk).2 hjk
  · obtain ⟨hji, hj'⟩ := hback j hj
    have hother : (auth i).id ≠ (auth j).id := fun h => hji (hc.creations i j hi hj' h).symm
    rw [hcount, if_neg hother, hc.missing j hj']

end UniqueSteps

theorem unique_step {a : ι × Input} (hc : Unique auth c) (hg : OneCreation auth c a)
    (hstep : Interleaving.step (next auth) c a = some c') : Unique auth c' := by
  obtain ⟨i, a⟩ := a
  obtain ⟨s', l', hnext, hstore, hself, hrest⟩ := step_eq_some hstep
  subst hstore hself
  cases (next_change hnext).registers with
  | kept count h => exact hc.kept hrest count fun hp => h ▸ hp
  | gaveUp count hl hl' h => exact hc.kept hrest count fun _ => hl
  | began count hl hselect h hl' =>
      exact hc.began hrest count (hg hl hselect h) (countSpotifyId_eq_zero h)
  | created count hl hl' => exact hc.created hrest count hl hl'

/-- **One user per account.**  In every run with one creation of an account at a time. -/
theorem unique_run {schedule : List (ι × Input)} (hc : Unique auth c)
    (hg : StepRun.Along (Interleaving.step (next auth)) (OneCreation auth) c schedule)
    (hrun : run auth c schedule = some c') : Unique auth c' :=
  StepRun.run_invariant_along (fun _ _ _ hc hg hstep => unique_step hc hg hstep) hc hg hrun

omit [DecidableEq ι] in
theorem unique_start {clock : ℤ} {db : Database} (h : ∀ s, db.users.countSpotifyId s ≤ 1) :
    Unique auth (start clock db) :=
  ⟨h, fun _ _ hi => (nomatch hi), fun _ hi => (nomatch hi)⟩

/-! ### Two creations of an account at a time -/

/-- The account has two users, or will have them when the creations under way go through. -/
def Twice (auth : ι → SpotifyUser) (s : String) (c : Config ι Store Local) : Prop :=
  2 ≤ c.store.db.users.countSpotifyId s ∨
    (1 ≤ c.store.db.users.countSpotifyId s ∧
      ∃ i, (c.locals i).pending = true ∧ (auth i).id = s) ∨
    ∃ i j, i ≠ j ∧ (c.locals i).pending = true ∧ (c.locals j).pending = true ∧
      (auth i).id = s ∧ (auth j).id = s

/-- Nothing raises in a creation. -/
def Faultless (a : Input) : Prop := ∀ c, a.raises (.createUser c) = false

section TwiceSteps

omit [DecidableEq ι]

variable {s : String} {i : ι}

/-- A step of `i` that adds no user and ends no creation. -/
theorem Twice.kept (h : Twice auth s c) (hrest : ∀ j, j ≠ i → c'.locals j = c.locals j)
    (hcount : ∀ s, c'.store.db.users.countSpotifyId s = c.store.db.users.countSpotifyId s)
    (hpending : (c.locals i).pending = true → (c'.locals i).pending = true) : Twice auth s c' := by
  have hforth : ∀ j, (c.locals j).pending = true → (c'.locals j).pending = true := by
    intro j hj
    by_cases hji : j = i
    · subst hji
      exact hpending hj
    · rw [hrest j hji]
      exact hj
  unfold Twice
  rw [hcount]
  rcases h with h | ⟨h, j, hj, hs⟩ | ⟨j, k, hne, hj, hk, hs⟩
  · exact .inl h
  · exact .inr (.inl ⟨h, j, hforth j hj, hs⟩)
  · exact .inr (.inr ⟨j, k, hne, hforth j hj, hforth k hk, hs⟩)

/-- A step in which `i` ends its creation with a new user. -/
theorem Twice.created (h : Twice auth s c) (hrest : ∀ j, j ≠ i → c'.locals j = c.locals j)
    (hcount : ∀ s, c'.store.db.users.countSpotifyId s =
      c.store.db.users.countSpotifyId s + if (auth i).id = s then 1 else 0) : Twice auth s c' := by
  have hforth : ∀ j, j ≠ i → (c.locals j).pending = true → (c'.locals j).pending = true := by
    intro j hj hp
    rw [hrest j hj]
    exact hp
  unfold Twice
  rw [hcount]
  by_cases hi : (auth i).id = s
  · rw [if_pos hi]
    rcases h with h | ⟨h, -⟩ | ⟨j, k, hne, hj, hk, hjs, hks⟩
    · exact .inl (by omega)
    · exact .inl (by omega)
    · -- one of the two creations is not the one that has ended
      refine .inr (.inl ⟨by omega, ?_⟩)
      by_cases hji : j = i
      · subst hji
        exact ⟨k, hforth k (Ne.symm hne) hk, hks⟩
      · exact ⟨j, hforth j hji hj, hjs⟩
  · have hother : ∀ j, (auth j).id = s → j ≠ i := by
      rintro j hj rfl
      exact hi hj
    rw [if_neg hi]
    rcases h with h | ⟨h, j, hj, hs⟩ | ⟨j, k, hne, hj, hk, hjs, hks⟩
    · exact .inl h
    · exact .inr (.inl ⟨h, j, hforth j (hother j hs) hj, hs⟩)
    · exact .inr (.inr ⟨j, k, hne, hforth j (hother j hjs) hj, hforth k (hother k hks) hk, hjs,
        hks⟩)

end TwiceSteps

theorem twice_step {s : String} {a : ι × Input} (hreserved : Reserved c) (h : Twice auth s c)
    (hfault : Faultless a.2) (hstep : Interleaving.step (next auth) c a = some c') :
    Twice auth s c' := by
  obtain ⟨i, a⟩ := a
  obtain ⟨s', l', hnext, hstore, hself, hrest⟩ := step_eq_some hstep
  subst hstore hself
  cases (next_change hnext).registers with
  | kept count hl => exact h.kept hrest count fun hp => hl ▸ hp
  | began count hl hselect hnone hl' => exact h.kept hrest count fun _ => hl'
  | gaveUp count hl hl' hwhy =>
      rcases hwhy with ⟨k, hk⟩ | ⟨draft, hdraft, hnone⟩
      · rw [hfault k] at hk
        cases hk
      · obtain ⟨db', hsome⟩ := hreserved.commit hdraft (auth i).id
        rw [hnone] at hsome
        cases hsome
  | created count hl hl' => exact h.created hrest count

/-- A step that violates the guard begins a second creation of the account. -/
theorem twice_of_violation {a : ι × Input} (hg : ¬ OneCreation auth c a)
    (hstep : Interleaving.step (next auth) c a = some c') : Twice auth (auth a.1).id c' := by
  obtain ⟨i, a⟩ := a
  obtain ⟨s', l', hnext, hstore, hself, hrest⟩ := step_eq_some hstep
  unfold OneCreation at hg
  simp only [not_forall] at hg
  obtain ⟨hl, hselect, hnone, j, hj, hp⟩ := hg
  have hp : (c.locals j).pending = true := Bool.not_eq_false _ ▸ hp
  have hji : j ≠ i := by
    rintro rfl
    rw [hl] at hp
    cases hp
  have hmissing : l' = .missing := by
    rw [hl] at hnext
    simp only [next, hselect, Bool.false_eq_true, if_false, hnone] at hnext
    cases hnext
    rfl
  refine .inr (.inr ⟨j, i, hji, ?_, ?_, hj, rfl⟩)
  · rw [hrest j hji]
    exact hp
  · rw [hself, hmissing]
    rfl

/-- **One user per account, exactly.**  From a database with at most one user for each account, one
creation of an account at a time keeps it so in every run; and a run in which no creation fails or
is left open, and which keeps it so, had one creation of an account at a time. -/
theorem one_user_iff {clock : ℤ} {db : Database} {schedule : List (ι × Input)}
    (hdb : ∀ s, db.users.countSpotifyId s ≤ 1)
    (hrun : run auth (start clock db) schedule = some c) :
    (StepRun.Along (Interleaving.step (next auth)) (OneCreation auth) (start clock db) schedule →
        ∀ s, c.store.db.users.countSpotifyId s ≤ 1) ∧
      ((∀ i, (c.locals i).pending = false) → (∀ a ∈ schedule, Faultless a.2) →
        (∀ s, c.store.db.users.countSpotifyId s ≤ 1) →
        StepRun.Along (Interleaving.step (next auth)) (OneCreation auth) (start clock db)
          schedule) := by
  constructor
  · intro halong
    exact (unique_run (unique_start hdb) halong hrun).users
  · intro hended hfaultless hone
    refine StepRun.along_of_unmarked (I := Reserved) (M := fun c => Reserved c ∧ ∃ s, Twice auth s c)
      (H := fun _ a => Faultless a.2) (fun _ _ _ hc _ _ hstep => reserved_step hc hstep) ?_ ?_
      (reserved_start clock db) (StepRun.along_of_labels hfaultless) hrun ?_
    · intro m a m' hc _ hg hstep
      exact ⟨reserved_step hc hstep, _, twice_of_violation hg hstep⟩
    · rintro m a m' ⟨hc, s, htwice⟩ hfault hstep
      exact ⟨reserved_step hc hstep, s, twice_step hc htwice hfault hstep⟩
    · rintro ⟨-, s, h | ⟨-, i, hi, -⟩ | ⟨i, -, -, hi, -⟩⟩
      · have hle := hone s
        omega
      · rw [hended i] at hi
        cases hi
      · rw [hended i] at hi
        cases hi

end Run

/-! ### Two callbacks of one account -/

namespace Sample

def visitor : SpotifyUser := ⟨"ada", some "Ada", some [], none⟩

/-- The next `n` steps of callback `i`, none of which raises. -/
def steps (n : ℕ) (i : Bool) : List (Bool × Input) := List.replicate n (i, ⟨1, fun _ => false⟩)

/-- Callback `true` from its SELECT to the save of the profile, then callback `false`. -/
def inTurn : List (Bool × Input) := steps 11 true ++ steps 5 false

/-- Both callbacks search before either of them creates. -/
def overlapping : List (Bool × Input) :=
  steps 1 true ++ steps 1 false ++ steps 10 true ++ steps 10 false

/-- The state after a schedule, from the empty database. -/
def after (schedule : List (Bool × Input)) : Config Bool Store Local :=
  (run (fun _ => visitor) (start 0 .empty) schedule).getD (start 0 .empty)

end Sample

/-- Callbacks in turn have one creation at a time. -/
theorem inTurn_guarded :
    StepRun.Along (Interleaving.step (next fun _ => Sample.visitor))
      (OneCreation fun _ => Sample.visitor) (start 0 .empty) Sample.inTurn := by
  have hrun : run (fun _ => Sample.visitor) (start 0 .empty) Sample.inTurn =
      some (Sample.after Sample.inTurn) := rfl
  have hempty : ∀ s, Database.empty.users.countSpotifyId s ≤ 1 := fun _ => Nat.zero_le 1
  refine (one_user_iff hempty hrun).2 (by decide) ?_ fun s => ?_
  · intro a ha k
    have hinput : a.2 = ⟨1, fun _ => false⟩ := by
      rcases List.mem_append.mp ha with h | h
      · rw [List.eq_of_mem_replicate h]
      · rw [List.eq_of_mem_replicate h]
    rw [hinput]
  · exact List.countP_le_length

/-- Two callbacks that both search before either creates leave two users of one account. -/
theorem two_users :
    ¬ ∀ (ι : Type) [DecidableEq ι] (auth : ι → SpotifyUser) (clock : ℤ)
        (schedule : List (ι × Input)) (c : Config ι Store Local),
      run auth (start clock .empty) schedule = some c →
      ∀ s, c.store.db.users.countSpotifyId s ≤ 1 := by
  intro h
  have hone := h Bool (fun _ => Sample.visitor) 0 Sample.overlapping
    (Sample.after Sample.overlapping) rfl "ada"
  have htwo : (Sample.after Sample.overlapping).store.db.users.countSpotifyId "ada" = 2 := by
    decide
  rw [htwo] at hone
  exact absurd hone (by decide)

end Knoiz.ConcurrentLogin
