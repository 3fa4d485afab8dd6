import Knoiz.Library.EventLog
import Knoiz.StatsViews

/-!
# Browsing the tops

The index page and the page of the tops hold six grids, one for each type and term, in two
containers, one for each type.  The script of the page shows and hides elements by their ids and
writes what is chosen into two labels; it holds the choices in two fields, which are empty until the
first click.  A look at an element that is not there raises.

Whatever is clicked in whatever order, nothing raises, one grid is displayed, and it is the grid of
what the labels say.
-/

namespace Knoiz

open RowTable

/-! ### The document -/

/-- An element: the element around it that the script hides, whether its class list holds `hidden`,
its inner HTML less the white space around it, and the cards that it shows. -/
structure Element where
  parent : Option String
  hidden : Bool
  innerHTML : String
  cards : List Card
  deriving DecidableEq, Repr

abbrev Document := Table String Element

/-- An element is displayed when neither it nor what is around it is hidden. -/
def Document.displays (document : Document) (id : String) : Bool :=
  match List.lookup id document with
  | none => false
  | some element => !element.hidden &&
      element.parent.all fun parent => (List.lookup parent document).any fun around => !around.hidden

/-- What an element says, and what its cards say. -/
def Document.text (document : Document) (id : String) : Option String :=
  (List.lookup id document).map Element.innerHTML

def Document.captions (document : Document) (id : String) : Option (List String) :=
  (List.lookup id document).map fun element => element.cards.map Card.caption

/-- The labels of the two menus, with their defaults; the template has them on lines of their own. -/
def labels : Document :=
  [("object-type", ⟨none, false, "Tracks", []⟩), ("object-term", ⟨none, false, "1 month", []⟩)]

def container (type : String) : String × Element := (type, ⟨none, type != "tracks", "", []⟩)

def Grid.element (grid : Grid) : String × Element :=
  (grid.id, ⟨some grid.type, grid.term != "short_term", "", grid.cards⟩)

/-- The elements that the script looks at, as the page is rendered. -/
def topsDocument (grids : List Grid) : Document :=
  labels ++ types.map container ++ grids.map Grid.element

/-! ### The script -/

/-- The fields of the controller, and the document. -/
structure TopsPage where
  currentTerm : String
  currentType : String
  document : Document
  deriving DecidableEq, Repr

/-- What `null` answers to. -/
inductive ScriptError where
  | typeError
  deriving DecidableEq, Repr

/-- An error of the script leaves what it has done. -/
abbrev Script := EStateM ScriptError TopsPage

namespace TopsController

/-- A change of `document.getElementById(id)`. -/
def changeElement (id : String) (f : Element → Element) : Script Unit := do
  let page ← get
  match List.lookup id page.document with
  | none => throw .typeError
  | some _ => set { page with document := amend id f page.document }

def toggleGroupVisibility (group : List String) (shouldShow : Bool) : Script Unit :=
  group.forM fun elementId =>
    changeElement elementId fun element => { element with hidden := !shouldShow }

/-- A label is left as it is while there is nothing to write. -/
def writeLabel (id value : String) : Script Unit :=
  if value ≠ "" then changeElement id fun element => { element with innerHTML := value }
  else pure ()

def updateObjectDetails : Script Unit := do
  let page ← get
  writeLabel "object-type" page.currentType
  writeLabel "object-term" page.currentTerm

def tracks : Script Unit := do
  modify fun page => { page with currentType := "Tracks" }
  toggleGroupVisibility ["tracks"] true
  toggleGroupVisibility ["artists"] false
  updateObjectDetails

def artists : Script Unit := do
  modify fun page => { page with currentType := "Artists" }
  toggleGroupVisibility ["tracks"] false
  toggleGroupVisibility ["artists"] true
  updateObjectDetails

def setTerm (term : String) (visibleIds hiddenIds : List String) : Script Unit := do
  modify fun page => { page with currentTerm := term }
  toggleGroupVisibility visibleIds true
  toggleGroupVisibility hiddenIds false
  updateObjectDetails

def shortTerm : Script Unit :=
  setTerm "1 month" ["short_term_tracks", "short_term_artists"]
    ["medium_term_tracks", "medium_term_artists", "long_term_tracks", "long_term_artists"]

def mediumTerm : Script Unit :=
  setTerm "6 months" ["medium_term_tracks", "medium_term_artists"]
    ["short_term_tracks", "short_term_artists", "long_term_tracks", "long_term_artists"]

def longTerm : Script Unit :=
  setTerm "+1 year" ["long_term_tracks", "long_term_artists"]
    ["short_term_tracks", "short_term_artists", "medium_term_tracks", "medium_term_artists"]

end TopsController

/-- The page as it is opened. -/
def TopsPage.opened (grids : List Grid) : TopsPage := ⟨"", "", topsDocument grids⟩

/-! ### What can be clicked -/

inductive Click where
  | tracks
  | artists
  | shortTerm
  | mediumTerm
  | longTerm
  deriving DecidableEq, Repr

/-- The `data-action` of the entry. -/
def Click.action : Click → Script Unit
  | .tracks => TopsController.tracks
  | .artists => TopsController.artists
  | .shortTerm => TopsController.shortTerm
  | .mediumTerm => TopsController.mediumTerm
  | .longTerm => TopsController.longTerm

/-! ### What the page is for -/

/-- The choice of the first menu. -/
inductive Kind where
  | tracks
  | artists
  deriving DecidableEq, Repr

/-- The choice of the second menu. -/
inductive Term where
  | short
  | medium
  | long
  deriving DecidableEq, Repr

namespace Kind

def type : Kind → String
  | tracks => "tracks"
  | artists => "artists"

def label : Kind → String
  | tracks => "Tracks"
  | artists => "Artists"

end Kind

namespace Term

def range : Term → String
  | short => "short_term"
  | medium => "medium_term"
  | long => "long_term"

def label : Term → String
  | short => "1 month"
  | medium => "6 months"
  | long => "+1 year"

end Term

/-- The id of the grid of a type and a term. -/
def gridId (kind : Kind) (term : Term) : String := term.range ++ "_" ++ kind.type

def Click.kind : Click → Option Kind
  | tracks => some .tracks
  | artists => some .artists
  | _ => none

def Click.term : Click → Option Term
  | shortTerm => some .short
  | mediumTerm => some .medium
  | longTerm => some .long
  | _ => none

/-- What was chosen last, or the default. -/
def chosenKind (clicks : List Click) : Kind := (EventLog.latest Click.kind clicks).getD .tracks

def chosenTerm (clicks : List Click) : Term := (EventLog.latest Click.term clicks).getD .short

/-! ### What a part of the script does -/

/-- The script returns, leaves the fields, and changes each element as `f` says. -/
def Rewrites (script : Script Unit) (page : TopsPage) (f : String → Element → Element) : Prop :=
  ∃ document, script.run page = .ok () { page with document := document } ∧
    ∀ id, List.lookup id document = (List.lookup id page.document).map (f id)

/-- The elements are there. -/
def Present (ids : List String) (document : Document) : Prop :=
  ∀ id ∈ ids, (List.lookup id document).isSome

/-- The element once `writeLabel` has run. -/
def labelled (target value : String) (id : String) (element : Element) : Element :=
  if id = target ∧ value ≠ "" then { element with innerHTML := value } else element

/-- The element once `toggleGroupVisibility` has run. -/
def toggled (group : List String) (shouldShow : Bool) (id : String) (element : Element) : Element :=
  if id ∈ group then { element with hidden := !shouldShow } else element

/-- The element once both groups are toggled and the labels are written. -/
def selected (first second : List String) (shown shown' : Bool) (type term id : String)
    (element : Element) : Element :=
  labelled "object-term" term id (labelled "object-type" type id
    (toggled second shown' id (toggled first shown id element)))

section Rewrites

variable {page : TopsPage} {f g : String → Element → Element} {ids : List String}

theorem Rewrites.congr {script : Script Unit} (h : Rewrites script page f)
    (hfg : ∀ id e, f id e = g id e) : Rewrites script page g := by
  obtain ⟨document, hrun, hdocument⟩ := h
  refine ⟨document, hrun, fun id => ?_⟩
  rw [hdocument id]
  congr 1
  funext e
  exact hfg id e

theorem rewrites_pure : Rewrites (pure ()) page fun _ e => e :=
  ⟨page.document, rfl, fun id => by simp⟩

/-- One part after another; no element goes away in between. -/
theorem Rewrites.andThen {first second : Script Unit} (hfirst : Rewrites first page f)
    (hpresent : Present ids page.document)
    (hsecond : ∀ document, Present ids document →
      Rewrites second { page with document := document } g) :
    Rewrites (first >>= fun _ => second) page fun id e => g id (f id e) := by
  obtain ⟨document, hrun, hdocument⟩ := hfirst
  have hstill : Present ids document := by
    intro id hid
    rw [hdocument id, Option.isSome_map]
    exact hpresent id hid
  obtain ⟨document', hrun', hdocument'⟩ := hsecond document hstill
  refine ⟨document', ?_, fun id => ?_⟩
  · rw [EStateM.run_bind, hrun]
    exact hrun'
  · rw [hdocument' id]
    show (List.lookup id document).map (g id) = _
    rw [hdocument id, Option.map_map]
    rfl

open TopsController

theorem rewrites_changeElement {id : String} (hpresent : (List.lookup id page.document).isSome)
    (change : Element → Element) :
    Rewrites (changeElement id change) page fun j e => if j = id then change e else e := by
  obtain ⟨element, helement⟩ := Option.isSome_iff_exists.mp hpresent
  refine ⟨amend id change page.document, ?_, fun j => ?_⟩
  · simp [changeElement, EStateM.run_bind, helement]
  · rw [lookup_amend]
    by_cases hj : j = id
    · subst hj
      simp
    · simp [hj]

/-- The loop over the ids. -/
theorem rewrites_toggle {group : List String} (hpresent : Present group page.document)
    (shouldShow : Bool) :
    Rewrites (toggleGroupVisibility group shouldShow) page (toggled group shouldShow) := by
  induction group generalizing page with
  | nil => exact rewrites_pure.congr fun id e => by simp [toggled]
  | cons first rest ih =>
      have hfirst := rewrites_changeElement (hpresent first (List.mem_cons_self ..))
        fun element => { element with hidden := !shouldShow }
      have hrest : Present rest page.document := fun id hid =>
        hpresent id (List.mem_cons_of_mem _ hid)
      apply (hfirst.andThen hrest fun document hdocument => ih hdocument).congr
      intro id e
      by_cases hid : id = first
      · by_cases hmem : id ∈ rest <;> simp [toggled, hid]
      · simp [toggled, hid]

theorem rewrites_writeLabel {id : String} (hpresent : (List.lookup id page.document).isSome)
    (value : String) : Rewrites (writeLabel id value) page (labelled id value) := by
  unfold writeLabel
  by_cases hvalue : value = ""
  · rw [if_neg (by simpa using hvalue)]
    exact rewrites_pure.congr fun j e => by simp [labelled, hvalue]
  · rw [if_pos hvalue]
    exact (rewrites_changeElement hpresent _).congr fun j e => by simp [labelled, hvalue]

theorem rewrites_updateObjectDetails
    (hpresent : Present ["object-type", "object-term"] page.document) :
    Rewrites updateObjectDetails page fun id e =>
      labelled "object-term" page.currentTerm id (labelled "object-type" page.currentType id e) := by
  have htype := rewrites_writeLabel (hpresent "object-type" (by simp)) page.currentType
  exact htype.andThen hpresent fun document hdocument =>
    rewrites_writeLabel (hdocument "object-term" (by simp)) page.currentTerm

end Rewrites

/-! ### What the page shows -/

/-- The page shows a choice, over grids with these cards. -/
structure Shows (cards : Kind → Term → List Card) (kind : Kind) (term : Term) (page : TopsPage) :
    Prop where
  currentType : page.currentType = "" ∨ page.currentType = kind.label
  currentTerm : page.currentTerm = "" ∨ page.currentTerm = term.label
  typeLabel : List.lookup "object-type" page.document = some ⟨none, false, kind.label, []⟩
  termLabel : List.lookup "object-term" page.document = some ⟨none, false, term.label, []⟩
  container : ∀ k, List.lookup k.type page.document = some ⟨none, decide (k ≠ kind), "", []⟩
  grid : ∀ k t, List.lookup (gridId k t) page.document
    = some ⟨some k.type, decide (t ≠ term), "", cards k t⟩

/-- The ids that the script knows. -/
def scriptIds : List String :=
  ["object-type", "object-term", "tracks", "artists", "short_term_tracks", "short_term_artists",
    "medium_term_tracks", "medium_term_artists", "long_term_tracks", "long_term_artists"]

section Shows

variable {cards : Kind → Term → List Card} {kind : Kind} {term : Term} {page : TopsPage}

theorem Shows.present (h : Shows cards kind term page) : Present scriptIds page.document := by
  intro id hid
  have hgrid : ∀ k t, (List.lookup (gridId k t) page.document).isSome := by
    intro k t
    rw [h.grid]
    rfl
  have hcontainer : ∀ k, (List.lookup (Kind.type k) page.document).isSome := by
    intro k
    rw [h.container]
    rfl
  simp only [scriptIds, List.mem_cons, List.not_mem_nil, or_false] at hid
  rcases hid with rfl | rfl | rfl | rfl | rfl | rfl | rfl | rfl | rfl | rfl
  · simp [h.typeLabel]
  · simp [h.termLabel]
  · exact hcontainer .tracks
  · exact hcontainer .artists
  · exact hgrid .tracks .short
  · exact hgrid .artists .short
  · exact hgrid .tracks .medium
  · exact hgrid .artists .medium
  · exact hgrid .tracks .long
  · exact hgrid .artists .long

theorem Present.subset {ids ids' : List String} {document : Document} (h : Present ids document)
    (hids : ids' ⊆ ids) : Present ids' document := fun id hid => h id (hids hid)

open TopsController

/-- What every entry of the menus does, once the field is set. -/
theorem rewrites_select (page : TopsPage) (hpresent : Present scriptIds page.document)
    {first second : List String} (hfirst : first ⊆ scriptIds) (hsecond : second ⊆ scriptIds)
    (shown shown' : Bool) :
    Rewrites (do
        toggleGroupVisibility first shown
        toggleGroupVisibility second shown'
        updateObjectDetails) page
      (selected first second shown shown' page.currentType page.currentTerm) := by
  have hstart := rewrites_toggle (hpresent.subset hfirst) shown
  have hrest : ∀ document, Present scriptIds document →
      Rewrites (do
          toggleGroupVisibility second shown'
          updateObjectDetails) { page with document := document } fun id e =>
        labelled "object-term" page.currentTerm id (labelled "object-type" page.currentType id
          (toggled second shown' id e)) := by
    intro document hdocument
    have hnext : Rewrites (toggleGroupVisibility second shown') { page with document := document }
        (toggled second shown') := rewrites_toggle (hdocument.subset hsecond) shown'
    have hlast : ∀ document', Present scriptIds document' →
        Rewrites updateObjectDetails { page with document := document' } fun id e =>
          labelled "object-term" page.currentTerm id
            (labelled "object-type" page.currentType id e) :=
      fun document' hdocument' => rewrites_updateObjectDetails (hdocument'.subset (by decide))
    exact hnext.andThen hdocument hlast
  exact hstart.andThen hpresent hrest

/-- A script shows another choice when it turns the elements of the one into those of the other. -/
theorem Shows.of_rewrites {script : Script Unit} {f : String → Element → Element}
    (hscript : Rewrites script page f) {kind₀ : Kind} {term₀ : Term}
    (h : Shows cards kind₀ term₀ { page with currentTerm := "", currentType := "" })
    (hcurrentType : page.currentType = "" ∨ page.currentType = kind.label)
    (hcurrentTerm : page.currentTerm = "" ∨ page.currentTerm = term.label)
    (htype : f "object-type" ⟨none, false, kind₀.label, []⟩ = ⟨none, false, kind.label, []⟩)
    (hterm : f "object-term" ⟨none, false, term₀.label, []⟩ = ⟨none, false, term.label, []⟩)
    (hcontainer : ∀ k, f (Kind.type k) ⟨none, decide (k ≠ kind₀), "", []⟩
      = ⟨none, decide (k ≠ kind), "", []⟩)
    (hgrid : ∀ k t c, f (gridId k t) ⟨some k.type, decide (t ≠ term₀), "", c⟩
      = ⟨some k.type, decide (t ≠ term), "", c⟩) :
    ∃ page', script.run page = .ok () page' ∧ Shows cards kind term page' := by
  obtain ⟨document, hrun, hdocument⟩ := hscript
  refine ⟨_, hrun, ⟨hcurrentType, hcurrentTerm, ?_, ?_, ?_, ?_⟩⟩
  · rw [hdocument, h.typeLabel, Option.map_some, htype]
  · rw [hdocument, h.termLabel, Option.map_some, hterm]
  · intro k
    rw [hdocument, h.container k, Option.map_some, hcontainer]
  · intro k t
    rw [hdocument, h.grid k t, Option.map_some, hgrid]

/-- The fields may be empty. -/
theorem Shows.cleared (h : Shows cards kind term page) :
    Shows cards kind term { page with currentTerm := "", currentType := "" } :=
  ⟨.inl rfl, .inl rfl, h.typeLabel, h.termLabel, h.container, h.grid⟩

/-- The entries of the second menu show the grids of their term and hide the others. -/
theorem Shows.setTerm (h : Shows cards kind term page) (term' : Term)
    {visibleIds hiddenIds : List String} (hvisible : visibleIds ⊆ scriptIds)
    (hhidden : hiddenIds ⊆ scriptIds)
    (hgrids : ∀ k t, (gridId k t ∈ visibleIds ↔ t = term') ∧ (gridId k t ∈ hiddenIds ↔ t ≠ term'))
    (hothers : ∀ id ∈ ["object-type", "object-term", "tracks", "artists"],
      id ∉ visibleIds ∧ id ∉ hiddenIds) :
    ∃ page', (TopsController.setTerm term'.label visibleIds hiddenIds).run page = .ok () page' ∧
      Shows cards kind term' page' := by
  have hscript := rewrites_select { page with currentTerm := term'.label } h.present hvisible
    hhidden true false
  have htype := hothers "object-type" (by decide)
  have hterm := hothers "object-term" (by decide)
  apply Shows.of_rewrites hscript h.cleared h.currentType (.inr rfl)
  · rcases h.currentType with hempty | hlabel
    · simp [selected, labelled, toggled, htype, hempty]
    · simp [selected, labelled, toggled, htype, hlabel]
  · cases term' <;> simp [selected, labelled, toggled, hterm, Term.label]
  · intro k
    have hk := hothers k.type (by cases k <;> decide)
    cases k <;> simp [selected, labelled, toggled, Kind.type] at hk ⊢ <;> simp [hk]
  · intro k t c
    have htypeLabel : gridId k t ≠ "object-type" := by cases k <;> cases t <;> decide
    have htermLabel : gridId k t ≠ "object-term" := by cases k <;> cases t <;> decide
    obtain ⟨hshown, hhidden⟩ := hgrids k t
    by_cases ht : t = term'
    · subst ht
      simp [selected, labelled, toggled, htypeLabel, htermLabel, hshown, hhidden]
    · simp [selected, labelled, toggled, htypeLabel, htermLabel, hshown, hhidden, ht]

/-- **A click.**  The page shows the choice with what was clicked. -/
theorem Shows.click (h : Shows cards kind term page) (click : Click) :
    ∃ page', click.action.run page = .ok () page' ∧
      Shows cards (click.kind.getD kind) (click.term.getD term) page' := by
  cases click with
  | tracks =>
      have hscript := rewrites_select { page with currentType := "Tracks" } h.present
        (by decide : ["tracks"] ⊆ scriptIds) (by decide : ["artists"] ⊆ scriptIds) true false
      apply Shows.of_rewrites hscript h.cleared (.inr rfl) h.currentTerm
      · simp [selected, labelled, toggled, Click.kind, Kind.label]
      · rcases h.currentTerm with hterm | hterm <;> simp [selected, labelled, toggled, hterm]
      · intro k
        cases k <;> simp [selected, labelled, toggled, Click.kind, Kind.type]
      · intro k t c
        cases k <;> cases t <;>
          simp [selected, labelled, toggled, gridId, Kind.type, Term.range]
  | artists =>
      have hscript := rewrites_select { page with currentType := "Artists" } h.present
        (by decide : ["tracks"] ⊆ scriptIds) (by decide : ["artists"] ⊆ scriptIds) false true
      apply Shows.of_rewrites hscript h.cleared (.inr rfl) h.currentTerm
      · simp [selected, labelled, toggled, Click.kind, Kind.label]
      · rcases h.currentTerm with hterm | hterm <;> simp [selected, labelled, toggled, hterm]
      · intro k
        cases k <;> simp [selected, labelled, toggled, Click.kind, Kind.type]
      · intro k t c
        cases k <;> cases t <;>
          simp [selected, labelled, toggled, gridId, Kind.type, Term.range]
  | shortTerm =>
      apply h.setTerm .short (by decide) (by decide)
      · intro k t
        cases k <;> cases t <;> decide
      · decide
  | mediumTerm =>
      apply h.setTerm .medium (by decide) (by decide)
      · intro k t
        cases k <;> cases t <;> decide
      · decide
  | longTerm =>
      apply h.setTerm .long (by decide) (by decide)
      · intro k t
        cases k <;> cases t <;> decide
      · decide

end Shows

/-- The clicks one after the other. -/
def browse (clicks : List Click) : Script Unit := forM clicks Click.action

theorem chosenKind_concat (clicks : List Click) (click : Click) :
    chosenKind (clicks ++ [click]) = click.kind.getD (chosenKind clicks) := by
  unfold chosenKind
  rw [EventLog.latest_concat]
  cases click.kind <;> rfl

theorem chosenTerm_concat (clicks : List Click) (click : Click) :
    chosenTerm (clicks ++ [click]) = click.term.getD (chosenTerm clicks) := by
  unfold chosenTerm
  rw [EventLog.latest_concat]
  cases click.term <;> rfl

/-- **A run.** -/
theorem Shows.browse {cards : Kind → Term → List Card} {page : TopsPage}
    (h : Shows cards .tracks .short page) (clicks : List Click) :
    ∃ page', (browse clicks).run page = .ok () page' ∧
      Shows cards (chosenKind clicks) (chosenTerm clicks) page' := by
  induction clicks using List.reverseRecOn with
  | nil => exact ⟨page, rfl, h⟩
  | append_singleton clicks click ih =>
      obtain ⟨page₁, hrun, hshows⟩ := ih
      obtain ⟨page₂, hclick, hshows₂⟩ := hshows.click click
      refine ⟨page₂, ?_, ?_⟩
      · unfold Knoiz.browse at hrun ⊢
        rw [List.forM_append, EStateM.run_bind, hrun]
        show (Click.action click >>= fun _ => pure ()).run page₁ = _
        rw [EStateM.run_bind, hclick]
        rfl
      · rwa [chosenKind_concat, chosenTerm_concat]

/-- What a page that shows a choice displays. -/
theorem Shows.displays_grid {cards : Kind → Term → List Card} {kind : Kind} {term : Term}
    {page : TopsPage} (h : Shows cards kind term page) (k : Kind) (t : Term) :
    page.document.displays (gridId k t) = true ↔ k = kind ∧ t = term := by
  simp [Document.displays, h.grid k t, h.container k, and_comm]

/-! ### The page as it is rendered -/

/-- The grids of a page, one for each type and term. -/
def gridsOf (cards : Kind → Term → List Card) : List Grid :=
  [⟨"tracks", "short_term", cards .tracks .short⟩, ⟨"tracks", "medium_term", cards .tracks .medium⟩,
    ⟨"tracks", "long_term", cards .tracks .long⟩, ⟨"artists", "short_term", cards .artists .short⟩,
    ⟨"artists", "medium_term", cards .artists .medium⟩,
    ⟨"artists", "long_term", cards .artists .long⟩]

/-- A page with a grid that raises is not rendered. -/
theorem isSome_of_mapM {α β : Type} {f : α → Option β} {xs : List α} {ys : List β}
    (h : xs.mapM f = some ys) : ∀ x ∈ xs, (f x).isSome := by
  induction xs generalizing ys with
  | nil => simp
  | cons x xs ih =>
      simp only [List.mapM_cons, Option.bind_eq_bind, Option.bind_eq_some_iff] at h
      obtain ⟨y, hy, rest, hrest, -⟩ := h
      intro z hz
      rcases List.mem_cons.mp hz with rfl | hmem
      · simp [hy]
      · exact ih hrest z hmem

theorem topsGrids_eq_some {vars : InstanceVariables} {grids : List Grid}
    (h : topsGrids vars = some grids) :
    ∃ cards, (∀ k t, topsGrid vars (Kind.type k) (Term.range t) = some (cards k t)) ∧
      grids = gridsOf cards := by
  have hsome : ∀ k t, (topsGrid vars (Kind.type k) (Term.range t)).isSome := by
    intro k t
    have hkey : (Kind.type k, Term.range t) ∈ gridKeys := by cases k <;> cases t <;> decide
    simpa using isSome_of_mapM h _ hkey
  choose cards hcards using fun k t => Option.isSome_iff_exists.mp (hsome k t)
  refine ⟨cards, hcards, ?_⟩
  have hgrids : topsGrids vars = some (gridsOf cards) := by
    have h₁ : topsGrid vars "tracks" "short_term" = _ := hcards .tracks .short
    have h₂ : topsGrid vars "tracks" "medium_term" = _ := hcards .tracks .medium
    have h₃ : topsGrid vars "tracks" "long_term" = _ := hcards .tracks .long
    have h₄ : topsGrid vars "artists" "short_term" = _ := hcards .artists .short
    have h₅ : topsGrid vars "artists" "medium_term" = _ := hcards .artists .medium
    have h₆ : topsGrid vars "artists" "long_term" = _ := hcards .artists .long
    simp [topsGrids, gridKeys, types, StatsController.timeRanges, gridsOf, h₁, h₂, h₃, h₄, h₅, h₆]
  rw [h] at hgrids
  exact Option.some.inj hgrids

theorem shows_opened (cards : Kind → Term → List Card) :
    Shows cards .tracks .short (TopsPage.opened (gridsOf cards)) where
  currentType := .inl rfl
  currentTerm := .inl rfl
  typeLabel := rfl
  termLabel := rfl
  container k := by cases k <;> rfl
  grid k t := by cases k <;> cases t <;> rfl

/-! ### From Spotify to the grid -/

/-- The tops of a term are in their instance variables as Spotify answered them. -/
def Fetched (api : SpotifyApi) (limit : ℕ) (vars : InstanceVariables) (term : String) : Prop :=
  ∃ tracks artists, api.topTracks limit term = some tracks ∧
    api.topArtists limit term = some artists ∧
    List.lookup ("@top_tracks_" ++ term) vars = some (.tracks tracks) ∧
    List.lookup ("@top_artists_" ++ term) vars = some (.artists artists)

section Fetched

open StatsController

variable {api : SpotifyApi} {limit : ℕ} {vars vars' : InstanceVariables}

theorem topArtists_ne_topTracks (a b : String) : "@top_artists_" ++ a ≠ "@top_tracks_" ++ b := by
  intro h
  simpa using congrArg String.toList h

/-- A round fetches its term, and a term that was fetched stays. -/
theorem fetchTerm_fetched {term : String} (hround : fetchTerm api limit vars term = some vars') :
    Fetched api limit vars' term ∧
      ∀ other, Fetched api limit vars other → Fetched api limit vars' other := by
  simp only [fetchTerm, Option.bind_eq_bind, Option.bind_eq_some_iff] at hround
  obtain ⟨tracks, htracks, artists, hartists, hvars⟩ := hround
  cases hvars
  have hne := fun a b => (topArtists_ne_topTracks a b).symm
  constructor
  · refine ⟨tracks, artists, htracks, hartists, ?_, ?_⟩
    · simp [InstanceVariables.lookup_set, hne]
    · simp [InstanceVariables.lookup_set]
  · rintro other ⟨tracks', artists', htracks', hartists', hlookup, hlookup'⟩
    refine ⟨tracks', artists', htracks', hartists', ?_, ?_⟩
    · by_cases hterm : other = term
      · subst hterm
        rw [htracks] at htracks'
        cases htracks'
        simp [InstanceVariables.lookup_set, hne]
      · simp [InstanceVariables.lookup_set, hne, hterm, hlookup]
    · by_cases hterm : other = term
      · subst hterm
        rw [hartists] at hartists'
        cases hartists'
        simp [InstanceVariables.lookup_set]
      · simp [InstanceVariables.lookup_set, topArtists_ne_topTracks, hterm, hlookup']

/-- The loop. -/
theorem fetchTerms_fetched {terms : List String}
    (hrun : terms.foldlM (fetchTerm api limit) vars = some vars') :
    (∀ term ∈ terms, Fetched api limit vars' term) ∧
      ∀ other, Fetched api limit vars other → Fetched api limit vars' other := by
  induction terms generalizing vars with
  | nil =>
      cases hrun
      exact ⟨by simp, fun other h => h⟩
  | cons term terms ih =>
      rw [List.foldlM_cons, Option.bind_eq_bind, Option.bind_eq_some_iff] at hrun
      obtain ⟨vars₁, hround, hrest⟩ := hrun
      obtain ⟨hterm, hkept⟩ := fetchTerm_fetched hround
      obtain ⟨hterms, hkept'⟩ := ih hrest
      constructor
      · intro t ht
        rcases List.mem_cons.mp ht with rfl | hmem
        · exact hkept' _ hterm
        · exact hterms t hmem
      · exact fun other h => hkept' other (hkept other h)

theorem Fetched.set_other {term : String} (h : Fetched api limit vars term) {name : String}
    (hname : ¬TopsName name) (listing : Listing) :
    Fetched api limit (vars.set name listing) term := by
  obtain ⟨tracks, artists, htracks, hartists, hlookup, hlookup'⟩ := h
  have hne : "@top_tracks_" ++ term ≠ name := fun hk => hname ⟨term, .inl hk.symm⟩
  have hne' : "@top_artists_" ++ term ≠ name := fun hk => hname ⟨term, .inr hk.symm⟩
  refine ⟨tracks, artists, htracks, hartists, ?_, ?_⟩
  · rwa [InstanceVariables.lookup_set, if_neg hne]
  · rwa [InstanceVariables.lookup_set, if_neg hne']

/-- The two pages with the grids, and how many entries each asks for. -/
def Opens (api : SpotifyApi) (limit : ℕ) (vars : InstanceVariables) : Prop :=
  limit = 50 ∧ tops api = some vars ∨ limit = 5 ∧ fetchStats api = some vars

theorem Opens.fetched (h : Opens api limit vars) (term : Term) :
    Fetched api limit vars term.range := by
  have hterm : term.range ∈ timeRanges := by cases term <;> decide
  rcases h with ⟨rfl, h⟩ | ⟨rfl, h⟩
  · exact (fetchTerms_fetched h).1 _ hterm
  · simp only [fetchStats, fetchTopGlobalTracks, Option.bind_eq_bind, Option.bind_eq_some_iff,
      Option.pure_def, Option.some.injEq] at h
    obtain ⟨start, -, full, hloop, charted, -, rfl⟩ := h
    have hfetched := (fetchTerms_fetched hloop).1 _ hterm
    exact (hfetched.set_other not_topsName_playlist _).set_other not_topsName_global _

end Fetched

/-- The names of a ranking. -/
def SpotifyApi.names (api : SpotifyApi) (limit : ℕ) (kind : Kind) (term : Term) :
    Option (List (Option String)) :=
  match kind with
  | .tracks => (api.topTracks limit term.range).map (List.map PlayedTrack.name)
  | .artists => (api.topArtists limit term.range).map (List.map ListedArtist.name)

/-- The names as a grid numbers them. -/
def captions (names : List (Option String)) : List String :=
  (names.zipIdx 1).map fun p => caption p.2 p.1

theorem captions_topsGrid {api : SpotifyApi} {limit : ℕ} {vars : InstanceVariables} {kind : Kind}
    {term : Term} {cards : List Card} (hfetched : Fetched api limit vars term.range)
    (hgrid : topsGrid vars kind.type term.range = some cards) :
    (api.names limit kind term).map captions = some (cards.map Card.caption) := by
  obtain ⟨tracks, artists, htracks, hartists, hlookup, hlookup'⟩ := hfetched
  cases kind with
  | tracks =>
      have hcards : numbered trackCard 1 tracks = some cards := by
        simpa [topsGrid, Kind.type, hlookup, trackPartial] using hgrid
      have hnames := numbered_captions (fun _ _ _ hcard => trackCard_caption hcard) hcards
      simp [SpotifyApi.names, htracks, captions, hnames, List.zipIdx_map]
  | artists =>
      have hcards : numbered artistCard 1 artists = some cards := by
        simpa [topsGrid, Kind.type, hlookup', artistPartial] using hgrid
      have hnames := numbered_captions (fun _ _ _ hcard => artistCard_caption hcard) hcards
      simp [SpotifyApi.names, hartists, captions, hnames, List.zipIdx_map]

/-- **Browsing.**  On both pages, whatever is clicked, the script does not raise, the grid of the
type and the term clicked last is displayed and no other, the labels name these two, and the grid
numbers what Spotify answered for them. -/
theorem ranking_shown {api : SpotifyApi} {limit : ℕ} {vars : InstanceVariables}
    (hopen : Opens api limit vars) {grids : List Grid} (hgrids : topsGrids vars = some grids)
    (clicks : List Click) :
    ∃ page, (browse clicks).run (TopsPage.opened grids) = .ok () page ∧
      (∀ k t, page.document.displays (gridId k t) = true
        ↔ k = chosenKind clicks ∧ t = chosenTerm clicks) ∧
      page.document.text "object-type" = some (chosenKind clicks).label ∧
      page.document.text "object-term" = some (chosenTerm clicks).label ∧
      (page.document.captions (gridId (chosenKind clicks) (chosenTerm clicks)))
        = (api.names limit (chosenKind clicks) (chosenTerm clicks)).map captions := by
  obtain ⟨cards, hcards, rfl⟩ := topsGrids_eq_some hgrids
  obtain ⟨page, hrun, hshows⟩ := (shows_opened cards).browse clicks
  refine ⟨page, hrun, fun k t => hshows.displays_grid k t, ?_, ?_, ?_⟩
  · simp [Document.text, hshows.typeLabel]
  · simp [Document.text, hshows.termLabel]
  · rw [captions_topsGrid (hopen.fetched _) (hcards _ _)]
    simp [Document.captions, hshows.grid]

namespace Sample

/-- What the page of the tops has fetched. -/
def topsVars : InstanceVariables := (StatsController.tops spotify).getD []

end Sample

theorem medium_tracks_shown :
    ∃ page, (browse [.artists, .mediumTerm, .tracks]).run
        (TopsPage.opened (Sample.grids Sample.songCards Sample.artistCards)) = .ok () page ∧
      page.document.displays "medium_term_tracks" = true ∧
      page.document.displays "medium_term_artists" = false ∧
      page.document.text "object-term" = some "6 months" ∧
      page.document.captions "medium_term_tracks" = some ["1# - a", "2# - b", "3# - c", "4# - d",
        "5# - e", "6# - f", "7# - g"] := by
  have hopen : Opens Sample.spotify 50 Sample.topsVars := .inl ⟨rfl, by decide⟩
  have hgrids : topsGrids Sample.topsVars =
      some (Sample.grids Sample.songCards Sample.artistCards) := by decide
  obtain ⟨page, hrun, hdisplays, -, hterm, hcaptions⟩ :=
    ranking_shown hopen hgrids [.artists, .mediumTerm, .tracks]
  refine ⟨page, hrun, (hdisplays .tracks .medium).mpr ⟨rfl, rfl⟩, ?_, hterm, ?_⟩
  · have hartists : ¬page.document.displays "medium_term_artists" = true :=
      fun h => absurd ((hdisplays .artists .medium).mp h).1 (by decide)
    simpa using hartists
  · have hnames : (Sample.spotify.names 50 .tracks .medium).map captions = some ["1# - a", "2# - b",
        "3# - c", "4# - d", "5# - e", "6# - f", "7# - g"] := by decide
    exact hcaptions.trans hnames

end Knoiz
