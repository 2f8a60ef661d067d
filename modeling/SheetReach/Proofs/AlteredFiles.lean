import SheetReach.Proofs.PlainTree

/-! Files that are not read do not matter. In a tree without links, any of them may be deleted or get
another content, and following imports gives the same graph with the same events. Looking for a file below
one of them used to fail because it is no directory and now fails because nothing is there; either way the
file counts as missing. -/
namespace SheetReach

namespace FileTree

/-- The second tree has the entries of the first one, except that some of the files at these places are
gone or have another content. -/
def Altered (before after : FileTree) (places : Location → Prop) : Prop :=
  ∀ location, after.find? location = before.find? location ∨
    (places location ∧ (∃ content, before.find? location = some (.file content)) ∧
      (after.find? location = none ∨ ∃ content, after.find? location = some (.file content)))

/-- How the look-ups of one path before and after compare. -/
inductive EndsAlike (places : Location → Prop) : Except Fault Place → Except Fault Place → Prop where
  | same (outcome : Except Fault Place) : EndsAlike places outcome outcome
  | altered (location : Location) (content : Content) (outcome : Except Fault Place)
      (place : places location) : EndsAlike places (.ok ⟨location, .file content⟩) outcome
  | stopped : EndsAlike places (.error .notDirectory) (.error .missing)

theorem takeSteps_altered {before after : FileTree} {places : Location → Prop}
    (altered : Altered before after places) (unlinked : before.Unlinked) (follow : Bool)
    (onLink otherLink : Location → Path → List Name → Except Fault Place) (base : Location)
    (names : List Name) :
    EndsAlike places (before.takeSteps follow onLink base names)
      (after.takeSteps follow otherLink base names) := by
  induction names generalizing base with
  | nil => exact .same _
  | cons name rest ih =>
    by_cases here : name = Path.here
    · simpa only [takeSteps, if_pos here] using ih base
    by_cases up : name = Path.up
    · simpa only [takeSteps, if_neg here, if_pos up] using ih base.tail
    by_cases long : nameLimit < Text.byteLength name
    · simp only [takeSteps, if_neg here, if_neg up, if_pos long]
      exact .same _
    simp only [takeSteps, if_neg here, if_neg up, if_neg long]
    rcases altered (name :: base) with same | ⟨place, ⟨content, old⟩, gone | ⟨other, new⟩⟩
    · rw [same]
      cases found : before.find? (name :: base) with
      | none => exact .same _
      | some entry =>
        cases entry with
        | file content => exact .same _
        | directory => exact ih (name :: base)
        | link target => exact absurd found (unlinked.find?_ne _ target)
    · -- A file that is gone ends the look-up here, or it stopped it here before.
      simp only [old, gone]
      by_cases last : rest.isEmpty = true
      · rw [if_pos last]
        exact .altered _ _ _ place
      · rw [if_neg last]
        exact .stopped
    · simp only [old, new]
      by_cases last : rest.isEmpty = true
      · rw [if_pos last, if_pos last]
        exact .altered _ _ _ place
      · rw [if_neg last, if_neg last]
        exact .same _

theorem locate_altered {before after : FileTree} {places : Location → Prop}
    (altered : Altered before after places) (unlinked : before.Unlinked) (cwd : Location) (follow : Bool)
    (path : Path) :
    EndsAlike places (before.locate cwd follow path) (after.locate cwd follow path) := by
  unfold locate
  by_cases empty : path.isEmpty = true
  · rw [if_pos empty, if_pos empty]
    exact .same _
  by_cases long : pathLimit ≤ Text.byteLength path
  · rw [if_neg empty, if_neg empty, if_pos long, if_pos long]
    exact .same _
  rw [if_neg empty, if_neg empty, if_neg long, if_neg long]
  exact takeSteps_altered altered unlinked follow _ _ _ _

end FileTree

theorem ImportGraph.State.mem_graph_reachable (state : State) (path : Path) :
    path ∈ state.graph.reachable ↔ path ∈ state.reachable :=
  List.mem_reverse

namespace Workspace

/-- Following imports read the file at this place: the look-up of a reachable path ends there. -/
def ReadAt (workspace : Workspace) (graph : ImportGraph) (location : Location) : Prop :=
  ∃ path ∈ graph.reachable, ∃ entry,
    workspace.tree.locate workspace.cwd true path = .ok ⟨location, entry⟩

section Altered

variable {workspace : Workspace} {other : FileTree} {graph : ImportGraph}
  (unlinked : workspace.tree.Unlinked)
  (altered : workspace.tree.Altered other fun location => ¬workspace.ReadAt graph location)

include unlinked altered

/-- What was read still reads the same, and whatever was no text is what it was. -/
theorem agree_of_altered : ImportGraph.Agree (ImportGraph.snapshot workspace)
    (ImportGraph.snapshot { workspace with tree := other }) graph.reachable := by
  intro path known
  have ends := FileTree.locate_altered altered unlinked workspace.cwd true path
  unfold ImportGraph.snapshot readText entryAt locate at known ⊢
  by_cases null : path.contains '\x00' = true
  · rw [if_pos null, if_pos null]
  rw [if_neg null] at known ⊢
  rw [if_neg null]
  simp only at known ⊢
  generalize leads : workspace.tree.locate workspace.cwd true path = outcome at ends known
  generalize other.locate workspace.cwd true path = otherOutcome at ends
  cases ends with
  | same => rfl
  | stopped => rfl
  | altered location content _ unread =>
    exact absurd ⟨path, known _ rfl, _, leads⟩ unread

theorem traceIn_of_altered {config : ImportGraph.Config} {entryPoints : List Path}
    (built : (workspace.importGraph config entryPoints).result = .ok graph) :
    ImportGraph.traceIn { workspace with tree := other } config entryPoints =
      ImportGraph.traceIn workspace config entryPoints := by
  have inside : ∀ file ∈ (ImportGraph.traceIn workspace config entryPoints).reachable,
      file ∈ graph.reachable := by
    rw [← ((importGraph_result workspace config entryPoints graph).mp built).2]
    intro file reached
    exact (ImportGraph.State.mem_graph_reachable _ file).mpr reached
  exact ImportGraph.trace_congr (agree_of_altered unlinked altered) config _ entryPoints inside

end Altered

/-- In a tree without links, whatever is deleted or rewritten among the files that following imports did
not read, following them again gives the same graph, all its lists in their order, and the same events. -/
theorem importGraph_of_altered (workspace : Workspace) (other : FileTree) (config : ImportGraph.Config)
    (entryPoints : List Path) (graph : ImportGraph) (unlinked : workspace.tree.Unlinked)
    (altered : workspace.tree.Altered other fun location => ¬workspace.ReadAt graph location)
    (built : (workspace.importGraph config entryPoints).result = .ok graph) :
    (({ workspace with tree := other } : Workspace).importGraph config entryPoints).result = .ok graph ∧
      (({ workspace with tree := other } : Workspace).importGraph config entryPoints).events =
        (workspace.importGraph config entryPoints).events := by
  have same : ({ workspace with tree := other } : Workspace).importGraph config entryPoints =
      workspace.importGraph config entryPoints := by
    simp only [importGraph, traceIn_of_altered unlinked altered built]
  rw [same]
  exact ⟨built, rfl⟩

/-- A stylesheet that imports a partial and, by mistake, something below a plain file, and a stylesheet
that nothing imports. -/
def mislaid : Workspace where
  tree.entries :=
    [(["main.scss".toList, "site".toList], .file (.octets "@import 'notes/x', 'p';".toUTF8.toList)),
     (["site".toList], .directory),
     (["notes".toList, "site".toList], .file (.octets [1])),
     (["_p.scss".toList, "site".toList], .file (.octets [])),
     (["old.scss".toList, "site".toList], .file (.octets "@import 'main';".toUTF8.toList))]
  tree.distinct := by decide +kernel
  tree.named := by decide +kernel
  cwd := ["site".toList]

/-- The plain file is gone, and the stylesheet that nothing imports has another content. -/
def mislaidLater : FileTree where
  entries :=
    [(["old.scss".toList, "site".toList], .file (.octets "@import 'gone';".toUTF8.toList)),
     (["main.scss".toList, "site".toList], .file (.octets "@import 'notes/x', 'p';".toUTF8.toList)),
     (["site".toList], .directory),
     (["_p.scss".toList, "site".toList], .file (.octets []))]
  distinct := by decide +kernel
  named := by decide +kernel

def mislaidConfig : ImportGraph.Config where
  cwd := "/site".toList
  dialect := .scss

def mislaidGraph : ImportGraph where
  reachable := ["/site/main.scss".toList, "/site/_p.scss".toList]
  dangling := [⟨some "/site/main.scss".toList, "notes/x".toList,
    ["/site/notes/x.scss".toList, "/site/notes/_x.scss".toList]⟩]
  failures := []

theorem mislaid_altered : mislaid.tree.Altered mislaidLater
    fun location => ¬mislaid.ReadAt mislaidGraph location := by
  have unread : ∀ path ∈ mislaidGraph.reachable, ∀ location ∈ [["notes".toList, "site".toList],
      ["old.scss".toList, "site".toList]],
      (mislaid.tree.locate mislaid.cwd true path).toOption.map (·.location) ≠ some location := by
    decide +kernel
  have kept : ∀ location ∈ [["notes".toList, "site".toList], ["old.scss".toList, "site".toList]],
      ¬mislaid.ReadAt mislaidGraph location := by
    rintro location listed ⟨path, reached, entry, leads⟩
    exact unread path reached location listed (by rw [leads]; rfl)
  intro location
  by_cases notes : location = ["notes".toList, "site".toList]
  · subst notes
    exact Or.inr ⟨kept _ (by simp), ⟨_, rfl⟩, Or.inl (by decide +kernel)⟩
  by_cases old : location = ["old.scss".toList, "site".toList]
  · subst old
    exact Or.inr ⟨kept _ (by simp), ⟨_, rfl⟩, Or.inr ⟨_, rfl⟩⟩
  · left
    simp only [FileTree.find?, mislaid, mislaidLater, List.lookup_cons, beq_eq_false_iff_ne.mpr notes,
      beq_eq_false_iff_ne.mpr old]

theorem mislaid_graph_of_altered :
    mislaid.tree.Unlinked ∧ mislaid.readText "notes/x.scss".toList =
        .error (.fault .notDirectory "notes/x.scss".toList) ∧
      (mislaid.importGraph mislaidConfig ["main.scss".toList]).result = .ok mislaidGraph ∧
      (({ mislaid with tree := mislaidLater } : Workspace).importGraph mislaidConfig
        ["main.scss".toList]).result = .ok mislaidGraph := by
  have unlinked : mislaid.tree.Unlinked := by decide +kernel
  have built : (mislaid.importGraph mislaidConfig ["main.scss".toList]).result = .ok mislaidGraph :=
    (mislaid.importGraph_eq_ok_iff _ _ _).mpr ⟨2, by decide +kernel⟩
  have again := importGraph_of_altered mislaid mislaidLater mislaidConfig ["main.scss".toList] mislaidGraph
    unlinked mislaid_altered built
  exact ⟨unlinked, by decide +kernel, built, again.1⟩

end Workspace

end SheetReach
