import SheetReach.Proofs.Deletion
import SheetReach.Proofs.Unread

/-! Trees without links. There a location has one normal path for each number of leading slashes, deleting
files changes no look-up that ends at a directory, and no path that led nowhere leads anywhere else. -/
namespace SheetReach

namespace FileTree

/-- No entry of the tree is a link. -/
def Unlinked (tree : FileTree) : Prop :=
  tree.LinkFree (tree.entries.map Prod.fst)

instance (tree : FileTree) : Decidable tree.Unlinked :=
  inferInstanceAs (Decidable (tree.LinkFree (tree.entries.map Prod.fst)))

theorem Unlinked.find?_ne {tree : FileTree} (unlinked : tree.Unlinked) (location : Location)
    (target : Path) : tree.find? location ≠ some (.link target) := by
  intro found
  cases location with
  | nil => cases found
  | cons name parent =>
    have member := (tree.find?_cons_eq_some_iff name parent _).mp found
    exact unlinked _ (List.mem_map.mpr ⟨_, member, rfl⟩) target found

theorem Unlinked.linkFree {tree : FileTree} (unlinked : tree.Unlinked) (trail : List Location) :
    tree.LinkFree trail :=
  fun location _ => unlinked.find?_ne location

theorem Thinned.of_some {before after : FileTree} (thinned : Thinned before after) {location : Location}
    {entry : Entry} (found : after.find? location = some entry) : before.find? location = some entry := by
  rcases thinned location with same | gone
  · rw [← same, found]
  · rw [gone] at found
    cases found

theorem Unlinked.thinned {before after : FileTree} (unlinked : before.Unlinked)
    (thinned : Thinned before after) : after.Unlinked :=
  fun location _ target found => unlinked.find?_ne location target (thinned.of_some found)

theorem Unlinked.takeSteps_eq {tree : FileTree} (unlinked : tree.Unlinked) (follow otherFollow : Bool)
    (onLink otherLink : Location → Path → List Name → Except Fault Place) (base : Location)
    (names : List Name) :
    tree.takeSteps follow onLink base names = tree.takeSteps otherFollow otherLink base names := by
  induction names generalizing base with
  | nil => rfl
  | cons name rest ih =>
    unfold takeSteps
    cases found : tree.find? (name :: base) with
    | none => simp only [ih]
    | some entry =>
      cases entry with
      | link target => exact absurd found (unlinked.find?_ne _ target)
      | directory => simp only [ih]
      | file content => simp only [ih]

theorem Unlinked.locate_follow {tree : FileTree} (unlinked : tree.Unlinked) (cwd : Location)
    (follow : Bool) (path : Path) : tree.locate cwd follow path = tree.locate cwd true path := by
  unfold locate
  simp only [linkLimit, chase]
  rw [unlinked.takeSteps_eq follow true]

end FileTree

namespace Workspace

section Loses

variable {before after : Workspace} {paths : List Path} (loses : before.Loses paths after)
  (unlinked : before.tree.Unlinked)

include loses unlinked

theorem Loses.file_of_gone {location : Location}
    (changed : after.tree.find? location ≠ before.tree.find? location) :
    ∃ content, before.tree.find? location = some (.file content) := by
  obtain ⟨path, -, entry, kind, ends⟩ := loses.named location changed
  have found := (FileTree.locate_find? ends).resolve_left kind
  cases entry with
  | directory => exact absurd rfl kind
  | link target => exact absurd found (unlinked.find?_ne location target)
  | file content => exact ⟨content, found⟩

/-- Look-ups end as before, or they used to end at a file or to be stopped by one, and now miss it. -/
theorem Loses.locate_cases (path : Path) :
    after.tree.locate after.cwd true path = before.tree.locate before.cwd true path ∨
      (after.tree.locate after.cwd true path = .error .missing ∧
        ((∃ location content, before.tree.locate before.cwd true path = .ok ⟨location, .file content⟩) ∨
          before.tree.locate before.cwd true path = .error .notDirectory)) := by
  rw [loses.cwd]
  rcases FileTree.locate_thinned loses.filtered.thinned before.cwd true path with
    ⟨same, -⟩ | ⟨missing, location, member, changed⟩
  · exact Or.inl same
  · obtain ⟨content, found⟩ := loses.file_of_gone unlinked changed
    refine Or.inr ⟨missing, ?_⟩
    rcases FileTree.locate_file before.cwd true path location content member found with
      ends | stops
    · exact Or.inl ⟨location, content, ends⟩
    · exact Or.inr stops

theorem Loses.locate_directory {path : Path} {place : Location}
    (leads : before.tree.locate before.cwd true path = .ok ⟨place, .directory⟩) :
    after.tree.locate after.cwd true path = .ok ⟨place, .directory⟩ := by
  rcases loses.locate_cases unlinked path with same | ⟨-, ⟨location, content, ends⟩ | stops⟩
  · rw [same, leads]
  · rw [leads] at ends
    cases ends
  · rw [leads] at stops
    cases stops

/-- What was no text reads as it did: what was stopped by a file counted as missing before. -/
theorem Loses.snapshot_eq (path : Path)
    (unread : ∀ source, ImportGraph.snapshot before path ≠ .text source) :
    ImportGraph.snapshot after path = ImportGraph.snapshot before path := by
  unfold ImportGraph.snapshot readText entryAt locate at unread ⊢
  by_cases null : path.contains '\x00' = true
  · rw [if_pos null, if_pos null]
  rw [if_neg null] at unread ⊢
  rw [if_neg null]
  rcases loses.locate_cases unlinked path with same | ⟨missing, ⟨location, content, ends⟩ | stops⟩
  · rw [same]
  · rw [ends] at unread
    exact absurd rfl (unread content.text)
  · rw [missing, stops]
    rfl

/-- What is found below a directory afterwards was found there before. -/
theorem Loses.foundBelow {directory : Path} {way : List Name} (found : after.FoundBelow directory way) :
    before.FoundBelow directory way := by
  have thinned := loses.filtered.thinned
  have listsMore : ∀ {directory : Path} {children : List (Name × Entry)},
      after.list directory = .ok children →
      ∃ more, before.list directory = .ok more ∧ children ⊆ more := by
    intro directory children listed
    obtain ⟨plain, place, leads, rfl⟩ := list_eq_ok listed
    rw [loses.cwd] at leads
    refine ⟨_, list_of_locate plain (thinned.locate_eq leads), ?_⟩
    rintro ⟨name, entry⟩ member
    rw [FileTree.mem_children_iff] at member ⊢
    exact thinned.of_some member
  induction found with
  | entry directory children name entry listed member plain =>
    obtain ⟨more, listedBefore, grows⟩ := listsMore listed
    refine .entry directory more name entry listedBefore (grows member) ?_
    cases entry with
    | file content => rfl
    | directory => exact absurd plain (by simp [leadsToDirectory, settle])
    | link target =>
      obtain ⟨-, place, -, rfl⟩ := list_eq_ok listedBefore
      exact absurd ((before.tree.mem_children_iff place name _).mp (grows member))
        (unlinked.find?_ne _ target)
  | inside directory children name way listed member below ih =>
    obtain ⟨more, listedBefore, grows⟩ := listsMore listed
    exact .inside directory more name way listedBefore (grows member) ih

end Loses

section Unlink

variable {workspace : Workspace} (unlinked : workspace.tree.Unlinked) {mark : Path}
  (marked : Path.IsMark mark) {names : List Name} (legal : ∀ name ∈ names, Path.Legal name)
  {source : List Char} (text : workspace.readText (Path.spell mark names) = .ok source)

include unlinked marked legal text

theorem file_of_readText : ∃ content, workspace.tree.find? names.reverse = some (.file content) ∧
    workspace.tree.locate workspace.cwd true (Path.spell mark names) =
      .ok ⟨names.reverse, .file content⟩ := by
  obtain ⟨-, location, content, leads, -⟩ := readText_eq_ok text
  have placed : location = names.reverse :=
    (FileTree.locate_place marked legal (unlinked.linkFree _) leads).1
  subst placed
  exact ⟨content, (FileTree.locate_find? leads).resolve_left (by simp), leads⟩

/-- A file that can be read is there and can be taken out. -/
theorem unlink_file : workspace.exists? (Path.spell mark names) = .ok true ∧
    workspace.unlink (Path.tidy (Path.spell mark names)) =
      .ok { workspace with tree := workspace.tree.erase names.reverse } := by
  obtain ⟨plain, -⟩ := readText_eq_ok text
  obtain ⟨content, -, leads⟩ := file_of_readText unlinked marked legal text
  have still : workspace.tree.locate workspace.cwd false (Path.spell mark names) =
      .ok ⟨names.reverse, .file content⟩ := by
    rw [unlinked.locate_follow, leads]
  have tidied := Path.tidy_spell mark names marked legal
  constructor
  · simp [exists?, probe, entryAt, locate, tidied, plain, leads]
  · simp [unlink, locate, tidied, plain, still]

theorem readText_erase {others : List Name} (othersLegal : ∀ name ∈ others, Path.Legal name)
    (apart : others ≠ names) {otherSource : List Char}
    (otherText : workspace.readText (Path.spell mark others) = .ok otherSource) :
    ({ workspace with tree := workspace.tree.erase names.reverse } : Workspace).readText
      (Path.spell mark others) = .ok otherSource := by
  have loses := unlink_loses (unlink_file unlinked marked legal text).2
  obtain ⟨-, place, content, leads, -⟩ := readText_eq_ok otherText
  obtain ⟨lost, found, -⟩ := file_of_readText unlinked marked legal text
  refine (loses.readText_iff otherText).mpr fun location passes => ?_
  by_cases top : location = []
  · subst top
    rfl
  rw [FileTree.find?_erase workspace.tree names.reverse location top]
  refine if_neg fun same => ?_
  subst same
  have last := FileTree.passed_end marked othersLegal (unlinked.linkFree _) leads passes found (by simp)
  exact apart (List.reverse_injective last).symm

end Unlink

/-- In a tree without links, normal paths that can be read are all deleted, each with its own file. -/
theorem deleteFiles_all {workspace : Workspace} (unlinked : workspace.tree.Unlinked) {mark : Path}
    (marked : Path.IsMark mark) (paths : List Path) (distinct : paths.Nodup)
    (normal : ∀ path ∈ paths, ∃ names, (∀ name ∈ names, Path.Legal name) ∧ path = Path.spell mark names)
    (reads : ∀ path ∈ paths, ∃ source, workspace.readText path = .ok source) :
    (workspace.deleteFiles paths).error = none ∧
      ∀ names, (∀ name ∈ names, Path.Legal name) → Path.spell mark names ∈ paths →
        (workspace.deleteFiles paths).workspace.tree.find? names.reverse = none := by
  induction paths generalizing workspace with
  | nil => exact ⟨rfl, fun _ _ impossible => by cases impossible⟩
  | cons path others ih =>
    obtain ⟨names, legal, rfl⟩ := normal path List.mem_cons_self
    obtain ⟨source, text⟩ := reads _ List.mem_cons_self
    obtain ⟨there, unlinks⟩ := unlink_file unlinked marked legal text
    have erased := workspace.tree.erase_filtered names.reverse
    have nextReads : ∀ other ∈ others, ∃ source,
        ({ workspace with tree := workspace.tree.erase names.reverse } : Workspace).readText other =
          .ok source := by
      intro other member
      obtain ⟨otherNames, otherLegal, rfl⟩ := normal other (List.mem_cons_of_mem _ member)
      obtain ⟨otherSource, otherText⟩ := reads _ (List.mem_cons_of_mem _ member)
      refine ⟨otherSource, readText_erase unlinked marked legal text otherLegal ?_ otherText⟩
      rintro rfl
      exact (List.nodup_cons.mp distinct).1 member
    obtain ⟨done, gone⟩ := ih (unlinked.thinned erased.thinned) (List.nodup_cons.mp distinct).2
      (fun other member => normal other (List.mem_cons_of_mem _ member)) nextReads
    have unfolded : (workspace.deleteFiles (Path.spell mark names :: others)).workspace =
        (({ workspace with tree := workspace.tree.erase names.reverse } : Workspace).deleteFiles
          others).workspace := by
      simp only [deleteFiles, there, unlinks]
    refine ⟨by simp only [deleteFiles, there, unlinks, done], fun otherNames otherLegal member => ?_⟩
    rw [unfolded]
    rcases List.mem_cons.mp member with same | later
    · obtain ⟨-, rfl⟩ := Path.spell_injective mark mark otherNames names marked marked otherLegal legal same
      obtain ⟨content, found, -⟩ := file_of_readText unlinked marked legal text
      have below : otherNames.reverse ≠ [] := by
        intro empty
        rw [empty] at found
        cases found
      have missing := workspace.tree.find?_erase otherNames.reverse otherNames.reverse below
      rw [if_pos rfl] at missing
      -- What is gone stays gone.
      rcases (deleteFiles_loses { workspace with tree := workspace.tree.erase otherNames.reverse }
        others).filtered.thinned otherNames.reverse with kept | none
      · exact kept.trans missing
      · exact none
    · exact gone otherNames otherLegal later

end Workspace

end SheetReach
