import SheetReach.Proofs.Deletion

/-! When all that a survey reports as unused is deleted and counted. Deleting passes over a path that leads
nowhere with links followed, and an earlier deletion can be what makes it lead nowhere. -/
namespace SheetReach

namespace Workspace

/-- Looking up the second path, links followed, does not pass the entry that the first one names. -/
def Apart (workspace : Workspace) (first second : Path) : Prop :=
  ∀ place, workspace.tree.locate workspace.cwd false first = .ok place →
    place.location ∉ workspace.tree.passed workspace.cwd true second

instance (workspace : Workspace) (first second : Path) : Decidable (workspace.Apart first second) :=
  match names : workspace.tree.locate workspace.cwd false first with
  | .error _ => isTrue fun place ends => by simp [names] at ends
  | .ok place => decidable_of_iff (place.location ∉ workspace.tree.passed workspace.cwd true second)
    (by simp [Apart, names])

/-- Exactly the entries that the paths name are gone. -/
structure Rid (before : Workspace) (paths : List Path) (after : Workspace) : Prop where
  cwd : after.cwd = before.cwd
  filtered : FileTree.Filtered before.tree after.tree
  gone : ∀ location, after.tree.find? location ≠ before.tree.find? location ↔
    ∃ path ∈ paths, ∃ place, before.tree.locate before.cwd false path = .ok place ∧
      place.location = location

theorem Rid.refl (workspace : Workspace) : workspace.Rid [] workspace :=
  ⟨rfl, .refl _, by simp⟩

theorem exists?_iff (workspace : Workspace) (path : Path) :
    workspace.exists? path = .ok true ↔ ∃ place, workspace.locate true (Path.tidy path) = .ok place := by
  unfold exists? probe entryAt
  cases workspace.locate true (Path.tidy path) with
  | ok place => simp
  | error error =>
    cases error with
    | nullCharacter => simp
    | fault fault shown => cases fault <;> simp

theorem Rid.exists?_iff {before now : Workspace} {earlier : List Path} (rid : before.Rid earlier now)
    {path : Path} (tidied : Path.tidy path = path) :
    now.exists? path = .ok true ↔
      (∃ place, before.locate true path = .ok place) ∧ ∀ other ∈ earlier, before.Apart other path := by
  rw [Workspace.exists?_iff, tidied]
  simp only [locate_eq_ok_iff, rid.cwd]
  rcases FileTree.locate_thinned rid.filtered.thinned before.cwd true path with
    ⟨same, kept⟩ | ⟨missing, location, passes, changed⟩
  · rw [same]
    refine (and_iff_left fun other member place ends passes => ?_).symm
    exact (rid.gone place.location).mpr ⟨other, member, place, ends, rfl⟩ (kept _ passes)
  · refine iff_of_false ?_ ?_
    · rintro ⟨place, -, leads⟩
      rw [missing] at leads
      cases leads
    · rintro ⟨-, apart⟩
      obtain ⟨other, member, place, ends, rfl⟩ := (rid.gone location).mp changed
      exact apart other member place ends passes

/-- A path that leads somewhere names an entry, and that entry can be taken out next. -/
theorem Rid.unlink {before now : Workspace} {earlier : List Path} (rid : before.Rid earlier now)
    {path : Path} (tidied : Path.tidy path = path)
    (plain : ∀ place, before.tree.locate before.cwd false path = .ok place → place.entry ≠ .directory)
    (there : now.exists? path = .ok true) :
    ∃ next, now.unlink (Path.tidy path) = .ok next ∧ before.Rid (path :: earlier) next := by
  obtain ⟨place, leads⟩ := (Workspace.exists?_iff now path).mp there
  rw [tidied] at leads ⊢
  obtain ⟨unnull, ends⟩ := (now.locate_eq_ok_iff true path place).mp leads
  obtain ⟨⟨location, entry⟩, still⟩ := FileTree.locate_unfollowed ends
  have original : before.tree.locate before.cwd false path = .ok ⟨location, entry⟩ := by
    rw [rid.cwd] at still
    exact rid.filtered.thinned.locate_eq still
  have kind : entry ≠ .directory := plain _ original
  have standing : before.tree.find? location = some entry :=
    (FileTree.locate_find? original).resolve_left kind
  have below : location ≠ [] := by
    rintro rfl
    exact kind (Option.some.inj standing).symm
  refine ⟨{ now with tree := now.tree.erase location }, ?_, rid.cwd,
    rid.filtered.trans (now.tree.erase_filtered location), fun other => ?_⟩
  · have found := (now.locate_eq_ok_iff false path _).mpr ⟨unnull, still⟩
    cases entry with
    | directory => exact absurd rfl kind
    | file content => simp only [Workspace.unlink, found]
    | link target => simp only [Workspace.unlink, found]
  · by_cases here : other = location
    · subst here
      refine iff_of_true ?_ ⟨path, List.mem_cons_self, _, original, rfl⟩
      rw [FileTree.find?_erase now.tree other other below, if_pos rfl, standing]
      simp
    · have unchanged : (now.tree.erase location).find? other = now.tree.find? other := by
        by_cases top : other = []
        · subst top
          rfl
        · rw [FileTree.find?_erase now.tree location other top, if_neg here]
      rw [unchanged, rid.gone]
      constructor
      · rintro ⟨first, member, rest⟩
        exact ⟨first, List.mem_cons_of_mem path member, rest⟩
      · rintro ⟨first, member, named, names, rfl⟩
        rcases List.mem_cons.mp member with rfl | early
        · rw [original] at names
          cases names
          exact absurd rfl here
        · exact ⟨first, early, named, names, rfl⟩

theorem deleteFiles_count_le (workspace : Workspace) (paths : List Path) :
    (workspace.deleteFiles paths).count ≤ paths.length := by
  induction paths generalizing workspace with
  | nil => exact Nat.le_refl 0
  | cons path others ih =>
    unfold deleteFiles
    split
    next => exact Nat.zero_le _
    next => exact Nat.le_succ_of_le (ih workspace)
    next =>
      split
      next => exact Nat.zero_le _
      next next _ => exact Nat.succ_le_succ (ih next)

def Deletion.Counts (deletion : Deletion) (paths : List Path) : Prop :=
  deletion.error = none ∧ deletion.count = paths.length

theorem deleteFiles_passed_over {workspace : Workspace} {path : Path}
    (absent : workspace.exists? path ≠ .ok true) (others : List Path) :
    ¬(workspace.deleteFiles (path :: others)).Counts (path :: others) := by
  rintro ⟨-, counted⟩
  unfold deleteFiles at counted
  split at counted
  next => cases counted
  next =>
    have bound := workspace.deleteFiles_count_le others
    rw [List.length_cons] at counted
    omega
  next there => exact absent there

theorem deleteFiles_unlinked {workspace next : Workspace} {path : Path}
    (there : workspace.exists? path = .ok true) (unlinked : workspace.unlink (Path.tidy path) = .ok next)
    (others : List Path) :
    (workspace.deleteFiles (path :: others)).workspace = (next.deleteFiles others).workspace ∧
      ((workspace.deleteFiles (path :: others)).Counts (path :: others) ↔
        (next.deleteFiles others).Counts others) := by
  simp only [Deletion.Counts, deleteFiles, there, unlinked, List.length_cons, Nat.add_right_cancel_iff,
    and_self]

section Run

variable {before now : Workspace} {earlier : List Path} (rid : before.Rid earlier now) (paths : List Path)
  (tidied : ∀ path ∈ paths, Path.tidy path = path)
  (plain : ∀ path ∈ paths, ∀ place, before.tree.locate before.cwd false path = .ok place →
    place.entry ≠ .directory)

include rid tidied plain

/-- The paths are all counted exactly if each of them led somewhere at first and none passes what is gone
by its turn. -/
theorem Rid.counts_iff :
    (now.deleteFiles paths).Counts paths ↔
      (∀ path ∈ paths, (∃ place, before.locate true path = .ok place) ∧
        ∀ other ∈ earlier, before.Apart other path) ∧ paths.Pairwise before.Apart := by
  induction paths generalizing now earlier with
  | nil => exact iff_of_true ⟨rfl, rfl⟩ ⟨by simp, .nil⟩
  | cons path others ih =>
    have tidiedPath := tidied path List.mem_cons_self
    rw [List.forall_mem_cons, ← rid.exists?_iff tidiedPath]
    by_cases there : now.exists? path = .ok true
    · obtain ⟨next, unlinked, later⟩ := rid.unlink tidiedPath (plain path List.mem_cons_self) there
      have rest := ih later (fun other member => tidied other (List.mem_cons_of_mem path member))
        (fun other member => plain other (List.mem_cons_of_mem path member))
      rw [(deleteFiles_unlinked there unlinked others).2, rest, List.pairwise_cons]
      simp only [List.forall_mem_cons, there, true_and]
      grind
    · exact iff_of_false (deleteFiles_passed_over there others) fun conditions => there conditions.1.1

theorem Rid.deleteFiles (counted : (now.deleteFiles paths).Counts paths) :
    before.Rid (paths.reverse ++ earlier) (now.deleteFiles paths).workspace := by
  induction paths generalizing now earlier with
  | nil => exact rid
  | cons path others ih =>
    by_cases there : now.exists? path = .ok true
    · obtain ⟨next, unlinked, later⟩ := rid.unlink (tidied path List.mem_cons_self)
        (plain path List.mem_cons_self) there
      obtain ⟨left, countedRest⟩ := deleteFiles_unlinked there unlinked others
      have rest := ih later (fun other member => tidied other (List.mem_cons_of_mem path member))
        (fun other member => plain other (List.mem_cons_of_mem path member)) (countedRest.mp counted)
      rw [left, List.reverse_cons, List.append_assoc]
      exact rest
    · exact absurd counted (deleteFiles_passed_over there others)

end Run

theorem Rid.missing {before after : Workspace} {paths : List Path} (rid : before.Rid paths after)
    {path : Path} (member : path ∈ paths) {place : FileTree.Place}
    (names : before.tree.locate before.cwd false path = .ok place) (kind : place.entry ≠ .directory) :
    after.tree.locate after.cwd false path = .error .missing := by
  rw [rid.cwd]
  rcases FileTree.locate_thinned rid.filtered.thinned before.cwd false path with ⟨same, -⟩ | ⟨missing, -⟩
  · -- It would still end where it did, at an entry that is gone.
    have stands := (FileTree.locate_find? names).resolve_left kind
    have still := (FileTree.locate_find? (same.trans names)).resolve_left kind
    exact absurd (still.trans stands.symm) ((rid.gone place.location).mpr ⟨path, member, place, names, rfl⟩)
  · exact missing

/-- All of the paths were counted as deleted, and none of them names an entry any more. -/
structure Deletion.Clears (deletion : Deletion) (paths : List Path) : Prop where
  counts : deletion.Counts paths
  gone : ∀ path ∈ paths,
    deletion.workspace.tree.locate deletion.workspace.cwd false path = .error .missing

theorem deleteFiles_clears_iff (workspace : Workspace) (paths : List Path)
    (tidied : ∀ path ∈ paths, Path.tidy path = path)
    (plain : ∀ path ∈ paths, ∀ place, workspace.tree.locate workspace.cwd false path = .ok place →
      place.entry ≠ .directory) :
    (workspace.deleteFiles paths).Clears paths ↔
      (∀ path ∈ paths, ∃ place, workspace.locate true path = .ok place) ∧
        paths.Pairwise workspace.Apart := by
  have counts := (Rid.refl workspace).counts_iff paths tidied plain
  simp only [List.not_mem_nil, false_implies, implies_true, and_true] at counts
  rw [← counts]
  refine ⟨Deletion.Clears.counts, fun counted => ⟨counted, fun path member => ?_⟩⟩
  have rid := (Rid.refl workspace).deleteFiles paths tidied plain counted
  obtain ⟨place, leads⟩ := (counts.mp counted).1 path member
  obtain ⟨-, ends⟩ := (workspace.locate_eq_ok_iff true path place).mp leads
  obtain ⟨named, names⟩ := FileTree.locate_unfollowed ends
  exact rid.missing (by simpa using member) names (plain path member named names)

section Found

variable {workspace : Workspace} {mark : Path} {names : List Name}
  (marked : Path.IsMark mark) (legal : ∀ name ∈ names, Path.Legal name)

include marked legal

theorem FoundBelow.unnull {way : List Name} (found : workspace.FoundBelow (Path.spell mark names) way) :
    '\x00' ∉ Path.spell mark (names ++ way) := by
  have rooted : '\x00' ∉ Path.spell mark names := by
    cases found with
    | entry _ _ _ _ listed => exact (list_eq_ok listed).1
    | inside _ _ _ _ listed => exact (list_eq_ok listed).1
  obtain ⟨_, _, _, _, -, legalWay, -⟩ := found.located mark names marked legal rfl
  rw [← found.under_eq marked legal]
  intro null
  rcases Path.mem_under null with slash | above | ⟨name, member, inside⟩
  · cases slash
  · exact rooted above
  · exact (legalWay name member).2 inside

/-- Two ways to one file are the same, and a look-up passes a file only at its end. -/
theorem FoundBelow.apart {first second : List Name}
    (foundFirst : workspace.FoundBelow (Path.spell mark names) first)
    (foundSecond : workspace.FoundBelow (Path.spell mark names) second) (differ : first ≠ second)
    {location : Location} {content : Content}
    (namesFirst : workspace.tree.locate workspace.cwd false (Path.spell mark (names ++ first)) =
      .ok ⟨location, .file content⟩)
    {other : Location} {otherContent : Content}
    (namesSecond : workspace.tree.locate workspace.cwd false (Path.spell mark (names ++ second)) =
      .ok ⟨other, .file otherContent⟩) :
    workspace.Apart (Path.spell mark (names ++ first)) (Path.spell mark (names ++ second)) := by
  intro place ends passes
  rw [namesFirst] at ends
  cases ends
  have stands := (FileTree.locate_find? namesFirst).resolve_left (by simp)
  have leads := FileTree.locate_followed namesSecond (by simp)
  have same : location = other := by
    rcases FileTree.locate_file workspace.cwd true _ location content passes stands with ends | stops
    · rw [leads] at ends
      cases ends
      rfl
    · rw [leads] at stops
      cases stops
  obtain ⟨top, rooted, spelled, -⟩ := foundFirst.ends_at marked legal namesFirst
  obtain ⟨again, rootedAgain, spelledAgain, -⟩ := foundSecond.ends_at marked legal namesSecond
  rw [rooted] at rootedAgain
  cases rootedAgain
  have reversed : first.reverse = second.reverse :=
    List.append_cancel_right (spelled.symm.trans (same.trans spelledAgain))
  exact differ (List.reverse_injective reversed)

end Found

/-- Whether deleting the unused files of a survey deletes them all. It does exactly if every unused path
leads somewhere with links followed and none leads through the entry that an earlier one names; and so it
does if the unused paths name files and no links. -/
theorem deletion_clears_iff (workspace : Workspace) (request : Request) (survey : Survey)
    (returned : (workspace.survey request).result = .ok survey) :
    ((workspace.deleteFiles survey.unused).Clears survey.unused ↔
      (∀ path ∈ survey.unused, ∃ place, workspace.locate true path = .ok place) ∧
        survey.unused.Pairwise workspace.Apart) ∧
    ((∀ path ∈ survey.unused, ∃ location content,
        workspace.tree.locate workspace.cwd false path = .ok ⟨location, .file content⟩) →
      (workspace.deleteFiles survey.unused).Clears survey.unused) := by
  obtain ⟨mark, names, marked, legal, spelled⟩ := survey_root_normal returned
  have found {path : Path} (member : path ∈ survey.unused) :=
    (survey_unused_below returned marked legal spelled member).1
  have clears := workspace.deleteFiles_clears_iff survey.unused
    (fun path member => (survey_unused_normal returned member).tidy_eq)
    (fun path member place ends => by
      obtain ⟨way, below, rfl⟩ := found member
      obtain ⟨-, -, -, kind⟩ := below.ends_at marked legal ends
      exact kind)
  refine ⟨clears, fun files => clears.mpr ⟨fun path member => ?_, ?_⟩⟩
  · obtain ⟨way, below, rfl⟩ := found member
    obtain ⟨location, content, ends⟩ := files _ member
    have leads := FileTree.locate_followed ends (by simp)
    exact ⟨_, (workspace.locate_eq_ok_iff true _ _).mpr ⟨below.unnull marked legal, leads⟩⟩
  · refine (survey_unused_increasing returned).imp_of_mem ?_
    intro first second memberFirst memberSecond increasing
    obtain ⟨way, below, rfl⟩ := found memberFirst
    obtain ⟨other, otherBelow, rfl⟩ := found memberSecond
    obtain ⟨_, _, ends⟩ := files _ memberFirst
    obtain ⟨_, _, otherEnds⟩ := files _ memberSecond
    refine below.apart marked legal otherBelow ?_ ends otherEnds
    rintro rfl
    exact lt_irrefl _ increasing

/-- A file that nothing imports, and a link in its directory to one that is imported. -/
def twice : Workspace where
  tree.entries :=
    [(["main.scss".toList], .file (.octets "@import 'sub/a';".toUTF8.toList)),
     (["sub".toList], .directory),
     (["_a.scss".toList, "sub".toList], .file (.octets [])),
     (["_b.scss".toList, "sub".toList], .link "_a.scss".toList),
     (["_c.scss".toList, "sub".toList], .file (.octets []))]
  tree.distinct := by decide +kernel
  tree.named := by decide +kernel

def twiceSurvey : Survey where
  root := "/".toList
  dialect := .scss
  entryPoints := ["/main.scss".toList]
  reachable := ["/main.scss".toList, "/sub/_a.scss".toList]
  unused := ["/sub/_b.scss".toList, "/sub/_c.scss".toList]

theorem twice_deletion_clears :
    (twice.survey {}).result = .ok twiceSurvey ∧
      (twice.deleteFiles twiceSurvey.unused).Clears twiceSurvey.unused := by
  have returned : (twice.survey {}).result = .ok twiceSurvey := by decide +kernel
  have clears := (deletion_clears_iff twice {} twiceSurvey returned).1
  exact ⟨returned, clears.mpr (by decide +kernel)⟩

/-- A file that nothing imports, a link to it, and a link to nothing. -/
def stubborn : Workspace where
  tree.entries :=
    [(["main.scss".toList], .file (.octets [])),
     (["sub".toList], .directory),
     (["_a.scss".toList, "sub".toList], .file (.octets [])),
     (["_b.scss".toList, "sub".toList], .link "_a.scss".toList),
     (["_c.scss".toList, "sub".toList], .link "nowhere".toList)]
  tree.distinct := by decide +kernel
  tree.named := by decide +kernel

def stubbornSurvey : Survey where
  root := "/".toList
  dialect := .scss
  entryPoints := ["/main.scss".toList]
  reachable := ["/main.scss".toList]
  unused := ["/sub/_a.scss".toList, "/sub/_b.scss".toList, "/sub/_c.scss".toList]

/-- Of three unused paths one is deleted: the links are still there, since they lead nowhere by their turn. -/
theorem stubborn_links_stay :
    (stubborn.survey {}).result = .ok stubbornSurvey ∧
      (stubborn.deleteFiles stubbornSurvey.unused).error = none ∧
      (stubborn.deleteFiles stubbornSurvey.unused).count = 1 ∧
      (stubborn.deleteFiles stubbornSurvey.unused).workspace.tree.find?
        ["_b.scss".toList, "sub".toList] = some (.link "_a.scss".toList) ∧
      (stubborn.deleteFiles stubbornSurvey.unused).workspace.tree.find?
        ["_c.scss".toList, "sub".toList] = some (.link "nowhere".toList) := by
  decide +kernel

end Workspace

end SheetReach
