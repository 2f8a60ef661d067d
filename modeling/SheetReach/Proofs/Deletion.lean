import SheetReach.Proofs.Unused

/-! Deleting takes out files and links, and only those that the given paths name. -/
namespace SheetReach

namespace FileTree

/-- A tree without some of the entries, the others in their order. -/
def Filtered (before after : FileTree) : Prop :=
  ∃ keep : Location → Bool, after.entries = before.entries.filter fun item => keep item.1

theorem Filtered.refl (tree : FileTree) : Filtered tree tree :=
  ⟨fun _ => true, by simp⟩

theorem Filtered.trans {first second third : FileTree} (early : Filtered first second)
    (late : Filtered second third) : Filtered first third := by
  obtain ⟨keep, kept⟩ := early
  obtain ⟨keepLater, keptLater⟩ := late
  refine ⟨fun location => keepLater location && keep location, ?_⟩
  rw [keptLater, kept, List.filter_filter]

theorem lookup_filter (entries : List (Location × Entry)) (keep : Location → Bool) (place : Location) :
    (entries.filter fun item => keep item.1).lookup place =
      if keep place then entries.lookup place else none := by
  induction entries with
  | nil => simp
  | cons item rest ih =>
    obtain ⟨other, entry⟩ := item
    by_cases same : place = other
    · subst same
      by_cases kept : keep place = true
      · simp [kept]
      · simpa [kept] using ih
    · have differs : (place == other) = false := by simpa using same
      by_cases kept : keep other = true
      · simpa [List.lookup_cons, kept, differs] using ih
      · simpa [List.lookup_cons, kept, differs] using ih

theorem find?_filter {before after : FileTree} (keep : Location → Bool)
    (kept : after.entries = before.entries.filter fun item => keep item.1) (place : Location)
    (below : place ≠ []) : after.find? place = if keep place then before.find? place else none := by
  simp only [find?, if_neg below, kept, lookup_filter]

theorem Filtered.thinned {before after : FileTree} (filtered : Filtered before after) :
    Thinned before after := by
  obtain ⟨keep, kept⟩ := filtered
  intro place
  by_cases top : place = []
  · subst top
    exact Or.inl rfl
  · rw [find?_filter keep kept place top]
    cases keep place
    · exact Or.inr rfl
    · exact Or.inl rfl

theorem erase_filtered (tree : FileTree) (location : Location) : Filtered tree (tree.erase location) :=
  ⟨fun place => place ≠ location, rfl⟩

theorem find?_erase (tree : FileTree) (location place : Location) (below : place ≠ []) :
    (tree.erase location).find? place = if place = location then none else tree.find? place := by
  have kept : (tree.erase location).entries = tree.entries.filter fun item => item.1 ≠ location := rfl
  rw [find?_filter (fun place => place ≠ location) kept place below]
  by_cases same : place = location <;> simp [same]

/-- A look-up that still ends somewhere in a thinner tree ended there before. -/
theorem Thinned.locate_eq {before after : FileTree} (thinned : Thinned before after) {cwd : Location}
    {follow : Bool} {path : Path} {place : Place} (ends : after.locate cwd follow path = .ok place) :
    before.locate cwd follow path = .ok place := by
  rcases locate_thinned thinned cwd follow path with ⟨same, -⟩ | ⟨missing, -⟩
  · rw [← same, ends]
  · rw [missing] at ends
    cases ends

end FileTree

namespace Workspace

theorem unlink_eq_ok {workspace next : Workspace} {path : Path}
    (done : workspace.unlink path = .ok next) :
    ∃ location entry, entry ≠ .directory ∧
      workspace.tree.locate workspace.cwd false path = .ok ⟨location, entry⟩ ∧
      next = { workspace with tree := workspace.tree.erase location } := by
  unfold unlink at done
  split at done
  next => cases done
  next => cases done
  next location entry kind leads =>
    obtain ⟨-, ends⟩ := (workspace.locate_eq_ok_iff false path _).mp leads
    exact ⟨location, entry, kind, ends, (Except.ok.inj done).symm⟩

/-- What may differ once paths are deleted: entries are gone, each of them a file or a link that one of
the paths named. -/
structure Loses (before : Workspace) (paths : List Path) (after : Workspace) : Prop where
  cwd : after.cwd = before.cwd
  filtered : FileTree.Filtered before.tree after.tree
  named : ∀ location, after.tree.find? location ≠ before.tree.find? location →
    ∃ path ∈ paths, ∃ entry, entry ≠ .directory ∧
      before.tree.locate before.cwd false (Path.tidy path) = .ok ⟨location, entry⟩

theorem Loses.refl (workspace : Workspace) (paths : List Path) : workspace.Loses paths workspace :=
  ⟨rfl, .refl _, fun _ changed => absurd rfl changed⟩

theorem Loses.mono {before after : Workspace} {paths : List Path} (loses : before.Loses paths after)
    {more : List Path} (grows : paths ⊆ more) : before.Loses more after := by
  refine ⟨loses.cwd, loses.filtered, fun location changed => ?_⟩
  obtain ⟨path, member, rest⟩ := loses.named location changed
  exact ⟨path, grows member, rest⟩

/-- What is taken out later was named by its path from the start: deleting makes no path lead elsewhere. -/
theorem Loses.trans {first second third : Workspace} {paths : List Path} (early : first.Loses paths second)
    (late : second.Loses paths third) : first.Loses paths third := by
  refine ⟨late.cwd.trans early.cwd, early.filtered.trans late.filtered, fun location changed => ?_⟩
  by_cases same : second.tree.find? location = first.tree.find? location
  · obtain ⟨path, member, entry, kind, ends⟩ := late.named location (by rw [same]; exact changed)
    rw [early.cwd] at ends
    exact ⟨path, member, entry, kind, early.filtered.thinned.locate_eq ends⟩
  · exact early.named location same

theorem unlink_loses {workspace next : Workspace} {path : Path}
    (done : workspace.unlink (Path.tidy path) = .ok next) : workspace.Loses [path] next := by
  obtain ⟨location, entry, kind, ends, rfl⟩ := unlink_eq_ok done
  refine ⟨rfl, workspace.tree.erase_filtered location, fun place changed => ?_⟩
  have below : place ≠ [] := by
    rintro rfl
    exact changed rfl
  by_cases here : place = location
  · subst here
    exact ⟨path, List.mem_singleton_self path, entry, kind, ends⟩
  · rw [FileTree.find?_erase workspace.tree location place below, if_neg here] at changed
    exact absurd rfl changed

theorem deleteFiles_loses (workspace : Workspace) (paths : List Path) :
    workspace.Loses paths (workspace.deleteFiles paths).workspace := by
  induction paths generalizing workspace with
  | nil => exact .refl workspace []
  | cons path others ih =>
    unfold deleteFiles
    split
    next => exact .refl workspace _
    next => exact (ih workspace).mono (List.subset_cons_self path others)
    next =>
      split
      next => exact .refl workspace _
      next next unlinked =>
        have early := (unlink_loses unlinked).mono (List.cons_subset_cons path (List.nil_subset others))
        exact early.trans ((ih next).mono (List.subset_cons_self path others))

theorem readText_eq_ok {workspace : Workspace} {path : Path} {source : List Char}
    (reads : workspace.readText path = .ok source) :
    '\x00' ∉ path ∧ ∃ location content,
      workspace.tree.locate workspace.cwd true path = .ok ⟨location, .file content⟩ ∧
        content.text = source := by
  unfold readText entryAt at reads
  cases leads : workspace.locate true path with
  | error error =>
    rw [leads] at reads
    cases reads
  | ok place =>
    obtain ⟨unnull, ends⟩ := (workspace.locate_eq_ok_iff true path place).mp leads
    obtain ⟨location, entry⟩ := place
    rw [leads] at reads
    cases entry with
    | file content => exact ⟨unnull, location, content, ends, Except.ok.inj reads⟩
    | directory => cases reads
    | link target => cases reads

/-- A file that could be read still reads the same exactly if its look-up passes nothing that is gone. -/
theorem Loses.readText_iff {before after : Workspace} {paths : List Path} (loses : before.Loses paths after)
    {path : Path} {source : List Char} (reads : before.readText path = .ok source) :
    after.readText path = .ok source ↔
      ∀ location ∈ before.tree.passed before.cwd true path,
        after.tree.find? location = before.tree.find? location := by
  rcases FileTree.locate_thinned loses.filtered.thinned before.cwd true path with ⟨same, kept⟩ | ⟨missing, gone⟩
  · refine iff_of_true ?_ kept
    rw [← reads]
    simp only [readText, entryAt, locate, loses.cwd, same]
  · refine iff_of_false ?_ ?_
    · intro again
      obtain ⟨-, location, content, ends, -⟩ := readText_eq_ok again
      rw [loses.cwd, missing] at ends
      cases ends
    · intro kept
      obtain ⟨location, member, changed⟩ := gone
      exact changed (kept location member)

end Workspace

theorem Import.candidates_normal (cwd : Path) (dialect : Dialect) (enabled : List Dialect)
    (importerDirectory : Path) (specifier : List Char) :
    ∀ path ∈ Import.candidates cwd dialect enabled importerDirectory specifier, Path.Normal path := by
  intro path member
  unfold Import.candidates at member
  simp only at member
  split at member
  next => cases member
  next =>
    split at member
    next => cases member
    next =>
      obtain ⟨name, -, rfl⟩ := List.mem_map.mp member
      exact Path.normalize_normal cwd _

theorem ImportGraph.Asked.normal {snapshot : Snapshot} {config : Config} {entryPoints : List Path}
    {read : Path → Prop} {path : Path} (asked : Asked snapshot config entryPoints read path) :
    Path.Normal path := by
  cases asked with
  | entry given member => exact Path.normalize_normal config.cwd given
  | imported importer source specifier path known text member found =>
    exact Import.candidates_normal _ _ _ _ _ path (present?_spec _ _ _ found).1

namespace Workspace

theorem survey_reachable {workspace : Workspace} {request : Request} {survey : Survey}
    (returned : (workspace.survey request).result = .ok survey) {path : Path}
    (reached : path ∈ survey.reachable) :
    Path.Normal path ∧ ∃ source, workspace.readText path = .ok source := by
  by_cases empty : survey.entryPoints = []
  · rw [(survey_without_entries returned empty).1] at reached
    cases reached
  · have built := survey_builds returned empty
    obtain ⟨source, text⟩ := built.reads path reached
    exact ⟨(built.asked path reached).normal,
      source, (ImportGraph.snapshot_eq_text_iff workspace path source).mp text⟩

theorem survey_unused_below {workspace : Workspace} {request : Request} {survey : Survey}
    (returned : (workspace.survey request).result = .ok survey)
    {mark : Path} {names : List Name} (marked : Path.IsMark mark)
    (legal : ∀ name ∈ names, Path.Legal name) (spelled : survey.root = Path.spell mark names)
    {path : Path} (member : path ∈ survey.unused) :
    (∃ way, workspace.FoundBelow (Path.spell mark names) way ∧ path = Path.spell mark (names ++ way)) ∧
      path ∉ survey.reachable := by
  by_cases empty : survey.entryPoints = []
  · rw [(survey_without_entries returned empty).2] at member
    cases member
  · obtain ⟨-, exclusions, -, members⟩ := survey_unused returned empty marked legal spelled
    obtain ⟨below, reportable⟩ := (members path).mp member
    exact ⟨below, reportable.unreached⟩

/-- Where no link is passed, what a reachable path passes is never what an unused path names. -/
theorem survey_passed_kept {workspace : Workspace} {request : Request} {survey : Survey}
    (returned : (workspace.survey request).result = .ok survey)
    {path : Path} (reached : path ∈ survey.reachable)
    (rootFree : workspace.tree.LinkFree (workspace.tree.passed workspace.cwd true survey.root))
    (pathFree : workspace.tree.LinkFree (workspace.tree.passed workspace.cwd true path))
    (sameMark : Path.rootMark path = Path.rootMark survey.root) {after : Workspace}
    (loses : workspace.Loses survey.unused after) :
    ∀ location ∈ workspace.tree.passed workspace.cwd true path,
      after.tree.find? location = workspace.tree.find? location := by
  intro location passes
  by_contra changed
  obtain ⟨other, unused, entry, kind, ends⟩ := loses.named location changed
  obtain ⟨rootMark, rootNames, rootMarked, rootLegal, spelledRoot⟩ := survey_root_normal returned
  obtain ⟨⟨mark, names, marked, legal, rfl⟩, source, reads⟩ := survey_reachable returned reached
  obtain ⟨-, place, content, leads, -⟩ := readText_eq_ok reads
  obtain ⟨⟨way, found, rfl⟩, unreached⟩ :=
    survey_unused_below returned rootMarked rootLegal spelledRoot unused
  rw [Path.tidy_spell rootMark _ rootMarked (found.legal_append rootMarked rootLegal)] at ends
  obtain ⟨top, rootLeads, below, -⟩ := found.ends_at rootMarked rootLegal ends
  rw [spelledRoot] at rootFree
  have topIs : top = rootNames.reverse := (FileTree.locate_place rootMarked rootLegal rootFree rootLeads).1
  -- The entry that is named is no directory, so that it can only be passed as the end of the path.
  have standing : workspace.tree.find? location = some entry := (FileTree.locate_find? ends).resolve_left kind
  have last : location = names.reverse := FileTree.passed_end marked legal pathFree leads passes standing kind
  have sameNames : names = rootNames ++ way := by
    have reversed : names.reverse = (rootNames ++ way).reverse := by
      rw [← last, List.reverse_append, ← topIs]
      exact below
    exact List.reverse_injective reversed
  rw [spelledRoot, Path.rootMark_spell mark names marked legal,
    Path.rootMark_spell rootMark rootNames rootMarked rootLegal] at sameMark
  rw [← sameMark, ← sameNames] at unreached
  exact unreached reached

/-- What deleting the unused files of a survey does to the reachable ones. Only entries that unused paths
name go; a reachable file still reads the same exactly if its look-up passes none of these; and it does if
neither its look-up nor that of the root passes a link and both start with the same slashes. -/
theorem deletion_keeps_reachable (workspace : Workspace) (request : Request) (survey : Survey)
    (returned : (workspace.survey request).result = .ok survey) :
    (∀ location, (workspace.deleteFiles survey.unused).workspace.tree.find? location ≠
        workspace.tree.find? location →
      ∃ path ∈ survey.unused, ∃ entry, entry ≠ .directory ∧
        workspace.tree.locate workspace.cwd false path = .ok ⟨location, entry⟩) ∧
    ∀ path ∈ survey.reachable, ∃ source, workspace.readText path = .ok source ∧
      ((workspace.deleteFiles survey.unused).workspace.readText path = .ok source ↔
        ∀ location ∈ workspace.tree.passed workspace.cwd true path,
          (workspace.deleteFiles survey.unused).workspace.tree.find? location =
            workspace.tree.find? location) ∧
      (workspace.tree.LinkFree (workspace.tree.passed workspace.cwd true survey.root) →
        workspace.tree.LinkFree (workspace.tree.passed workspace.cwd true path) →
        Path.rootMark path = Path.rootMark survey.root →
        (workspace.deleteFiles survey.unused).workspace.readText path = .ok source) := by
  have loses := workspace.deleteFiles_loses survey.unused
  refine ⟨fun location changed => ?_, fun path reached => ?_⟩
  · obtain ⟨path, member, entry, kind, ends⟩ := loses.named location changed
    obtain ⟨mark, names, marked, legal, spelled⟩ := survey_root_normal returned
    obtain ⟨⟨way, found, rfl⟩, -⟩ := survey_unused_below returned marked legal spelled member
    rw [Path.tidy_spell mark _ marked (found.legal_append marked legal)] at ends
    exact ⟨_, member, entry, kind, ends⟩
  · obtain ⟨-, source, reads⟩ := survey_reachable returned reached
    have unchanged := loses.readText_iff reads
    exact ⟨source, reads, unchanged, fun rootFree pathFree sameMark =>
      unchanged.mpr (survey_passed_kept returned reached rootFree pathFree sameMark loses)⟩

theorem shelf_deletion_keeps :
      (shelf.survey { exclude := ["/kept/".toList] }).result = .ok shelfSurvey ∧
      (shelf.deleteFiles shelfSurvey.unused).workspace.readText "/sub/_a.scss".toList =
        shelf.readText "/sub/_a.scss".toList := by
  have returned : (shelf.survey { exclude := ["/kept/".toList] }).result = .ok shelfSurvey := by
    decide +kernel
  obtain ⟨source, reads, -, kept⟩ := (deletion_keeps_reachable shelf _ shelfSurvey returned).2
    "/sub/_a.scss".toList (by decide +kernel)
  have still := kept (by decide +kernel) (by decide +kernel) (by decide +kernel)
  exact ⟨returned, still.trans reads.symm⟩

/-- A stylesheet that is imported through a link to its directory. -/
def linked : Workspace where
  tree.entries :=
    [(["main.scss".toList], .file (.octets "@import 'link/a';".toUTF8.toList)),
     (["sub".toList], .directory),
     (["_a.scss".toList, "sub".toList], .file (.octets "a{}".toUTF8.toList)),
     (["link".toList], .link "sub".toList)]
  tree.distinct := by decide +kernel
  tree.named := by decide +kernel

def linkedSurvey : Survey where
  root := "/".toList
  dialect := .scss
  entryPoints := ["/main.scss".toList]
  reachable := ["/main.scss".toList, "/link/_a.scss".toList]
  unused := ["/sub/_a.scss".toList]

/-- Through a link a file has a second path, and only one of the two is reachable. -/
theorem linked_deletion_loses :
    (linked.survey {}).result = .ok linkedSurvey ∧
      (linked.deleteFiles linkedSurvey.unused).error = none ∧
      "/link/_a.scss".toList ∈ linkedSurvey.reachable ∧
      linked.readText "/link/_a.scss".toList = .ok "a{}".toList ∧
      (linked.deleteFiles linkedSurvey.unused).workspace.readText "/link/_a.scss".toList =
        .error (.fault .missing "/link/_a.scss".toList) := by
  decide +kernel

end Workspace

end SheetReach
