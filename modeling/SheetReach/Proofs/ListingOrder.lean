import SheetReach.Proofs.TopFiles

/-! The order in which a directory lists its entries does not matter. A survey lists directories three
times over: its root for the dialect, its root for the entry points, and everything below it. The first
listing is counted, the other two are sorted, and looking up a path lists nothing. -/
namespace SheetReach

namespace Dialect

theorem ofNames_perm {files others : List (List Char)} (moved : others.Perm files) :
    ofNames others = ofNames files := by
  have counts (dialect : Dialect) : (others.filter (Text.holds dialect.extension)).length =
      (files.filter (Text.holds dialect.extension)).length := (moved.filter _).length_eq
  simp only [ofNames, counts]

end Dialect

namespace FileTree

/-- The second tree has the entries of the first one, and lists those of each directory in some order. -/
def Relisted (tree other : FileTree) : Prop :=
  ∀ location, (other.children location).Perm (tree.children location)

theorem relisted_of_perm {tree other : FileTree} (moved : other.entries.Perm tree.entries) :
    Relisted tree other :=
  fun _ => moved.filterMap _

theorem Relisted.symm {tree other : FileTree} (relisted : Relisted tree other) : Relisted other tree :=
  fun location => (relisted location).symm

theorem Relisted.find?_eq {tree other : FileTree} (relisted : Relisted tree other) (location : Location) :
    other.find? location = tree.find? location := by
  cases location with
  | nil => rfl
  | cons name parent =>
    apply Option.ext
    intro entry
    rw [← mem_children_iff, ← mem_children_iff]
    exact (relisted parent).mem_iff

theorem Relisted.locate_eq {tree other : FileTree} (relisted : Relisted tree other) (cwd : Location)
    (follow : Bool) (path : Path) : other.locate cwd follow path = tree.locate cwd follow path := by
  have thinned : Thinned tree other := fun location => Or.inl (relisted.find?_eq location)
  rcases locate_thinned thinned cwd follow path with ⟨same, -⟩ | ⟨-, location, -, changed⟩
  · exact same
  · exact absurd (relisted.find?_eq location) changed

theorem Relisted.depth_le {tree other : FileTree} (relisted : Relisted tree other) :
    other.depth ≤ tree.depth := by
  rw [depth_le_iff]
  rintro ⟨location, entry⟩ member
  cases location with
  | nil => exact Nat.zero_le _
  | cons name parent =>
    rw [← find?_cons_eq_some_iff, relisted.find?_eq, find?_cons_eq_some_iff] at member
    exact tree.length_le_depth _ entry member

theorem Relisted.depth_eq {tree other : FileTree} (relisted : Relisted tree other) :
    other.depth = tree.depth :=
  Nat.le_antisymm relisted.depth_le relisted.symm.depth_le

end FileTree

namespace Workspace

/-- The second workspace differs from the first one in the order of its listings alone. -/
structure Relisted (workspace other : Workspace) : Prop where
  cwd : other.cwd = workspace.cwd
  tree : workspace.tree.Relisted other.tree

theorem Relisted.symm {workspace other : Workspace} (relisted : workspace.Relisted other) :
    other.Relisted workspace :=
  ⟨relisted.cwd.symm, relisted.tree.symm⟩

namespace Relisted

variable {workspace other : Workspace} (relisted : workspace.Relisted other)

include relisted

theorem normalize_eq : other.normalize = workspace.normalize := by
  funext path
  simp only [normalize, relisted.cwd]

theorem locate_eq (follow : Bool) (path : Path) : other.locate follow path = workspace.locate follow path := by
  simp only [locate, relisted.cwd, relisted.tree.locate_eq]

theorem entryAt_eq (path : Path) : other.entryAt path = workspace.entryAt path := by
  simp only [entryAt, relisted.locate_eq]

theorem settle_eq (directory : Path) (name : Name) (entry : Entry) :
    other.settle directory name entry = workspace.settle directory name entry := by
  simp only [settle, relisted.entryAt_eq]

theorem snapshot_eq : ImportGraph.snapshot other = ImportGraph.snapshot workspace := by
  funext path
  simp only [ImportGraph.snapshot, readText, relisted.entryAt_eq]

theorem importGraph_eq (config : ImportGraph.Config) (entryPoints : List Path) :
    other.importGraph config entryPoints = workspace.importGraph config entryPoints := by
  unfold importGraph ImportGraph.traceIn
  rw [relisted.snapshot_eq]

theorem checkRoot_eq (root : Path) : other.checkRoot root = workspace.checkRoot root := by
  simp only [checkRoot, isDirectory, probe, relisted.entryAt_eq, relisted.normalize_eq]

/-- Listing a directory fails for the same reason or gives the same entries. -/
theorem list_cases (directory : Path) :
    (∃ reason, workspace.list directory = .error reason ∧ other.list directory = .error reason) ∨
      ∃ children others, workspace.list directory = .ok children ∧ other.list directory = .ok others ∧
        others.Perm children := by
  unfold list
  rw [relisted.locate_eq]
  split
  next => exact Or.inl ⟨_, rfl, rfl⟩
  next => exact Or.inr ⟨_, _, rfl, rfl, relisted.tree _⟩
  next => exact Or.inl ⟨_, rfl, rfl⟩

theorem fileNames_perm (directory : Path) {children others : List (Name × Entry)}
    (moved : others.Perm children) :
    (other.fileNames directory others).Perm (workspace.fileNames directory children) := by
  simp only [fileNames, leadsToDirectory, relisted.settle_eq]
  exact (moved.filter _).map _

theorem listBelow_eq (levels : Nat) (directory : Path) :
    other.listBelow levels directory = workspace.listBelow levels directory := by
  induction levels generalizing directory with
  | zero => rfl
  | succ levels ih =>
    rcases relisted.list_cases directory with
      ⟨reason, fails, otherFails⟩ | ⟨children, others, lists, otherLists, moved⟩
    · simp only [listBelow, fails, otherFails]
    · have files := Text.sort_eq_of_perm (relisted.fileNames_perm directory moved)
      have directories : Text.sort (directoryNames others) = Text.sort (directoryNames children) :=
        Text.sort_eq_of_perm ((moved.filter _).map _)
      simp only [listBelow, lists, otherLists, files, directories, ih]

theorem unusedFiles_eq (root : Path) (reachable : List Path) (exclusions : List Exclusion)
    (extensions : List (List Char)) :
    other.unusedFiles root reachable exclusions extensions =
      workspace.unusedFiles root reachable exclusions extensions := by
  have considers : other.considerUnused reachable exclusions extensions =
      workspace.considerUnused reachable exclusions extensions := by
    funext item
    cases item with
    | file given => simp only [considerUnused, relisted.normalize_eq]
    | unlistable path reason => rfl
  simp only [unusedFiles, listAll, relisted.listBelow_eq, relisted.tree.depth_eq, considers]

/-- Asking of each entry whether it is a file fails in every order or in none. -/
theorem topFiles_perm {directory : Path} {names : List Name}
    (told : workspace.topFiles directory = .ok names) :
    ∃ others, other.topFiles directory = .ok others ∧ others.Perm names := by
  obtain ⟨children, listed, rest⟩ := (Except.bind_eq_ok_iff _ _ _).mp told
  obtain ⟨kept, filtered, same⟩ := (Except.bind_eq_ok_iff _ _ _).mp rest
  obtain ⟨total, rfl⟩ := (filterM_eq_ok_iff _ _ _).mp filtered
  cases Except.ok.inj same
  rcases relisted.list_cases directory with
    ⟨reason, fails, -⟩ | ⟨again, others, lists, otherLists, moved⟩
  · rw [listed] at fails
    cases fails
  · rw [listed] at lists
    cases lists
    -- No test failed on the first listing, so the second one, which has the same members, fails none.
    have otherFiltered := (filterM_eq_ok_iff others _ _).mpr
      ⟨fun child member => total child (moved.mem_iff.mp member), rfl⟩
    refine ⟨_, ?_, (moved.filter _).map _⟩
    simp only [topFiles, otherLists, Except.ok_bind, isFile, relisted.settle_eq]
    simp only [isFile] at otherFiltered
    rw [otherFiltered]
    rfl

theorem detectDialect_eq {directory : Path} {dialect : Dialect}
    (detected : workspace.detectDialect directory = .ok dialect) :
    other.detectDialect directory = .ok dialect := by
  obtain ⟨names, told, rfl⟩ := (Except.map_eq_ok_iff _ _ _).mp detected
  obtain ⟨others, otherTold, moved⟩ := relisted.topFiles_perm told
  rw [detectDialect, otherTold, Except.map_ok, Dialect.ofNames_perm moved]

theorem entryPoints_eq {root : Path} {dialect : Dialect} {entries : List Path}
    (discovered : workspace.entryPoints root dialect = .ok entries) :
    other.entryPoints root dialect = .ok entries := by
  obtain ⟨names, told, rfl⟩ := (Except.map_eq_ok_iff _ _ _).mp discovered
  obtain ⟨others, otherTold, moved⟩ := relisted.topFiles_perm told
  rw [entryPoints, otherTold, Except.map_ok, relisted.normalize_eq,
    Text.sort_eq_of_perm ((moved.filter _).map _)]

theorem startingPoints_eq {root : Path} {dialect : Dialect} {request : Request} {entries : List Path}
    (started : workspace.startingPoints root dialect request = .ok entries) :
    other.startingPoints root dialect request = .ok entries := by
  unfold startingPoints at started ⊢
  split at started
  next => exact relisted.entryPoints_eq started
  next given => rw [relisted.normalize_eq]; exact started

theorem graphConfig_eq (request : Request) (dialect : Dialect) :
    other.graphConfig request dialect = workspace.graphConfig request dialect := by
  simp only [graphConfig, relisted.cwd]

theorem survey_eq {request : Request} {survey : Survey}
    (surveyed : (workspace.survey request).result = .ok survey) :
    (other.survey request).result = .ok survey := by
  rw [survey_eq_ok_iff] at surveyed ⊢
  obtain ⟨exclusions, rooted, parsed, chosen, started, looked⟩ := surveyed
  rw [relisted.checkRoot_eq, relisted.graphConfig_eq, relisted.importGraph_eq]
  simp only [relisted.unusedFiles_eq]
  exact ⟨exclusions, rooted, parsed, chooseDialect_of_detected relisted.detectDialect_eq chosen,
    relisted.startingPoints_eq started, looked⟩

end Relisted

/-- Two orders of listing give one survey, or both give none. -/
theorem survey_of_relisted (workspace other : Workspace) (request : Request)
    (relisted : workspace.Relisted other) (survey : Survey) :
    (other.survey request).result = .ok survey ↔ (workspace.survey request).result = .ok survey :=
  ⟨relisted.symm.survey_eq, relisted.survey_eq⟩

/-- As many files of one dialect as of the other, one of them a link, and an import of a directory. -/
def jumbled : Workspace where
  tree.entries :=
    [(["second.scss".toList], .file (.octets "@import 'main';".toUTF8.toList)),
     (["torn.scss".toList], .directory),
     (["sub".toList], .directory),
     (["plain.sass".toList], .file (.octets [])),
     (["_old.scss".toList, "sub".toList], .file (.octets [])),
     (["main.scss".toList], .file (.octets "@import 'sub/a', 'gone', 'torn';".toUTF8.toList)),
     (["_a.scss".toList, "sub".toList], .file (.octets [])),
     (["alias.sass".toList], .link "main.scss".toList),
     (["again".toList], .link "sub".toList)]
  tree.distinct := by decide +kernel
  tree.named := by decide +kernel

def jumbledBack : Workspace where
  tree.entries := jumbled.tree.entries.reverse
  tree.distinct := by decide +kernel
  tree.named := by decide +kernel

def jumbledSurvey : Survey where
  root := "/".toList
  dialect := .scss
  entryPoints := ["/main.scss".toList, "/second.scss".toList]
  reachable := ["/main.scss".toList, "/second.scss".toList, "/sub/_a.scss".toList]
  unused := ["/alias.sass".toList, "/plain.sass".toList, "/sub/_old.scss".toList]
  dangling := [⟨some "/main.scss".toList, "gone".toList, ["/gone.scss".toList, "/_gone.scss".toList]⟩]
  failures := [⟨"/torn.scss".toList, "[Errno 21] Is a directory: '/torn.scss'"⟩]

theorem jumbled_survey_of_relisted :
    jumbled.Relisted jumbledBack ∧
      jumbledBack.topFiles "/".toList ≠ jumbled.topFiles "/".toList ∧
      (jumbled.survey { allDialects := true }).result = .ok jumbledSurvey ∧
      (jumbledBack.survey { allDialects := true }).result = .ok jumbledSurvey := by
  have relisted : jumbled.Relisted jumbledBack :=
    ⟨rfl, FileTree.relisted_of_perm (List.reverse_perm jumbled.tree.entries)⟩
  have surveyed : (jumbled.survey { allDialects := true }).result = .ok jumbledSurvey := by
    decide +kernel
  exact ⟨relisted, by decide +kernel, surveyed,
    (survey_of_relisted jumbled jumbledBack _ relisted jumbledSurvey).mpr surveyed⟩

end Workspace

end SheetReach
