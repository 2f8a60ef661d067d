import Mathlib.Data.List.DropRight
import SheetReach.Proofs.Deletion

/-! A survey asked for by absolute paths does not depend on the working directory. Each path that it looks
up or normalises then starts at the root: the directory it looks over and what lies below, the entry points
and, by induction along the run, every importer and so every candidate of an import. -/
namespace SheetReach

namespace Path

theorem isAbsolute_of_prefix {start path : Path} (begins : start <+: path) (filled : start ≠ [])
    (absolute : isAbsolute path = true) : isAbsolute start = true := by
  obtain ⟨rest, rfl⟩ := begins
  rwa [isAbsolute_append_eq filled] at absolute

theorem Normal.isAbsolute {path : Path} (normal : Normal path) : isAbsolute path = true := by
  obtain ⟨mark, names, marked, -, rfl⟩ := normal
  exact isAbsolute_spell mark names marked

/-- From an absolute path, every path leads to an absolute one, whether it is absolute itself or not. -/
theorem isAbsolute_join {base : Path} (absolute : isAbsolute base = true) (rest : Path) :
    isAbsolute (join base rest) = true := by
  have filled : base ≠ [] := fun empty => by simp [empty, isAbsolute] at absolute
  cases rooted : isAbsolute rest with
  | true => rwa [join_absolute rooted]
  | false => rwa [join_relative rooted, isAbsolute_joint_append filled]

theorem isAbsolute_tidy {path : Path} (absolute : isAbsolute path = true) :
    isAbsolute (tidy path) = true := by
  have begins : isAbsolute (rootMark path ++ Text.joinWith ['/'] ((names path).filter (· ≠ here))) = true :=
    isAbsolute_spell _ _ (rootMark_isMark path)
  simp only [tidy, absolute, ↓reduceIte]
  split
  next empty =>
    rw [List.isEmpty_iff.mp empty] at begins
    cases begins
  next => exact begins

theorem isAbsolute_directory {path : Path} (absolute : isAbsolute path = true) :
    isAbsolute (directory path) = true := by
  have slash : '/' ∈ path := by
    cases path with
    | nil => cases absolute
    | cons first others =>
      have same : first = '/' := by simpa [isAbsolute] using absolute
      exact same ▸ List.mem_cons_self
  have headFilled : path.rdropWhile (· ≠ '/') ≠ [] := by
    intro empty
    simpa using List.rdropWhile_eq_nil_iff.mp empty '/' slash
  have head := isAbsolute_of_prefix (List.rdropWhile_prefix _ path) headFilled absolute
  simp only [directory]
  split
  next => exact head
  next bare =>
    rw [List.isEmpty_iff] at bare
    exact isAbsolute_of_prefix (List.rdropWhile_prefix (· = '/') _) bare head

theorem isAbsolute_under {root : Path} (absolute : isAbsolute root = true) (way : List Name) :
    isAbsolute (under root way) = true := by
  induction way generalizing root with
  | nil => exact absolute
  | cons name rest ih => exact ih (isAbsolute_join absolute name)

theorem normalize_of_absolute {path : Path} (absolute : isAbsolute path = true) (cwd other : Path) :
    normalize other path = normalize cwd path := by
  simp only [normalize, absolute, ↓reduceIte]

end Path

theorem FileTree.locate_of_absolute (tree : FileTree) (cwd other : Location) (follow : Bool) {path : Path}
    (absolute : Path.isAbsolute path = true) :
    tree.locate other follow path = tree.locate cwd follow path := by
  simp only [locate, origin, absolute, ↓reduceIte]

theorem Import.candidates_of_absolute (cwd other : Path) (dialect : Dialect) (enabled : List Dialect)
    {importerDirectory : Path} (absolute : Path.isAbsolute importerDirectory = true)
    (specifier : List Char) :
    candidates other dialect enabled importerDirectory specifier =
      candidates cwd dialect enabled importerDirectory specifier := by
  have normal {directory : Path} (rooted : Path.isAbsolute directory = true) (name : Name) :
      Path.normalize other (Path.join directory name) = Path.normalize cwd (Path.join directory name) :=
    Path.normalize_of_absolute (Path.isAbsolute_join rooted name) cwd other
  simp only [candidates]
  split
  next => rfl
  next =>
    cases splitLast ((Text.trim specifier).map fun c => if c = '\\' then '/' else c) with
    | mk folder file =>
      cases folder with
      | none => simp only [normal absolute]
      | some folder => simp only [normal (Path.isAbsolute_join absolute folder)]

namespace ImportGraph

section Moved

variable {snapshot other : Snapshot}
  (agree : ∀ path, Path.isAbsolute path = true → other path = snapshot path) (config : Config) (cwd : Path)

theorem Config.candidates_of_absolute {importer : Path} (absolute : Path.isAbsolute importer = true)
    (specifier : List Char) :
    Config.candidates { config with cwd } importer specifier = config.candidates importer specifier :=
  Import.candidates_of_absolute config.cwd cwd _ _ (Path.isAbsolute_directory absolute) specifier

namespace State

/-- Only absolute paths are ever asked for, whatever the entry points look like. -/
theorem absolute_stable (snapshot : Snapshot) (config : Config) (entryPoints : List Path) :
    Stable snapshot config entryPoints
      (fun state => ∀ path ∈ state.reachable, Path.isAbsolute path = true) where
  entered := by
    intro state path _ kept asked there
    obtain ⟨same, -⟩ | ⟨source, -, grown, -⟩ := enter_files snapshot path state there
    · rw [same]
      exact kept
    · rw [grown]
      intro file member
      rcases List.mem_cons.mp member with rfl | old
      · exact asked.normal.isAbsolute
      · exact kept file old
  recorded := fun _ _ _ kept => kept

include agree

theorem enter_moved (state : State) {path : Path} (absolute : Path.isAbsolute path = true) :
    state.enter other path = state.enter snapshot path := by
  unfold State.enter
  rw [agree path absolute]

theorem enterFirst_moved (state : State) (paths : List Path)
    (absolute : ∀ path ∈ paths, Path.isAbsolute path = true) :
    state.enterFirst other paths = state.enterFirst snapshot paths := by
  induction paths generalizing state with
  | nil => rfl
  | cons path others ih =>
    unfold enterFirst
    rw [enter_moved agree state (absolute path List.mem_cons_self)]
    split
    next => rfl
    next next _ => exact ih next fun file member => absolute file (List.mem_cons_of_mem path member)

theorem follow_moved (state : State) {importer : Path} (absolute : Path.isAbsolute importer = true)
    (specifier : List Char) :
    state.follow other { config with cwd } importer specifier =
      state.follow snapshot config importer specifier := by
  unfold State.follow
  rw [config.candidates_of_absolute cwd absolute specifier]
  cases tried : config.candidates importer specifier with
  | nil => rfl
  | cons first others =>
    have same := enterFirst_moved agree state (first :: others) fun path member =>
      (Import.candidates_normal _ _ _ _ _ path (tried ▸ member)).isAbsolute
    simp only [same]

theorem follow_all_moved (state : State) {importer : Path} (absolute : Path.isAbsolute importer = true)
    (specifiers : List (List Char)) :
    specifiers.foldl (State.follow other { config with cwd } importer) state =
      specifiers.foldl (State.follow snapshot config importer) state := by
  induction specifiers generalizing state with
  | nil => rfl
  | cons specifier rest ih =>
    rw [List.foldl_cons, List.foldl_cons, follow_moved agree config cwd state absolute specifier]
    exact ih _

theorem start_all_moved (state : State) (entryPoints : List Path)
    (absolute : ∀ given ∈ entryPoints, Path.isAbsolute given = true) :
    entryPoints.foldl (State.start other { config with cwd }) state =
      entryPoints.foldl (State.start snapshot config) state := by
  induction entryPoints generalizing state with
  | nil => rfl
  | cons given rest ih =>
    have normal := Path.normalize_of_absolute (absolute given List.mem_cons_self) config.cwd cwd
    have first : state.start other { config with cwd } given = state.start snapshot config given := by
      unfold State.start
      simp only [normal, enter_moved agree _ (Path.normalize_normal config.cwd given).isAbsolute]
    rw [List.foldl_cons, List.foldl_cons, first]
    exact ih _ fun path member => absolute path (List.mem_cons_of_mem given member)

theorem step_moved {state : State} (faithful : Faithful snapshot state)
    (absolute : ∀ path ∈ state.reachable, Path.isAbsolute path = true) :
    state.step other { config with cwd } = state.step snapshot config := by
  unfold State.step
  split
  next => rfl
  next path source rest top =>
    obtain ⟨reached, -⟩ := faithful.waiting (path, source) (top ▸ List.mem_cons_self)
    exact follow_all_moved agree config cwd _ (absolute path reached) _

theorem run_moved {state : State} (faithful : Faithful snapshot state)
    (absolute : ∀ path ∈ state.reachable, Path.isAbsolute path = true) (count : Nat) :
    state.run other { config with cwd } count = state.run snapshot config count := by
  induction count generalizing state with
  | zero => rfl
  | succ count ih =>
    unfold State.run
    split
    next => rfl
    next =>
      rw [step_moved agree config cwd faithful absolute]
      obtain ⟨nextFaithful, nextAbsolute⟩ :=
        (absolute_stable snapshot config []).step (fun _ _ _ _ kept => kept) faithful absolute
      exact ih nextFaithful nextAbsolute

end State

include agree in
theorem trace_moved (steps : Nat) {entryPoints : List Path}
    (absolute : ∀ given ∈ entryPoints, Path.isAbsolute given = true) :
    trace other { config with cwd } steps entryPoints = trace snapshot config steps entryPoints := by
  have started := (State.absolute_stable snapshot config entryPoints).start_all (.initial snapshot)
    (fun _ none => by cases none) entryPoints (List.Subset.refl _)
  unfold trace
  rw [State.start_all_moved agree config cwd {} entryPoints absolute]
  exact State.run_moved agree config cwd started.1 started.2 steps

end Moved

end ImportGraph

theorem Traced.bind_congr {ε α β : Type} {first : Traced ε α} {next other : α → Traced ε β}
    (same : ∀ value, first.result = .ok value → next value = other value) :
    (first >>= next) = (first >>= other) := by
  simp only [Bind.bind, bind]
  cases result : first.result with
  | error error => rfl
  | ok value => simp only [same value result]

namespace Workspace

theorem normalize_of_absolute (workspace other : Workspace) {path : Path}
    (absolute : Path.isAbsolute path = true) : other.normalize path = workspace.normalize path :=
  Path.normalize_of_absolute absolute _ _

theorem listBelow_absolute {workspace : Workspace} {levels : Nat} {directory path : Path}
    (absolute : Path.isAbsolute directory = true)
    (listed : .file path ∈ workspace.listBelow levels directory) : Path.isAbsolute path = true := by
  obtain ⟨way, -, -, rfl⟩ := (file_mem_listBelow _ _ _ _).mp listed
  exact Path.isAbsolute_under absolute way

def Moved (workspace other : Workspace) : Prop :=
  other.tree = workspace.tree

namespace Moved

variable {workspace other : Workspace} (moved : workspace.Moved other)

include moved

theorem locate_eq (follow : Bool) {path : Path} (absolute : Path.isAbsolute path = true) :
    other.locate follow path = workspace.locate follow path := by
  unfold locate
  rw [moved, workspace.tree.locate_of_absolute workspace.cwd other.cwd follow absolute]

theorem entryAt_eq {path : Path} (absolute : Path.isAbsolute path = true) :
    other.entryAt path = workspace.entryAt path := by
  simp only [entryAt, moved.locate_eq true absolute]

theorem snapshot_eq (path : Path) (absolute : Path.isAbsolute path = true) :
    ImportGraph.snapshot other path = ImportGraph.snapshot workspace path := by
  simp only [ImportGraph.snapshot, readText, moved.entryAt_eq absolute]

theorem checkRoot_eq {root : Path} (absolute : Path.isAbsolute root = true) :
    other.checkRoot root = workspace.checkRoot root := by
  simp only [checkRoot, isDirectory, probe, moved.entryAt_eq (Path.isAbsolute_tidy absolute),
    workspace.normalize_of_absolute other absolute]

section Directory

variable {directory : Path} (absolute : Path.isAbsolute directory = true)

include absolute

theorem list_eq : other.list directory = workspace.list directory := by
  unfold list
  rw [moved.locate_eq true absolute, moved]

theorem settle_eq (name : Name) (entry : Entry) :
    other.settle directory name entry = workspace.settle directory name entry := by
  simp only [settle, moved.entryAt_eq (Path.isAbsolute_join absolute name)]

theorem topFiles_eq : other.topFiles directory = workspace.topFiles directory := by
  simp only [topFiles, isFile, moved.list_eq absolute, moved.settle_eq absolute]

theorem entryPoints_eq (dialect : Dialect) :
    other.entryPoints directory dialect = workspace.entryPoints directory dialect := by
  simp only [entryPoints, moved.topFiles_eq absolute,
    workspace.normalize_of_absolute other (Path.isAbsolute_join absolute _)]

theorem chooseDialect_eq (request : Request) :
    other.chooseDialect directory request = workspace.chooseDialect directory request := by
  simp only [chooseDialect, detectDialect, moved.topFiles_eq absolute]

end Directory

theorem listBelow_eq (levels : Nat) {directory : Path} (absolute : Path.isAbsolute directory = true) :
    other.listBelow levels directory = workspace.listBelow levels directory := by
  induction levels generalizing directory with
  | zero => rfl
  | succ levels ih =>
    simp only [listBelow, fileNames, leadsToDirectory, moved.list_eq absolute, moved.settle_eq absolute,
      ih (Path.isAbsolute_join absolute _)]

theorem unusedFiles_eq {root : Path} (absolute : Path.isAbsolute root = true) (reachable : List Path)
    (exclusions : List Exclusion) (extensions : List (List Char)) :
    other.unusedFiles root reachable exclusions extensions =
      workspace.unusedFiles root reachable exclusions extensions := by
  have listed : other.listAll root = workspace.listAll root := by
    simp only [listAll, moved.listBelow_eq _ absolute, show other.tree = workspace.tree from moved]
  unfold unusedFiles
  rw [listed]
  apply Traced.bind_congr
  intro items lists
  have considered : items.map (other.considerUnused reachable exclusions extensions) =
      items.map (workspace.considerUnused reachable exclusions extensions) := by
    apply List.map_congr_left
    intro item member
    cases item with
    | unlistable path reason => rfl
    | file path =>
      simp only [Traced.result_ofExcept, listAll] at lists
      split at lists
      next => cases lists
      next =>
        cases lists
        simp only [considerUnused,
          workspace.normalize_of_absolute other (listBelow_absolute absolute member)]
  rw [considered]

theorem importGraph_eq (config : ImportGraph.Config) (cwd : Path) {entries : List Path}
    (absolute : ∀ entry ∈ entries, Path.isAbsolute entry = true) :
    other.importGraph { config with cwd } entries = workspace.importGraph config entries := by
  unfold importGraph ImportGraph.traceIn
  rw [ImportGraph.trace_moved moved.snapshot_eq config cwd _ absolute]

end Moved

/-- What a survey does once its directory, dialect and entry points are known, events included. -/
def lookTraced (workspace : Workspace) (request : Request) (exclusions : List Exclusion) (root : Path)
    (dialect : Dialect) (entries : List Path) : Traced Failure Survey :=
  if entries.isEmpty then do
    .emit [.noEntryPoints root]
    return { root, dialect }
  else do
    let graph ← reaching (workspace.importGraph (workspace.graphConfig request dialect) entries)
    .emit [.found graph.reachable.length]
    let unused ← reaching (workspace.unusedFiles root graph.reachable exclusions
      ((request.enabled dialect).map Dialect.extension))
    return { root, dialect, entryPoints := entries, reachable := graph.reachable, unused,
             dangling := graph.dangling, failures := graph.failures }

theorem survey_traced (workspace : Workspace) (request : Request) :
    workspace.survey request = (do
      let root ← .ofExcept (workspace.checkRoot request.root)
      let exclusions ← .ofExcept ((Exclusion.parseAll request.exclude).mapError .exclusion)
      let dialect ← .ofExcept (workspace.chooseDialect root request)
      .emit [.usingDialect dialect root]
      let entries ← .ofExcept ((workspace.startingPoints root dialect request).mapError .access)
      workspace.lookTraced request exclusions root dialect entries) := by
  unfold survey startingPoints
  cases request.entryPoints <;> rfl

theorem Moved.lookTraced_eq {workspace other : Workspace} (moved : workspace.Moved other) (request : Request)
    (exclusions : List Exclusion) {root : Path} (absolute : Path.isAbsolute root = true) (dialect : Dialect)
    {entries : List Path} (entered : ∀ entry ∈ entries, Path.isAbsolute entry = true) :
    other.lookTraced request exclusions root dialect entries =
      workspace.lookTraced request exclusions root dialect entries := by
  have graph : other.importGraph (other.graphConfig request dialect) entries =
      workspace.importGraph (workspace.graphConfig request dialect) entries :=
    moved.importGraph_eq (workspace.graphConfig request dialect) _ entered
  simp only [lookTraced, graph, moved.unusedFiles_eq absolute]

theorem Moved.startingPoints_eq {workspace other : Workspace} (moved : workspace.Moved other) {root : Path}
    (absolute : Path.isAbsolute root = true) (dialect : Dialect) {request : Request}
    (given : ∀ path ∈ request.entryPoints.getD [], Path.isAbsolute path = true) :
    other.startingPoints root dialect request = workspace.startingPoints root dialect request := by
  unfold startingPoints
  cases named : request.entryPoints with
  | none => exact moved.entryPoints_eq absolute dialect
  | some paths =>
    rw [named] at given
    have normal := List.map_congr_left fun path member =>
      workspace.normalize_of_absolute other (given path member)
    exact congrArg Except.ok normal

theorem startingPoints_absolute {workspace : Workspace} {root : Path} {dialect : Dialect}
    {request : Request} {entries : List Path}
    (started : workspace.startingPoints root dialect request = .ok entries) :
    ∀ entry ∈ entries, Path.isAbsolute entry = true := by
  intro entry member
  unfold startingPoints at started
  split at started
  next =>
    obtain ⟨names, -, rfl⟩ := (Except.map_eq_ok_iff _ _ _).mp started
    obtain ⟨name, -, rfl⟩ := List.mem_map.mp ((Text.mem_sort _ _).mp member)
    exact (Path.normalize_normal _ _).isAbsolute
  next =>
    cases started
    obtain ⟨path, -, rfl⟩ := List.mem_map.mp member
    exact (Path.normalize_normal _ _).isAbsolute

/-- Asked for by absolute paths, a survey has the same result, or fails in the same way, and reports the
same events, wherever it is asked for. -/
theorem survey_of_moved (tree : FileTree) (cwd other : Location) (request : Request)
    (rooted : Path.isAbsolute request.root = true)
    (given : ∀ path ∈ request.entryPoints.getD [], Path.isAbsolute path = true) :
    ({ tree, cwd := other } : Workspace).survey request = ({ tree, cwd } : Workspace).survey request := by
  have moved : Moved { tree, cwd } { tree, cwd := other } := rfl
  rw [survey_traced, survey_traced, moved.checkRoot_eq rooted]
  apply Traced.bind_congr
  intro root checked
  have absolute : Path.isAbsolute root = true := by
    rw [((checkRoot_eq_ok_iff _ _ _).mp checked).1]
    exact (Path.normalize_normal _ _).isAbsolute
  rw [moved.chooseDialect_eq absolute]
  apply Traced.bind_congr
  intro exclusions _
  apply Traced.bind_congr
  intro dialect _
  rw [moved.startingPoints_eq absolute dialect given]
  apply Traced.bind_congr
  intro _ _
  apply Traced.bind_congr
  intro entries started
  exact moved.lookTraced_eq request exclusions absolute dialect
    (startingPoints_absolute ((Except.mapError_eq_ok_iff _ _ _).mp started))

/-- Two directories with a stylesheet of one name. -/
def twoSites : FileTree where
  entries :=
    [(["site".toList], .directory),
     (["main.scss".toList, "site".toList],
       .file (.octets "@import 'lib/a', '../up', '/etc/x';".toUTF8.toList)),
     (["lib".toList, "site".toList], .directory),
     (["_a.scss".toList, "lib".toList, "site".toList], .file (.octets [])),
     (["_old.scss".toList, "lib".toList, "site".toList], .file (.octets [])),
     (["blog".toList], .directory),
     (["main.scss".toList, "blog".toList], .file (.octets []))]
  distinct := by decide +kernel
  named := by decide +kernel

def siteSurvey : Survey where
  root := "/site".toList
  dialect := .scss
  entryPoints := ["/site/main.scss".toList]
  reachable := ["/site/main.scss".toList, "/site/lib/_a.scss".toList]
  unused := ["/site/lib/_old.scss".toList]
  dangling :=
    [⟨some "/site/main.scss".toList, "../up".toList, ["/up.scss".toList, "/_up.scss".toList]⟩,
     ⟨some "/site/main.scss".toList, "/etc/x".toList, ["/etc/x.scss".toList, "/etc/_x.scss".toList]⟩]

/-- The directory itself, named by no absolute path, is another one from elsewhere. -/
theorem twoSites_survey_of_moved :
    let request : Request :=
      { root := "/site".toList, entryPoints := some ["/blog/../site/main.scss".toList] }
    let blog : Workspace := { tree := twoSites, cwd := ["blog".toList] }
    let site : Workspace := { tree := twoSites, cwd := ["site".toList] }
    Path.isAbsolute request.root = true ∧ site.survey request = blog.survey request ∧
      (site.survey request).result = .ok siteSurvey ∧
      (site.survey {}).result ≠ (blog.survey {}).result := by
  intro request blog site
  have same : site.survey request = blog.survey request :=
    survey_of_moved twoSites ["blog".toList] ["site".toList] request (by decide +kernel)
      (by decide +kernel)
  exact ⟨by decide +kernel, same, by decide +kernel, by decide +kernel⟩

end Workspace

end SheetReach
