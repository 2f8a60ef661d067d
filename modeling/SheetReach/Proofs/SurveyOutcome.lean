import SheetReach.Proofs.ReadFailures
import SheetReach.Proofs.RunLength
import SheetReach.Proofs.TopFiles

/-! How a survey ends: with a result, with a refusal of what was asked for, or at an obstacle that is
neither. The obstacles are listed one by one, and a survey meets one of them exactly when it ends in an
access error. All else that is missing or cannot be read is told in its records. -/
namespace SheetReach

namespace ImportGraph

/-- The files to be got at from the entry points by way of imports. -/
inductive Reached (snapshot : Snapshot) (config : Config) (entryPoints : List Path) : Path → Prop where
  | entry (given : Path) (source : List Char) (member : given ∈ entryPoints)
      (text : snapshot (Path.normalize config.cwd given) = .text source) :
      Reached snapshot config entryPoints (Path.normalize config.cwd given)
  | imported (importer path : Path) (source specifier other : List Char)
      (reached : Reached snapshot config entryPoints importer) (text : snapshot importer = .text source)
      (member : specifier ∈ config.specifiers importer source)
      (found : present? snapshot (config.candidates importer specifier) = some path)
      (reads : snapshot path = .text other) : Reached snapshot config entryPoints path

section Reached

variable {snapshot : Snapshot} {config : Config} {entryPoints : List Path}

theorem Asked.reached {path : Path} {source : List Char}
    (asked : Asked snapshot config entryPoints (Reached snapshot config entryPoints) path)
    (text : snapshot path = .text source) : Reached snapshot config entryPoints path := by
  cases asked with
  | entry given member => exact .entry given source member text
  | imported importer other specifier path known reads member found =>
    exact .imported importer path other specifier source known reads member found text

theorem Reached.mem_of_closed {files : Set Path} (closed : Closed snapshot config entryPoints files)
    {path : Path} (reached : Reached snapshot config entryPoints path) : path ∈ files := by
  induction reached with
  | entry given source member text => exact closed.entry given member source text
  | imported importer path source specifier other _ text member found reads ih =>
    exact closed.imports importer ih source text specifier member path found other reads

theorem not_reached_nil {path : Path} : ¬ Reached snapshot config [] path := by
  intro reached
  induction reached with
  | entry given source member => cases member
  | imported _ _ _ _ _ _ _ _ _ _ ih => exact ih

/-- A run reaches only what can be got at, and only a path that is no path stops it. -/
theorem State.reached_stable (snapshot : Snapshot) (config : Config) (entryPoints : List Path) :
    Stable snapshot config entryPoints (fun state =>
      (∀ path ∈ state.reachable, Reached snapshot config entryPoints path) ∧
        (state.stopped = true → ∃ path,
          Asked snapshot config entryPoints (Reached snapshot config entryPoints) path ∧
            snapshot path = .unusable)) where
  entered := by
    intro state path _ kept asked there
    obtain ⟨inside, halted⟩ := kept
    have wanted := asked.mono inside
    obtain ⟨-, ⟨-, same⟩ | ⟨unusable, same⟩ | ⟨reason, -, -, same⟩ | ⟨source, -, text, same⟩⟩ :=
      enter_cases snapshot path state there
    · rw [same]
      exact ⟨inside, halted⟩
    · rw [same]
      exact ⟨inside, fun _ => ⟨path, wanted, unusable⟩⟩
    · rw [same]
      exact ⟨inside, halted⟩
    · rw [same]
      refine ⟨?_, halted⟩
      intro other member
      rcases List.mem_cons.mp member with rfl | old
      · exact wanted.reached text
      · exact inside other old
  recorded := fun _ _ _ kept => kept

theorem State.Faithful.usable {state : State} (faithful : Faithful snapshot state) {path : Path}
    (known : state.knows path = true) : snapshot path ≠ .unusable := by
  rcases faithful.reading known with ⟨source, text⟩ | ⟨reason, fails⟩
  · simp [text]
  · simp [fails]

/-- A run that comes to rest has a graph unless something asks for a path that is none. -/
theorem builds_iff {count : Nat} (rests : (trace snapshot config count entryPoints).settled = true) :
    (∃ graph, Builds snapshot config entryPoints graph) ↔
      ∀ path, Asked snapshot config entryPoints (Reached snapshot config entryPoints) path →
        snapshot path ≠ .unusable := by
  constructor
  · rintro ⟨graph, steps, finished, running, -⟩ path asked unusable
    -- All that can be got at has been reached, so the path was asked for in the run and entered.
    have closed := trace_closed snapshot config steps entryPoints finished running
    have known := trace_knows snapshot config steps entryPoints finished running path
      (asked.mono fun _ reached => reached.mem_of_closed closed) (by simp [unusable])
    exact (trace_faithful snapshot config steps entryPoints).usable known unusable
  · intro usable
    have kept := (State.reached_stable snapshot config entryPoints).trace (fun _ _ _ _ kept => kept)
      ⟨(fun _ absurd => by cases absurd), (fun absurd => by cases absurd)⟩ count
    have running : (trace snapshot config count entryPoints).stopped = false := by
      rw [Bool.eq_false_iff]
      intro stopped
      obtain ⟨path, asked, unusable⟩ := kept.2 stopped
      exact usable path asked unusable
    exact ⟨_, count, by simpa [State.settled, running] using rests, running, rfl⟩

end Reached

theorem snapshot_eq_unusable_iff (workspace : Workspace) (path : Path) :
    snapshot workspace path = .unusable ↔ '\x00' ∈ path := by
  unfold snapshot Workspace.readText Workspace.entryAt Workspace.locate
  by_cases null : '\x00' ∈ path
  · simp [null]
  · cases workspace.tree.locate workspace.cwd true path with
    | error fault => cases fault <;> simp [null]
    | ok place =>
      obtain ⟨location, entry⟩ := place
      cases entry <;> simp [null]

end ImportGraph

open ImportGraph (Reached present? snapshot)

/-- The name given for the dialect is the name of none. -/
def Request.UnknownDialect (request : Request) : Prop :=
  ∃ name, request.choice = .named name ∧ name ≠ [] ∧ Dialect.ofName? name = none

/-- Only the files of the directory tell the dialect: none is chosen, and no entry point tells one. -/
def Request.LacksDialect (request : Request) : Prop :=
  (request.choice = .detect ∨ request.choice = .named []) ∧
    ∀ given ∈ request.entryPoints.getD [], Dialect.ofPath? given = none

/-- The files of the directory itself are looked at, for entry points or for the dialect. -/
def Request.ScansRoot (request : Request) : Prop :=
  request.entryPoints = none ∨ request.LacksDialect

namespace Workspace

/-- The directory is there, under the path as given. -/
def RootStands (workspace : Workspace) (root : Path) : Prop :=
  ∃ place, workspace.tree.locate workspace.cwd true (Path.tidy root) = .ok ⟨place, .directory⟩

/-- Why the files of a directory itself cannot be told. -/
inductive Unscannable (workspace : Workspace) (directory : Path) : Prop where
  | elsewhere (nowhere : ∀ place,
      workspace.tree.locate workspace.cwd true directory ≠ .ok ⟨place, .directory⟩)
  | astray (place : Location) (name : Name) (target : Path) (fault : Fault)
      (leads : workspace.tree.locate workspace.cwd true directory = .ok ⟨place, .directory⟩)
      (found : workspace.tree.find? (name :: place) = some (.link target))
      (fails : workspace.tree.locate workspace.cwd true (Path.join directory name) = .error fault)
      (other : fault ≠ .missing)

/-- An import of a file that is reached means a path with a NUL character. -/
def NullImport (workspace : Workspace) (config : ImportGraph.Config) (entries : List Path) : Prop :=
  ∃ importer source specifier path, Reached (snapshot workspace) config entries importer ∧
    workspace.readText importer = .ok source ∧ specifier ∈ config.specifiers importer source ∧
    present? (snapshot workspace) (config.candidates importer specifier) = some path ∧ '\x00' ∈ path

/-- What a survey cannot get past: a root whose name is too long; where the files of the root are looked
at, a root that is no directory any more in its normal form, or a link in it that cannot be followed for
another reason than that it leads nowhere; an import that means a path with a NUL character. -/
inductive Obstacle (workspace : Workspace) (request : Request) : Prop where
  | rootTooLong
      (refused : workspace.tree.locate workspace.cwd true (Path.tidy request.root) = .error .nameTooLong)
  | scan (stands : workspace.RootStands request.root) (known : ¬ request.UnknownDialect)
      (scans : request.ScansRoot) (blocked : workspace.Unscannable (workspace.normalize request.root))
  | nullImport (dialect : Dialect) (entries : List Path) (stands : workspace.RootStands request.root)
      (chosen : workspace.chooseDialect (workspace.normalize request.root) request = .ok dialect)
      (started : workspace.startingPoints (workspace.normalize request.root) dialect request = .ok entries)
      (null : workspace.NullImport (workspace.graphConfig request dialect) entries)

/-- A survey is refused for its root or for the name of its dialect. -/
def Refuses (workspace : Workspace) (request : Request) : Prop :=
  (¬ workspace.RootStands request.root ∧
      workspace.tree.locate workspace.cwd true (Path.tidy request.root) ≠ .error .nameTooLong) ∨
    (workspace.RootStands request.root ∧ request.UnknownDialect)

theorem RootStands.not_tooLong {workspace : Workspace} {root : Path}
    (stands : workspace.RootStands root) :
    workspace.tree.locate workspace.cwd true (Path.tidy root) ≠ .error .nameTooLong := by
  obtain ⟨place, leads⟩ := stands
  simp [leads]

/-! Each part of a survey by itself: when it fails, and how. -/

theorem tidy_plain {path : Path} (plain : '\x00' ∉ path) : '\x00' ∉ Path.tidy path := by
  intro null
  have inside := Path.mem_tidy null
  simp [plain] at inside

theorem checkRoot_cases (workspace : Workspace) {given : Path} (plain : '\x00' ∉ given) :
    (workspace.tree.locate workspace.cwd true (Path.tidy given) = .error .nameTooLong ∧
        ∃ error, workspace.checkRoot given = .error (.access error)) ∨
      (workspace.RootStands given ∧ workspace.checkRoot given = .ok (workspace.normalize given)) ∨
      (¬ workspace.RootStands given ∧
        workspace.tree.locate workspace.cwd true (Path.tidy given) ≠ .error .nameTooLong ∧
        workspace.checkRoot given = .error (.noDirectory (workspace.normalize given))) := by
  have clean := tidy_plain plain
  unfold RootStands checkRoot isDirectory probe entryAt locate
  cases workspace.tree.locate workspace.cwd true (Path.tidy given) with
  | error fault => cases fault <;> simp [clean]
  | ok place =>
    obtain ⟨location, entry⟩ := place
    by_cases kind : entry = .directory
    · simp [clean, kind]
    · have other : (entry == .directory) = false := by simpa using kind
      simp [clean, kind, other]

/-- The files of a directory itself can be told unless the directory or a link in it stands in the way. -/
theorem topFiles_ok_iff {workspace : Workspace} {directory : Path} (plain : '\x00' ∉ directory) :
    (∃ names, workspace.topFiles directory = .ok names) ↔ ¬ workspace.Unscannable directory := by
  have clean : ∀ {name : Name} {place : Location} {entry : Entry},
      workspace.tree.find? (name :: place) = some entry → '\x00' ∉ Path.join directory name := by
    intro name place entry found null
    have inside := Path.mem_join null
    simp [plain, (FileTree.legal_of_find? found).2] at inside
  constructor
  · rintro ⟨names, told⟩ blocked
    obtain ⟨place, leads, total, -⟩ := topFiles_eq_ok told
    cases blocked with
    | elsewhere nowhere => exact nowhere place leads
    | astray other name target fault otherLeads found fails apart =>
      cases leads.symm.trans otherLeads
      have tested := total _ ((workspace.tree.mem_children_iff place name _).mpr found)
      exact apart ((isFile_ok_iff workspace _ (clean found)).mp tested target rfl fault fails)
  · intro unblocked
    obtain ⟨place, leads⟩ : ∃ place,
        workspace.tree.locate workspace.cwd true directory = .ok ⟨place, .directory⟩ := by
      by_contra nowhere
      exact unblocked (.elsewhere (not_exists.mp nowhere))
    have total : ∀ child ∈ workspace.tree.children place,
        ∃ answer, workspace.isFile directory child.1 child.2 = .ok answer := by
      rintro ⟨name, entry⟩ member
      have found := (workspace.tree.mem_children_iff place name entry).mp member
      refine (isFile_ok_iff workspace entry (clean found)).mpr ?_
      rintro target rfl fault fails
      by_contra apart
      exact unblocked (.astray place name target fault leads found fails apart)
    simp only [topFiles, list_of_locate plain leads, Except.ok_bind]
    rw [(filterM_eq_ok_iff _ _ _).mpr ⟨total, rfl⟩]
    exact ⟨_, rfl⟩

theorem chooseDialect_of_unknown (workspace : Workspace) (root : Path) {request : Request}
    (unknown : request.UnknownDialect) :
    ∃ name, workspace.chooseDialect root request = .error (.unknownDialect name) := by
  obtain ⟨name, choice, filled, none⟩ := unknown
  exact ⟨name, by simp [chooseDialect, choice, filled, dialectNamed, none]⟩

theorem chooseDialect_of_lacking (workspace : Workspace) (root : Path) {request : Request}
    (lacks : request.LacksDialect) :
    workspace.chooseDialect root request = (workspace.detectDialect root).mapError .access := by
  obtain ⟨unchosen, untold⟩ := lacks
  have none := List.findSome?_eq_none_iff.mpr untold
  rcases unchosen with choice | choice <;> simp [chooseDialect, choice, none]

theorem chooseDialect_of_telling (workspace : Workspace) (root : Path) {request : Request}
    (known : ¬ request.UnknownDialect) (tells : ¬ request.LacksDialect) :
    ∃ dialect, workspace.chooseDialect root request = .ok dialect := by
  have told : (request.choice = .detect ∨ request.choice = .named []) →
      ∃ dialect, (request.entryPoints.getD []).findSome? Dialect.ofPath? = some dialect := by
    intro unchosen
    apply Option.ne_none_iff_exists'.mp
    intro none
    exact tells ⟨unchosen, List.findSome?_eq_none_iff.mp none⟩
  cases choice : request.choice with
  | fixed dialect => exact ⟨dialect, by simp [chooseDialect, choice]⟩
  | detect =>
    obtain ⟨dialect, first⟩ := told (Or.inl choice)
    exact ⟨dialect, by simp [chooseDialect, choice, first]⟩
  | named name =>
    by_cases empty : name = []
    · obtain ⟨dialect, first⟩ := told (Or.inr (empty ▸ choice))
      exact ⟨dialect, by simp [chooseDialect, choice, empty, first]⟩
    · cases found : Dialect.ofName? name with
      | none => exact absurd ⟨name, choice, empty, found⟩ known
      | some dialect => exact ⟨dialect, by simp [chooseDialect, choice, empty, dialectNamed, found]⟩

theorem chooseDialect_eq_error {workspace : Workspace} {root : Path} {request : Request}
    (known : ¬ request.UnknownDialect) {failure : Failure}
    (failed : workspace.chooseDialect root request = .error failure) :
    ∃ error, failure = .access error := by
  by_cases lacks : request.LacksDialect
  · rw [chooseDialect_of_lacking workspace root lacks] at failed
    cases detected : workspace.detectDialect root with
    | error error =>
      rw [detected] at failed
      cases failed
      exact ⟨error, rfl⟩
    | ok dialect =>
      rw [detected] at failed
      cases failed
  · obtain ⟨dialect, chosen⟩ := chooseDialect_of_telling workspace root known lacks
    rw [chosen] at failed
    cases failed

/-- A survey comes to its entry points unless it has to look at the files of its root and cannot. -/
theorem startingPoints_ok_iff {workspace : Workspace} {root : Path}
    (plain : '\x00' ∉ root) {request : Request} (known : ¬ request.UnknownDialect) :
    (∃ dialect entries, workspace.chooseDialect root request = .ok dialect ∧
        workspace.startingPoints root dialect request = .ok entries) ↔
      ¬ (request.ScansRoot ∧ workspace.Unscannable root) := by
  constructor
  · rintro ⟨dialect, entries, chosen, started⟩ ⟨scans, blocked⟩
    refine (topFiles_ok_iff plain).mp ?_ blocked
    rcases scans with unnamed | lacks
    · simp only [startingPoints, unnamed, entryPoints] at started
      obtain ⟨names, told, -⟩ := (Except.map_eq_ok_iff _ _ _).mp started
      exact ⟨names, told⟩
    · rw [chooseDialect_of_lacking workspace root lacks, Except.mapError_eq_ok_iff] at chosen
      obtain ⟨names, told, -⟩ := (Except.map_eq_ok_iff _ _ _).mp chosen
      exact ⟨names, told⟩
  · intro unblocked
    have told : request.ScansRoot → ∃ names, workspace.topFiles root = .ok names :=
      fun scans => (topFiles_ok_iff plain).mpr fun blocked => unblocked ⟨scans, blocked⟩
    obtain ⟨dialect, chosen⟩ : ∃ dialect, workspace.chooseDialect root request = .ok dialect := by
      by_cases lacks : request.LacksDialect
      · obtain ⟨names, told⟩ := told (Or.inr lacks)
        exact ⟨_, by rw [chooseDialect_of_lacking workspace root lacks, detectDialect, told]; rfl⟩
      · exact chooseDialect_of_telling workspace root known lacks
    refine ⟨dialect, ?_⟩
    unfold startingPoints
    cases unnamed : request.entryPoints with
    | none =>
      obtain ⟨names, told⟩ := told (Or.inl unnamed)
      exact ⟨_, chosen, by rw [entryPoints, told]; rfl⟩
    | some given => exact ⟨_, chosen, rfl⟩

section Plain

variable {workspace : Workspace} (home : '\x00' ∉ pathOf workspace.cwd)

include home

theorem normalize_plain {path : Path} (plain : '\x00' ∉ path) : '\x00' ∉ workspace.normalize path := by
  intro null
  have inside := Path.mem_normalize null
  simp [home, plain] at inside

theorem startingPoints_plain {root : Path} (plain : '\x00' ∉ root)
    {request : Request} (givenPlain : ∀ given ∈ request.entryPoints.getD [], '\x00' ∉ given)
    {dialect : Dialect} {entries : List Path}
    (started : workspace.startingPoints root dialect request = .ok entries) :
    ∀ entry ∈ entries, '\x00' ∉ entry := by
  unfold startingPoints at started
  intro entry member
  cases unnamed : request.entryPoints with
  | none =>
    rw [unnamed] at started
    obtain ⟨names, told, rfl⟩ := (Except.map_eq_ok_iff _ _ _).mp started
    obtain ⟨place, -, -, found⟩ := topFiles_eq_ok told
    obtain ⟨name, owned, rfl⟩ := List.mem_map.mp ((Text.mem_sort _ _).mp member)
    obtain ⟨child, stands⟩ := found name (List.mem_of_mem_filter owned)
    apply normalize_plain home
    intro null
    have inside := Path.mem_join null
    simp [plain, (FileTree.legal_of_find? stands).2] at inside
  | some given =>
    rw [unnamed] at started givenPlain
    cases started
    obtain ⟨path, listed, rfl⟩ := List.mem_map.mp member
    exact normalize_plain home (givenPlain path listed)

/-- The import graph fails only for an import: entry points without NUL have normal forms without it. -/
theorem importGraph_ok_iff (config : ImportGraph.Config) (seen : config.cwd = pathOf workspace.cwd)
    {entries : List Path} (plain : ∀ entry ∈ entries, '\x00' ∉ entry) :
    (∃ graph, (workspace.importGraph config entries).result = .ok graph) ↔
      ¬ workspace.NullImport config entries := by
  obtain ⟨count, takes⟩ := ImportGraph.trace_takesSteps workspace config entries
  simp only [importGraph_eq_ok_iff]
  rw [ImportGraph.builds_iff takes.rests]
  constructor
  · rintro usable ⟨importer, source, specifier, path, reached, text, member, found, null⟩
    refine usable path (.imported importer source specifier path reached ?_ member found) ?_
    · exact (ImportGraph.snapshot_eq_text_iff workspace importer source).mpr text
    · exact (ImportGraph.snapshot_eq_unusable_iff workspace path).mpr null
  · intro free path asked unusable
    have null := (ImportGraph.snapshot_eq_unusable_iff workspace path).mp unusable
    cases asked with
    | entry given member =>
      rw [seen] at null
      exact normalize_plain home (plain given member) null
    | imported importer source specifier path known text member found =>
      exact free ⟨importer, source, specifier, path, known,
        (ImportGraph.snapshot_eq_text_iff workspace importer source).mp text, member, found, null⟩

theorem lookFrom_cases (request : Request) (exclusions : List Exclusion) {root : Path}
    (rootPlain : '\x00' ∉ root) (dialect : Dialect) {entries : List Path}
    (plain : ∀ entry ∈ entries, '\x00' ∉ entry) :
    (workspace.NullImport (workspace.graphConfig request dialect) entries ∧
        ∃ error, workspace.lookFrom request exclusions root dialect entries = .error (.access error)) ∨
      (¬ workspace.NullImport (workspace.graphConfig request dialect) entries ∧
        ∃ survey, workspace.lookFrom request exclusions root dialect entries = .ok survey) := by
  have graph := importGraph_ok_iff home (workspace.graphConfig request dialect) rfl plain
  unfold lookFrom
  split
  next empty =>
    right
    rw [List.isEmpty_iff] at empty
    refine ⟨?_, _, rfl⟩
    rintro ⟨importer, _, _, _, reached, -⟩
    exact ImportGraph.not_reached_nil (empty ▸ reached)
  next =>
    cases built : (workspace.importGraph (workspace.graphConfig request dialect) entries).result with
    | error error =>
      left
      refine ⟨?_, error, rfl⟩
      by_contra free
      obtain ⟨result, returned⟩ := graph.mpr free
      rw [built] at returned
      cases returned
    | ok result =>
      right
      refine ⟨graph.mp ⟨result, built⟩, ?_⟩
      simp only [Except.mapError_ok, Except.ok_bind, unusedFiles, Traced.result_bind,
        Traced.result_ofExcept, listAll]
      rw [if_neg (by simpa using rootPlain)]
      exact ⟨_, rfl⟩

end Plain

section Outcome

variable {workspace : Workspace} {request : Request} {exclusions : List Exclusion}
  (home : '\x00' ∉ pathOf workspace.cwd)
  (rootPlain : '\x00' ∉ request.root)
  (givenPlain : ∀ given ∈ request.entryPoints.getD [], '\x00' ∉ given)
  (parsed : Exclusion.parseAll request.exclude = .ok exclusions)

include home rootPlain givenPlain parsed

/-- A survey of a directory that is there, in a dialect that there is. -/
theorem survey_of_stands (stands : workspace.RootStands request.root)
    (known : ¬ request.UnknownDialect) :
    (workspace.Obstacle request ∧
        ∃ error, (workspace.survey request).result = .error (.access error)) ∨
      (¬ workspace.Obstacle request ∧ ∃ survey, (workspace.survey request).result = .ok survey) := by
  have plain := normalize_plain home rootPlain
  have checked := (checkRoot_eq_ok_iff workspace request.root _).mpr ⟨rfl, tidy_plain rootPlain, stands⟩
  have opened : (workspace.survey request).result = (do
      let dialect ← workspace.chooseDialect (workspace.normalize request.root) request
      let entries ← (workspace.startingPoints (workspace.normalize request.root) dialect
        request).mapError .access
      workspace.lookFrom request exclusions (workspace.normalize request.root) dialect entries) := by
    rw [survey_result, checked, parsed]
    rfl
  by_cases blocked : request.ScansRoot ∧ workspace.Unscannable (workspace.normalize request.root)
  · left
    refine ⟨.scan stands known blocked.1 blocked.2, ?_⟩
    cases chosen : workspace.chooseDialect (workspace.normalize request.root) request with
    | error failure =>
      obtain ⟨error, rfl⟩ := chooseDialect_eq_error known chosen
      exact ⟨error, by rw [opened, chosen]; rfl⟩
    | ok dialect =>
      cases started : workspace.startingPoints (workspace.normalize request.root) dialect request with
      | error error => exact ⟨error, by rw [opened, chosen, Except.ok_bind, started]; rfl⟩
      | ok entries =>
        exact absurd blocked
          ((startingPoints_ok_iff plain known).mp ⟨dialect, entries, chosen, started⟩)
  · obtain ⟨dialect, entries, chosen, started⟩ := (startingPoints_ok_iff plain known).mpr blocked
    have looked : (workspace.survey request).result =
        workspace.lookFrom request exclusions (workspace.normalize request.root) dialect entries := by
      rw [opened, chosen, Except.ok_bind, started]
      rfl
    rcases lookFrom_cases home request exclusions plain dialect
      (startingPoints_plain home plain givenPlain started) with
      ⟨null, error, failed⟩ | ⟨free, survey, returned⟩
    · exact Or.inl ⟨.nullImport dialect entries stands chosen started null, error, looked.trans failed⟩
    · refine Or.inr ⟨?_, survey, looked.trans returned⟩
      intro obstacle
      cases obstacle with
      | rootTooLong refused => exact stands.not_tooLong refused
      | scan _ _ scans astray => exact blocked ⟨scans, astray⟩
      | nullImport other others _ otherChosen otherStarted null =>
        cases chosen.symm.trans otherChosen
        cases started.symm.trans otherStarted
        exact free null

/-- The three ways a survey can end, each with what it ends so for. -/
theorem survey_outcome :
    (workspace.Obstacle request ∧ ¬ workspace.Refuses request ∧
        ∃ error, (workspace.survey request).result = .error (.access error)) ∨
      (¬ workspace.Obstacle request ∧ workspace.Refuses request ∧
        ∃ failure, (workspace.survey request).result = .error failure ∧ failure.isRefusal = true) ∨
      (¬ workspace.Obstacle request ∧ ¬ workspace.Refuses request ∧
        ∃ survey, (workspace.survey request).result = .ok survey) := by
  rcases checkRoot_cases workspace rootPlain with
    ⟨refused, error, checked⟩ | ⟨stands, checked⟩ | ⟨fallen, short, checked⟩
  · left
    refine ⟨.rootTooLong refused, ?_, error, by rw [survey_result, checked]; rfl⟩
    rintro (⟨-, short⟩ | ⟨stands, -⟩)
    · exact short refused
    · exact stands.not_tooLong refused
  · by_cases unknown : request.UnknownDialect
    · obtain ⟨name, chosen⟩ :=
        chooseDialect_of_unknown workspace (workspace.normalize request.root) unknown
      right; left
      refine ⟨?_, Or.inr ⟨stands, unknown⟩, .unknownDialect name, ?_, rfl⟩
      · intro obstacle
        cases obstacle with
        | rootTooLong refused => exact stands.not_tooLong refused
        | scan _ known => exact known unknown
        | nullImport dialect entries _ otherwise => cases chosen.symm.trans otherwise
      · rw [survey_result, checked, parsed, Except.ok_bind, Except.mapError_ok, Except.ok_bind, chosen]
        rfl
    · have willing : ¬ workspace.Refuses request := by
        rintro (⟨fallen, -⟩ | ⟨-, nameless⟩)
        · exact fallen stands
        · exact unknown nameless
      rcases survey_of_stands home rootPlain givenPlain parsed stands unknown with
        ⟨obstacle, failed⟩ | ⟨free, returned⟩
      · exact Or.inl ⟨obstacle, willing, failed⟩
      · exact Or.inr (Or.inr ⟨free, willing, returned⟩)
  · right; left
    refine ⟨?_, Or.inl ⟨fallen, short⟩, .noDirectory (workspace.normalize request.root), ?_, rfl⟩
    · intro obstacle
      cases obstacle with
      | rootTooLong refused => exact short refused
      | scan stands => exact fallen stands
      | nullImport dialect entries stands => exact fallen stands
    · rw [survey_result, checked]
      rfl

end Outcome

/-- A survey asked for without NUL characters and with exclusions that can be read answers, with a result
or with a refusal, exactly if no obstacle is in its way; it is refused exactly if its root is no directory
or its dialect has a name that is none. In its result all imports and entry points that name nothing, and
all files that cannot be read, are records. -/
theorem survey_answers_iff (workspace : Workspace) (request : Request) (exclusions : List Exclusion)
    (home : '\x00' ∉ pathOf workspace.cwd) (rootPlain : '\x00' ∉ request.root)
    (givenPlain : ∀ given ∈ request.entryPoints.getD [], '\x00' ∉ given)
    (parsed : Exclusion.parseAll request.exclude = .ok exclusions) :
    (((∃ survey, (workspace.survey request).result = .ok survey) ∨
        ∃ failure, (workspace.survey request).result = .error failure ∧ failure.isRefusal = true) ↔
      ¬ workspace.Obstacle request) ∧
      ((∃ failure, (workspace.survey request).result = .error failure ∧ failure.isRefusal = true) ↔
        workspace.Refuses request) ∧
      ∀ survey, (workspace.survey request).result = .ok survey → survey.entryPoints ≠ [] →
        (∀ record, record ∈ survey.dangling ↔
          record ∈ survey.entryPoints.filterMap (ImportGraph.entryRecord? (snapshot workspace)
              (workspace.graphConfig request survey.dialect)) ∨
            ∃ importer ∈ survey.reachable, record ∈ ImportGraph.importRecords (snapshot workspace)
              (workspace.graphConfig request survey.dialect) importer) ∧
        ∀ path, path ∈ survey.failures.map ReadFailure.path ↔
          (∃ reason, snapshot workspace path = .failing reason) ∧
            ImportGraph.Asked (snapshot workspace) (workspace.graphConfig request survey.dialect)
              survey.entryPoints (· ∈ survey.reachable) path := by
  refine ⟨?_, ?_, ?_⟩
  · obtain ⟨obstacle, -, error, failed⟩ | ⟨free, -, refused⟩ | ⟨free, -, returned⟩ :=
      survey_outcome home rootPlain givenPlain parsed
    · simp [obstacle, failed, Failure.isRefusal]
    · exact iff_of_true (Or.inr refused) free
    · exact iff_of_true (Or.inl returned) free
  · obtain ⟨-, willing, error, failed⟩ | ⟨-, refuses, refused⟩ | ⟨-, willing, survey, returned⟩ :=
      survey_outcome home rootPlain givenPlain parsed
    · simp [willing, failed, Failure.isRefusal]
    · exact iff_of_true refused refuses
    · simp [willing, returned]
  · intro survey returned entered
    have built := survey_builds returned entered
    refine ⟨fun record => ?_, built.mem_failures_iff⟩
    obtain ⟨order, files, records⟩ := built.dangling_eq
    simp only at records files
    rw [records, List.mem_append, List.mem_flatMap]
    simp only [files.mem_iff]

/-- A stylesheet with an import that names nothing and one that a directory stands for, beside a link
that leads nowhere. -/
def gaps : Workspace where
  tree.entries :=
    [(["main.scss".toList], .file (.octets "@import 'gone', 'x';".toUTF8.toList)),
     (["x.scss".toList], .directory),
     (["lost.scss".toList], .link "nowhere".toList)]
  tree.distinct := by decide +kernel
  tree.named := by decide +kernel

def gapsSurvey : Survey where
  root := "/".toList
  dialect := .scss
  entryPoints := ["/main.scss".toList]
  reachable := ["/main.scss".toList]
  unused := ["/lost.scss".toList]
  dangling := [⟨some "/main.scss".toList, "gone".toList, ["/gone.scss".toList, "/_gone.scss".toList]⟩]
  failures := [⟨"/x.scss".toList, "[Errno 21] Is a directory: '/x.scss'"⟩]

theorem gaps_answers :
    (gaps.survey {}).result = .ok gapsSurvey ∧ ¬ gaps.Obstacle {} ∧
      ¬ gaps.Refuses {} ∧
      ImportGraph.Asked (snapshot gaps) (gaps.graphConfig {} .scss) ["/main.scss".toList]
        (· ∈ gapsSurvey.reachable) "/x.scss".toList := by
  have returned : (gaps.survey {}).result = .ok gapsSurvey := by decide +kernel
  obtain ⟨answers, refuses, records⟩ := survey_answers_iff gaps {} [] (by decide +kernel)
    (by decide +kernel) (by simp) rfl
  refine ⟨returned, answers.mp (Or.inl ⟨_, returned⟩), ?_, ?_⟩
  · rw [← refuses]
    simp [returned]
  · obtain ⟨-, failures⟩ := records gapsSurvey returned (List.cons_ne_nil _ _)
    exact ((failures _).mp (List.mem_singleton_self _)).2

/-- A stylesheet with a NUL character in an import. -/
def nulled : Workspace where
  tree.entries := [(["main.scss".toList], .file (.octets "@import 'a\x00b';".toUTF8.toList))]
  tree.distinct := by decide +kernel
  tree.named := by decide +kernel

/-- A stylesheet beside a link to itself. -/
def looped : Workspace where
  tree.entries :=
    [(["main.scss".toList], .file (.octets [])), (["loop.scss".toList], .link "loop.scss".toList)]
  tree.distinct := by decide +kernel
  tree.named := by decide +kernel

/-- A stylesheet in a directory that is above another one only by way of a link. -/
def sidestep : Workspace where
  tree.entries :=
    [(["sub".toList], .directory),
     (["deep".toList, "sub".toList], .directory),
     (["x".toList, "sub".toList], .directory),
     (["main.scss".toList, "x".toList, "sub".toList], .file (.octets [])),
     (["link".toList], .link "sub/deep".toList)]
  tree.distinct := by decide +kernel
  tree.named := by decide +kernel

/-- Each obstacle is met: an import with a NUL character, a link that cannot be followed, a root whose
normal form is not there, and a root with too long a name. -/
theorem surveys_without_answer :
    (nulled.survey {}).result = .error (.access .nullCharacter) ∧
      (looped.survey {}).result = .error (.access (.fault .linkLoop "/loop.scss".toList)) ∧
      (sidestep.survey { root := "link/../x".toList }).result =
        .error (.access (.fault .missing "/x".toList)) ∧
      (looped.survey { root := List.replicate 256 'n' }).result =
        .error (.access (.fault .nameTooLong (List.replicate 256 'n'))) := by
  refine ⟨?_, ?_, ?_, ?_⟩ <;> decide +kernel

end Workspace

end SheetReach
