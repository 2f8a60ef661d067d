import SheetReach.Proofs.Reachability

/-! The records of what names nothing. A run that comes to its end has one for every entry point that is
missing, in the order given, and after them, file by file, one for every import without a candidate that
is there. The imports of a file are recorded when it is taken off the stack, which happens once. -/
namespace SheetReach.ImportGraph

/-- The record of an entry point, if it is missing. -/
def entryRecord? (snapshot : Snapshot) (config : Config) (given : Path) : Option DanglingImport :=
  if snapshot (Path.normalize config.cwd given) = .missing then
    some ⟨none, given, [Path.normalize config.cwd given]⟩
  else none

/-- The record of an import, if it has candidates and all of them are missing. -/
def importRecord? (snapshot : Snapshot) (config : Config) (importer : Path) (specifier : List Char) :
    Option DanglingImport :=
  if config.candidates importer specifier ≠ [] ∧
      ∀ path ∈ config.candidates importer specifier, snapshot path = .missing then
    some ⟨some importer, specifier, config.candidates importer specifier⟩
  else none

/-- The records of a file, in document order. -/
def importRecords (snapshot : Snapshot) (config : Config) (importer : Path) : List DanglingImport :=
  match snapshot importer with
  | .text source =>
    (config.specifiers importer source).filterMap (importRecord? snapshot config importer)
  | _ => []

theorem importRecords_text {snapshot : Snapshot} {importer : Path} {source : List Char}
    (text : snapshot importer = .text source) (config : Config) :
    importRecords snapshot config importer =
      (config.specifiers importer source).filterMap (importRecord? snapshot config importer) := by
  simp [importRecords, text]

theorem entryRecord?_eq_some {snapshot : Snapshot} {config : Config} {given : Path}
    {record : DanglingImport} (recorded : entryRecord? snapshot config given = some record) :
    record.importer = none ∧ ∀ path ∈ record.candidates, snapshot path = .missing := by
  unfold entryRecord? at recorded
  split at recorded
  next absent =>
    cases recorded
    exact ⟨rfl, by simpa using absent⟩
  next => cases recorded

theorem mem_importRecords {snapshot : Snapshot} {config : Config} {importer : Path}
    {record : DanglingImport} (member : record ∈ importRecords snapshot config importer) :
    record.importer = some importer ∧ ∀ path ∈ record.candidates, snapshot path = .missing := by
  unfold importRecords at member
  split at member
  next source text =>
    obtain ⟨specifier, -, recorded⟩ := List.mem_filterMap.mp member
    unfold importRecord? at recorded
    split at recorded
    next absent =>
      cases recorded
      exact ⟨rfl, absent.2⟩
    next => cases recorded
  next => cases member

namespace State

variable {snapshot : Snapshot} {state : State}

theorem enter_dangling (path : Path) (there : snapshot path ≠ .missing) :
    (state.enter snapshot path).2.dangling = state.dangling := by
  obtain ⟨-, ⟨-, same⟩ | ⟨-, same⟩ | ⟨reason, -, -, same⟩ | ⟨source, -, -, same⟩⟩ :=
    enter_cases snapshot path state there
  · rw [same]
  · rw [same]
  · rw [same]
    rfl
  · rw [same]
    rfl

theorem Faithful.follow_dangling (faithful : Faithful snapshot state) (config : Config) (importer : Path)
    (specifier : List Char)
    (running : (state.follow snapshot config importer specifier).stopped = false) :
    (state.follow snapshot config importer specifier).dangling =
      (importRecord? snapshot config importer specifier).toList ++ state.dangling := by
  obtain ⟨halted, same⟩ | ⟨-, empty, same⟩ | ⟨path, -, found, same⟩ | ⟨-, filled, none, same⟩ :=
    faithful.follow_cases config importer specifier
  · rw [same, halted] at running
    cases running
  · rw [same]
    simp [importRecord?, empty]
  · -- A candidate that is there is entered, and the import leaves no record.
    obtain ⟨member, there⟩ := present?_spec snapshot _ path found
    have unrecorded : importRecord? snapshot config importer specifier = Option.none :=
      if_neg fun absent => there (absent.2 path member)
    rw [same, enter_dangling path there, unrecorded]
    rfl
  · have absent : ∀ path ∈ config.candidates importer specifier, snapshot path = .missing := by
      simpa [present?] using none
    have recorded : importRecord? snapshot config importer specifier =
        some ⟨some importer, specifier, config.candidates importer specifier⟩ :=
      if_pos ⟨filled, absent⟩
    rw [same, recorded]
    rfl

theorem Faithful.follow_all_dangling {config : Config} {importer : Path} {source : List Char}
    (text : snapshot importer = .text source) (specifiers : List (List Char))
    (members : specifiers ⊆ config.specifiers importer source) (faithful : Faithful snapshot state)
    (reached : importer ∈ state.reachable)
    (running : (specifiers.foldl (State.follow snapshot config importer) state).stopped = false) :
    (specifiers.foldl (State.follow snapshot config importer) state).dangling =
      (specifiers.filterMap (importRecord? snapshot config importer)).reverse ++ state.dangling := by
  induction specifiers generalizing state with
  | nil => rfl
  | cons first rest ih =>
    obtain ⟨next, nextReached, later⟩ := faithful.follow_first reached text members
    have here := faithful.follow_dangling config importer first (later.running running)
    rw [List.foldl_cons, ih (List.cons_subset.mp members).2 next nextReached running, here,
      List.filterMap_cons]
    cases importRecord? snapshot config importer first with
    | none => rfl
    | some record => simp

theorem Faithful.start_dangling (faithful : Faithful snapshot state) (config : Config) (given : Path)
    (running : (state.start snapshot config given).stopped = false) :
    (state.start snapshot config given).dangling =
      (entryRecord? snapshot config given).toList ++ state.dangling := by
  obtain ⟨halted, same⟩ | ⟨-, there, same⟩ | ⟨-, absent, same⟩ := faithful.start_cases config given
  · rw [same, halted] at running
    cases running
  · rw [same, enter_dangling _ there]
    simp [entryRecord?, there]
  · rw [same]
    simp [entryRecord?, absent]

theorem Faithful.start_all_dangling (config : Config) (entryPoints : List Path)
    (faithful : Faithful snapshot state)
    (running : (entryPoints.foldl (State.start snapshot config) state).stopped = false) :
    (entryPoints.foldl (State.start snapshot config) state).dangling =
      (entryPoints.filterMap (entryRecord? snapshot config)).reverse ++ state.dangling := by
  induction entryPoints generalizing state with
  | nil => rfl
  | cons first rest ih =>
    obtain ⟨next, later⟩ := faithful.start_first config first rest
    have here := faithful.start_dangling config first (later.running running)
    rw [List.foldl_cons, ih next running, here, List.filterMap_cons]
    cases entryRecord? snapshot config first with
    | none => rfl
    | some record => simp

theorem Faithful.step_dangling (faithful : Faithful snapshot state) (config : Config) {path : Path}
    {source : List Char} {rest : List (Path × List Char)} (top : state.pending = (path, source) :: rest)
    (running : (state.step snapshot config).stopped = false) :
    (state.step snapshot config).dangling =
      (importRecords snapshot config path).reverse ++ state.dangling := by
  obtain ⟨reached, text⟩ := faithful.waiting (path, source) (top ▸ List.mem_cons_self)
  rw [step_cons snapshot config top] at running ⊢
  rw [importRecords_text text]
  exact Faithful.follow_all_dangling text _ (List.Subset.refl _) (faithful.take top) reached running

/-- How a state came about: these files were taken off the stack in this order, and the records are those
of the entry points and then of these files. -/
structure History (snapshot : Snapshot) (config : Config) (entryPoints : List Path) (state : State)
    (taken : List Path) : Prop where
  files : (taken ++ state.pending.map Prod.fst).Perm state.reachable
  records : state.stopped = false → state.dangling.reverse =
    entryPoints.filterMap (entryRecord? snapshot config) ++ taken.flatMap (importRecords snapshot config)

theorem History.initial (snapshot : Snapshot) (config : Config) (entryPoints : List Path) :
    History snapshot config entryPoints (entryPoints.foldl (State.start snapshot config) {}) [] := by
  refine ⟨?_, fun running => ?_⟩
  · rw [(started_files snapshot config entryPoints).2]
    exact List.Perm.refl _
  · rw [Faithful.start_all_dangling config entryPoints (.initial snapshot) running]
    simp

theorem History.step {config : Config} {entryPoints taken : List Path}
    (history : History snapshot config entryPoints state taken) (faithful : Faithful snapshot state)
    {path : Path} {source : List Char} {rest : List (Path × List Char)}
    (top : state.pending = (path, source) :: rest) :
    History snapshot config entryPoints (state.step snapshot config) (taken ++ [path]) := by
  obtain ⟨added, reachable, pending⟩ := faithful.step_pushes config top
  refine ⟨?_, fun running => ?_⟩
  · have before := history.files
    rw [top, List.map_cons] at before
    rw [reachable, pending]
    calc
      (taken ++ [path] ++ (added ++ rest.map Prod.fst)).Perm
          (added ++ (taken ++ [path] ++ rest.map Prod.fst)) := List.perm_append_comm_assoc _ _ _
      _ = added ++ (taken ++ path :: rest.map Prod.fst) := by simp
      List.Perm _ (added ++ state.reachable) := before.append_left added
  · have early := history.records ((faithful.step config).2.running running)
    rw [faithful.step_dangling config top running, List.reverse_append, early]
    simp

theorem History.run {config : Config} {entryPoints taken : List Path}
    (history : History snapshot config entryPoints state taken) (faithful : Faithful snapshot state)
    (count : Nat) :
    ∃ order, History snapshot config entryPoints (state.run snapshot config count) order := by
  induction count generalizing state taken with
  | zero => exact ⟨taken, history⟩
  | succ count ih =>
    rw [State.run]
    split
    next => exact ⟨taken, history⟩
    next unsettled =>
      cases top : state.pending with
      | nil => exact absurd (by simp [settled, top]) unsettled
      | cons item rest => exact ih (history.step faithful top) (faithful.step config).1

end State

section Builds

variable {snapshot : Snapshot} {config : Config} {entryPoints : List Path} {graph : ImportGraph}
  (built : Builds snapshot config entryPoints graph)

include built

theorem Builds.reachable_nodup : graph.reachable.Nodup := by
  obtain ⟨steps, -, -, rfl⟩ := built
  exact (List.reverse_perm _).nodup_iff.mpr (trace_faithful snapshot config steps entryPoints).reachedOnce

/-- The records in the order of the files they come from, each reached file once. -/
theorem Builds.dangling_eq : ∃ order : List Path, order.Perm graph.reachable ∧
    graph.dangling = entryPoints.filterMap (entryRecord? snapshot config) ++
      order.flatMap (importRecords snapshot config) := by
  obtain ⟨steps, finished, running, rfl⟩ := built
  obtain ⟨order, history⟩ := (State.History.initial snapshot config entryPoints).run
    (State.started_files snapshot config entryPoints).1 steps
  have files := history.files
  rw [show (entryPoints.foldl (State.start snapshot config) {}).run snapshot config steps =
    trace snapshot config steps entryPoints from rfl, finished, List.map_nil, List.append_nil] at files
  exact ⟨order, files.trans (List.reverse_perm _).symm, history.records running⟩

theorem Builds.dangling_missing {record : DanglingImport} (member : record ∈ graph.dangling) :
    ∀ path ∈ record.candidates, snapshot path = .missing := by
  obtain ⟨order, -, records⟩ := built.dangling_eq
  rw [records] at member
  rcases List.mem_append.mp member with entry | imported
  · obtain ⟨given, -, recorded⟩ := List.mem_filterMap.mp entry
    exact (entryRecord?_eq_some recorded).2
  · obtain ⟨importer, -, recorded⟩ := List.mem_flatMap.mp imported
    exact (mem_importRecords recorded).2

end Builds

/-- The records of files in an order without repetition: those of one file stand together. -/
theorem records_contiguous (snapshot : Snapshot) (config : Config) (order : List Path)
    (distinct : order.Nodup) (importer : Path) (member : importer ∈ order) :
    ∃ before after, order.flatMap (importRecords snapshot config) =
        before ++ importRecords snapshot config importer ++ after ∧
      ∀ record ∈ before ++ after, record.importer ≠ some importer := by
  obtain ⟨front, back, rfl⟩ := List.append_of_mem member
  refine ⟨front.flatMap (importRecords snapshot config), back.flatMap (importRecords snapshot config), ?_, ?_⟩
  · simp
  · intro record listed same
    rw [← List.flatMap_append] at listed
    obtain ⟨other, inside, recorded⟩ := List.mem_flatMap.mp listed
    rw [(mem_importRecords recorded).1, Option.some.injEq] at same
    subst other
    -- The file would stand in the order a second time.
    rw [List.perm_middle.nodup_iff] at distinct
    exact (List.nodup_cons.mp distinct).1 inside

/-- Whatever the snapshot, the records of a finished run are, each as often as it occurs, those of the
missing entry points and of the imports of reachable files that name nothing. The entry points come first,
in their order, and the imports of one file stand together, in document order. -/
theorem dangling_exact (snapshot : Snapshot) (config : Config) (entryPoints : List Path)
    (graph : ImportGraph) (built : Builds snapshot config entryPoints graph) :
    graph.reachable.Nodup ∧
      graph.dangling.Perm (entryPoints.filterMap (entryRecord? snapshot config) ++
        graph.reachable.flatMap (importRecords snapshot config)) ∧
      ∃ imports, graph.dangling = entryPoints.filterMap (entryRecord? snapshot config) ++ imports ∧
        ∀ importer ∈ graph.reachable, ∃ before after,
          imports = before ++ importRecords snapshot config importer ++ after ∧
            ∀ record ∈ before ++ after, record.importer ≠ some importer := by
  obtain ⟨order, files, records⟩ := built.dangling_eq
  have distinct : order.Nodup := files.nodup_iff.mpr built.reachable_nodup
  refine ⟨built.reachable_nodup, ?_, order.flatMap (importRecords snapshot config), records, ?_⟩
  · rw [records]
    exact (files.flatMap_right _).append_left _
  · intro importer reached
    exact records_contiguous snapshot config order distinct importer (files.mem_iff.mpr reached)

/-- Two files that import each other, each with imports that name nothing, one of them twice, and a plain
CSS import, which has no candidates. -/
def strays : Snapshot := fun path =>
  if path = "/m.scss".toList then .text "@import 'gone', 'p', 'x.css', 'gone';".toList
  else if path = "/_p.scss".toList then .text "@import 'm', 'lost';".toList
  else .missing

def straysGraph : ImportGraph where
  reachable := ["/m.scss".toList, "/_p.scss".toList]
  dangling :=
    [⟨none, "no.scss".toList, ["/no.scss".toList]⟩,
     ⟨none, "no.scss".toList, ["/no.scss".toList]⟩,
     ⟨some "/m.scss".toList, "gone".toList, ["/gone.scss".toList, "/_gone.scss".toList]⟩,
     ⟨some "/m.scss".toList, "gone".toList, ["/gone.scss".toList, "/_gone.scss".toList]⟩,
     ⟨some "/_p.scss".toList, "lost".toList, ["/lost.scss".toList, "/_lost.scss".toList]⟩]
  failures := []

theorem strays_dangling_exact :
    Builds strays { cwd := ['/'], dialect := .scss } ["no.scss".toList, "m.scss".toList, "no.scss".toList]
        straysGraph ∧
      straysGraph.dangling.Perm
        (["no.scss".toList, "m.scss".toList, "no.scss".toList].filterMap
            (entryRecord? strays { cwd := ['/'], dialect := .scss }) ++
          straysGraph.reachable.flatMap (importRecords strays { cwd := ['/'], dialect := .scss })) := by
  have built : Builds strays { cwd := ['/'], dialect := .scss }
      ["no.scss".toList, "m.scss".toList, "no.scss".toList] straysGraph := ⟨2, by decide +kernel⟩
  exact ⟨built, (dangling_exact _ _ _ _ built).2.1⟩

end SheetReach.ImportGraph
