import SheetReach.Proofs.StepLimit
import SheetReach.Proofs.SurveyParts
import SheetReach.Proofs.TextParts
import SheetReach.Proofs.WalkOrder

/-! What a survey reports as unused: the files found below its root that have an enabled ending, match no
exclusion and are not reachable, each once and in code-point order. -/
namespace SheetReach

theorem Dialect.slash_not_mem_extension (dialect : Dialect) : '/' ∉ dialect.extension := by
  cases dialect <;> decide

namespace Workspace

/-- A path that would be reported if it were found: it has one of the endings, no exclusion is found in
it, and it is not reachable. -/
structure Reportable (reachable : List Path) (exclusions : List Exclusion) (extensions : List (List Char))
    (path : Path) : Prop where
  ending : ∃ extension ∈ extensions, extension <:+ path
  unmatched : ∀ exclusion ∈ exclusions, exclusion.node.foundIn path = false
  unreached : path ∉ reachable

theorem reportable_iff (reachable : List Path) (exclusions : List Exclusion)
    (extensions : List (List Char)) (path : Path) :
    Reportable reachable exclusions extensions path ↔
      extensions.any (Text.endsWith · path) = true ∧ Exclusion.anyIn exclusions path = false ∧
        reachable.contains path = false := by
  have ending : extensions.any (Text.endsWith · path) = true ↔
      ∃ extension ∈ extensions, extension <:+ path := by
    simp only [List.any_eq_true, Text.endsWith_iff]
  have unmatched : Exclusion.anyIn exclusions path = false ↔
      ∀ exclusion ∈ exclusions, exclusion.node.foundIn path = false := by
    simp [Exclusion.anyIn]
  have unreached : reachable.contains path = false ↔ path ∉ reachable := by simp
  rw [ending, unmatched, unreached]
  exact ⟨fun ⟨ends, clear, new⟩ => ⟨ends, clear, new⟩, fun ⟨ends, clear, new⟩ => ⟨ends, clear, new⟩⟩

theorem considerUnused_eq_some_iff (workspace : Workspace) (reachable : List Path)
    (exclusions : List Exclusion) (extensions : List (List Char)) (item : Listed) (path : Path) :
    (workspace.considerUnused reachable exclusions extensions item).2 = some path ↔
      ∃ given, item = .file given ∧ path = workspace.normalize given ∧
        Reportable reachable exclusions extensions path := by
  cases item with
  | unlistable other reason => simp [considerUnused]
  | file given =>
    simp only [considerUnused, Listed.file.injEq, exists_eq_left', reportable_iff]
    generalize workspace.normalize given = full
    grind

section Root

variable {workspace : Workspace} {mark : Path} {names : List Name}
  (marked : Path.IsMark mark) (legal : ∀ name ∈ names, Path.Legal name)

include marked legal

theorem unusedFiles_spec {reachable : List Path} {exclusions : List Exclusion}
    {extensions : List (List Char)} {unused : List Path}
    (found : (workspace.unusedFiles (Path.spell mark names) reachable exclusions extensions).result =
      .ok unused) :
    unused.Pairwise (· < ·) ∧
      ∀ path, path ∈ unused ↔
        (∃ way, workspace.FoundBelow (Path.spell mark names) way ∧ path = Path.spell mark (names ++ way)) ∧
          Reportable reachable exclusions extensions path := by
  simp only [unusedFiles, Traced.result_bind, Traced.result_ofExcept, Traced.result_emit,
    Traced.result_pure, Except.bind_eq_ok_iff, Except.ok.injEq] at found
  obtain ⟨listed, lists, -, -, rfl⟩ := found
  obtain ⟨distinct, members⟩ := listAll_files marked legal lists
  have normal : ∀ {given}, .file given ∈ listed → workspace.normalize given = given := by
    intro given member
    obtain ⟨way, below, rfl⟩ := (members given).mp ((mem_filterMap_file _ _).mpr member)
    exact Path.normalize_spell _ mark _ marked (below.legal_append marked legal)
  constructor
  · apply Text.sort_strict
    rw [List.filterMap_map, List.Nodup, List.pairwise_filterMap]
    rw [List.Nodup, List.pairwise_filterMap] at distinct
    refine distinct.imp_of_mem ?_
    intro first second firstMember secondMember apart path kept other otherKept
    obtain ⟨given, rfl, rfl, -⟩ := (considerUnused_eq_some_iff _ _ _ _ _ _).mp kept
    obtain ⟨otherGiven, rfl, rfl, -⟩ := (considerUnused_eq_some_iff _ _ _ _ _ _).mp otherKept
    rw [normal firstMember, normal secondMember]
    exact apart given rfl otherGiven rfl
  · intro path
    rw [Text.mem_sort, ← members, mem_filterMap_file, List.filterMap_map, List.mem_filterMap]
    constructor
    · rintro ⟨item, member, kept⟩
      obtain ⟨given, rfl, rfl, reportable⟩ := (considerUnused_eq_some_iff _ _ _ _ _ _).mp kept
      rw [normal member] at reportable ⊢
      exact ⟨member, reportable⟩
    · rintro ⟨member, reportable⟩
      exact ⟨.file path, member, (considerUnused_eq_some_iff _ _ _ _ _ _).mpr
        ⟨path, rfl, (normal member).symm, reportable⟩⟩

end Root

theorem checkRoot_eq_ok_iff (workspace : Workspace) (given root : Path) :
    workspace.checkRoot given = .ok root ↔
      root = workspace.normalize given ∧ '\x00' ∉ Path.tidy given ∧ ∃ place,
        workspace.tree.locate workspace.cwd true (Path.tidy given) = .ok ⟨place, .directory⟩ := by
  unfold checkRoot isDirectory probe entryAt locate
  by_cases null : '\x00' ∈ Path.tidy given
  · simp [null]
  · cases workspace.tree.locate workspace.cwd true (Path.tidy given) with
    | error fault => cases fault <;> simp [null]
    | ok place =>
      obtain ⟨location, entry⟩ := place
      by_cases kind : entry = .directory
      · simp [null, kind, eq_comm]
      · have other : (entry == .directory) = false := by simpa using kind
        simp [null, kind, other]

theorem survey_root {workspace : Workspace} {request : Request} {survey : Survey}
    (returned : (workspace.survey request).result = .ok survey) :
    survey.root = workspace.normalize request.root := by
  obtain ⟨-, rooted, -⟩ := (survey_eq_ok_iff _ _ _).mp returned
  exact ((checkRoot_eq_ok_iff _ _ _).mp rooted).1

theorem survey_root_normal {workspace : Workspace} {request : Request} {survey : Survey}
    (returned : (workspace.survey request).result = .ok survey) : Path.Normal survey.root := by
  rw [survey_root returned]
  exact Path.normalize_normal _ _

theorem survey_builds {workspace : Workspace} {request : Request} {survey : Survey}
    (returned : (workspace.survey request).result = .ok survey) (entered : survey.entryPoints ≠ []) :
    ImportGraph.Builds (ImportGraph.snapshot workspace) (workspace.graphConfig request survey.dialect)
      survey.entryPoints ⟨survey.reachable, survey.dangling, survey.failures⟩ := by
  obtain ⟨-, -, -, -, -, ⟨empty, -⟩ | ⟨-, built, -⟩⟩ := (survey_eq_ok_iff _ _ _).mp returned
  · exact absurd empty entered
  · exact (importGraph_eq_ok_iff _ _ _ _).mp built

theorem survey_unused {workspace : Workspace} {request : Request} {survey : Survey}
    (returned : (workspace.survey request).result = .ok survey)
    (entered : survey.entryPoints ≠ []) {mark : Path} {names : List Name} (marked : Path.IsMark mark)
    (legal : ∀ name ∈ names, Path.Legal name) (spelled : survey.root = Path.spell mark names) :
    survey.unused.Pairwise (· < ·) ∧
      ∃ exclusions, Exclusion.parseAll request.exclude = .ok exclusions ∧
        ∀ path, path ∈ survey.unused ↔
          (∃ way, workspace.FoundBelow (Path.spell mark names) way ∧
            path = Path.spell mark (names ++ way)) ∧
          Reportable survey.reachable exclusions
            ((request.enabled survey.dialect).map Dialect.extension) path := by
  obtain ⟨exclusions, -, parsed, -, -, ⟨empty, -⟩ | ⟨-, -, listed⟩⟩ := (survey_eq_ok_iff _ _ _).mp returned
  · exact absurd empty entered
  rw [spelled] at listed
  obtain ⟨increasing, members⟩ := unusedFiles_spec marked legal listed
  exact ⟨increasing, exclusions, parsed, members⟩

theorem survey_unused_listed {workspace : Workspace} {request : Request} {survey : Survey}
    (returned : (workspace.survey request).result = .ok survey) {path : Path}
    (member : path ∈ survey.unused) :
    ∃ given exclusions, path = workspace.normalize given ∧
      Reportable survey.reachable exclusions ((request.enabled survey.dialect).map Dialect.extension) path := by
  obtain ⟨exclusions, -, -, -, -, ⟨-, -, empty, -⟩ | ⟨-, -, listed⟩⟩ := (survey_eq_ok_iff _ _ _).mp returned
  · rw [empty] at member
    cases member
  · simp only [unusedFiles, Traced.result_bind, Traced.result_ofExcept, Traced.result_emit,
      Traced.result_pure, Except.bind_eq_ok_iff, Except.ok.injEq] at listed
    obtain ⟨items, -, -, -, sorted⟩ := listed
    rw [← sorted, Text.mem_sort, List.filterMap_map, List.mem_filterMap] at member
    obtain ⟨item, -, kept⟩ := member
    obtain ⟨given, -, normal, reportable⟩ := (considerUnused_eq_some_iff _ _ _ _ _ _).mp kept
    exact ⟨given, exclusions, normal, reportable⟩

theorem survey_unused_normal {workspace : Workspace} {request : Request} {survey : Survey}
    (returned : (workspace.survey request).result = .ok survey) {path : Path}
    (member : path ∈ survey.unused) : Path.Normal path := by
  obtain ⟨given, -, rfl, -⟩ := survey_unused_listed returned member
  exact Path.normalize_normal _ given

theorem survey_without_entries {workspace : Workspace} {request : Request} {survey : Survey}
    (returned : (workspace.survey request).result = .ok survey) (empty : survey.entryPoints = []) :
    survey.reachable = [] ∧ survey.unused = [] := by
  obtain ⟨-, -, -, -, -, ⟨-, reachable, unused, -⟩ | ⟨entered, -⟩⟩ := (survey_eq_ok_iff _ _ _).mp returned
  · exact ⟨reachable, unused⟩
  · exact absurd empty entered

theorem survey_unused_increasing {workspace : Workspace} {request : Request} {survey : Survey}
    (returned : (workspace.survey request).result = .ok survey) :
    survey.unused.Pairwise (· < ·) := by
  by_cases empty : survey.entryPoints = []
  · rw [(survey_without_entries returned empty).2]
    exact .nil
  · obtain ⟨mark, names, marked, legal, spelled⟩ := survey_root_normal returned
    exact (survey_unused returned empty marked legal spelled).1

/-- The unused files of a survey are exactly the ends of ways through real directories below its root that
are neither directories nor links to them, stand in a directory that can be asked for, have an enabled
ending, match no exclusion and are not reachable from the entry points, in strictly increasing order.
Without entry points nothing is reachable and nothing unused. -/
theorem survey_unused_exact (workspace : Workspace) (request : Request) (survey : Survey)
    (returned : (workspace.survey request).result = .ok survey) :
    survey.root = workspace.normalize request.root ∧
      (survey.entryPoints = [] → survey.reachable = [] ∧ survey.unused = []) ∧
      (survey.entryPoints ≠ [] →
        ImportGraph.Builds (ImportGraph.snapshot workspace)
            (workspace.graphConfig request survey.dialect) survey.entryPoints
            ⟨survey.reachable, survey.dangling, survey.failures⟩ ∧
          survey.unused.Pairwise (· < ·) ∧
          ∃ exclusions, Exclusion.parseAll request.exclude = .ok exclusions ∧
            ∀ path, path ∈ survey.unused ↔
              (∃ top way, workspace.locate true survey.root = .ok ⟨top, .directory⟩ ∧
                workspace.Yields survey.root top way ∧
                path = Path.join survey.root (Text.joinWith ['/'] way)) ∧
              (∃ dialect ∈ request.enabled survey.dialect, dialect.extension <:+ path) ∧
              (∀ exclusion ∈ exclusions, exclusion.node.foundIn path = false) ∧
              path ∉ survey.reachable) := by
  refine ⟨survey_root returned, survey_without_entries returned, fun entered => ?_⟩
  obtain ⟨mark, names, marked, legal, spelled⟩ := survey_root_normal returned
  obtain ⟨increasing, exclusions, parsed, members⟩ := survey_unused returned entered marked legal spelled
  refine ⟨survey_builds returned entered, increasing, exclusions, parsed, fun path => ?_⟩
  rw [members, spelled]
  apply and_congr
  · constructor
    · intro found
      obtain ⟨way, below, same⟩ := found
      obtain ⟨top, leads, yields⟩ := foundBelow_iff_yields.mp below
      rw [← Path.join_joinWith mark names way marked legal (below.legal_way marked legal) below.ne_nil] at same
      exact ⟨top, way, leads, yields, same⟩
    · intro yielded
      obtain ⟨top, way, leads, yields, same⟩ := yielded
      have below := foundBelow_iff_yields.mpr ⟨top, leads, yields⟩
      rw [Path.join_joinWith mark names way marked legal (below.legal_way marked legal) below.ne_nil] at same
      exact ⟨way, below, same⟩
  · constructor
    · rintro ⟨⟨extension, member, ends⟩, unmatched, unreached⟩
      obtain ⟨dialect, enabled, rfl⟩ := List.mem_map.mp member
      exact ⟨⟨dialect, enabled, ends⟩, unmatched, unreached⟩
    · rintro ⟨⟨dialect, enabled, ends⟩, unmatched, unreached⟩
      exact ⟨⟨_, List.mem_map.mpr ⟨dialect, enabled, rfl⟩, ends⟩, unmatched, unreached⟩

/-- Two stylesheets that belong together, one that nothing imports, one that an exclusion names, and a
link to their directory. -/
def shelf : Workspace where
  tree.entries :=
    [(["main.scss".toList], .file (.octets "@import 'sub/a';".toUTF8.toList)),
     (["sub".toList], .directory),
     (["_a.scss".toList, "sub".toList], .file (.octets [])),
     (["_old.scss".toList, "sub".toList], .file (.octets [])),
     (["_kept.scss".toList, "sub".toList], .file (.octets [])),
     (["again".toList], .link "sub".toList)]
  tree.distinct := by decide +kernel
  tree.named := by decide +kernel

def shelfSurvey : Survey where
  root := "/".toList
  dialect := .scss
  entryPoints := ["/main.scss".toList]
  reachable := ["/main.scss".toList, "/sub/_a.scss".toList]
  unused := ["/sub/_old.scss".toList]

theorem shelf_unused_exact :
      (shelf.survey { exclude := ["/kept/".toList] }).result = .ok shelfSurvey ∧
      shelfSurvey.unused.Pairwise (· < ·) ∧
      ∃ top way, shelf.locate true shelfSurvey.root = .ok ⟨top, .directory⟩ ∧
        shelf.Yields shelfSurvey.root top way ∧
        "/sub/_old.scss".toList = Path.join shelfSurvey.root (Text.joinWith ['/'] way) := by
  have returned : (shelf.survey { exclude := ["/kept/".toList] }).result = .ok shelfSurvey := by
    decide +kernel
  obtain ⟨-, -, found⟩ := survey_unused_exact shelf _ shelfSurvey returned
  obtain ⟨-, increasing, _, -, members⟩ := found (List.cons_ne_nil _ _)
  exact ⟨returned, increasing, ((members _).mp (List.mem_singleton_self _)).1⟩

end Workspace

end SheetReach
