import SheetReach.Proofs.Outcome
import SheetReach.Survey

/-! A survey taken apart: it succeeds exactly when its parts do, and is put together from what they give. -/
namespace SheetReach

/-- The dialects whose files are followed and reported. -/
def Request.enabled (request : Request) (dialect : Dialect) : List Dialect :=
  if request.allDialects then Dialect.all else [dialect]

namespace Workspace

/-- How a survey follows imports. -/
def graphConfig (workspace : Workspace) (request : Request) (dialect : Dialect) : ImportGraph.Config where
  cwd := pathOf workspace.cwd
  dialect := dialect
  others := request.enabled dialect
  warnUnresolved := request.warnUnresolved

/-- The entry points of a survey: those given, in normal form, or those of the directory. -/
def startingPoints (workspace : Workspace) (root : Path) (dialect : Dialect) (request : Request) :
    Except AccessError (List Path) :=
  match request.entryPoints with
  | none => workspace.entryPoints root dialect
  | some given => .ok (given.map workspace.normalize)

/-- What a survey does once its directory, dialect and entry points are known. -/
def lookFrom (workspace : Workspace) (request : Request) (exclusions : List Exclusion) (root : Path)
    (dialect : Dialect) (entries : List Path) : Except Failure Survey :=
  if entries.isEmpty then .ok { root, dialect }
  else do
    let graph ← (workspace.importGraph (workspace.graphConfig request dialect) entries).result.mapError
      .access
    let unused ← (workspace.unusedFiles root graph.reachable exclusions
      ((request.enabled dialect).map Dialect.extension)).result.mapError .access
    .ok { root, dialect, entryPoints := entries, reachable := graph.reachable, unused,
          dangling := graph.dangling, failures := graph.failures }

/-- A choice of the dialect holds in another workspace if what a directory tells holds there. -/
theorem chooseDialect_of_detected {workspace other : Workspace} {root : Path} {request : Request}
    {dialect : Dialect}
    (again : workspace.detectDialect root = .ok dialect → other.detectDialect root = .ok dialect)
    (chosen : workspace.chooseDialect root request = .ok dialect) :
    other.chooseDialect root request = .ok dialect := by
  cases told : (request.entryPoints.getD []).findSome? Dialect.ofPath? with
  | some found => simpa only [chooseDialect, told] using chosen
  | none =>
    simp only [← Except.mapError_eq_ok_iff Failure.access] at again
    simp only [chooseDialect, told] at chosen ⊢
    cases choice : request.choice with
    | fixed named => simpa only [choice] using chosen
    | detect =>
      simp only [choice] at chosen ⊢
      exact again chosen
    | named name =>
      simp only [choice] at chosen ⊢
      split
      next empty =>
        rw [if_pos empty] at chosen
        exact again chosen
      next given =>
        rw [if_neg given] at chosen
        exact chosen

theorem survey_result (workspace : Workspace) (request : Request) :
    (workspace.survey request).result = (do
      let root ← workspace.checkRoot request.root
      let exclusions ← (Exclusion.parseAll request.exclude).mapError .exclusion
      let dialect ← workspace.chooseDialect root request
      let entries ← (workspace.startingPoints root dialect request).mapError .access
      workspace.lookFrom request exclusions root dialect entries) := by
  have tail (exclusions : List Exclusion) (root : Path) (dialect : Dialect) (entries : List Path) :
      (if entries.isEmpty = true then do
          Traced.emit [Event.noEntryPoints root]
          pure { root, dialect }
        else do
          let graph ← reaching (workspace.importGraph
            { cwd := pathOf workspace.cwd, dialect,
              others := if request.allDialects = true then Dialect.all else [dialect],
              warnUnresolved := request.warnUnresolved } entries)
          Traced.emit [Event.found graph.reachable.length]
          let unused ← reaching (workspace.unusedFiles root graph.reachable exclusions
            ((if request.allDialects = true then Dialect.all else [dialect]).map Dialect.extension))
          pure { root, dialect, entryPoints := entries, reachable := graph.reachable, unused,
                 dangling := graph.dangling, failures := graph.failures } :
        Traced Failure Survey).result =
      workspace.lookFrom request exclusions root dialect entries := by
    unfold lookFrom
    split
    next => rfl
    next =>
      simp only [Traced.result_bind, Traced.result_emit, Traced.result_pure, Except.ok_bind, reaching,
        graphConfig, Request.enabled]
  unfold survey startingPoints
  cases request.entryPoints with
  | none =>
    simp only [Traced.result_bind, Traced.result_ofExcept, Traced.result_emit, Except.ok_bind, tail]
  | some given =>
    simp only [Traced.result_bind, Traced.result_ofExcept, Traced.result_emit, Traced.result_pure,
      Except.ok_bind, tail, Except.mapError_ok]

theorem lookFrom_eq_ok_iff (workspace : Workspace) (request : Request) (exclusions : List Exclusion)
    (root : Path) (dialect : Dialect) (entries : List Path) (survey : Survey) :
    workspace.lookFrom request exclusions root dialect entries = .ok survey ↔
      survey.root = root ∧ survey.dialect = dialect ∧ survey.entryPoints = entries ∧
        ((entries = [] ∧ survey.reachable = [] ∧ survey.unused = [] ∧ survey.dangling = [] ∧
            survey.failures = []) ∨
          (entries ≠ [] ∧
            (workspace.importGraph (workspace.graphConfig request dialect) entries).result =
              .ok ⟨survey.reachable, survey.dangling, survey.failures⟩ ∧
            (workspace.unusedFiles root survey.reachable exclusions
              ((request.enabled dialect).map Dialect.extension)).result = .ok survey.unused)) := by
  obtain ⟨_, _, _, reachable, unused, dangling, failures⟩ := survey
  unfold lookFrom
  split
  next empty =>
    simp only [List.isEmpty_iff] at empty
    simp only [empty, Except.ok.injEq, Survey.mk.injEq, ne_eq, not_true, false_and, or_false, true_and]
    grind
  next entered =>
    simp only [List.isEmpty_iff] at entered
    simp only [Except.bind_eq_ok_iff, Except.mapError_eq_ok_iff, Except.ok.injEq, Survey.mk.injEq, entered,
      false_and, false_or, ne_eq, not_false_eq_true, true_and]
    constructor
    · rintro ⟨⟨_, _, _⟩, built, listing, listed, rfl, rfl, rfl, rfl, rfl, rfl, rfl⟩
      exact ⟨rfl, rfl, rfl, built, listed⟩
    · rintro ⟨rfl, rfl, rfl, built, listed⟩
      exact ⟨_, built, _, listed, rfl, rfl, rfl, rfl, rfl, rfl, rfl⟩

theorem survey_eq_ok_iff (workspace : Workspace) (request : Request) (survey : Survey) :
    (workspace.survey request).result = .ok survey ↔
      ∃ exclusions, workspace.checkRoot request.root = .ok survey.root ∧
        Exclusion.parseAll request.exclude = .ok exclusions ∧
        workspace.chooseDialect survey.root request = .ok survey.dialect ∧
        workspace.startingPoints survey.root survey.dialect request = .ok survey.entryPoints ∧
        ((survey.entryPoints = [] ∧ survey.reachable = [] ∧ survey.unused = [] ∧ survey.dangling = [] ∧
            survey.failures = []) ∨
          (survey.entryPoints ≠ [] ∧
            (workspace.importGraph (workspace.graphConfig request survey.dialect)
              survey.entryPoints).result = .ok ⟨survey.reachable, survey.dangling, survey.failures⟩ ∧
            (workspace.unusedFiles survey.root survey.reachable exclusions
              ((request.enabled survey.dialect).map Dialect.extension)).result = .ok survey.unused)) := by
  simp only [survey_result, Except.bind_eq_ok_iff, Except.mapError_eq_ok_iff]
  constructor
  · rintro ⟨root, rooted, exclusions, parsed, dialect, chosen, entries, started, looked⟩
    obtain ⟨rfl, rfl, rfl, found⟩ := (lookFrom_eq_ok_iff ..).1 looked
    exact ⟨exclusions, rooted, parsed, chosen, started, found⟩
  · rintro ⟨exclusions, rooted, parsed, chosen, started, found⟩
    exact ⟨_, rooted, exclusions, parsed, _, chosen, _, started,
      (lookFrom_eq_ok_iff ..).2 ⟨rfl, rfl, rfl, found⟩⟩

end Workspace

end SheetReach
