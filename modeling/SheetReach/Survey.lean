import SheetReach.Exclusion
import SheetReach.ImportGraph
import SheetReach.Listing
import SheetReach.Traced

/-! Looking over a directory: its dialect, its entry points, what they reach and what they do not. -/
namespace SheetReach

inductive Failure where
  | noDirectory (path : Path)
  | unknownDialect (name : List Char)
  | exclusion (refusal : Exclusion.Refusal)
  | access (error : AccessError)
  deriving DecidableEq, Repr

namespace Failure

def message : Failure → String
  | noDirectory path => "Path does not exist or is not a directory: " ++ String.ofList path
  | unknownDialect name =>
    "Unknown syntax " ++ String.ofList (Text.Quoted.encode name) ++ " (expected one of: "
      ++ String.ofList (Text.joinWith [',', ' '] (Dialect.all.map Dialect.name)) ++ ")"
  | exclusion refusal => refusal.message
  | access error => error.message

/-- A failure that lies in what was asked for and is told as such. -/
def isRefusal : Failure → Bool
  | noDirectory _ | unknownDialect _ => true
  | exclusion ⟨_, .flaw _ _⟩ => true
  | exclusion _ | access _ => false

end Failure

inductive DialectChoice where
  | detect
  | named (name : List Char)
  | fixed (dialect : Dialect)
  deriving DecidableEq, Repr

/-- What to look over and how. Without entry points, all files of the dialect in the directory itself
are entry points. -/
structure Request where
  root : Path := Path.here
  entryPoints : Option (List Path) := none
  exclude : List (List Char) := []
  choice : DialectChoice := .detect
  warnUnresolved : Bool := false
  allDialects : Bool := false
  deriving DecidableEq, Repr

structure Survey where
  root : Path
  dialect : Dialect
  entryPoints : List Path := []
  reachable : List Path := []
  unused : List Path := []
  dangling : List DanglingImport := []
  failures : List ReadFailure := []
  deriving DecidableEq, Repr

namespace Workspace

def dialectNamed (name : List Char) : Except Failure Dialect :=
  match Dialect.ofName? name with
  | some dialect => .ok dialect
  | none => .error (.unknownDialect name)

/-- The names of the files in a directory itself, links to files included, in listing order. -/
def topFiles (workspace : Workspace) (directory : Path) : Except AccessError (List Name) := do
  let children ← workspace.list directory
  let files ← children.filterM fun (name, entry) => workspace.isFile directory name entry
  return files.map (·.1)

def detectDialect (workspace : Workspace) (directory : Path) : Except AccessError Dialect :=
  (workspace.topFiles directory).map Dialect.ofNames

/-- The files of a dialect in a directory itself, as normal paths in order. -/
def entryPoints (workspace : Workspace) (root : Path) (dialect : Dialect) :
    Except AccessError (List Path) :=
  (workspace.topFiles root).map fun names =>
    Text.sort ((names.filter dialect.owns).map fun name => workspace.normalize (Path.join root name))

/-- The files below a directory in the order of the walk. What cannot be listed is reported. -/
def files (workspace : Workspace) (root : Path) : Traced AccessError (List Path) := do
  let listed ← .ofExcept (workspace.listAll root)
  .emit (listed.filterMap fun
    | .file _ => none
    | .unlistable path reason => some (.unlistable path reason.message))
  return listed.filterMap fun
    | .file path => some path
    | .unlistable _ _ => none

/-- What becomes of one listed item in the search for unused files. -/
def considerUnused (workspace : Workspace) (reachable : List Path) (exclusions : List Exclusion)
    (extensions : List (List Char)) : Listed → List Event × Option Path
  | .unlistable path reason => ([.unlistable path reason.message], none)
  | .file given =>
    let path := workspace.normalize given
    if !extensions.any (Text.endsWith · path) then ([], none)
    else if Exclusion.anyIn exclusions path then ([.excluded path], none)
    else if reachable.contains path then ([], none)
    else ([], some path)

/-- The files below a directory with one of the extensions that are neither reachable nor excluded, as
normal paths in order. -/
def unusedFiles (workspace : Workspace) (root : Path) (reachable : List Path)
    (exclusions : List Exclusion) (extensions : List (List Char)) : Traced AccessError (List Path) := do
  let listed ← .ofExcept (workspace.listAll root)
  let considered := listed.map (workspace.considerUnused reachable exclusions extensions)
  .emit (considered.flatMap (·.1))
  return Text.sort (considered.filterMap (·.2))

def reaching {α : Type} (access : Traced AccessError α) : Traced Failure α :=
  ⟨access.events, access.result.mapError .access⟩

/-- The dialect a survey is made in: the chosen one, else that of the first entry point whose ending
tells one, else the one that the directory speaks for. -/
def chooseDialect (workspace : Workspace) (root : Path) (request : Request) : Except Failure Dialect :=
  let detected :=
    match (request.entryPoints.getD []).findSome? Dialect.ofPath? with
    | some dialect => .ok dialect
    | none => (workspace.detectDialect root).mapError .access
  match request.choice with
  | .fixed dialect => .ok dialect
  | .named name => if name.isEmpty then detected else dialectNamed name
  | .detect => detected

/-- The normal path of a directory that is there. -/
def checkRoot (workspace : Workspace) (root : Path) : Except Failure Path :=
  match workspace.isDirectory root with
  | .error error => .error (.access error)
  | .ok true => .ok (workspace.normalize root)
  | .ok false => .error (.noDirectory (workspace.normalize root))

def importGraph (workspace : Workspace) (config : ImportGraph.Config) (entries : List Path) :
    Traced AccessError ImportGraph :=
  let state := ImportGraph.traceIn workspace config entries
  ⟨state.events.reverse, if state.stopped then .error .nullCharacter else .ok state.graph⟩

def survey (workspace : Workspace) (request : Request) : Traced Failure Survey := do
  let root ← .ofExcept (workspace.checkRoot request.root)
  let exclusions ← .ofExcept ((Exclusion.parseAll request.exclude).mapError .exclusion)
  let dialect ← .ofExcept (workspace.chooseDialect root request)
  .emit [.usingDialect dialect root]
  let entries ← match request.entryPoints with
    | none => .ofExcept ((workspace.entryPoints root dialect).mapError .access)
    | some given => pure (given.map workspace.normalize)
  if entries.isEmpty then
    .emit [.noEntryPoints root]
    return { root, dialect }
  let enabled := if request.allDialects then Dialect.all else [dialect]
  let graph ← reaching (workspace.importGraph
    { cwd := pathOf workspace.cwd, dialect, others := enabled, warnUnresolved := request.warnUnresolved }
    entries)
  .emit [.found graph.reachable.length]
  let unused ← reaching (workspace.unusedFiles root graph.reachable exclusions
    (enabled.map Dialect.extension))
  return { root, dialect, entryPoints := entries, reachable := graph.reachable, unused,
           dangling := graph.dangling, failures := graph.failures }

/-- What deleting files comes to: the tree that is left, how many are gone, what was reported, and
what stopped it, if anything did. -/
structure Deletion where
  workspace : Workspace
  count : Nat := 0
  events : List Event := []
  error : Option AccessError := none

/-- Deletes the files and links that paths name, in order; a path that leads nowhere is passed over,
and the first refusal ends it. -/
def deleteFiles (workspace : Workspace) : List Path → Deletion
  | [] => { workspace }
  | path :: others =>
    match workspace.exists? path with
    | .error error => { workspace, error }
    | .ok false => workspace.deleteFiles others
    | .ok true =>
      match workspace.unlink (Path.tidy path) with
      | .error error => { workspace, error }
      | .ok next =>
        let rest := next.deleteFiles others
        { rest with count := rest.count + 1, events := .deleted (Path.tidy path) :: rest.events }

end Workspace

end SheetReach
