import SheetReach.CommandLine.Run
import SheetReach.Report.Boxed

/-!
The command on the real file tree. What the command may look at is loaded first: the directory to look
over, the directories of the entry points, and every file outside them that an import names. The run itself
is a function of that tree; afterwards its output is written and the files it deleted are removed.
-/
namespace SheetReach.Main

open CommandLine

def locationOf (path : String) : Location :=
  (Path.names path.toList).reverse

/-- The path once all links are followed, if it leads anywhere. -/
def realPath? (path : String) : IO (Option String) := do
  match ← (IO.FS.realPath path).toBaseIO with
  | .ok real => return some real.toString
  | .error _ => return none

/-- The target of a link that leads nowhere: a name that nothing has. -/
def nowhere : Path := ['\x00']

/-- Files that are no stylesheets count only by their size. -/
def isRead (wanted : List Location) (location : Location) : Bool :=
  wanted.contains location || (location.head?.any fun name => Dialect.all.any (·.owns name))

def lacks (wanted : List Location) (tree : FileTree) (location : Location) : Bool :=
  match tree.find? location with
  | none => true
  | some (.file (.zeros _)) => isRead wanted location
  | some _ => false

/-- Loads what stands at a path with no link on the way to it, directories with all that is in them, and
what links in them lead to. -/
partial def load (wanted : List Location) (tree : FileTree) (path : String) : IO FileTree := do
  let location := locationOf path
  match ← (readDirectory path).toBaseIO with
  | .error _ => loadFile location
  | .ok children =>
    let mut tree := tree.plant location .directory
    for (child, target) in children do
      let place := locationOf child
      if (tree.find? place).isNone then
        match target with
        | none => tree := tree.plant place (.link nowhere)
        | some target =>
          if target ≠ child then
            tree := tree.plant place (.link target.toList)
          let goal := locationOf target
          let wanted := if isRead wanted place then goal :: wanted else wanted
          if lacks wanted tree goal then
            tree ← load wanted tree target
    return tree
where
  /-- The paths in a directory, each with what it leads to once links are followed. -/
  readDirectory (path : String) : IO (List (String × Option String)) := do
    let directory ← IO.FS.realPath path
    let children ← directory.readDir
    children.toList.mapM fun child => do
      return (child.path.toString, ← realPath? child.path.toString)
  /-- Loads a file; what cannot be read is left out. -/
  loadFile (location : Location) : IO FileTree := do
    try
      if isRead wanted location then
        let octets ← IO.FS.readBinFile path
        return tree.plant location (.file (.octets octets.toList))
      else
        let file ← IO.FS.realPath path
        let facts ← file.metadata
        return tree.plant location (.file (.zeros facts.byteSize.toNat))
    catch _ => return tree

def loadAll (tree : FileTree) (paths : List Path) : IO FileTree := do
  let mut tree := tree
  for path in paths do
    if let some real ← realPath? (String.ofList path) then
      let location := locationOf real
      if lacks [location] tree location then
        tree ← load [location] tree real
  return tree

/-- The paths at which the imports of a survey were looked for in vain. -/
def missed (workspace : Workspace) (request : Request) : List Path :=
  match (workspace.survey request).result with
  | .ok survey => survey.dangling.flatMap (·.candidates)
  | .error _ => []

/-- Loads files that imports name until no further one is found. -/
partial def loadImports (request : Request) (workspace : Workspace) : IO Workspace := do
  let tree ← loadAll workspace.tree (missed workspace request)
  if tree.entries.length = workspace.tree.entries.length then return workspace
  else loadImports request { workspace with tree }

def workspaceFor (cwd : Location) (request : Request) : IO Workspace := do
  let bare : Workspace := { tree := ({} : FileTree).plant cwd .directory, cwd }
  let entries := (request.entryPoints.getD []).map bare.normalize
  let tree ← match ← realPath? (String.ofList (bare.normalize request.root)) with
    | some root => load [] bare.tree root
    | none => pure bare.tree
  loadImports request { bare with tree := ← loadAll tree entries }

def removeDeleted (before after : FileTree) : IO Unit := do
  for (location, _) in before.entries do
    if (after.find? location).isNone then
      IO.FS.removeFile (String.ofList (Workspace.pathOf location))

def finish (outcome : Outcome) : IO UInt32 := do
  IO.print outcome.output
  IO.eprint outcome.errors
  match outcome.ending with
  | .exit status => return status.toUInt32
  | .refusal message => do IO.eprintln message; return 1
  | .crash crash => do IO.eprintln crash.message; return 1

end SheetReach.Main

open SheetReach in
def main (arguments : List String) : IO UInt32 := do
  let words := arguments.map String.toList
  let cwd := Main.locationOf (← IO.currentDir).toString
  let columns := ((← IO.getEnv "COLUMNS").bind String.toNat?).getD 80
  let shell : CommandLine.Shell := { convention := .strict, console := .boxed, columns }
  let workspace ← match CommandLine.Settings.ofArguments shell.convention words with
    | .ok settings =>
      match settings.path with
      | some root => Main.workspaceFor cwd (settings.request root)
      | none => pure { tree := {}, cwd }
    | .error _ => pure { tree := {}, cwd }
  let outcome := CommandLine.run shell words workspace
  Main.removeDeleted workspace.tree outcome.workspace.tree
  Main.finish outcome
