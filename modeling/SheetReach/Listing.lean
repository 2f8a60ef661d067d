import SheetReach.Workspace

/-! All files below a directory, real directories only, in a fixed order: a directory's own files by
name, then its subdirectories one after the other by name. A listing goes down to the deepest directory; a
walk that gives up when directories are nested too deeply for its own recursion is left out. -/
namespace SheetReach

/-- What a listing meets: a file, or a directory that cannot be listed. -/
inductive Listed where
  | file (path : Path)
  | unlistable (path : Path) (reason : AccessError)
  deriving DecidableEq, Repr

def FileTree.depth (tree : FileTree) : Nat :=
  (tree.entries.map (·.1.length)).foldl max 0

namespace Workspace

/-- A listed entry is a directory or a link to one. What cannot be told is none. -/
def leadsToDirectory (workspace : Workspace) (directory : Path) (name : Name) (entry : Entry) : Bool :=
  match workspace.settle directory name entry with
  | .ok (some .directory) => true
  | _ => false

/-- The names in a directory that count as files: all but directories and links to directories. -/
def fileNames (workspace : Workspace) (directory : Path) (children : List (Name × Entry)) : List Name :=
  (children.filter fun (name, entry) => !workspace.leadsToDirectory directory name entry).map (·.1)

/-- The names of real directories among the entries of one. -/
def directoryNames (children : List (Name × Entry)) : List Name :=
  (children.filter (·.2 == .directory)).map (·.1)

def listBelow (workspace : Workspace) : Nat → Path → List Listed
  | 0, _ => []
  | levels + 1, directory =>
    match workspace.list directory with
    | .error reason => [.unlistable directory reason]
    | .ok children =>
      (Text.sort (workspace.fileNames directory children)).map (fun name => .file (Path.join directory name))
        ++ (Text.sort (directoryNames children)).flatMap fun name =>
            workspace.listBelow levels (Path.join directory name)

def listAll (workspace : Workspace) (root : Path) : Except AccessError (List Listed) :=
  if root.contains '\x00' then .error .nullCharacter
  else .ok (workspace.listBelow (workspace.tree.depth + 1) root)

end Workspace

end SheetReach
