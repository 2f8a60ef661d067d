import SheetReach.FileTree.Lookup
import SheetReach.Text.Order

/-!
A tree with a working directory, and what programs ask of it. Whatever stands in the tree may be listed, read
and taken out. Left out are permissions, special files (pipes, sockets, devices), names of octets that cannot be
decoded to a text, and changes that others make to the tree in the meantime.
-/
namespace SheetReach

/-- A file tree together with a working directory in it. -/
structure Workspace where
  tree : FileTree
  cwd : Location := []

namespace Workspace

def pathOf (location : Location) : Path :=
  '/' :: Text.joinWith ['/'] location.reverse

def normalize (workspace : Workspace) (path : Path) : Path :=
  Path.normalize (pathOf workspace.cwd) path

def locate (workspace : Workspace) (follow : Bool) (path : Path) :
    Except AccessError FileTree.Place :=
  if path.contains '\x00' then .error .nullCharacter
  else (workspace.tree.locate workspace.cwd follow path).mapError (.fault · path)

def entryAt (workspace : Workspace) (path : Path) : Except AccessError Entry :=
  (workspace.locate true path).map (·.entry)

def readText (workspace : Workspace) (path : Path) : Except AccessError (List Char) :=
  match workspace.entryAt path with
  | .error error => .error error
  | .ok (.file content) => .ok content.text
  | .ok _ => .error (.fault .isDirectory path)

/-- The names in the directory at a path with their entries, in listing order. -/
def list (workspace : Workspace) (path : Path) : Except AccessError (List (Name × Entry)) :=
  match workspace.locate true path with
  | .error error => .error error
  | .ok ⟨location, .directory⟩ => .ok (workspace.tree.children location)
  | .ok _ => .error (.fault .notDirectory path)

/-- What a listed entry is once links are followed; a link to nothing is nothing. -/
def settle (workspace : Workspace) (directory : Path) (name : Name) (entry : Entry) :
    Except AccessError (Option Entry) :=
  match entry with
  | .link _ =>
    match workspace.entryAt (Path.join directory name) with
    | .ok target => .ok (some target)
    | .error (.fault .missing _) => .ok none
    | .error error => .error error
  | other => .ok (some other)

def isFile (workspace : Workspace) (directory : Path) (name : Name) (entry : Entry) :
    Except AccessError Bool :=
  (workspace.settle directory name entry).map fun
    | some (.file _) => true
    | _ => false

/-- The entry at the end of a tidied path, if there is one. A name too long is refused; every other
obstacle, a NUL character included, means that there is none. -/
def probe (workspace : Workspace) (path : Path) : Except AccessError (Option Entry) :=
  match workspace.entryAt (Path.tidy path) with
  | .ok entry => .ok (some entry)
  | .error (.fault .nameTooLong shown) => .error (.fault .nameTooLong shown)
  | .error _ => .ok none

def isDirectory (workspace : Workspace) (path : Path) : Except AccessError Bool :=
  (workspace.probe path).map (· == some .directory)

def exists? (workspace : Workspace) (path : Path) : Except AccessError Bool :=
  (workspace.probe path).map (·.isSome)

/-- The workspace without the file or link that a path names; a link itself goes, not its target. -/
def unlink (workspace : Workspace) (path : Path) : Except AccessError Workspace :=
  match workspace.locate false path with
  | .error error => .error error
  | .ok ⟨_, .directory⟩ => .error (.fault .isDirectory path)
  | .ok ⟨location, _⟩ => .ok { workspace with tree := workspace.tree.erase location }

/-- The size in octets of what stands at a path; directories count as one block. -/
def sizeAt (workspace : Workspace) (path : Path) : Except AccessError Nat :=
  (workspace.entryAt path).map fun
    | .file content => content.size
    | _ => 4096

end Workspace

end SheetReach
