import SheetReach.FileTree.Basic

/-! Following a path through the tree: names one by one, links replaced by their targets, at most
forty of them. -/
namespace SheetReach.FileTree

structure Place where
  location : Location
  entry : Entry

def nameLimit : Nat := 255

/-- The octets from which on a path is refused. -/
def pathLimit : Nat := 4096

def linkLimit : Nat := 40

/-- The names of a path as steps; a trailing slash adds a step that only a directory admits. -/
def steps (path : Path) : List Name :=
  if path.getLast? == some '/' then Path.names path ++ [Path.here] else Path.names path

def origin (base : Location) (path : Path) : Location :=
  if Path.isAbsolute path then [] else base

/-- Takes the steps from a directory. A link in last place is followed only on demand, and `onLink`
continues from the directory of a followed link, given its target and the steps left. -/
def takeSteps (tree : FileTree) (follow : Bool)
    (onLink : Location → Path → List Name → Except Fault Place) :
    Location → List Name → Except Fault Place
  | base, [] => .ok ⟨base, .directory⟩
  | base, name :: rest =>
    if name = Path.here then takeSteps tree follow onLink base rest
    else if name = Path.up then takeSteps tree follow onLink base.tail rest
    else if nameLimit < Text.byteLength name then .error .nameTooLong
    else match tree.find? (name :: base) with
      | none => .error .missing
      | some .directory => takeSteps tree follow onLink (name :: base) rest
      | some (.file content) =>
        if rest.isEmpty then .ok ⟨name :: base, .file content⟩ else .error .notDirectory
      | some (.link target) =>
        if rest.isEmpty && !follow then .ok ⟨name :: base, .link target⟩ else onLink base target rest

/-- Takes the steps from a directory, with so many links still allowed. -/
def chase (tree : FileTree) (follow : Bool) : Nat → Location → List Name → Except Fault Place
  | 0 => tree.takeSteps follow fun _ _ _ => .error .linkLoop
  | links + 1 => tree.takeSteps follow fun base target rest =>
      chase tree follow links (origin base target) (steps target ++ rest)

/-- Where a path leads, seen from a working directory. With `follow`, a link in last place stands for
its target. -/
def locate (tree : FileTree) (cwd : Location) (follow : Bool) (path : Path) : Except Fault Place :=
  if path.isEmpty then .error .missing
  else if pathLimit ≤ Text.byteLength path then .error .nameTooLong
  else tree.chase follow linkLimit (origin cwd path) (steps path)

end SheetReach.FileTree
