import SheetReach.Text.Split

/-! Paths as texts: joining, the absolute normal form, the directory part and the tidied form. -/
namespace SheetReach

/-- A path as written: names and slashes in any number. -/
abbrev Path := List Char

abbrev Name := List Char

namespace Path

def here : Name := ['.']

def up : Name := ['.', '.']

/-- A name that an entry of a directory can have. -/
structure Legal (name : Name) : Prop where
  nonempty : name ≠ []
  unslashed : '/' ∉ name
  notHere : name ≠ here
  notUp : name ≠ up

instance (name : Name) : Decidable (Legal name) :=
  decidable_of_iff (name ≠ [] ∧ '/' ∉ name ∧ name ≠ here ∧ name ≠ up)
    ⟨fun ⟨nonempty, unslashed, notHere, notUp⟩ => ⟨nonempty, unslashed, notHere, notUp⟩,
      fun legal => ⟨legal.nonempty, legal.unslashed, legal.notHere, legal.notUp⟩⟩

def isAbsolute (path : Path) : Bool :=
  path.head? == some '/'

/-- The second path seen from the first, unless it is absolute. -/
def join (base rest : Path) : Path :=
  if isAbsolute rest then rest
  else if base.isEmpty || base.getLast? == some '/' then base ++ rest
  else base ++ '/' :: rest

/-- The slashes an absolute path keeps in front: exactly two stay two, any other number is one. -/
def rootMark : Path → Path
  | '/' :: '/' :: '/' :: _ => ['/']
  | '/' :: '/' :: _ => ['/', '/']
  | _ => ['/']

/-- One component put on a stack of names: an empty one and `.` change nothing, and `..` takes the
last name away, if there is one. -/
def push (stack : List Name) (part : Name) : List Name :=
  if part = [] || part = here then stack
  else if part = up then stack.tail
  else part :: stack

/-- The names left of an absolute path once `.` and `..` are worked off. -/
def collapse (path : Path) : List Name :=
  ((Text.splitAt '/' path).foldl push []).reverse

/-- The path seen from the working directory, absolute and without `.`, `..`, doubled or trailing
slashes. -/
def normalize (cwd path : Path) : Path :=
  let full := if isAbsolute path then path else join cwd path
  rootMark full ++ Text.joinWith ['/'] (collapse full)

/-- Everything up to the last slash, that slash and its neighbours left out unless nothing else
remains. -/
def directory (path : Path) : Path :=
  let head := (path.reverse.dropWhile (· ≠ '/')).reverse
  let bare := (head.reverse.dropWhile (· = '/')).reverse
  if bare.isEmpty then head else bare

def names (path : Path) : List Name :=
  (Text.splitAt '/' path).filter (· ≠ [])

/-- The path without `.` components, doubled and trailing slashes; `..` stays. An empty path is the
current directory. -/
def tidy (path : Path) : Path :=
  let mark := if isAbsolute path then rootMark path else []
  let text := mark ++ Text.joinWith ['/'] ((names path).filter (· ≠ here))
  if text.isEmpty then here else text

end Path

end SheetReach
