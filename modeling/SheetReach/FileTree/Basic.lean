import SheetReach.Fault
import SheetReach.Text.Order
import SheetReach.Text.Utf8

/-! A file tree: files, directories and links, each at a location. -/
namespace SheetReach

/-- A place in the tree, as the names on the way to it, the last one first. The root is the empty
list. -/
abbrev Location := List Name

/-- What a file holds: octets, or a number of zero octets too large to write out. -/
inductive Content where
  | octets (octets : List UInt8)
  | zeros (count : Nat)
  deriving DecidableEq, Repr

namespace Content

def size : Content → Nat
  | octets list => list.length
  | zeros count => count

def toOctets : Content → List UInt8
  | octets list => list
  | zeros count => List.replicate count 0

def text (content : Content) : List Char :=
  Text.Utf8.unifyNewlines (Text.Utf8.decode content.toOctets)

end Content

inductive Entry where
  | file (content : Content)
  | directory
  | link (target : Path)
  deriving DecidableEq, Repr

def Location.Legal (location : Location) : Prop :=
  ∀ name ∈ location, Path.Legal name ∧ '\x00' ∉ name

instance (location : Location) : Decidable (Location.Legal location) :=
  inferInstanceAs (Decidable (∀ name ∈ location, Path.Legal name ∧ '\x00' ∉ name))

/-- A tree as the entries of all its directories. The order of the list is the order in which
directories are listed, no location has two entries, and every name can stand in a directory. -/
structure FileTree where
  entries : List (Location × Entry) := []
  distinct : (entries.map Prod.fst).Nodup := by decide
  named : ∀ item ∈ entries, Location.Legal item.1 := by decide

namespace FileTree

/-- The entry at a location; the root is a directory in every tree. -/
def find? (tree : FileTree) (location : Location) : Option Entry :=
  if location = [] then some .directory else tree.entries.lookup location

/-- The names in a directory with their entries, in listing order. -/
def children (tree : FileTree) (location : Location) : List (Name × Entry) :=
  tree.entries.filterMap fun (place, entry) =>
    match place with
    | [] => none
    | name :: parent => if parent = location then some (name, entry) else none

def erase (tree : FileTree) (location : Location) : FileTree where
  entries := tree.entries.filter (·.1 ≠ location)
  distinct := tree.distinct.sublist (List.Sublist.map _ List.filter_sublist)
  named item member := tree.named item (List.mem_filter.mp member).1

/-- The tree without the entry at a location and all entries below it. -/
def prune (tree : FileTree) (location : Location) : FileTree where
  entries := tree.entries.filter fun (place, _) => !location.isSuffixOf place
  distinct := tree.distinct.sublist (List.Sublist.map _ List.filter_sublist)
  named item member := tree.named item (List.mem_filter.mp member).1

/-- The tree with an entry at a location, listed last, in place of what stood there. -/
def put (tree : FileTree) (location : Location) (legal : Location.Legal location) (entry : Entry) :
    FileTree where
  entries := (tree.erase location).entries ++ [(location, entry)]
  distinct := by
    rw [List.map_append, List.nodup_append]
    refine ⟨(tree.erase location).distinct, by simp, ?_⟩
    intro place kept other added
    simp only [erase, List.mem_map, List.mem_filter, decide_not, Bool.not_eq_eq_eq_not,
      Bool.not_true, decide_eq_false_iff_not] at kept
    simp only [List.map_cons, List.map_nil, List.mem_singleton] at added
    obtain ⟨pair, ⟨_, apart⟩, rfl⟩ := kept
    exact added ▸ apart
  named := by
    intro item member
    rcases List.mem_append.mp member with kept | added
    · exact (tree.erase location).named item kept
    · rw [List.mem_singleton.mp added]
      exact legal

/-- The tree with directories at a location and at all places on the way to it, where nothing stands
yet. -/
def putDirectories (tree : FileTree) : (location : Location) → Location.Legal location → FileTree
  | [], _ => tree
  | name :: parent, legal =>
    let above := tree.putDirectories parent (List.forall_mem_cons.mp legal).2
    match above.find? (name :: parent) with
    | none => above.put (name :: parent) legal .directory
    | some _ => above

/-- The tree with an entry at a location, in place of all that stood there, and with directories on
the way to it. A directory already there stays, and at a location that no entry can have nothing is
put. -/
def plant (tree : FileTree) (location : Location) (entry : Entry) : FileTree :=
  if legal : Location.Legal location then
    match entry with
    | .directory => tree.putDirectories location legal
    | entry =>
      let above := (tree.prune location).putDirectories location.tail
        fun name member => legal name (List.mem_of_mem_tail member)
      above.put location legal entry
  else tree

/-- The files and links below a location, as paths seen from there, in order. -/
def filesBelow (tree : FileTree) (location : Location) : List Path :=
  Text.sort (tree.entries.filterMap fun (place, entry) =>
    if entry ≠ .directory && location.isSuffixOf place && place ≠ location then
      some (Text.joinWith ['/'] ((place.take (place.length - location.length)).reverse))
    else none)

end FileTree

end SheetReach
