import SheetReach.Dialect
import SheetReach.Path
import SheetReach.Text.Quoted

/-! What a run reports while it works. -/
namespace SheetReach

inductive Level where
  | debug
  | info
  | warning
  | error
  deriving DecidableEq, Repr

namespace Level

def all : List Level :=
  [debug, info, warning, error]

def rank : Level → Nat
  | debug => 10
  | info => 20
  | warning => 30
  | error => 40

def label : Level → String
  | debug => "DEBUG"
  | info => "INFO"
  | warning => "WARNING"
  | error => "ERROR"

def ofLabel? (word : String) : Option Level :=
  all.find? (·.label == word)

end Level

inductive Origin where
  | graph
  | survey
  deriving DecidableEq, Repr

inductive Event where
  | traversing (entryPoint : Path)
  | entryPointMissing (entryPoint : Path)
  | visiting (path : Path)
  | unreadable (path : Path) (reason : String)
  | skippedImport (specifier : List Char) (importer : Path)
  | unresolvedImport (warn : Bool) (specifier : List Char) (importer : Path) (tried : List Path)
  | usingDialect (dialect : Dialect) (root : Path)
  | noEntryPoints (root : Path)
  | found (count : Nat)
  | unlistable (path : Path) (reason : String)
  | excluded (path : Path)
  | deleted (path : Path)
  deriving DecidableEq, Repr

namespace Event

/-- Missing and unreadable things are warned of, except imports, where it is a choice. -/
def level : Event → Level
  | traversing _ | visiting _ | skippedImport _ _ | usingDialect _ _ | excluded _ | deleted _ => .debug
  | noEntryPoints _ | found _ => .info
  | entryPointMissing _ | unreadable _ _ | unlistable _ _ => .warning
  | unresolvedImport warn _ _ _ => if warn then .warning else .debug

/-- Following imports is one part of the program, looking over directories the other. -/
def origin : Event → Origin
  | traversing _ | entryPointMissing _ | visiting _ | unreadable _ _ | skippedImport _ _
  | unresolvedImport _ _ _ _ => .graph
  | usingDialect _ _ | noEntryPoints _ | found _ | unlistable _ _ | excluded _ | deleted _ => .survey

def plain (text : List Char) : String :=
  String.ofList text

def quoted (text : List Char) : String :=
  String.ofList (Text.Quoted.encode text)

def message : Event → String
  | traversing entryPoint => "Traversing entry point " ++ plain entryPoint
  | entryPointMissing entryPoint => "Entry point not found: " ++ plain entryPoint
  | visiting path => "Visiting " ++ plain path
  | unreadable path reason => "Could not read " ++ plain path ++ ": " ++ reason
  | skippedImport specifier importer =>
    "Skipping non-source import " ++ quoted specifier ++ " in " ++ plain importer
  | unresolvedImport _ specifier importer tried =>
    "Unresolved import " ++ quoted specifier ++ " in " ++ plain importer ++ " (tried "
      ++ plain (Text.joinWith [',', ' '] tried) ++ ")"
  | usingDialect dialect root => "Using " ++ plain dialect.name ++ " syntax for " ++ plain root
  | noEntryPoints root => "No entry points found in " ++ plain root
  | found count => "Found " ++ toString count ++ " files in Sass tree"
  | unlistable path reason => "Could not list " ++ plain path ++ ": " ++ reason
  | excluded path => "Excluded " ++ plain path
  | deleted path => "Deleted " ++ plain path

end Event

end SheetReach
