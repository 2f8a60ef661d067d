import SheetReach.Text.Split

/-! What can be set on the command line, and how it is spelled. -/
namespace SheetReach.CommandLine

inductive Parameter where
  | help
  | path
  | entryPoints
  | exclude
  | dialect
  | allDialects
  | warnUnresolved
  | silent
  | verbose
  | hideTable
  | delete
  | confirm
  | version
  deriving DecidableEq, Repr

namespace Parameter

def all : List Parameter :=
  [help, path, entryPoints, exclude, dialect, allDialects, warnUnresolved, silent, verbose, hideTable,
   delete, confirm, version]

def spellings : Parameter → List String
  | help => ["-h", "--help"]
  | path => ["-p", "--path"]
  | entryPoints => ["-f", "--entry-points", "--entryPoints"]
  | exclude => ["-e", "--exclude"]
  | dialect => ["--syntax"]
  | allDialects => ["--all-extensions"]
  | warnUnresolved => ["--log-missing-imports"]
  | silent => ["-s", "--silent"]
  | verbose => ["--verbose"]
  | hideTable => ["-t", "--hide-table", "--hideTable"]
  | delete => ["-d", "--delete"]
  | confirm => ["--yes"]
  | version => ["--version"]

def takesValue : Parameter → Bool
  | path | entryPoints | exclude | dialect => true
  | _ => false

/-- All spellings in one, as errors name an option. -/
def title (parameter : Parameter) : String :=
  "/".intercalate parameter.spellings

end Parameter

structure Spelling where
  text : List Char
  parameter : Parameter
  deriving DecidableEq, Repr

namespace Spelling

/-- All spellings in order. -/
def all : List Spelling :=
  Parameter.all.flatMap fun parameter => parameter.spellings.map fun text => ⟨text.toList, parameter⟩

def ofText? (text : List Char) : Option Spelling :=
  all.find? (·.text == text)

def isShort (spelling : Spelling) : Bool :=
  !Text.startsWith ['-', '-'] spelling.text

end Spelling

end SheetReach.CommandLine
