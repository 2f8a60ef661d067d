import SheetReach.CommandLine.Parameter
import SheetReach.Dialect
import SheetReach.Text.Quoted

/-! The texts that tell how the command is used, and what is wrong with a use of it. -/
namespace SheetReach.CommandLine

inductive UsageError where
  /-- An abbreviation of several options. -/
  | ambiguous (word : List Char) (options : List (List Char))
  /-- An option that takes a value has none. -/
  | missingValue (parameter : Parameter)
  /-- An option that takes no value has one. -/
  | unwantedValue (parameter : Parameter) (value : List Char)
  /-- A value that is no dialect's name. -/
  | notDialect (value : List Char)
  /-- Arguments that stand for nothing. -/
  | unrecognized (words : List (List Char))
  deriving DecidableEq, Repr

namespace UsageError

def message : UsageError → String
  | ambiguous word options =>
    "ambiguous option: " ++ String.ofList word ++ " could match "
      ++ String.ofList (Text.joinWith [',', ' '] options)
  | missingValue parameter => "argument " ++ parameter.title ++ ": expected one argument"
  | unwantedValue parameter value =>
    "argument " ++ parameter.title ++ ": ignored explicit argument "
      ++ String.ofList (Text.Quoted.encode value)
  | notDialect value =>
    "argument " ++ Parameter.dialect.title ++ ": invalid choice: "
      ++ String.ofList (Text.Quoted.encode value) ++ " (choose from "
      ++ String.ofList (Text.joinWith [',', ' '] (Dialect.all.map (Text.Quoted.encode ·.name))) ++ ")"
  | unrecognized words =>
    "unrecognized arguments: " ++ String.ofList (Text.joinWith [' '] words)

end UsageError

def usage : String :=
  "usage: sass-shake [-h] [-p PATH] [-f ENTRY_POINTS] [-e EXCLUDE]
                  [--syntax \x7bscss,sass\x7d] [--all-extensions]
                  [--log-missing-imports] [-s] [--verbose] [-t] [-d] [--yes]
                  [--version]
"

def helpText : String :=
  usage ++ "
List Sass files that are never imported from the entry points of a directory.
Delete mode requires --yes confirmation.

options:
  -h, --help            show this help message and exit
  -p PATH, --path PATH  Directory to shake (current working directory by
                        default)
  -f ENTRY_POINTS, --entry-points ENTRY_POINTS, --entryPoints ENTRY_POINTS
                        Comma separated entry point files (repeatable)
  -e EXCLUDE, --exclude EXCLUDE
                        Comma separated /regexp/ patterns of files to leave
                        out of the unused list
  --syntax \x7bscss,sass\x7d  Stylesheet syntax (detected from the directory by
                        default)
  --all-extensions      Report unused files of both syntaxes, not only the
                        active one
  --log-missing-imports
                        Warn about imports that resolve to no file
  -s, --silent          Suppress logs
  --verbose             Log every visited file
  -t, --hide-table, --hideTable
                        Hide the unused files table
  -d, --delete          Delete the unused files
  --yes                 Confirm delete mode (required with --delete)
  --version             show program's version number and exit
"

def versionText : String :=
  "sass-shake 0.1.0\n"

def complaint (error : UsageError) : String :=
  usage ++ "sass-shake: error: " ++ error.message ++ "\n"

end SheetReach.CommandLine
