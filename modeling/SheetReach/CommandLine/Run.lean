import SheetReach.CommandLine.Settings
import SheetReach.Logger
import SheetReach.Report.Table

/-!
A run of the command as a function of its arguments and the tree. The tree that a run leaves differs from
the one it finds only if the run deletes files.
-/
namespace SheetReach.CommandLine

/-- What a run finds besides its arguments and the tree. -/
structure Shell where
  convention : Convention
  console : Report.Console
  columns : Nat := 80
  logger : Logger := {}

inductive Crash where
  | noPath
  | survey (failure : Failure)
  | report (failure : Report.Failure)
  | deletion (error : AccessError)
  deriving DecidableEq, Repr

def Crash.message : Crash → String
  | noPath => "expected str, bytes or os.PathLike object, not list"
  | survey failure => failure.message
  | report failure => failure.message
  | deletion error => error.message

inductive Ending where
  | exit (status : Nat)
  /-- Status 1 and a last message. -/
  | refusal (message : String)
  | crash (crash : Crash)
  deriving DecidableEq, Repr

/-- All that a run does: the tree and the log that it leaves, what it prints, what it says about its use, the
events that are logged, and its end. -/
structure Outcome where
  workspace : Workspace
  logger : Logger
  output : String := ""
  complaint : String := ""
  events : List Event := []
  ending : Ending

namespace Outcome

def logLine (event : Event) : String :=
  event.level.label ++ " | " ++ event.message ++ "\n"

/-- All that goes to the error stream. Each handler of the run's own writes every event there. -/
def errors (outcome : Outcome) : String :=
  outcome.complaint ++ String.join (outcome.events.flatMap fun event =>
    (outcome.logger.handlers.filter (·.tagged)).map fun _ => logLine event)

end Outcome

def noEntryPointsText : String :=
  "No entry points found (to explicitly specify them, use the --entry-points flag)\n"

def summaryText (survey : Survey) : String :=
  "\nTraversing entry points:\n\n"
    ++ String.join (survey.entryPoints.map fun entry => "    " ++ String.ofList entry ++ "\n")
    ++ "\n\nFound " ++ toString survey.reachable.length ++ " files in Sass tree\n\n"

def unusedText (survey : Survey) : String :=
  "Found " ++ toString survey.unused.length ++ " unused files in directory tree "
    ++ String.ofList survey.root ++ "\n"

def deletedText (count : Nat) : String :=
  "Deleted " ++ toString count ++ " unused files in directory\n"

/-- What is printed about a survey, and what stops it from being printed. -/
def summary (shell : Shell) (settings : Settings) (workspace : Workspace) (survey : Survey) :
    String × Option Report.Failure :=
  if settings.silent then ("", none)
  else if settings.hideTable then (summaryText survey ++ unusedText survey, none)
  else match workspace.sizeTable shell.console shell.columns survey.unused with
    | .error failure => (summaryText survey, some failure)
    | .ok table => (summaryText survey ++ String.ofList table ++ unusedText survey, none)

def conclude (shell : Shell) (settings : Settings) (workspace : Workspace) (survey : Survey) : Outcome :=
  if survey.entryPoints.isEmpty then
    { workspace, logger := shell.logger, output := if settings.silent then "" else noEntryPointsText
      ending := .exit 1 }
  else
    match summary shell settings workspace survey with
    | (output, some failure) =>
      { workspace, logger := shell.logger, output, ending := .crash (.report failure) }
    | (output, none) =>
      if settings.delete then
        let deletion := workspace.deleteFiles survey.unused
        match deletion.error with
        | none =>
          { workspace := deletion.workspace, logger := shell.logger
            output := output ++ deletedText deletion.count, events := deletion.events, ending := .exit 0 }
        | some error =>
          { workspace := deletion.workspace, logger := shell.logger, output, events := deletion.events
            ending := .crash (.deletion error) }
      else { workspace, logger := shell.logger, output, ending := .exit 0 }

def endingOf (failure : Failure) : Ending :=
  if failure.isRefusal then .refusal failure.message else .crash (.survey failure)

def perform (shell : Shell) (settings : Settings) (workspace : Workspace) : Outcome :=
  if settings.delete && !settings.confirmed then
    { workspace, logger := shell.logger
      ending := .refusal "Refusing to delete without --yes confirmation." }
  else match settings.path with
    | none => { workspace, logger := shell.logger, ending := .crash .noPath }
    | some root =>
      let surveyed := workspace.survey (settings.request root)
      let outcome : Outcome := match surveyed.result with
        | .error failure => { workspace, logger := shell.logger, ending := endingOf failure }
        | .ok survey => conclude shell settings workspace survey
      { outcome with events := (surveyed.events ++ outcome.events).filter shell.logger.takes }

def run (shell : Shell) (arguments : List (List Char)) (workspace : Workspace) : Outcome :=
  match Settings.ofArguments shell.convention arguments with
  | .ok settings =>
    perform { shell with logger := shell.logger.configure settings.level.rank } settings workspace
  | .error .help => { workspace, logger := shell.logger, output := helpText, ending := .exit 0 }
  | .error .version => { workspace, logger := shell.logger, output := versionText, ending := .exit 0 }
  | .error (.wrong error) =>
    { workspace, logger := shell.logger, complaint := complaint error, ending := .exit 2 }

end SheetReach.CommandLine
