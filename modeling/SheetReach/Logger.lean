import SheetReach.Event

/-! The log of the package: the least level that it takes and the handlers that write it. -/
namespace SheetReach

/-- What writes a log. Those that a run attaches itself have a tag, by which a later run knows them. -/
structure Handler where
  tagged : Bool
  deriving DecidableEq, Repr

structure Logger where
  rank : Int := 0
  handlers : List Handler := []
  deriving DecidableEq, Repr

namespace Logger

/-- The log with a new level and one handler of the run's own in place of those of earlier runs. Handlers
that others attached stay. -/
def configure (logger : Logger) (rank : Int) : Logger where
  rank
  handlers := logger.handlers.filter (!·.tagged) ++ [⟨true⟩]

def takes (logger : Logger) (event : Event) : Bool :=
  logger.rank ≤ event.level.rank

/-- However many runs there were before, one handler has the tag, so that every event is written once. -/
theorem configure_tagged (logger : Logger) (rank : Int) :
    (logger.configure rank).handlers.filter (·.tagged) = [⟨true⟩] := by
  simp [configure, List.filter_filter]

theorem configure_untagged (logger : Logger) (rank : Int) :
    (logger.configure rank).handlers.filter (!·.tagged) = logger.handlers.filter (!·.tagged) := by
  simp [configure, List.filter_filter]

end Logger

end SheetReach
