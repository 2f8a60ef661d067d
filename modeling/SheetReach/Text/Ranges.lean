/-! Sets of code points kept as runs. -/
namespace SheetReach.Text

/-- Runs of code points, each given by its first and its last. -/
abbrev Ranges := List (Nat × Nat)

def Ranges.covers (runs : Ranges) (code : Nat) : Bool :=
  runs.any fun run => run.1 ≤ code && code ≤ run.2

end SheetReach.Text
