import SheetReach.Kilobytes
import SheetReach.Workspace

/-!
The table of files with their sizes and the total. A table is handed over to a console, which draws it in so
many columns; what a console shows of a text is its own affair.
-/
namespace SheetReach

namespace Report

/-- Two texts side by side: one of the file column, one of the size column. -/
structure Row where
  file : List Char
  size : List Char
  deriving DecidableEq, Repr

inductive Side where
  | left
  | right
  deriving DecidableEq, Repr

/-- How the texts of a column stand: the side they keep to, their least width, and whether words too wide
for the column are cut. -/
structure Column where
  title : List Char
  side : Side
  least : Nat
  cuts : Bool
  deriving DecidableEq, Repr

/-- A table as it is handed over: its columns, one row for each file, and the last row, set off from them. -/
structure Table where
  file : Column
  size : Column
  rows : List Row
  total : Row
  deriving DecidableEq, Repr

/-- The table of files with their sizes. The last row has the sum of the sizes in order. -/
def Table.ofSizes (sizes : List (Path × Kilobytes)) : Table where
  file := ⟨"File".toList, .left, 10, true⟩
  size := ⟨"Size (kb)".toList, .right, 10, false⟩
  rows := sizes.map fun (path, size) => ⟨path, size.brief⟩
  total := ⟨"Total file size".toList, (Kilobytes.total (sizes.map (·.2))).fixed⟩

/-- What draws tables in so many columns, or says why it cannot. -/
structure Console where
  draw : Nat → Table → Except String (List Char)

inductive Failure where
  | access (error : AccessError)
  | console (message : String)
  deriving DecidableEq, Repr

def Failure.message : Failure → String
  | access error => error.message
  | console message => message

end Report

namespace Workspace

def fileSizes (workspace : Workspace) (files : List Path) :
    Except AccessError (List (Path × Kilobytes)) :=
  files.mapM fun path => do return (path, Kilobytes.ofBytes (← workspace.sizeAt path))

/-- The table of the given files; nothing if there is none. All sizes are looked up first. -/
def sizeTable (workspace : Workspace) (console : Report.Console) (columns : Nat) (files : List Path) :
    Except Report.Failure (List Char) :=
  match workspace.fileSizes files with
  | .error error => .error (.access error)
  | .ok [] => .ok []
  | .ok sizes => (console.draw columns (.ofSizes sizes)).mapError .console

end Workspace

end SheetReach
