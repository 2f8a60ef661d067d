import SheetReach.Decimal
import SheetReach.Report.Cell
import SheetReach.Report.Markup

/-!
A console that draws tables in boxes and reads the texts of cells as markup. It knows the tags for styles, and
neither codes for pictures between colons nor tags that call a handler: those it shows as they stand, and as
tags like any other.
-/
namespace SheetReach.Report

/-- The width of a column: that of its widest cell, with a space on each side, if there is room. -/
def Column.width (column : Column) (room : Nat) (cells : List (List Char)) : Nat :=
  max (column.least + 2) (min room (((cells.map widest).max?).getD 0 + 2))

/-- Two widths made to fit a room: the wider one shrinks down to the other, then both alike. -/
def shrink (room file size : Nat) : Nat × Nat :=
  if file + size ≤ room then (file, size)
  else if 2 * min file size ≤ room then
    if size ≤ file then (room - size, size) else (file, room - file)
  else
    let excess := 2 * min file size - room
    let half := Decimal.nearest excess 2
    (min file size - half, min file size - (excess - half))

/-- The characters of a border: its ends, the crossing in its middle and the line itself. -/
structure Border where
  left : Char
  line : Char
  middle : Char
  right : Char

namespace Border

def top : Border := ⟨'┏', '━', '┳', '┓'⟩

def belowTitles : Border := ⟨'┡', '━', '╇', '┩'⟩

def aboveTotal : Border := ⟨'├', '─', '┼', '┤'⟩

def bottom : Border := ⟨'└', '─', '┴', '┘'⟩

def render (border : Border) (width : Nat × Nat) : List Char :=
  border.left :: List.replicate width.1 border.line ++ border.middle ::
    List.replicate width.2 border.line ++ [border.right, '\n']

end Border

/-- The lines of two columns beside each other; a column that ends first goes on blank. -/
def beside (bar : Char) (width : Nat × Nat) : List (List Char) → List (List Char) → List Char
  | [], sizes => sizes.flatMap (line (blank width.1))
  | file :: files, sizes => line file (sizes.headD (blank width.2)) ++ beside bar width files sizes.tail
where
  /-- A blank line of a column, without the space on each side. -/
  blank (width : Nat) : List Char := List.replicate (width - 2) ' '
  /-- One line between bars. -/
  line (file size : List Char) : List Char :=
    [bar, ' '] ++ file ++ [' ', bar, ' '] ++ size ++ [' ', bar, '\n']

namespace Table

def titles (table : Table) : Row := ⟨table.file.title, table.size.title⟩

/-- The rows for files with what their cells show. -/
def fileRows (table : Table) : Except MarkupError (List Row) :=
  table.rows.mapM fun row => do return ⟨← Markup.text row.file, row.size⟩

/-- The widths of the columns around all rows, in so many columns of a terminal, of which three show
borders. -/
def widths (table : Table) (columns : Nat) (rows : List Row) : Nat × Nat :=
  let room := columns - 3
  let all := table.titles :: rows ++ [table.total]
  let (file, size) :=
    shrink room (table.file.width room (all.map (·.file))) (table.size.width room (all.map (·.size)))
  (max (table.file.least + 2) file, max (table.size.least + 2) size)

def renderRow (table : Table) (bar : Char) (width : Nat × Nat) (row : Row) : List Char :=
  beside bar width (table.file.layout (width.1 - 2) row.file) (table.size.layout (width.2 - 2) row.size)

def frame (table : Table) (width : Nat × Nat) (body : List Char) : List Char :=
  Border.top.render width ++ table.renderRow '┃' width table.titles ++ Border.belowTitles.render width ++ body
    ++ Border.aboveTotal.render width ++ table.renderRow '│' width table.total ++ Border.bottom.render width

def draw (table : Table) (columns : Nat) : Except MarkupError (List Char) := do
  let rows ← table.fileRows
  let width := table.widths columns rows
  return table.frame width (rows.flatMap (table.renderRow '│' width))

end Table

def Console.boxed : Console where
  draw columns table := (table.draw columns).mapError MarkupError.message

end SheetReach.Report
