import SheetReach.Report.Table
import SheetReach.Text.CellWidth

/-! The lines of a cell in a column of a given width. -/
namespace SheetReach.Report

/-- The characters that end a line when a cell is measured. -/
def isLineEnd (c : Char) : Bool :=
  [10, 11, 12, 13, 28, 29, 30, 0x85, 0x2028, 0x2029].contains c.toNat

/-- The width of the widest line, where `sofar` cells stand already on the first one. -/
def widestFrom (sofar : Nat) : List Char → Nat
  | [] => sofar
  | c :: rest =>
    if isLineEnd c then max sofar (widestFrom 0 rest) else widestFrom (sofar + Text.cellWidth c) rest

def widest (s : List Char) : Nat :=
  widestFrom 0 s

/-- Spaces in place of tabs, up to the next multiple of eight cells. -/
def expandTabs (position : Nat) : List Char → List Char
  | [] => []
  | c :: rest =>
    if c = '\t' then
      let gap := 8 - position % 8
      List.replicate gap ' ' ++ expandTabs (position + gap) rest
    else c :: expandTabs (position + Text.cellWidth c) rest

/-- A line as words, each with the blanks after it, the first also with those before it. A blank line
has no words. -/
def spacedWords (line : List Char) : List (List Char) :=
  let blanks := line.takeWhile Text.isBlank
  match go (line.dropWhile Text.isBlank) with
  | [] => []
  | word :: rest => (blanks ++ word) :: rest
where
  /-- The words of a line that starts with none of its blanks. -/
  go : List Char → List (List Char)
    | [] => []
    | [c] => [[c]]
    | c :: next :: rest =>
      if Text.isBlank c && !Text.isBlank next then [c] :: go (next :: rest)
      else match go (next :: rest) with
        | [] => [[c]]
        | word :: others => (c :: word) :: others

/-- A word cut into pieces that fill the width; `sofar` cells of the first piece are taken. -/
def chopFrom (width sofar : Nat) : List Char → List (List Char)
  | [] => [[]]
  | c :: rest =>
    let size := Text.cellWidth c
    if sofar + size > width then
      match chopFrom width size rest with
      | [] => [[], [c]]
      | piece :: pieces => [] :: (c :: piece) :: pieces
    else
      match chopFrom width (sofar + size) rest with
      | [] => [[c]]
      | piece :: pieces => (c :: piece) :: pieces

/-- Lines being filled: those done, last one first, the text of the current one and its width. -/
structure Filling where
  done : List (List Char) := []
  current : List Char := []
  offset : Nat := 0

namespace Filling

def extend (filling : Filling) (word : List Char) : Filling :=
  { filling with
    current := filling.current ++ word
    offset := filling.offset + Text.cells word }

/-- Starts a new line, except at the very start. -/
def newLine (filling : Filling) (word : List Char) : Filling :=
  { done := if filling.current.isEmpty then filling.done else filling.current :: filling.done
    current := word
    offset := Text.cells word }

/-- A word goes on the current line if it fits there without the blanks after it, else on a new line.
Where words may be cut, one wider than a line is cut into pieces, each on a new line. -/
def place (cut : Bool) (width : Nat) (filling : Filling) (word : List Char) : Filling :=
  let size := Text.cells (Text.trimEndBy Text.isBlank word)
  if filling.offset + size ≤ width then filling.extend word
  else if cut && width < size then (chopFrom width 0 word).foldl newLine filling
  else filling.newLine word

def lines (filling : Filling) : List (List Char) :=
  (filling.current :: filling.done).reverse

end Filling

/-- Leaves out blanks at the end of a line of more characters than the width, as many as are too many. -/
def dropExcessBlanks (width : Nat) (line : List Char) : List Char :=
  let blanks := (line.reverse.takeWhile Text.isBlank).length
  line.take (line.length - min blanks (line.length - width))

def fill (cut : Bool) (width : Nat) (line : List Char) : List (List Char) :=
  match spacedWords line with
  | [] => [dropExcessBlanks width line]
  | words => ((words.foldl (Filling.place cut width) {}).lines).map (dropExcessBlanks width)

def takeCells : Nat → List Char → List Char
  | _, [] => []
  | room, c :: rest =>
    if Text.cellWidth c ≤ room then c :: takeCells (room - Text.cellWidth c) rest else []

/-- The line with spaces after it, or cut, so that it has exactly the width. -/
def fitLeft (width : Nat) (line : List Char) : List Char :=
  let shown := if Text.cells line ≤ width then line else takeCells width line
  shown ++ List.replicate (width - Text.cells shown) ' '

/-- The line without blanks at its end and with spaces before it. A line that is too wide is cut and
ends in an ellipsis. -/
def fitRight (width : Nat) (line : List Char) : List Char :=
  let line := Text.trimEndBy Text.isBlank line
  if Text.cells line ≤ width then List.replicate (width - Text.cells line) ' ' ++ line
  else fitLeft (width - 1) line ++ ['…']

def Side.fit : Side → Nat → List Char → List Char
  | left => fitLeft
  | right => fitRight

/-- The lines of a cell, all of the given width. -/
def Column.layout (column : Column) (width : Nat) (cell : List Char) : List (List Char) :=
  (Text.splitAt '\n' cell).flatMap fun line =>
    (fill column.cuts width (expandTabs 0 line)).map (column.side.fit width)

end SheetReach.Report
