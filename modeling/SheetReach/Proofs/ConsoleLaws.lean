import Mathlib.Data.List.Forall2
import SheetReach.Report.Boxed

/-! What is assumed of a console. It is another's work, known from its manual: texts in cells are markup, in
which a tag in square brackets is not shown, and a table is drawn in a box with one line for each row as long as
there is room. What it draws is the plain text, without the codes for colours that a terminal may get. Nothing
here says what a console does with other markup, with codes for pictures or with control characters, and how it
breaks lines. -/
namespace SheetReach.Report

/-- The words that a manual lists for the traits of a style. -/
def styleWords : List String :=
  ["bold", "b", "italic", "i", "underline", "u", "strike", "s", "reverse", "r", "blink", "conceal", "frame",
    "encircle", "overline"]

/-- A character with no part in markup, in codes for pictures and in the layout of lines. -/
def Ordinary (c : Char) : Prop :=
  ' ' ≤ c ∧ c ∉ ['[', ':', '\x85', '\u2028', '\u2029']

instance (c : Char) : Decidable (Ordinary c) :=
  inferInstanceAs (Decidable (' ' ≤ c ∧ c ∉ ['[', ':', '\x85', '\u2028', '\u2029']))

def EndsInLetter (text : List Char) : Prop :=
  ∃ front last, text = front ++ [last] ∧ last.isAlpha = true

/-- One line of a table: a text on the left of the first column, and anything that is on one line in the
second. -/
def Lined (bar : Char) (text line : List Char) : Prop :=
  ∃ padding size, '\n' ∉ size ∧ line = beside.line bar (text ++ List.replicate padding ' ') size

/-- A table drawn with one line for each row, so that the lines between the second and the third border are
those of the given texts. -/
def Ruled (table : Table) (texts : List (List Char)) (output : List Char) : Prop :=
  ∃ width titles lines total, Lined '┃' table.file.title titles ∧
    List.Forall₂ (Lined '│') texts lines ∧ Lined '│' table.total.file total ∧
    output = Border.top.render width ++ titles ++ Border.belowTitles.render width ++ lines.flatten
      ++ Border.aboveTotal.render width ++ total ++ Border.bottom.render width

/-- What a console shows of a text in one line, or why it cannot show it, and in how many columns every cell
of the first column of a table has one line. -/
structure Manual where
  text : List Char → Except String (List Char)
  roomy : Nat → Table → Prop

structure Console.Follows (console : Console) (manual : Manual) : Prop where
  /-- Only square brackets hold markup, and only colons codes for pictures. -/
  ordinary : ∀ text, (∀ c ∈ text, Ordinary c) → manual.text text = .ok text
  /-- A style in square brackets applies from there on, and up to the end if it is not closed. It is not
  shown. A backslash before it would make it text. -/
  tag : ∀ front back, ∀ word ∈ styleWords, (∀ c ∈ front ++ back, Ordinary c) → front.getLast? ≠ some '\\' →
    manual.text (front ++ '[' :: (word.toList ++ ']' :: back)) = .ok (front ++ back)
  /-- Markup with a closing tag that has nothing to close is an error. -/
  closing : ∀ front back, ∀ word ∈ "" :: styleWords, (∀ c ∈ front ++ back, Ordinary c) →
    front.getLast? ≠ some '\\' →
    ∃ message, manual.text (front ++ '[' :: '/' :: (word.toList ++ ']' :: back)) = .error message
  /-- A table is drawn in any number of columns, if there is one at all, unless a text in it cannot be shown. -/
  drawn_iff : ∀ columns sizes, 0 < columns → ((∃ output, console.draw columns (.ofSizes sizes) = .ok output) ↔
    ∀ item ∈ sizes, ∃ shown, manual.text item.1 = .ok shown)
  /-- Where no cell of the first column wraps, every row has one line. -/
  lined : ∀ columns sizes texts output, (∀ item ∈ sizes, EndsInLetter item.1) →
    List.Forall₂ (fun item text => manual.text item.1 = .ok text) sizes texts →
    manual.roomy columns (.ofSizes sizes) → console.draw columns (.ofSizes sizes) = .ok output →
    Ruled (.ofSizes sizes) texts output
  /-- A column gets as wide as its texts if there is room. -/
  room : ∀ sizes, (∀ item ∈ sizes, EndsInLetter item.1 ∧ ∀ c ∈ item.1, Ordinary c) →
    ∃ enough, ∀ columns ≥ enough, manual.roomy columns (.ofSizes sizes)

end SheetReach.Report
