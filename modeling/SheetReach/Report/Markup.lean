import SheetReach.Report.Style

/-!
The text of a cell, in which square brackets hold tags. A tag prints nothing; a closing tag needs an
open one. Backslashes before a tag stand for half as many, and an odd one makes the tag plain text.
-/
namespace SheetReach.Report

/-- A tag: its name and, after an equals sign, its parameters. -/
structure Tag where
  name : List Char
  parameters : Option (List Char)
  deriving DecidableEq, Repr

namespace Tag

def source (tag : Tag) : List Char :=
  match tag.parameters with
  | none => '[' :: tag.name ++ [']']
  | some parameters => '[' :: tag.name ++ '=' :: parameters ++ [']']

/-- The tag with the given text between its brackets. -/
def ofInside (inside : List Char) : Tag :=
  match inside.dropWhile (· != '=') with
  | [] => ⟨inside, none⟩
  | _ :: parameters => ⟨inside.takeWhile (· != '='), some parameters⟩

/-- The name after the slash of a closing tag. -/
def closes? (tag : Tag) : Option (List Char) :=
  match tag.name with
  | '/' :: name => some (Text.trim name)
  | _ => none

end Tag

inductive MarkupError where
  /-- A closing tag without a name where no tag is open. -/
  | nothingToClose (position : Nat)
  /-- A closing tag with the name of no open tag. -/
  | notOpen (tag : Tag) (position : Nat)
  deriving DecidableEq, Repr

namespace MarkupError

def message : MarkupError → String
  | nothingToClose position =>
    "closing tag '[/]' at position " ++ toString position ++ " has nothing to close"
  | notOpen tag position =>
    "closing tag '" ++ String.ofList tag.source ++ "' at position " ++ toString position
      ++ " doesn't match any open tag"

end MarkupError

namespace Markup

/-- A part of a cell: text, or a tag with its position. -/
inductive Piece where
  | text (text : List Char)
  | tag (position : Nat) (tag : Tag)
  deriving DecidableEq, Repr

def opensTag (c : Char) : Bool :=
  ('a' ≤ c && c ≤ 'z') || c == '#' || c == '/' || c == '@'

/-- The text up to the next closing bracket, if no bracket opens before it. -/
def insideOf? : List Char → Option (List Char)
  | [] => none
  | c :: rest =>
    if c = ']' then some []
    else if c = '[' then none
    else (insideOf? rest).map (c :: ·)

/-- A run of backslashes, maybe empty, and the inside of the tag right after it. -/
def tagAt? (s : List Char) : Option (Nat × List Char) :=
  let slashes := (s.takeWhile (· == '\\')).length
  match s.drop slashes with
  | '[' :: first :: rest =>
    if opensTag first then (insideOf? rest).map fun inside => (slashes, first :: inside) else none
  | _ => none

/-- A backslash before an opening bracket is not printed. -/
def unescape : List Char → List Char
  | [] => []
  | [c] => [c]
  | c :: next :: rest =>
    if c = '\\' && next = '[' then '[' :: unescape rest else c :: unescape (next :: rest)

def textPiece (s : List Char) : List Piece :=
  if s.isEmpty then [] else [.text (unescape s)]

/-- The pieces of a tag after its backslashes, at a position. -/
def tagPieces (position slashes : Nat) (inside : List Char) : List Piece :=
  let half := slashes / 2
  textPiece (List.replicate half '\\') ++
    [if slashes % 2 = 1 then .text ('[' :: inside ++ [']'])
     else .tag (position + 2 * half) (Tag.ofInside inside)]

/-- The pieces from a position on. The characters still to be skipped belong to a tag already cut off;
`plain` is the text since then, last character first. -/
def piecesFrom (skip position : Nat) (plain : List Char) : List Char → List Piece
  | [] => textPiece plain.reverse
  | c :: rest =>
    match skip with
    | skip + 1 => piecesFrom skip (position + 1) plain rest
    | 0 =>
      match tagAt? (c :: rest) with
      | none => piecesFrom 0 (position + 1) (c :: plain) rest
      | some (slashes, inside) =>
        textPiece plain.reverse ++ tagPieces position slashes inside ++
          piecesFrom (slashes + inside.length + 1) (position + 1) [] rest

def pieces (s : List Char) : List Piece :=
  piecesFrom 0 0 [] s

/-- The printed text of pieces, given the canonical names of the open tags, last one first. -/
def print : List (List Char) → List Piece → Except MarkupError (List Char)
  | _, [] => .ok []
  | opened, .text text :: rest => (text ++ ·) <$> print opened rest
  | opened, .tag position tag :: rest =>
    match tag.closes? with
    | none => print (canonicalName tag.name :: opened) rest
    | some [] =>
      match opened with
      | [] => .error (.nothingToClose position)
      | _ :: others => print others rest
    | some name =>
      if opened.contains (canonicalName name) then print (opened.erase (canonicalName name)) rest
      else .error (.notOpen tag position)

/-- Control characters that no cell prints: bell, backspace, vertical tab, form feed, return. -/
def isSilent (c : Char) : Bool :=
  [7, 8, 11, 12, 13].contains c.toNat

def text (s : List Char) : Except MarkupError (List Char) :=
  (·.filter (!isSilent ·)) <$> print [] (pieces s)

end Markup

end SheetReach.Report
