/-! Leaving comments out of a stylesheet without moving any line. A block comment leaves its newlines
behind, and a line that holds only a line comment is emptied. -/
namespace SheetReach.Comment

/-- The number of characters up to and with the next end of a block comment. -/
def closing : List Char → Option Nat
  | [] => none
  | [_] => none
  | first :: second :: rest =>
    if first = '*' && second = '/' then some 2 else (closing (second :: rest)).map (· + 1)

/-- The number of characters after the first one in the block comment at the start of a text. A block
that is never closed is no comment. -/
def opening : List Char → Option Nat
  | '/' :: '*' :: rest => (closing rest).map (· + 1)
  | _ => none

/-- The text without block comments. The number says how many characters of a comment are left to
pass; only their newlines stay. -/
def stripBlocksFrom : Nat → List Char → List Char
  | _, [] => []
  | left + 1, c :: rest =>
    if c = '\n' then c :: stripBlocksFrom left rest else stripBlocksFrom left rest
  | 0, c :: rest =>
    match opening (c :: rest) with
    | some left => stripBlocksFrom left rest
    | none => c :: stripBlocksFrom 0 rest

def stripBlocks (source : List Char) : List Char :=
  stripBlocksFrom 0 source

def isIndent (c : Char) : Bool :=
  c = ' ' || c = '\t'

def startsLineComment (text : List Char) : Bool :=
  match text.dropWhile isIndent with
  | '/' :: '/' :: _ => true
  | _ => false

/-- Where a scan stands in a line: before its first character, after it, or in a comment that takes
the whole line. -/
inductive LinePlace where
  | start
  | inside
  | comment

/-- The text without line comments, from a place in a line on. -/
def stripLinesFrom : LinePlace → List Char → List Char
  | _, [] => []
  | place, c :: rest =>
    if c = '\n' then c :: stripLinesFrom .start rest
    else match place with
      | .comment => stripLinesFrom .comment rest
      | .inside => c :: stripLinesFrom .inside rest
      | .start =>
        if startsLineComment (c :: rest) then stripLinesFrom .comment rest
        else c :: stripLinesFrom .inside rest

/-- The text with every line emptied that holds only a line comment. -/
def stripLines (source : List Char) : List Char :=
  stripLinesFrom .start source

def strip (source : List Char) : List Char :=
  stripLines (stripBlocks source)

end SheetReach.Comment
