import SheetReach.Comment
import SheetReach.Dialect

/-! The import directives of a stylesheet and the specifiers they list. -/
namespace SheetReach.Import

def word : List Char := ['@', 'i', 'm', 'p', 'o', 'r', 't']

/-- Blanks, line ends and quotes, which are not part of a specifier's ends. -/
def isTrimmed (c : Char) : Bool :=
  c = ' ' || c = '\t' || c = '\r' || c = '\n' || c = '\'' || c = '"'

def trimSpecifier (text : List Char) : List Char :=
  Text.trimBy isTrimmed text

/-- The text up to a closing quote on the same line, and what follows the quote. -/
def closeQuote (quote : Char) : List Char → Option (List Char × List Char)
  | [] => none
  | c :: rest =>
    if c = quote then some ([], rest)
    else if c = '\n' then none
    else (closeQuote quote rest).map fun (inner, after) => (c :: inner, after)

/-- A quoted text at the start, without its quotes, and what follows it. -/
def quoted : List Char → Option (List Char × List Char)
  | [] => none
  | c :: rest => if c = '"' || c = '\'' then closeQuote c rest else none

/-- A comma with any blanks around it, then a quoted text. -/
def nextQuoted (text : List Char) : Option (List Char × List Char) :=
  match text.dropWhile Text.isBlank with
  | ',' :: rest => quoted (rest.dropWhile Text.isBlank)
  | _ => none

/-- Further quoted texts after commas, at most so many. -/
def moreQuoted : Nat → List Char → List (List Char) × List Char
  | 0, text => ([], text)
  | count + 1, text =>
    match nextQuoted text with
    | none => ([], text)
    | some (first, after) =>
      let (others, rest) := moreQuoted count after
      (first :: others, rest)

/-- A directive at the start of a text: the word, blanks, and quoted texts between commas, as many as
there are. With it comes what follows. -/
def braceDirective (text : List Char) : Option (List (List Char) × List Char) :=
  match Text.afterPrefix? word text with
  | some (gap :: after) =>
    if Text.isBlank gap then
      match quoted (after.dropWhile Text.isBlank) with
      | some (first, rest) =>
        let (others, rest) := moreQuoted rest.length rest
        some (first :: others, rest)
      | none => none
    else none
  | _ => none

/-- The specifiers of all directives. The number says how many characters of a directive are left to
pass. -/
def braceScan : Nat → List Char → List (List Char)
  | _, [] => []
  | left + 1, _ :: rest => braceScan left rest
  | 0, c :: rest =>
    match braceDirective (c :: rest) with
    | some (specifiers, after) =>
      specifiers.map trimSpecifier ++ braceScan (rest.length - after.length) rest
    | none => braceScan 0 rest

/-- The specifier of a line that starts with blanks, the word and a blank. -/
def indentDirective (text : List Char) : Option (List Char) :=
  match Text.afterPrefix? word (text.dropWhile Comment.isIndent) with
  | some (gap :: after) =>
    if Comment.isIndent gap then some (trimSpecifier (after.takeWhile (· ≠ '\n'))) else none
  | _ => none

/-- The specifiers of all directive lines, from a place that is or is not the start of a line. -/
def indentScan : Bool → List Char → List (List Char)
  | _, [] => []
  | lineStart, c :: rest =>
    let found := if lineStart then (indentDirective (c :: rest)).toList else []
    found ++ indentScan (c = '\n') rest

def scan : Dialect → List Char → List (List Char)
  | .scss, source => braceScan 0 source
  | .sass, source => indentScan true source

/-- The specifiers that a stylesheet imports, in document order, empty ones left out. -/
def parse (dialect : Dialect) (source : List Char) : List (List Char) :=
  (scan dialect (Comment.strip source)).filter (· ≠ [])

end SheetReach.Import
