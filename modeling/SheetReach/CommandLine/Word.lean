import SheetReach.CommandLine.Usage
import SheetReach.Text.Word

/-!
The words of a command line, told apart before any of them takes effect: options, maybe abbreviated and
maybe with a value, and plain words.
-/
namespace SheetReach.CommandLine

/-- A text glued to an option, behind an equals sign or directly. -/
structure Glued where
  text : List Char
  afterEquals : Bool
  deriving DecidableEq, Repr

inductive Word where
  /-- A value, or an argument that stands for nothing. -/
  | plain (text : List Char)
  /-- The mark after which all words are plain. -/
  | divider
  /-- An option that there is not. -/
  | unknown (text : List Char)
  | option (spelling : Spelling) (glued : Option Glued)
  deriving DecidableEq, Repr

namespace Word

def dividerText : List Char := ['-', '-']

def cutAtEquals (text : List Char) : List Char × Option Glued :=
  match text.dropWhile (· != '=') with
  | [] => (text, none)
  | _ :: value => (text.takeWhile (· != '='), some ⟨value, true⟩)

/-- The options that a long word may abbreviate: those that start with its part before an equals sign. -/
def expandLong (text : List Char) : List (Spelling × Option Glued) :=
  let (start, glued) := cutAtEquals text
  (Spelling.all.filter (Text.startsWith start ·.text)).map (·, glued)

/-- The options that a word with one dash may stand for: the one of its first letter, with the rest
glued to it, and those that start with the whole word. -/
def expandShort (text : List Char) : List (Spelling × Option Glued) :=
  Spelling.all.filterMap fun spelling =>
    if spelling.text = text.take 2 then some (spelling, some ⟨text.drop 2, false⟩)
    else if Text.startsWith text spelling.text then some (spelling, none)
    else none

def expansions (text : List Char) : List (Spelling × Option Glued) :=
  if Text.startsWith dividerText text then expandLong text else expandShort text

/-- A dash and a number, with or without a point; one line end after it does not count. -/
def isNegativeNumber (text : List Char) : Bool :=
  match text with
  | '-' :: number =>
    let number := if number.getLast? = some '\n' then number.dropLast else number
    let whole := number.takeWhile Text.isDecimal
    match number.dropWhile Text.isDecimal with
    | [] => !whole.isEmpty
    | '.' :: fraction => !fraction.isEmpty && fraction.all Text.isDecimal
    | _ => false
  | _ => false

/-- The word that a text with a dash in front is, if it is no spelling of an option. -/
def ofDashed (text : List Char) : Except UsageError Word :=
  match expansions text with
  | [(spelling, glued)] => .ok (.option spelling glued)
  | _ :: _ :: _ => .error (.ambiguous text ((expansions text).map (·.1.text)))
  | [] =>
    if isNegativeNumber text || text.contains ' ' then .ok (.plain text) else .ok (.unknown text)

def ofText (text : List Char) : Except UsageError Word :=
  if text.head? ≠ some '-' then .ok (.plain text)
  else match Spelling.ofText? text with
    | some spelling => .ok (.option spelling none)
    | none =>
      if text.length = 1 then .ok (.plain text)
      else match cutAtEquals text with
        | (start, some glued) =>
          match Spelling.ofText? start with
          | some spelling => .ok (.option spelling (some glued))
          | none => ofDashed text
        | (_, none) => ofDashed text

/-- Behind the mark all words are plain, the ones that look like options too. -/
def ofTexts : List (List Char) → Except UsageError (List Word)
  | [] => .ok []
  | text :: rest =>
    if text = dividerText then .ok (.divider :: rest.map .plain)
    else do
      let word ← ofText text
      let others ← ofTexts rest
      return word :: others

end Word

end SheetReach.CommandLine
