import SheetReach.Text.Blank
import SheetReach.Text.Lower
import SheetReach.Text.Split
import SheetReach.Text.Word

/-!
Names of text styles. Two names that mean the same style have one canonical spelling: traits first,
in a fixed order and by their long names, then the colour, the background and the link.
-/
namespace SheetReach.Report

def lower (s : List Char) : List Char :=
  s.map fun c => Char.ofNat (Text.lowerCode c.toNat)

/-- The traits of a style in canonical order, with all names of each; the first is canonical. -/
def traitNames : List (List String) :=
  [["bold", "b"], ["dim", "d"], ["italic", "i"], ["underline", "u"], ["blink"], ["blink2"],
   ["reverse", "r"], ["conceal", "c"], ["strike", "s"], ["underline2", "uu"], ["frame"], ["encircle"],
   ["overline", "o"]]

def traitNamed? (word : List Char) : Option String :=
  (traitNames.find? (·.contains (String.ofList word))).bind List.head?

def colourNames : List String :=
  let basic := ["black", "red", "green", "yellow", "blue", "magenta", "cyan", "white"]
  "default" :: basic ++ basic.map ("bright_" ++ ·)

def isHexDigit (c : Char) : Bool :=
  ('0' ≤ c && c ≤ '9') || ('a' ≤ c && c ≤ 'f')

def isOctet (s : List Char) : Bool :=
  !s.isEmpty && s.length ≤ 3 && s.all Char.isDigit
    && s.foldl (fun value c => value * 10 + (c.toNat - '0'.toNat)) 0 < 256

/-- What stands between a function's name with its parenthesis and the closing parenthesis. -/
def argument? (opening word : List Char) : Option (List Char) :=
  (Text.afterPrefix? opening word).bind fun rest =>
    if rest.getLast? = some ')' then some rest.dropLast else none

def isColour (word : List Char) : Bool :=
  let word := lower word
  colourNames.contains (String.ofList word)
    || (match word with
      | '#' :: digits => digits.length == 6 && digits.all isHexDigit
      | _ => false)
    || (argument? "color(".toList word).any isOctet
    || (argument? "rgb(".toList word).any fun inside =>
      let parts := Text.splitAt ',' inside
      parts.length == 3 && parts.all isOctet

structure Style where
  traits : List (String × Bool) := []
  colour : Option (List Char) := none
  background : Option (List Char) := none
  link : Option (List Char) := none

namespace Style

def turn (style : Style) (trait : String) (on : Bool) : Style :=
  { style with traits := (trait, on) :: style.traits }

/-- The style that words describe, on top of another one. -/
def read? (style : Style) : List (List Char) → Option Style
  | [] => some style
  | [word] =>
    match traitNamed? (lower word) with
    | some trait => some (style.turn trait true)
    | none => if isColour word then some { style with colour := some (lower word) } else none
  | word :: next :: rest =>
    let name := String.ofList (lower word)
    if name = "on" then
      if isColour next then read? { style with background := some (lower next) } rest else none
    else if name = "not" then
      match traitNamed? next with
      | some trait => read? (style.turn trait false) rest
      | none => none
    else if name = "link" then read? { style with link := some next } rest
    else
      match traitNamed? (lower word) with
      | some trait => read? (style.turn trait true) (next :: rest)
      | none =>
        if isColour word then read? { style with colour := some (lower word) } (next :: rest) else none

def canonical (style : Style) : List Char :=
  let traits := traitNames.filterMap fun names => do
    let name ← names.head?
    let on ← style.traits.lookup name
    return (if on then name else "not " ++ name).toList
  let colour := style.colour.toList
  let background := (style.background.map ("on ".toList ++ ·)).toList
  let link := (style.link.map ("link ".toList ++ ·)).toList
  Text.joinWith [' '] (traits ++ colour ++ background ++ link)

end Style

/-- The canonical spelling of a style's name; what names no style is trimmed and in lower case. -/
def canonicalName (name : List Char) : List Char :=
  match Style.read? {} (Text.words name) with
  | some style => style.canonical
  | none => lower (Text.trim name)

end SheetReach.Report
