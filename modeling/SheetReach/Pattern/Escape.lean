import SheetReach.Pattern.Reader

/-! Escapes and character classes. -/
namespace SheetReach.Pattern

/-- What a quantifier may stand after: neither an anchor nor another repetition. -/
inductive PieceKind where
  | anchor
  | loop
  | other
  deriving DecidableEq, Repr

structure Piece where
  node : Node
  width : Width
  kind : PieceKind := .other

namespace Piece

def ofMembers (flags : Flags) (negated : Bool) (members : List Member) : Piece :=
  ⟨.member flags.comparison negated members, ⟨1, 1⟩, .other⟩

def ofCode (flags : Flags) (code : Nat) : Piece :=
  ofMembers flags false [.code code]

def ofAnchor (flags : Flags) (anchor : Anchor) : Piece :=
  ⟨.anchor anchor flags.plain, ⟨0, 0⟩, .anchor⟩

/-- Parts one after the other, the last one given first. -/
def ofReversed : List Piece → Piece
  | [] => ⟨.empty, ⟨0, 0⟩, .other⟩
  | [piece] => { piece with kind := .other }
  | last :: before =>
    let front := ofReversed before
    ⟨.sequence front.node last.node, front.width.append last.width, .other⟩

end Piece

/-- The kinds of characters that a letter names, in classes and outside. -/
def categoryOf? : Char → Option (Category × Bool)
  | 'd' => some (.digit, false)
  | 'D' => some (.digit, true)
  | 's' => some (.space, false)
  | 'S' => some (.space, true)
  | 'w' => some (.word, false)
  | 'W' => some (.word, true)
  | _ => none

def controlOf? : Char → Option Nat
  | 'a' => some 7
  | 'f' => some 12
  | 'n' => some 10
  | 'r' => some 13
  | 't' => some 9
  | 'v' => some 11
  | '\\' => some 92
  | _ => none

def anchorOf? : Char → Option Anchor
  | 'A' => some .textStart
  | 'Z' => some .textEnd
  | 'b' => some .boundary
  | 'B' => some .nonBoundary
  | _ => none

/-- The value of a digit, letters standing for ten and more. -/
def digitValue (c : Char) : Nat :=
  if c.isDigit then c.toNat - 48 else c.toLower.toNat - 87

def numberOf (base : Nat) (digits : List Char) : Nat :=
  digits.foldl (fun total digit => total * base + digitValue digit) 0

def isHex (c : Char) : Bool :=
  c.isDigit || ('a' ≤ c && c ≤ 'f') || ('A' ≤ c && c ≤ 'F')

def isOctal (c : Char) : Bool :=
  '0' ≤ c && c ≤ '7'

namespace Reader

def hexEscape (letter : Char) (count : Nat) : Read Nat := do
  let digits ← takeWhile isHex count
  let escape := '\\' :: letter :: digits
  if digits.length ≠ count then refuse (.shortEscape escape) escape.length
  let code := numberOf 16 digits
  if 0x110000 ≤ code then refuse (.unknownEscape escape) escape.length
  return code

/-- The code point of a named character. No name is known here. -/
def namedEscape : Read Nat := do
  if !(← accept '\x7b') then refuse .noCharacterName 0
  let name ← takeUntil '\x7d' "character name"
  refuse (.unknownCharacterName name) (name.length + 4)

/-- The escapes that mean one code point, in classes and outside; none for the others. -/
def codeEscape? (letter : Char) : Read (Option Nat) := do
  match letter with
  | 'x' => return some (← hexEscape 'x' 2)
  | 'u' => return some (← hexEscape 'u' 4)
  | 'U' => return some (← hexEscape 'U' 8)
  | 'N' => return some (← namedEscape)
  | _ => return none

def classEscape (letter : Char) : Read Member := do
  if letter = 'b' then return .code 8
  if let some code := controlOf? letter then return .code code
  if let some (category, negated) := categoryOf? letter then return .category category negated
  if let some code ← codeEscape? letter then return .code code
  if isOctal letter then
    let digits := letter :: (← takeWhile isOctal 2)
    let code := numberOf 8 digits
    if 0o377 < code then refuse (.octalTooLarge ('\\' :: digits)) (digits.length + 1)
    return .code code
  if letter.isAlphanum then refuse (.unknownEscape ['\\', letter]) 2
  return .code letter.toNat

/-- A reference to a group that is closed. The escape is given as written. -/
def referenceTo (flags : Flags) (number : Nat) (back : Nat) : Read Piece := do
  match ← closedWidth? number with
  | none => refuse .groupStillOpen back
  | some width =>
    checkLookbehind number
    return ⟨.reference flags.comparison number, width, .other⟩

/-- A backslash and a digit that is not zero: three octal digits are a code point, all else is the
number of a group. -/
def numberEscape (flags : Flags) (first : Char) : Read Piece := do
  let second ← takeWhile Char.isDigit 1
  let third ← if isOctal first && second.any isOctal then takeWhile isOctal 1 else pure []
  let digits := first :: (second ++ third)
  if third.isEmpty then
    let number := numberOf 10 digits
    if number < (← nextGroup) then referenceTo flags number (digits.length + 1)
    else refuse (.noSuchGroup number) digits.length
  else
    let code := numberOf 8 digits
    if 0o377 < code then refuse (.octalTooLarge ('\\' :: digits)) (digits.length + 1)
    return .ofCode flags code

def escape (flags : Flags) (letter : Char) : Read Piece := do
  if let some anchor := anchorOf? letter then return .ofAnchor flags anchor
  if let some (category, negated) := categoryOf? letter then
    return .ofMembers flags false [.category category negated]
  if let some code := controlOf? letter then return .ofCode flags code
  if let some code ← codeEscape? letter then return .ofCode flags code
  if letter = '0' then
    let digits ← takeWhile isOctal 2
    return .ofCode flags (numberOf 8 digits)
  if letter.isDigit then return ← numberEscape flags letter
  if letter.isAlpha then refuse (.unknownEscape ['\\', letter]) 2
  return .ofCode flags letter.toNat

def classMember (token : Token) : Read Member :=
  if token.escaped then classEscape token.char else return .code token.char.toNat

/-- The members of a class that began at a position, up to its closing bracket. A bracket in first
place is a member. -/
def classMembers (start : Nat) : Nat → List Member → Read (List Member)
  | 0, members => return members
  | count + 1, members => do
    match ← take with
    | none => refuse .unclosedClass ((← here) - start)
    | some token =>
      if token.isChar ']' && !members.isEmpty then return members
      let low ← classMember token
      if ← accept '-' then
        match ← take with
        | none => refuse .unclosedClass ((← here) - start)
        | some other =>
          if other.isChar ']' then return members ++ [low, .code '-'.toNat]
          let high ← classMember other
          let flaw := Flaw.reversedRange token.text other.text
          let back := token.text.length + 1 + other.text.length
          match low, high with
          | .code low, .code high =>
            if high < low then refuse flaw back
            classMembers start count (members ++ [.range low high])
          | _, _ => refuse flaw back
      else classMembers start count (members ++ [low])

def readClass (flags : Flags) : Read Piece := do
  let start := (← here) - 1
  let negated ← accept '^'
  let members ← classMembers start ((← get).rest.length + 1) []
  return .ofMembers flags negated members

end Reader

end SheetReach.Pattern
