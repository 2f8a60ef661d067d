import SheetReach.Pattern.Basic
import SheetReach.Pattern.Flaw
import SheetReach.Text.Blank
import SheetReach.Text.Identifier

/-! The reader's place in a pattern and its small moves. A backslash and the character after it are
one token, and one token is always seen ahead: a backslash at the very end is found as soon as it is
next. -/
namespace SheetReach.Pattern

structure Token where
  char : Char
  escaped : Bool := false
  deriving DecidableEq, Repr

namespace Token

def text (token : Token) : List Char :=
  if token.escaped then ['\\', token.char] else [token.char]

def isChar (token : Token) (char : Char) : Bool :=
  !token.escaped && token.char == char

/-- The tokens of a pattern, and whether a lonely backslash follows them. -/
def ofText : List Char → List Token × Bool
  | [] => ([], false)
  | ['\\'] => ([], true)
  | '\\' :: c :: rest =>
    let (tokens, lonely) := ofText rest
    (⟨c, true⟩ :: tokens, lonely)
  | c :: rest =>
    let (tokens, lonely) := ofText rest
    (⟨c, false⟩ :: tokens, lonely)

end Token

/-- What a pattern may be told by letters in parentheses. -/
structure Flags where
  ignoreCase : Bool := false
  multiLine : Bool := false
  dotAll : Bool := false
  verbose : Bool := false
  plain : Bool := false
  unicode : Bool := false
  template : Bool := false
  deriving DecidableEq, Repr

def Flags.comparison (flags : Flags) : Comparison :=
  ⟨flags.ignoreCase, flags.plain⟩

def Flags.union (first second : Flags) : Flags where
  ignoreCase := first.ignoreCase || second.ignoreCase
  multiLine := first.multiLine || second.multiLine
  dotAll := first.dotAll || second.dotAll
  verbose := first.verbose || second.verbose
  plain := first.plain || second.plain
  unicode := first.unicode || second.unicode
  template := first.template || second.template

def Flags.meets (first second : Flags) : Bool :=
  (first.ignoreCase && second.ignoreCase) || (first.multiLine && second.multiLine)
    || (first.dotAll && second.dotAll) || (first.verbose && second.verbose)
    || (first.plain && second.plain) || (first.unicode && second.unicode)
    || (first.template && second.template)

/-- The flags inside a group that turns some on and some off. Choosing an alphabet drops the choice
made outside. -/
def Flags.scoped (flags on off : Flags) : Flags where
  ignoreCase := (flags.ignoreCase || on.ignoreCase) && !off.ignoreCase
  multiLine := (flags.multiLine || on.multiLine) && !off.multiLine
  dotAll := (flags.dotAll || on.dotAll) && !off.dotAll
  verbose := (flags.verbose || on.verbose) && !off.verbose
  plain := if on.plain || on.unicode then on.plain else flags.plain
  unicode := if on.plain || on.unicode then on.unicode else flags.unicode
  template := flags.template

/-- Where the reader is and what it knows: the tokens ahead, their position in the pattern, the width
of each group so far (none while it is open), the names of groups, the number of groups where the
outermost look-behind began, the group numbers asked about with the first place of each, and the
flags for the whole pattern. -/
structure Reader where
  rest : List Token
  lonely : Bool
  position : Nat := 0
  groups : List (Option Width) := []
  names : List (List Char × Nat) := []
  lookbehindFrom : Option Nat := none
  asked : List (Nat × Nat) := []
  flags : Flags := {}

abbrev Read := StateT Reader (Except Refusal)

namespace Reader

def peek : Read (Option Token) := do
  return (← get).rest.head?

def here : Read Nat := do
  return (← get).position

/-- Refuses the pattern for a flaw some characters before the token ahead. -/
def refuse {α : Type} (flaw : Flaw) (back : Nat) : Read α := do
  throw (.flaw flaw (some ((← here) - back)))

/-- Fails at a lonely backslash that has become next. -/
def checkAhead : Read Unit := do
  let reader ← get
  if reader.rest.isEmpty && reader.lonely then refuse .lonelyBackslash 0

def advance : Read Unit := do
  let reader ← get
  match reader.rest with
  | [] => pure ()
  | token :: rest =>
    set { reader with rest := rest, position := reader.position + token.text.length }
    checkAhead

def take : Read (Option Token) := do
  let token ← peek
  advance
  return token

def isNext (char : Char) : Read Bool := do
  return match ← peek with
    | some token => token.isChar char
    | none => false

def accept (char : Char) : Read Bool := do
  if ← isNext char then
    advance
    return true
  else return false

def takeWhile (kind : Char → Bool) : Nat → Read (List Char)
  | 0 => return []
  | count + 1 => do
    match ← peek with
    | some token =>
      if !token.escaped && kind token.char then
        advance
        return token.char :: (← takeWhile kind count)
      else return []
    | none => return []

def takeAll (kind : Char → Bool) : Read (List Char) := do
  takeWhile kind (← get).rest.length

/-- The text up to a terminator, which is moved past; `what` names what the text is. -/
def takeUntilFrom (terminator : Char) (what : String) : Nat → List Char → Read (List Char)
  | 0, text => return text
  | count + 1, text => do
    match ← take with
    | none => if text.isEmpty then refuse (.missingName what) 0 else refuse (.unclosedName terminator) text.length
    | some token =>
      if token.isChar terminator then
        if text.isEmpty then refuse (.missingName what) 1 else return text
      else takeUntilFrom terminator what count (text ++ token.text)

def takeUntil (terminator : Char) (what : String) : Read (List Char) := do
  takeUntilFrom terminator what ((← get).rest.length + 1) []

def skipLine : Nat → Read Unit
  | 0 => return
  | count + 1 => do
    match ← take with
    | none => return
    | some token => if token.isChar '\n' then return else skipLine count

def skipComment (start : Nat) : Nat → Read Unit
  | 0 => return
  | count + 1 => do
    if (← peek).isNone then refuse .unclosedComment ((← here) - start)
    match ← take with
    | some token => if token.isChar ')' then return else skipComment start count
    | none => return

def nextGroup : Read Nat := do
  return (← get).groups.length + 1

def closedWidth? (number : Nat) : Read (Option Width) := do
  let reader ← get
  return match number with
    | 0 => none
    | index + 1 => reader.groups[index]?.join

def openGroup (name : Option (List Char)) : Read Nat := do
  let reader ← get
  let number ← nextGroup
  match name with
  | none => set { reader with groups := reader.groups ++ [none] }
  | some name =>
    match reader.names.lookup name with
    | some earlier => refuse (.nameTaken name number earlier) (name.length + 1)
    | none =>
      set { reader with groups := reader.groups ++ [none], names := (name, number) :: reader.names }
  return number

def closeGroup (number : Nat) (width : Width) : Read Unit :=
  modify fun reader => { reader with groups := reader.groups.set (number - 1) (some width) }

/-- Inside a look-behind only groups closed before it may be asked about. -/
def checkLookbehind (number : Nat) : Read Unit := do
  match (← get).lookbehindFrom with
  | none => return
  | some first =>
    if (← closedWidth? number).isNone then refuse .groupStillOpen 0
    if first ≤ number then refuse .groupInSameLookbehind 0

end Reader

end SheetReach.Pattern
