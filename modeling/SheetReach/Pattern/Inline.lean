import SheetReach.Pattern.Escape

/-! Flags written into a pattern, and names and numbers of groups. -/
namespace SheetReach.Pattern

/-- The flag that a letter sets. The letter for the locale is known and always refused. -/
def flagOf? : Char → Option Flags
  | 'i' => some { ignoreCase := true }
  | 'm' => some { multiLine := true }
  | 's' => some { dotAll := true }
  | 'x' => some { verbose := true }
  | 'a' => some { plain := true }
  | 'u' => some { unicode := true }
  | 't' => some { template := true }
  | 'L' => some {}
  | _ => none

def Token.flag? (token : Token) : Option Flags :=
  if token.escaped then none else flagOf? token.char

/-- A letter, for the choice between an unknown flag and a missing one. -/
def Token.isLetter (token : Token) : Bool :=
  !token.escaped && Text.isLetter token.char

inductive Inline where
  | whole
  | scoped (on off : Flags)

namespace Reader

/-- Flags to turn on, from the given letter on, and the character that ends them. -/
def flagsOn : Nat → Flags → Token → Read (Flags × Token)
  | 0, flags, token => return (flags, token)
  | count + 1, flags, token => do
    if token.isChar 'L' then refuse .localeFlag 0
    let flags := flags.union ((token.flag?).getD {})
    if (token.isChar 'a' || token.isChar 'u') && flags.plain && flags.unicode then
      refuse .typeFlagsClash 0
    match ← take with
    | none => refuse .flagsUnfinished 0
    | some next =>
      if next.isChar ')' || next.isChar '-' || next.isChar ':' then return (flags, next)
      if (next.flag?).isNone then
        refuse (if next.isLetter then .unknownFlag else .flagsUnfinished) next.text.length
      flagsOn count flags next

def flagsOff : Nat → Flags → Token → Read Flags
  | 0, flags, _ => return flags
  | count + 1, flags, token => do
    if token.isChar 'a' || token.isChar 'u' || token.isChar 'L' then refuse .typeFlagOff 0
    let flags := flags.union ((token.flag?).getD {})
    match ← take with
    | none => refuse .colonMissing 0
    | some next =>
      if next.isChar ':' then return flags
      if (next.flag?).isNone then
        refuse (if next.isLetter then .unknownFlag else .colonMissing) next.text.length
      flagsOff count flags next

/-- Flags in parentheses from their first token on: for the whole pattern if the parenthesis closes
after them, else for the group that follows the colon. -/
def readInline (first : Token) : Read Inline := do
  let bound := (← get).rest.length + 1
  let (on, last) ← if first.isChar '-' then pure ({}, first) else flagsOn bound {} first
  if last.isChar ')' then
    modify fun reader => { reader with flags := reader.flags.union on }
    return .whole
  if on.template then refuse .globalFlagOn 1
  if last.isChar '-' then
    match ← take with
    | none => refuse .flagMissing 0
    | some next =>
      if (next.flag?).isNone then
        refuse (if next.isLetter then .unknownFlag else .flagMissing) next.text.length
      let off ← flagsOff bound {} next
      if off.template then refuse .globalFlagOff 1
      if on.meets off then refuse .flagOnAndOff 1
      return .scoped on off
  return .scoped on {}

def readName (terminator : Char) : Read (List Char) := do
  let name ← takeUntil terminator "group name"
  if !Text.isIdentifier name then refuse (.badName name) (name.length + 1)
  return name

/-- The digits of a number with single underscores between them. -/
def groupNumberFrom : Nat → List Char → Option Nat
  | total, [] => some total
  | _, ['_'] => none
  | total, '_' :: c :: rest =>
    match Text.decimalValue? c with
    | some digit => groupNumberFrom (total * 10 + digit) rest
    | none => none
  | total, c :: rest =>
    match Text.decimalValue? c with
    | some digit => groupNumberFrom (total * 10 + digit) rest
    | none => none

def digitsNumber? : List Char → Option Nat
  | [] => none
  | c :: rest =>
    match Text.decimalValue? c with
    | some digit => groupNumberFrom digit rest
    | none => none

/-- A group number as written: blanks around it, a sign, and underscores between digits are let
pass, and the only number below zero that counts is minus zero. -/
def groupNumber? (text : List Char) : Option Nat :=
  match Text.trim text with
  | '+' :: rest => digitsNumber? rest
  | '-' :: rest => (digitsNumber? rest).filter (· = 0)
  | rest => digitsNumber? rest

def groupLimit : Nat := 1073741823

/-- The group that a condition asks about, by name or by number. -/
def readCondition : Read Nat := do
  let name ← takeUntil ')' "group name"
  let back := name.length + 1
  let number ←
    if Text.isIdentifier name then
      match (← get).names.lookup name with
      | some number => pure number
      | none => refuse (.unknownName name) back
    else
      match groupNumber? name with
      | none => refuse (.badName name) back
      | some number =>
        if number = 0 then refuse .groupNumberZero back
        if groupLimit ≤ number then refuse (.noSuchGroup number) back
        let place := (← here) - back
        modify fun reader =>
          if (reader.asked.lookup number).isSome then reader
          else { reader with asked := reader.asked ++ [(number, place)] }
        pure number
  checkLookbehind number
  return number

end Reader

end SheetReach.Pattern
