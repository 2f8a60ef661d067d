import SheetReach.Text.Quoted

/-! What can be wrong with a pattern, and where. -/
namespace SheetReach.Pattern

inductive Flaw where
  | unclosedGroup
  | unopenedGroup
  | unclosedComment
  | unclosedClass
  | nothingToRepeat
  | repeatedTwice
  | countsReversed
  | lonelyBackslash
  | unknownEscape (escape : List Char)
  | shortEscape (escape : List Char)
  | octalTooLarge (escape : List Char)
  | noCharacterName
  | unknownCharacterName (name : List Char)
  | reversedRange (low high : List Char)
  | missingName (what : String)
  | unclosedName (terminator : Char)
  | unknownExtension (text : List Char)
  | patternEnds
  | badName (name : List Char)
  | unknownName (name : List Char)
  | nameTaken (name : List Char) (number earlier : Nat)
  | noSuchGroup (number : Nat)
  | groupStillOpen
  | groupInSameLookbehind
  | groupNumberZero
  | thirdBranch
  | lookbehindVaries
  | lookbehindTooFar
  | lateFlags
  | flagsUnfinished
  | flagMissing
  | colonMissing
  | unknownFlag
  | localeFlag
  | typeFlagsClash
  | typeFlagOff
  | globalFlagOn
  | globalFlagOff
  | flagOnAndOff
  | templateRepeat (operator : String)
  deriving DecidableEq, Repr

def Flaw.text : Flaw → String
  | unclosedGroup => "missing ), unterminated subpattern"
  | unopenedGroup => "unbalanced parenthesis"
  | unclosedComment => "missing ), unterminated comment"
  | unclosedClass => "unterminated character set"
  | nothingToRepeat => "nothing to repeat"
  | repeatedTwice => "multiple repeat"
  | countsReversed => "min repeat greater than max repeat"
  | lonelyBackslash => "bad escape (end of pattern)"
  | unknownEscape escape => "bad escape " ++ String.ofList escape
  | shortEscape escape => "incomplete escape " ++ String.ofList escape
  | octalTooLarge escape => "octal escape value " ++ String.ofList escape ++ " outside of range 0-0o377"
  | noCharacterName => "missing \x7b"
  | unknownCharacterName name => "undefined character name " ++ String.ofList (Text.Quoted.encode name)
  | reversedRange low high => "bad character range " ++ String.ofList low ++ "-" ++ String.ofList high
  | missingName what => "missing " ++ what
  | unclosedName terminator => "missing " ++ terminator.toString ++ ", unterminated name"
  | unknownExtension text => "unknown extension ?" ++ String.ofList text
  | patternEnds => "unexpected end of pattern"
  | badName name => "bad character in group name " ++ String.ofList (Text.Quoted.encode name)
  | unknownName name => "unknown group name " ++ String.ofList (Text.Quoted.encode name)
  | nameTaken name number earlier =>
    "redefinition of group name " ++ String.ofList (Text.Quoted.encode name) ++ " as group "
      ++ toString number ++ "; was group " ++ toString earlier
  | noSuchGroup number => "invalid group reference " ++ toString number
  | groupStillOpen => "cannot refer to an open group"
  | groupInSameLookbehind => "cannot refer to group defined in the same lookbehind subpattern"
  | groupNumberZero => "bad group number"
  | thirdBranch => "conditional backref with more than two branches"
  | lookbehindVaries => "look-behind requires fixed-width pattern"
  | lookbehindTooFar => "looks too much behind"
  | lateFlags => "global flags not at the start of the expression"
  | flagsUnfinished => "missing -, : or )"
  | flagMissing => "missing flag"
  | colonMissing => "missing :"
  | unknownFlag => "unknown flag"
  | localeFlag => "bad inline flags: cannot use 'L' flag with a str pattern"
  | typeFlagsClash => "bad inline flags: flags 'a', 'u' and 'L' are incompatible"
  | typeFlagOff => "bad inline flags: cannot turn off flags 'a', 'u' and 'L'"
  | globalFlagOn => "bad inline flags: cannot turn on global flag"
  | globalFlagOff => "bad inline flags: cannot turn off global flag"
  | flagOnAndOff => "bad inline flags: flag turned on and off"
  | templateRepeat operator => "internal: unsupported template operator " ++ operator

/-- Why a pattern is refused: a flaw, most often at a position, a repetition count beyond all bounds,
or flags for both alphabets at once. -/
inductive Refusal where
  | flaw (flaw : Flaw) (position : Option Nat)
  | countTooLarge
  | alphabetsClash
  deriving DecidableEq, Repr

def Flaw.describe (flaw : Flaw) (pattern : List Char) : Option Nat → String
  | none => flaw.text
  | some position =>
    let before := pattern.take position
    let line := before.count '\n' + 1
    let column := (before.reverse.takeWhile (· ≠ '\n')).length + 1
    let place := flaw.text ++ " at position " ++ toString position
    if pattern.contains '\n' then
      place ++ " (line " ++ toString line ++ ", column " ++ toString column ++ ")"
    else place

end SheetReach.Pattern
