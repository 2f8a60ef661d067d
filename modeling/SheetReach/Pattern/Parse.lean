import SheetReach.Pattern.Inline

/-! Reading a pattern: choices of sequences of parts, each with an optional quantifier. -/
namespace SheetReach.Pattern

/-- Repetition counts from here on are refused. -/
def countLimit : Nat := 4294967295

namespace Reader

/-- A repetition count from its digits; without digits there is none. -/
def readCount (digits : List Char) : Read (Option Nat) := do
  if digits.isEmpty then return none
  let count := numberOf 10 digits
  if countLimit ≤ count then throw .countTooLarge
  return some count

/-- The counts in braces after an opening brace. Where the text is no quantifier the brace stands for
itself, nothing is read, and there is no answer. -/
def readBraces : Read (Option (Nat × Option Nat)) := do
  if ← isNext '\x7d' then return none
  let saved ← get
  let least ← takeAll Char.isDigit
  let most ← if ← accept ',' then takeAll Char.isDigit else pure least
  if !(← accept '\x7d') then
    set saved
    return none
  let low ← readCount least
  let high ← readCount most
  let low := low.getD 0
  if high.any (· < low) then refuse .countsReversed ((← here) - saved.position)
  return some (low, high)

def readCounts : Char → Read (Option (Nat × Option Nat))
  | '?' => return some (0, some 1)
  | '*' => return some (0, none)
  | '+' => return some (1, none)
  | _ => readBraces

def readGreed : Read Greed := do
  if ← accept '?' then return .lazy
  if ← accept '+' then return .possessive
  return .greedy

/-- The part before a quantifier, repeated. The parts are given last one first. -/
def repeatLast (start : Nat) (least : Nat) (most : Option Nat) : List Piece → Read (List Piece)
  | [] => do refuse .nothingToRepeat ((← here) - start)
  | piece :: before => do
    if piece.kind = .anchor then refuse .nothingToRepeat ((← here) - start)
    if piece.kind = .loop then refuse .repeatedTwice ((← here) - start)
    let greed ← readGreed
    return ⟨.loop greed least most piece.node, piece.width.times least most, .loop⟩ :: before

def closeParenthesis (start : Nat) : Read Unit := do
  if !(← accept ')') then refuse .unclosedGroup ((← here) - start)

def namedReference (flags : Flags) : Read Piece := do
  let name ← readName ')'
  match (← get).names.lookup name with
  | none => refuse (.unknownName name) (name.length + 1)
  | some number => referenceTo flags number (name.length + 1)

/-- What an opening parenthesis starts, once its extension is read. -/
inductive Opening where
  | nothing
  | piece (piece : Piece)
  | flagsForAll
  | group (name : Option (List Char))
  | scope (flags : Flags)
  | atomic
  | ahead (negated : Bool)
  | behind (negated : Bool)
  | condition (number : Nat)

def readNamed (flags : Flags) : Read Opening := do
  if ← accept '<' then return .group (some (← readName '>'))
  if ← accept '=' then return .piece (← namedReference flags)
  match ← take with
  | none => refuse .patternEnds 0
  | some token => refuse (.unknownExtension ('P' :: token.text)) (token.text.length + 2)

def readBehind : Read Opening := do
  match ← take with
  | none => refuse .patternEnds 0
  | some token =>
    if token.isChar '=' then return .behind false
    if token.isChar '!' then return .behind true
    refuse (.unknownExtension ('<' :: token.text)) (token.text.length + 2)

def readOpening (flags : Flags) (start : Nat) : Read Opening := do
  if !(← accept '?') then return .group none
  match ← take with
  | none => refuse .patternEnds 0
  | some token =>
    if token.isChar 'P' then return ← readNamed flags
    if token.isChar ':' then return .scope flags
    if token.isChar '#' then
      skipComment start ((← get).rest.length + 1)
      return .nothing
    if token.isChar '=' then return .ahead false
    if token.isChar '!' then return .ahead true
    if token.isChar '<' then return ← readBehind
    if token.isChar '(' then return .condition (← readCondition)
    if token.isChar '>' then return .atomic
    if (token.flag?).isSome || token.isChar '-' then
      match ← readInline token with
      | .whole => return .flagsForAll
      | .scoped on off => return .scope (flags.scoped on off)
    refuse (.unknownExtension token.text) (token.text.length + 1)

mutual

/-- A choice of sequences, read with so much fuel. At the top, flags for the whole pattern hold from
the first sequence on. -/
def readChoice : Nat → Flags → Bool → Bool → Read Piece
  | 0, _, _, _ => return .ofReversed []
  | fuel + 1, flags, top, first => do
    let sequence := Piece.ofReversed (← readSequence fuel flags (top && first) [])
    if ← accept '|' then
      let reader ← get
      let others ← readChoice fuel (if top then reader.flags else flags) top false
      return ⟨.choice sequence.node others.node, sequence.width.union others.width, .other⟩
    return sequence

/-- The parts of a sequence up to a bar, a closing parenthesis or the end, the last one first. Flags
for the whole pattern are admitted in front of everything. -/
def readSequence : Nat → Flags → Bool → List Piece → Read (List Piece)
  | 0, _, _, pieces => return pieces
  | fuel + 1, flags, first, pieces => do
    match ← peek with
    | none => return pieces
    | some token =>
      if token.isChar '|' || token.isChar ')' then return pieces
      advance
      if token.escaped then
        let piece ← escape flags token.char
        readSequence fuel flags first (piece :: pieces)
      else if flags.verbose && (token.char = ' ' || ('\t' ≤ token.char && token.char ≤ '\r')) then
        readSequence fuel flags first pieces
      else if flags.verbose && token.char = '#' then
        skipLine ((← get).rest.length + 1)
        readSequence fuel flags first pieces
      else match token.char with
        | '[' =>
          let piece ← readClass flags
          readSequence fuel flags first (piece :: pieces)
        | '.' =>
          readSequence fuel flags first (⟨.any flags.dotAll, ⟨1, 1⟩, .other⟩ :: pieces)
        | '^' =>
          let anchor := if flags.multiLine then Anchor.lineStart else .textStart
          readSequence fuel flags first (.ofAnchor flags anchor :: pieces)
        | '$' =>
          let anchor := if flags.multiLine then Anchor.lineEnd else .finalLineEnd
          readSequence fuel flags first (.ofAnchor flags anchor :: pieces)
        | '(' =>
          let start := (← here) - 1
          match ← readOpening flags start with
          | .nothing => readSequence fuel flags first pieces
          | .piece piece => readSequence fuel flags first (piece :: pieces)
          | .flagsForAll =>
            if !first || !pieces.isEmpty then refuse .lateFlags ((← here) - start)
            readSequence fuel (← get).flags first pieces
          | opening =>
            let piece ← readGroup fuel flags start opening
            readSequence fuel flags first (piece :: pieces)
        | char =>
          if char = '*' || char = '+' || char = '?' || char = '\x7b' then
            let start := (← here) - 1
            match ← readCounts char with
            | some (least, most) =>
              readSequence fuel flags first (← repeatLast start least most pieces)
            | none => readSequence fuel flags first (.ofCode flags char.toNat :: pieces)
          else readSequence fuel flags first (.ofCode flags char.toNat :: pieces)

/-- The rest of a parenthesis that opened at a position. -/
def readGroup : Nat → Flags → Nat → Opening → Read Piece
  | 0, _, _, _ => return .ofReversed []
  | fuel + 1, flags, start, opening => do
    match opening with
    | .group name =>
      let number ← openGroup name
      let body ← readChoice fuel flags false true
      closeParenthesis start
      closeGroup number body.width
      return ⟨.group number body.node, body.width, .other⟩
    | .scope inner =>
      let body ← readChoice fuel inner false true
      closeParenthesis start
      return { body with kind := .other }
    | .atomic =>
      let body ← readChoice fuel flags false true
      closeParenthesis start
      return ⟨.atomic body.node, body.width, .other⟩
    | .ahead negated =>
      let body ← readChoice fuel flags false true
      closeParenthesis start
      return ⟨.ahead negated body.node, ⟨0, 0⟩, .other⟩
    | .behind negated =>
      let outer := (← get).lookbehindFrom
      let count ← nextGroup
      modify fun reader => { reader with lookbehindFrom := some (outer.getD count) }
      let body ← readChoice fuel flags false true
      modify fun reader => { reader with lookbehindFrom := outer }
      closeParenthesis start
      return ⟨.behind negated body.width body.node, ⟨0, 0⟩, .other⟩
    | .condition number =>
      let yes := Piece.ofReversed (← readSequence fuel flags false [])
      if ← accept '|' then
        let no := Piece.ofReversed (← readSequence fuel flags false [])
        if ← isNext '|' then refuse .thirdBranch 0
        closeParenthesis start
        return ⟨.condition number yes.node no.node, yes.width.union no.width, .other⟩
      closeParenthesis start
      return ⟨.condition number yes.node .empty, ⟨0, yes.width.high⟩, .other⟩
    | .nothing | .piece _ | .flagsForAll => return .ofReversed []

end

def readPattern : Read Piece := do
  checkAhead
  let piece ← readChoice (3 * (← get).rest.length + 3) {} true true
  let reader ← get
  if reader.flags.plain && reader.flags.unicode then throw .alphabetsClash
  if !reader.rest.isEmpty then refuse .unopenedGroup 0
  match reader.asked.find? fun (number, _) => reader.groups.length < number with
  | some (number, place) => throw (.flaw (.noSuchGroup number) (some place))
  | none => return piece

end Reader

def lookbehindLimit : Nat := 4294967295

def Greed.operator : Greed → String
  | greedy => "MAX_REPEAT"
  | lazy => "MIN_REPEAT"
  | possessive => "POSSESSIVE_REPEAT"

/-- Flaws that only a whole pattern shows: a look-behind of no fixed width, and repetition in a
template. -/
def Node.check (template : Bool) : Node → Except Refusal Unit
  | empty | member _ _ _ | any _ | anchor _ _ | reference _ _ => .ok ()
  | sequence first second => do first.check template; second.check template
  | choice first second => do first.check template; second.check template
  | group _ body => body.check template
  | loop greed _ _ body =>
    if template then .error (.flaw (.templateRepeat greed.operator) none) else body.check template
  | atomic body => body.check template
  | ahead _ body => body.check template
  | behind _ width body =>
    if lookbehindLimit < width.low then .error (.flaw .lookbehindTooFar none)
    else if width.low ≠ width.high then .error (.flaw .lookbehindVaries none)
    else body.check template
  | condition _ yes no => do yes.check template; no.check template

def parse (text : List Char) : Except Refusal Node := do
  let (tokens, lonely) := Token.ofText text
  let (piece, reader) ← Reader.readPattern.run { rest := tokens, lonely := lonely }
  piece.node.check reader.flags.template
  return piece.node

end SheetReach.Pattern
