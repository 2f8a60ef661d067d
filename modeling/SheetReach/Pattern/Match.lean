import SheetReach.Pattern.Basic
import SheetReach.Text.Blank
import SheetReach.Text.Lower
import SheetReach.Text.Word

/-! Finding a pattern in a text by trying its ways in order. -/
namespace SheetReach.Pattern

/-- A character is of a kind, over all scripts or only over the first 128 code points. -/
def Category.holds (plain : Bool) (char : Char) : Category → Bool
  | digit => if plain then char.isDigit else Text.isDecimal char
  | space =>
    if plain then char = ' ' || ('\t' ≤ char && char ≤ '\r') else Text.isBlank char
  | word => if plain then Text.isPlainWord char else Text.isWord char

/-- The code point by which a character is compared. -/
def Comparison.key (comparison : Comparison) (code : Nat) : Nat :=
  if !comparison.ignoreCase then code
  else if comparison.plain then Text.plainLowerCode code
  else Text.lowerCode code

/-- The code points that a key stands for: all of them if case is ignored. -/
def Comparison.alike (comparison : Comparison) (key : Nat) : List Nat :=
  if !comparison.ignoreCase then [key]
  else if comparison.plain then
    key :: (if 97 ≤ key && key ≤ 122 then [key - 32] else [])
  else (Text.alikeLower key).flatMap Text.raisedCodes

/-- A character, given by its key, is this member of a class. Case is ignored by asking for any code
point that the key stands for. -/
def Member.holds (comparison : Comparison) (key : Nat) : Member → Bool
  | .code wanted => (comparison.alike key).contains wanted
  | .range low high => (comparison.alike key).any fun point => low ≤ point && point ≤ high
  | .category kind negated => kind.holds comparison.plain (Char.ofNat key) != negated

def isMember (comparison : Comparison) (negated : Bool) (members : List Member) (char : Char) : Bool :=
  members.any (Member.holds comparison (comparison.key char.toNat)) != negated

/-- A place in a text and the groups filled so far, the last filled first. -/
structure Cursor where
  index : Nat
  groups : List (Nat × Nat × Nat) := []
  deriving DecidableEq, Repr

abbrev Rest := Cursor → Option Cursor

namespace Cursor

/-- The group's last extent, from its first index to before its second. -/
def extent? (cursor : Cursor) (number : Nat) : Option (Nat × Nat) :=
  cursor.groups.lookup number

/-- The cursor with a group filled from an index up to here. -/
def fill (cursor : Cursor) (number start : Nat) : Cursor :=
  { cursor with groups := (number, start, cursor.index) :: cursor.groups.filter (·.1 ≠ number) }

end Cursor

def wordBefore (text : Array Char) (plain : Bool) (index : Nat) : Bool :=
  match index with
  | 0 => false
  | before + 1 => (text[before]?).any (Category.holds plain · .word)

/-- An anchor holds at an index. In an empty text there is neither a boundary nor a place that is
none. -/
def Anchor.holds (text : Array Char) (plain : Bool) (index : Nat) : Anchor → Bool
  | textStart => index = 0
  | lineStart => index = 0 || text[index - 1]? = some '\n'
  | textEnd => index = text.size
  | finalLineEnd => index = text.size || (index + 1 = text.size && text[index]? = some '\n')
  | lineEnd => index = text.size || text[index]? = some '\n'
  | boundary =>
    !text.isEmpty && wordBefore text plain index != (text[index]?).any (Category.holds plain · .word)
  | nonBoundary =>
    !text.isEmpty && wordBefore text plain index == (text[index]?).any (Category.holds plain · .word)

def exactly (body : Cursor → Rest → Option Cursor) : Nat → Cursor → Rest → Option Cursor
  | 0, cursor, rest => rest cursor
  | count + 1, cursor, rest => body cursor fun next => exactly body count next rest

def orElse (first : Option Cursor) (second : Unit → Option Cursor) : Option Cursor :=
  match first with
  | some cursor => some cursor
  | none => second ()

/-- A part further times, up to a bound, then the rest. No repetition starts where the one before it
started, since it took nothing. The fuel is more than the characters left. -/
def further (body : Cursor → Rest → Option Cursor) (lazy : Bool) :
    Nat → Option Nat → Option Nat → Cursor → Rest → Option Cursor
  | 0, _, _, cursor, rest => rest cursor
  | fuel + 1, most, started, cursor, rest =>
    if most = some 0 || started = some cursor.index then rest cursor
    else
      let again := fun (_ : Unit) => body cursor fun next =>
        further body lazy fuel (most.map (· - 1)) (some cursor.index) next rest
      if lazy then orElse (rest cursor) again else orElse (again ()) fun _ => rest cursor

/-- A part as often as it can be had, up to a bound, each time in its first way. -/
def furthest (body : Cursor → Rest → Option Cursor) : Nat → Option Nat → Cursor → Cursor
  | 0, _, cursor => cursor
  | fuel + 1, most, cursor =>
    if most = some 0 then cursor
    else match body cursor some with
      | none => cursor
      | some next =>
        if next.index = cursor.index then next else furthest body fuel (most.map (· - 1)) next

def sameStretch (comparison : Comparison) (text : Array Char) (first second : Nat) : Nat → Bool
  | 0 => true
  | count + 1 =>
    match text[first]?, text[second]? with
    | some a, some b =>
      comparison.key a.toNat == comparison.key b.toNat
        && sameStretch comparison text (first + 1) (second + 1) count
    | _, _ => false

/-- Matches a pattern from a cursor, then the rest; the answer is where the first way that works
ends. -/
def Node.run (text : Array Char) : Node → Cursor → Rest → Option Cursor
  | empty, cursor, rest => rest cursor
  | member comparison negated members, cursor, rest =>
    match text[cursor.index]? with
    | some char =>
      if isMember comparison negated members char then rest { cursor with index := cursor.index + 1 }
      else none
    | none => none
  | any newlineToo, cursor, rest =>
    match text[cursor.index]? with
    | some char =>
      if newlineToo || char ≠ '\n' then rest { cursor with index := cursor.index + 1 } else none
    | none => none
  | anchor place plain, cursor, rest =>
    if place.holds text plain cursor.index then rest cursor else none
  | sequence first second, cursor, rest =>
    first.run text cursor fun next => second.run text next rest
  | choice first second, cursor, rest =>
    orElse (first.run text cursor rest) fun _ => second.run text cursor rest
  | group number body, cursor, rest =>
    body.run text cursor fun next => rest (next.fill number cursor.index)
  | loop greed least most body, cursor, rest =>
    let left := most.map (· - least)
    match greed with
    | .possessive =>
      match exactly (fun here next => (body.run text here some).bind next) least cursor some with
      | some reached => rest (furthest (fun here next => body.run text here next) (text.size + 1) left reached)
      | none => none
    | .greedy =>
      exactly (fun here next => body.run text here next) least cursor fun reached =>
        further (fun here next => body.run text here next) false (text.size + 2) left none reached rest
    | .lazy =>
      exactly (fun here next => body.run text here next) least cursor fun reached =>
        further (fun here next => body.run text here next) true (text.size + 2) left none reached rest
  | atomic body, cursor, rest => (body.run text cursor some).bind rest
  | ahead negated body, cursor, rest =>
    match body.run text cursor some with
    | some found => if negated then none else rest { cursor with groups := found.groups }
    | none => if negated then rest cursor else none
  | behind negated width body, cursor, rest =>
    if cursor.index < width.low then (if negated then rest cursor else none)
    else match body.run text { cursor with index := cursor.index - width.low } some with
      | some found => if negated then none else rest { cursor with groups := found.groups }
      | none => if negated then rest cursor else none
  | reference comparison number, cursor, rest =>
    match cursor.extent? number with
    | some (start, stop) =>
      if sameStretch comparison text start cursor.index (stop - start) then
        rest { cursor with index := cursor.index + (stop - start) }
      else none
    | none => none
  | condition number yes no, cursor, rest =>
    if (cursor.extent? number).isSome then yes.run text cursor rest else no.run text cursor rest

def Node.foundIn (node : Node) (text : List Char) : Bool :=
  let chars := text.toArray
  (List.range (chars.size + 1)).any fun start => (node.run chars ⟨start, []⟩ some).isSome

end SheetReach.Pattern
