/-! The parts of a pattern. -/
namespace SheetReach.Pattern

inductive Category where
  | digit
  | space
  | word
  deriving DecidableEq, Repr

/-- One member of a character class. Characters are given by code point. -/
inductive Member where
  | code (point : Nat)
  | range (low high : Nat)
  | category (kind : Category) (negated : Bool)
  deriving DecidableEq, Repr

/-- How characters are compared: with or without regard to case, over all scripts or only over the
first 128 code points. -/
structure Comparison where
  ignoreCase : Bool := false
  plain : Bool := false
  deriving DecidableEq, Repr

/-- Conditions on a position that take no character. -/
inductive Anchor where
  | textStart
  | lineStart
  | textEnd
  | finalLineEnd
  | lineEnd
  | boundary
  | nonBoundary
  deriving DecidableEq, Repr

/-- The order in which the lengths of a repetition are tried: long ones first, short ones first, or
only the longest. -/
inductive Greed where
  | greedy
  | lazy
  | possessive
  deriving DecidableEq, Repr

/-- The fewest and the most characters that a part takes. -/
structure Width where
  low : Nat
  high : Nat
  deriving DecidableEq, Repr

/-- Widths are not told apart from here on. -/
def Width.limit : Nat := Nat.pow 2 64

namespace Width

def cut (width : Width) : Width :=
  ⟨min width.low limit, min width.high limit⟩

def append (first second : Width) : Width :=
  cut ⟨first.low + second.low, first.high + second.high⟩

def union (first second : Width) : Width :=
  ⟨min first.low second.low, max first.high second.high⟩

def times (width : Width) (least : Nat) (most : Option Nat) : Width :=
  match most with
  | none => cut ⟨width.low * least, if width.high = 0 then 0 else limit⟩
  | some most => cut ⟨width.low * least, width.high * most⟩

end Width

/-- A pattern. Groups are numbered from one. -/
inductive Node where
  | empty
  | member (comparison : Comparison) (negated : Bool) (members : List Member)
  | any (newlineToo : Bool)
  | anchor (place : Anchor) (plain : Bool)
  | sequence (first second : Node)
  | choice (first second : Node)
  | group (number : Nat) (body : Node)
  | loop (greed : Greed) (least : Nat) (most : Option Nat) (body : Node)
  | atomic (body : Node)
  | ahead (negated : Bool) (body : Node)
  | behind (negated : Bool) (width : Width) (body : Node)
  | reference (comparison : Comparison) (number : Nat)
  | condition (number : Nat) (yes no : Node)
  deriving DecidableEq, Repr

end SheetReach.Pattern
