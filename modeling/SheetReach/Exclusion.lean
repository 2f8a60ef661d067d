import SheetReach.Pattern.Match
import SheetReach.Pattern.Parse

/-! Exclusions: patterns, written with or without slashes around them, of paths that are not to be
reported. -/
namespace SheetReach

structure Exclusion where
  source : List Char
  node : Pattern.Node

namespace Exclusion

def bare (text : List Char) : List Char :=
  if 2 ≤ text.length && text.head? = some '/' && text.getLast? = some '/' then text.tail.dropLast
  else text

/-- Why an exclusion is refused, with its text as given. -/
structure Refusal where
  given : List Char
  reason : Pattern.Refusal
  deriving DecidableEq, Repr

def Refusal.message (refusal : Refusal) : String :=
  match refusal.reason with
  | .flaw flaw position =>
    "Invalid exclusion pattern " ++ String.ofList (Text.Quoted.encode refusal.given) ++ ": "
      ++ flaw.describe (bare refusal.given) position
  | .countTooLarge => "the repetition number is too large"
  | .alphabetsClash => "ASCII and UNICODE flags are incompatible"

def parse (text : List Char) : Except Refusal Exclusion :=
  match Pattern.parse (bare text) with
  | .ok node => .ok ⟨bare text, node⟩
  | .error reason => .error ⟨text, reason⟩

/-- Exclusions from their texts; the first bad one decides. -/
def parseAll (texts : List (List Char)) : Except Refusal (List Exclusion) :=
  texts.mapM parse

def anyIn (exclusions : List Exclusion) (path : List Char) : Bool :=
  exclusions.any (·.node.foundIn path)

end Exclusion

end SheetReach
