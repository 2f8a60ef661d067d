/-! Cutting texts at a character and putting the pieces together again. -/
namespace SheetReach.Text

/-- The pieces between the occurrences of a character; there is always one piece. -/
def splitAt (mark : Char) : List Char → List (List Char)
  | [] => [[]]
  | c :: rest =>
    if c = mark then [] :: splitAt mark rest
    else match splitAt mark rest with
      | [] => [[c]]
      | piece :: pieces => (c :: piece) :: pieces

/-- The pieces with a separator between neighbours. -/
def joinWith (separator : List Char) : List (List Char) → List Char
  | [] => []
  | [piece] => piece
  | piece :: pieces => piece ++ separator ++ joinWith separator pieces

/-- What is left of a text after the given beginning. -/
def afterPrefix? : List Char → List Char → Option (List Char)
  | [], rest => some rest
  | _ :: _, [] => none
  | expected :: more, c :: rest => if c = expected then afterPrefix? more rest else none

def startsWith (start s : List Char) : Bool :=
  (afterPrefix? start s).isSome

def endsWith (ending s : List Char) : Bool :=
  startsWith ending.reverse s.reverse

def holds (part : List Char) : List Char → Bool
  | [] => part.isEmpty
  | c :: rest => startsWith part (c :: rest) || holds part rest

def byteLength (s : List Char) : Nat :=
  (s.map Char.utf8Size).foldr (· + ·) 0

end SheetReach.Text
