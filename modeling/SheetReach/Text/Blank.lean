/-! Blank characters and trimming. -/
namespace SheetReach.Text

/-- The characters that count as white space, those outside the first 128 code points included. -/
def isBlank (c : Char) : Bool :=
  let code := c.toNat
  (9 ≤ code && code ≤ 13) || (28 ≤ code && code ≤ 32) || code == 0x85 || code == 0xA0
    || code == 0x1680 || (0x2000 ≤ code && code ≤ 0x200A) || code == 0x2028 || code == 0x2029
    || code == 0x202F || code == 0x205F || code == 0x3000

def trimEndBy (drop : Char → Bool) (s : List Char) : List Char :=
  (s.reverse.dropWhile drop).reverse

def trimBy (drop : Char → Bool) (s : List Char) : List Char :=
  trimEndBy drop (s.dropWhile drop)

def trim (s : List Char) : List Char :=
  trimBy isBlank s

def words : List Char → List (List Char)
  | [] => []
  | [c] => if isBlank c then [] else [[c]]
  | c :: next :: rest =>
    if isBlank c then words (next :: rest)
    else if isBlank next then [c] :: words (next :: rest)
    else match words (next :: rest) with
      | [] => [[c]]
      | word :: others => (c :: word) :: others

end SheetReach.Text
