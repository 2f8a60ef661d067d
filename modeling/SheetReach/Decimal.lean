import SheetReach.Text.Blank

/-! Quotients rounded to the nearest number, and numbers written in decimal digits. -/
namespace SheetReach.Decimal

/-- The number nearest to a quotient. A half goes to the even neighbour. -/
def nearest (numerator denominator : Nat) : Nat :=
  let floor := numerator / denominator
  let twice := 2 * (numerator % denominator)
  if twice < denominator || (twice == denominator && floor % 2 == 0) then floor else floor + 1

def digits (n : Nat) : List Char :=
  Nat.toDigits 10 n

def padded (count n : Nat) : List Char :=
  List.replicate (count - (digits n).length) '0' ++ digits n

/-- A number of tenths, hundredths and so on, with a point before that many places. -/
def positional (places n : Nat) : List Char :=
  let all := padded (places + 1) n
  let whole := all.take (all.length - places)
  if places = 0 then whole else whole ++ '.' :: all.drop (all.length - places)

/-- A text with a point, without zeros at its end and without the point if nothing follows it. -/
def shorten (s : List Char) : List Char :=
  if s.contains '.' then Text.trimEndBy (· == '.') (Text.trimEndBy (· == '0') s) else s

end SheetReach.Decimal
