import SheetReach.Decimal

/-!
Amounts in kilobytes, held as binary fractions of 53 significant bits. Every amount that a report can
reach is a whole number of units of `2 ^ -62` kilobytes: one byte, the least of them, is `0.001`, whose
last significant bit has that weight.
-/
namespace SheetReach

/-- A number of units of `2 ^ -62` kilobytes. -/
structure Kilobytes where
  units : Nat
  deriving DecidableEq, Repr

namespace Kilobytes

def scale : Nat := Nat.pow 2 62

/-- The amount of 53 significant bits nearest to a quotient of units. -/
def round (numerator denominator : Nat) : Kilobytes :=
  let step := Nat.pow 2 ((numerator / denominator).log2 + 1 - 53)
  ⟨Decimal.nearest numerator (denominator * step) * step⟩

/-- A thousandth of a kilobyte for each byte. -/
def ofBytes (bytes : Nat) : Kilobytes :=
  round (bytes * scale) 1000

def add (a b : Kilobytes) : Kilobytes :=
  round (a.units + b.units) 1

def total (amounts : List Kilobytes) : Kilobytes :=
  amounts.foldl add ⟨0⟩

/-- The amount with two places. A half goes to the even neighbour. -/
def fixed (amount : Kilobytes) : List Char :=
  Decimal.positional 2 (Decimal.nearest (amount.units * 100) scale)

/-- The power of ten of the first significant digit. -/
def decade (amount : Kilobytes) : Int :=
  (Decimal.digits (amount.units * Nat.pow 10 19 / scale)).length - 20

/-- Six significant digits, read as a number, and the power of ten of the first of them. -/
def significant (amount : Kilobytes) : Nat × Int :=
  let power := amount.decade
  let six := Decimal.nearest (amount.units * Nat.pow 10 (5 - power).toNat)
    (scale * Nat.pow 10 (power - 5).toNat)
  if six = 1000000 then (100000, power + 1) else (six, power)

/-- A power of ten after its mark, with a sign and at least two digits. -/
def powerText (power : Int) : List Char :=
  'e' :: (if power < 0 then '-' else '+') :: Decimal.padded 2 power.natAbs

/-- The amount in at most six significant digits, without zeros at the end. From a million on, and
below a ten-thousandth, it has one digit before the point and a power of ten after it. -/
def brief (amount : Kilobytes) : List Char :=
  if amount.units = 0 then ['0']
  else
    let (six, power) := amount.significant
    if power < -4 || 6 ≤ power then Decimal.shorten (Decimal.positional 5 six) ++ powerText power
    else Decimal.shorten (Decimal.positional (5 - power).toNat six)

/-- The shortest decimal that reads back as the amount, with at least one place. The size of a file
has at most three places, so the nearest number of thousandths is that decimal. -/
def shortest (amount : Kilobytes) : List Char :=
  let text := Decimal.shorten (Decimal.positional 3 (Decimal.nearest (amount.units * 1000) scale))
  if text.contains '.' then text else text ++ ['.', '0']

end Kilobytes

end SheetReach
