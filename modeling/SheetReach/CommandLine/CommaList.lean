import SheetReach.Text.Blank
import SheetReach.Text.Split

/-! Lists written with commas. -/
namespace SheetReach.CommandLine

/-- The items between commas, trimmed; blank items are left out. -/
def commaList (value : List Char) : List (List Char) :=
  ((Text.splitAt ',' value).map Text.trim).filter (!·.isEmpty)

end SheetReach.CommandLine
