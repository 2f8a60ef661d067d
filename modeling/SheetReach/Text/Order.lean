/-! Texts in code-point order. -/
namespace SheetReach.Text

/-- The order of texts by their first differing code point; a text precedes its extensions. -/
def precedes : List Char → List Char → Bool
  | [], _ => true
  | _ :: _, [] => false
  | a :: s, b :: t => if a = b then precedes s t else a.toNat < b.toNat

/-- Puts an item before the first one that it does not follow. -/
def insertBy {α : Type} (before : α → α → Bool) (item : α) : List α → List α
  | [] => [item]
  | head :: rest => if before item head then item :: head :: rest else head :: insertBy before item rest

/-- Sorts by insertion, so that items of equal rank keep their order. -/
def sortBy {α : Type} (before : α → α → Bool) (items : List α) : List α :=
  items.foldr (insertBy before) []

def sort (texts : List (List Char)) : List (List Char) :=
  sortBy precedes texts

end SheetReach.Text
