import SheetReach.Text.Blank
import SheetReach.Text.Split

/-! The two ways to write a stylesheet, told apart by name and by file extension. -/
namespace SheetReach

/-- With braces, or by indentation. -/
inductive Dialect where
  | scss
  | sass
  deriving DecidableEq, Repr

namespace Dialect

/-- Both dialects; the first one wins a tie. -/
def all : List Dialect := [scss, sass]

def name : Dialect → List Char
  | scss => ['s', 'c', 's', 's']
  | sass => ['s', 'a', 's', 's']

def extension (dialect : Dialect) : List Char :=
  '.' :: dialect.name

def owns (dialect : Dialect) (file : List Char) : Bool :=
  Text.endsWith dialect.extension file

/-- The dialect of a given name: blanks around it, dots in front of it and the case of its letters do
not matter. Only letters of the first 128 code points have a lower case in either name. -/
def ofName? (text : List Char) : Option Dialect :=
  let key := ((Text.trim text).map Char.toLower).dropWhile (· = '.')
  all.find? (·.name = key)

def ofPath? (path : List Char) : Option Dialect :=
  all.find? (·.owns path)

/-- The dialect whose extension stands in the most of these file names, at any place in them. -/
def ofNames (files : List (List Char)) : Dialect :=
  let count (dialect : Dialect) := (files.filter (Text.holds dialect.extension)).length
  if count scss < count sass then sass else scss

end Dialect

end SheetReach
