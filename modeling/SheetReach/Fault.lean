import SheetReach.Path
import SheetReach.Text.Quoted

/-! Why the file system refuses a path. -/
namespace SheetReach

inductive Fault where
  | missing
  | notDirectory
  | isDirectory
  | nameTooLong
  | linkLoop
  deriving DecidableEq, Repr

namespace Fault

def number : Fault → Nat
  | missing => 2
  | notDirectory => 20
  | isDirectory => 21
  | nameTooLong => 36
  | linkLoop => 40

def text : Fault → String
  | missing => "No such file or directory"
  | notDirectory => "Not a directory"
  | isDirectory => "Is a directory"
  | nameTooLong => "File name too long"
  | linkLoop => "Too many levels of symbolic links"

end Fault

/-- A refused access: a fault at a path, or a path that holds a NUL character and is no path at all. -/
inductive AccessError where
  | fault (reason : Fault) (path : Path)
  | nullCharacter
  deriving DecidableEq, Repr

def AccessError.message : AccessError → String
  | .fault reason path =>
    "[Errno " ++ toString reason.number ++ "] " ++ reason.text ++ ": "
      ++ String.ofList (Text.Quoted.encode path)
  | .nullCharacter => "embedded null byte"

end SheetReach
