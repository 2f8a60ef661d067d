import SheetReach.Dialect
import SheetReach.Path

/-! The files that a specifier may name. -/
namespace SheetReach.Import

/-- A character is the given small letter without regard to case. The long s is an s. -/
def isLetterOf (letter c : Char) : Bool :=
  c.toLower = letter || (letter = 's' && c = 'ſ')

/-- What follows the given beginning, read without regard to case. -/
def afterLetters? : List Char → List Char → Option (List Char)
  | [], rest => some rest
  | _ :: _, [] => none
  | letter :: more, c :: rest => if isLetterOf letter c then afterLetters? more rest else none

/-- The text starts with two slashes, `http://` or `https://`. -/
def isRemote (text : List Char) : Bool :=
  [['/', '/'], ['h', 't', 't', 'p', ':', '/', '/'], ['h', 't', 't', 'p', 's', ':', '/', '/']].any
    fun start => (afterLetters? start text).isSome

/-- A plain CSS import, which the compiler leaves alone: a remote address, a `url(`, or a name that
ends with `.css`. -/
def isPlainCss (text : List Char) : Bool :=
  isRemote text || (afterLetters? ['u', 'r', 'l', '('] text).isSome
    || (afterLetters? ['s', 's', 'c', '.'] text.reverse).isSome

/-- Everything before the last slash, if there is one, and everything after it. -/
def splitLast (text : List Char) : Option (List Char) × List Char :=
  let name := (text.reverse.takeWhile (· ≠ '/')).reverse
  if name.length = text.length then (none, name)
  else (some (text.take (text.length - name.length - 1)), name)

/-- A file name with the dialect's extension, unless it ends with the extension of an enabled one. -/
def withExtension (dialect : Dialect) (enabled : List Dialect) (file : List Char) : List Char :=
  match Dialect.ofPath? file with
  | some found => if found = dialect || found ∈ enabled then file else file ++ dialect.extension
  | none => file ++ dialect.extension

/-- The paths a specifier may mean, in the order they are tried: the plain name and the partial of
that name. A plain CSS import and a specifier without a file name mean none. -/
def candidates (cwd : Path) (dialect : Dialect) (enabled : List Dialect) (importerDirectory : Path)
    (specifier : List Char) : List Path :=
  let text := Text.trim specifier
  if text.isEmpty || isPlainCss text then []
  else
    let (folder, file) := splitLast (text.map fun c => if c = '\\' then '/' else c)
    let directory := match folder with
      | some folder => Path.join importerDirectory folder
      | none => importerDirectory
    if file.isEmpty then []
    else
      let name := withExtension dialect enabled file
      [name, '_' :: name].map fun name => Path.normalize cwd (Path.join directory name)

end SheetReach.Import
