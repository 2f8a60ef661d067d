import SheetReach.CommandLine.Word

/-!
Options glued into one word. After a short option that takes no value, each letter is a further short
option, until one takes the rest as its value. There are two conventions for what does not go up in this way.
-/
namespace SheetReach.CommandLine

/-- The strict convention refuses letters that are no option, gives equals signs between letters no meaning,
and takes the mark of plain words for no value at all. The lenient one puts such letters aside as a word of
their own, reads no options behind an equals sign, and lets the mark be a value like any other. -/
inductive Convention where
  | strict
  | lenient
  deriving DecidableEq, Repr

namespace Convention

/-- A value that is glued to its option, as far as it counts as one. -/
def kept : Convention → List Char → Option (List Char)
  | strict, value => if value = Word.dividerText then none else some value
  | lenient, value => some value

/-- Letters that are not read as further options: those behind an equals sign, and a dash. -/
def bars (convention : Convention) (afterEquals : Bool) (letter : Char) : Bool :=
  convention = .lenient && (afterEquals || letter = '-')

end Convention

inductive Tail where
  | value (parameter : Parameter) (text : List Char)
  /-- An option that takes the next word if it takes a value. -/
  | alone (parameter : Parameter)
  /-- Letters that are no option, with a dash put before them. -/
  | stray (text : List Char)
  deriving DecidableEq, Repr

/-- The options in one word: those that are turned on first, and the end. -/
structure Cluster where
  flags : List Parameter
  tail : Tail
  deriving DecidableEq, Repr

namespace Cluster

def push (parameter : Parameter) (cluster : Cluster) : Cluster :=
  { cluster with flags := parameter :: cluster.flags }

/-- Takes apart an option and the text glued to it. -/
def ofGlued (convention : Convention) (parameter : Parameter) (short afterEquals : Bool) :
    List Char → Except UsageError Cluster
  | [] =>
    if parameter.takesValue then .ok ⟨[], .value parameter []⟩
    else .error (.unwantedValue parameter [])
  | letter :: rest =>
    if parameter.takesValue then .ok ⟨[], .value parameter (letter :: rest)⟩
    else if !short || convention.bars afterEquals letter then
      .error (.unwantedValue parameter (letter :: rest))
    else match Spelling.ofText? ['-', letter] with
      | none =>
        match convention with
        | .strict => .error (.unwantedValue parameter (letter :: rest))
        | .lenient => .ok ⟨[parameter], .stray ('-' :: letter :: rest)⟩
      | some next =>
        match convention, rest with
        | _, [] => .ok ⟨[parameter], .alone next.parameter⟩
        | .lenient, '=' :: value =>
          (ofGlued convention next.parameter true true value).map (push parameter)
        | _, rest => (ofGlued convention next.parameter true false rest).map (push parameter)

def ofOption (convention : Convention) (spelling : Spelling) : Option Glued → Except UsageError Cluster
  | none => .ok ⟨[], .alone spelling.parameter⟩
  | some glued => ofGlued convention spelling.parameter spelling.isShort glued.afterEquals glued.text

end Cluster

end SheetReach.CommandLine
