import SheetReach.CommandLine.CommaList
import SheetReach.CommandLine.Cluster
import SheetReach.Survey

/-! What the words of a command line ask for. -/
namespace SheetReach.CommandLine

/-- All that can be set. There is no path where its option got no value that counts. -/
structure Settings where
  path : Option Path := some Path.here
  entryPoints : Option (List Path) := none
  exclude : List (List Char) := []
  dialect : Option Dialect := none
  allDialects : Bool := false
  warnUnresolved : Bool := false
  silent : Bool := false
  verbose : Bool := false
  hideTable : Bool := false
  delete : Bool := false
  confirmed : Bool := false
  deriving DecidableEq, Repr

inductive Stop where
  | help
  | version
  | wrong (error : UsageError)
  deriving DecidableEq, Repr

namespace Settings

def turnOn (settings : Settings) : Parameter → Except Stop Settings
  | .help => .error .help
  | .version => .error .version
  | .allDialects => .ok { settings with allDialects := true }
  | .warnUnresolved => .ok { settings with warnUnresolved := true }
  | .silent => .ok { settings with silent := true }
  | .verbose => .ok { settings with verbose := true }
  | .hideTable => .ok { settings with hideTable := true }
  | .delete => .ok { settings with delete := true }
  | .confirm => .ok { settings with confirmed := true }
  | .path | .entryPoints | .exclude | .dialect => .ok settings

/-- Lists of entry points and exclusions grow with every use of their option, be it by nothing for want of
a value that counts. -/
def give (settings : Settings) (value : Option (List Char)) : Parameter → Except Stop Settings
  | .path => .ok { settings with path := value }
  | .entryPoints => .ok { settings with entryPoints := some (settings.entryPoints.getD [] ++ items) }
  | .exclude => .ok { settings with exclude := settings.exclude ++ items }
  | .dialect =>
    match value with
    | none => .ok { settings with dialect := none }
    | some value =>
      match Dialect.all.find? (·.name == value) with
      | some dialect => .ok { settings with dialect := some dialect }
      | none => .error (.wrong (.notDialect value))
  | _ => .ok settings
where
  items : List (List Char) := (value.map commaList).getD []

/-- Goes through the words. Those that stand for nothing are gathered and reported at the end; all
options of a word are known, and a missing value is found, before the first of them counts. -/
def read (convention : Convention) (settings : Settings) (strays : List (List Char)) :
    List Word → Except Stop Settings
  | [] => if strays.isEmpty then .ok settings else .error (.wrong (.unrecognized strays.reverse))
  | .plain text :: rest => read convention settings (text :: strays) rest
  | .unknown text :: rest => read convention settings (text :: strays) rest
  | .divider :: rest => read convention settings (Word.dividerText :: strays) rest
  | .option spelling glued :: rest =>
    match Cluster.ofOption convention spelling glued with
    | .error error => .error (.wrong error)
    | .ok ⟨flags, .stray text⟩ =>
      match flags.foldlM turnOn settings with
      | .error stop => .error stop
      | .ok next => read convention next (text :: strays) rest
    | .ok ⟨flags, .value last value⟩ =>
      match flags.foldlM turnOn settings >>= (·.give (convention.kept value) last) with
      | .error stop => .error stop
      | .ok next => read convention next strays rest
    | .ok ⟨flags, .alone last⟩ =>
      if last.takesValue then
        match rest with
        | .plain value :: rest =>
          match flags.foldlM turnOn settings >>= (·.give (some value) last) with
          | .error stop => .error stop
          | .ok next => read convention next strays rest
        | _ => .error (.wrong (.missingValue last))
      else
        match flags.foldlM turnOn settings >>= (·.turnOn last) with
        | .error stop => .error stop
        | .ok next => read convention next strays rest

def ofArguments (convention : Convention) (arguments : List (List Char)) : Except Stop Settings :=
  match Word.ofTexts arguments with
  | .error error => .error (.wrong error)
  | .ok words => read convention {} [] words

def request (settings : Settings) (root : Path) : Request :=
  { root
    entryPoints := settings.entryPoints
    exclude := settings.exclude
    choice := match settings.dialect with
      | none => .detect
      | some dialect => .fixed dialect
    warnUnresolved := settings.warnUnresolved
    allDialects := settings.allDialects }

def level (settings : Settings) : Level :=
  if settings.silent then .error else if settings.verbose then .debug else .warning

end Settings

end SheetReach.CommandLine
