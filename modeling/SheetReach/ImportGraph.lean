import SheetReach.Event
import SheetReach.Import.Candidate
import SheetReach.Import.Directive
import SheetReach.Workspace

/-! Following imports from entry points: which files are reached, which imports name nothing, which
files cannot be read. Files wait on a stack, and a file is marked when it is read, before its own
imports are, so that no cycle is walked twice. -/
namespace SheetReach

inductive Reading where
  | text (source : List Char)
  | missing
  | failing (reason : String)
  | unusable
  deriving DecidableEq, Repr

/-- What every path reads as at one moment. -/
abbrev Snapshot := Path → Reading

/-- A file that is there and cannot be read. -/
structure ReadFailure where
  path : Path
  reason : String
  deriving DecidableEq, Repr

/-- An import, or an entry point where there is no importer, none of whose candidates is there. -/
structure DanglingImport where
  importer : Option Path
  specifier : List Char
  candidates : List Path
  deriving DecidableEq, Repr

structure ImportGraph where
  reachable : List Path
  dangling : List DanglingImport
  failures : List ReadFailure
  deriving DecidableEq, Repr

namespace ImportGraph

/-- How imports are followed: from which working directory, in which dialect, in which others too,
and whether an import that names nothing is warned of. -/
structure Config where
  cwd : Path
  dialect : Dialect
  others : List Dialect := []
  warnUnresolved : Bool := false
  deriving DecidableEq, Repr

def Config.dialects (config : Config) : List Dialect :=
  config.dialect :: config.others.filter (· ≠ config.dialect)

/-- The dialect a file is parsed in: the one its ending tells, if that one is followed. -/
def Config.dialectOf (config : Config) (path : Path) : Dialect :=
  match Dialect.ofPath? path with
  | some found => if found ∈ config.dialects then found else config.dialect
  | none => config.dialect

def Config.candidates (config : Config) (importer : Path) (specifier : List Char) : List Path :=
  Import.candidates config.cwd (config.dialectOf importer) config.dialects
    (Path.directory importer) specifier

def Config.specifiers (config : Config) (path : Path) (source : List Char) : List (List Char) :=
  Import.parse (config.dialectOf path) source

/-- A run in progress. Lists grow at the front. A run is stopped by a path that is no path. -/
structure State where
  reachable : List Path := []
  failures : List ReadFailure := []
  dangling : List DanglingImport := []
  pending : List (Path × List Char) := []
  events : List Event := []
  stopped : Bool := false
  deriving DecidableEq, Repr

namespace State

def knows (state : State) (path : Path) : Bool :=
  state.reachable.contains path || state.failures.any (·.path = path)

def note (state : State) (event : Event) : State :=
  { state with events := event :: state.events }

/-- Enters a path if it is there; the answer is no only when it is not. -/
def enter (snapshot : Snapshot) (path : Path) (state : State) : Bool × State :=
  if state.knows path then (true, state)
  else match snapshot path with
    | .missing => (false, state)
    | .unusable => (true, { state with stopped := true })
    | .failing reason =>
      (true, { state with failures := ⟨path, reason⟩ :: state.failures }.note (.unreadable path reason))
    | .text source =>
      (true, { state with
        reachable := path :: state.reachable
        pending := (path, source) :: state.pending }.note (.visiting path))

/-- Enters the first of these paths that is there; the answer is no when none is. -/
def enterFirst (snapshot : Snapshot) : List Path → State → Bool × State
  | [], state => (false, state)
  | path :: others, state =>
    match state.enter snapshot path with
    | (true, next) => (true, next)
    | (false, next) => next.enterFirst snapshot others

/-- Follows one import of a file. -/
def follow (snapshot : Snapshot) (config : Config) (importer : Path) (state : State)
    (specifier : List Char) : State :=
  if state.stopped then state
  else
    match config.candidates importer specifier with
    | [] => state.note (.skippedImport specifier importer)
    | tried =>
      match state.enterFirst snapshot tried with
      | (true, next) => next
      | (false, next) =>
        { next with dangling := ⟨some importer, specifier, tried⟩ :: next.dangling }.note
          (.unresolvedImport config.warnUnresolved specifier importer tried)

/-- Follows one entry point, which is kept as given when it is not there. -/
def start (snapshot : Snapshot) (config : Config) (state : State) (entryPoint : Path) : State :=
  if state.stopped then state
  else
    let path := Path.normalize config.cwd entryPoint
    match (state.note (.traversing path)).enter snapshot path with
    | (true, next) => next
    | (false, next) =>
      { next with dangling := ⟨none, entryPoint, [path]⟩ :: next.dangling }.note
        (.entryPointMissing path)

/-- Takes the file on top of the stack and follows its imports. -/
def step (snapshot : Snapshot) (config : Config) (state : State) : State :=
  match state.pending with
  | [] => state
  | (path, source) :: pending =>
    (config.specifiers path source).foldl (follow snapshot config path)
      { state with pending := pending }

def settled (state : State) : Bool :=
  state.stopped || state.pending.isEmpty

/-- At most so many steps, fewer if nothing is left to do. -/
def run (snapshot : Snapshot) (config : Config) : Nat → State → State
  | 0, state => state
  | count + 1, state => if state.settled then state else (state.step snapshot config).run snapshot config count

def graph (state : State) : ImportGraph where
  reachable := state.reachable.reverse
  dangling := state.dangling.reverse
  failures := state.failures.reverse

end State

/-- A run from entry points, of at most so many steps. -/
def trace (snapshot : Snapshot) (config : Config) (steps : Nat) (entryPoints : List Path) : State :=
  (entryPoints.foldl (State.start snapshot config) {}).run snapshot config steps

/-- No more files than this can be read: a path has fewer characters than the limit on octets. -/
def stepLimit : Nat :=
  Nat.pow 0x110000 FileTree.pathLimit

def snapshot (workspace : Workspace) : Snapshot := fun path =>
  match workspace.readText path with
  | .ok source => .text source
  | .error .nullCharacter => .unusable
  | .error (.fault .missing _) => .missing
  | .error (.fault .notDirectory _) => .missing
  | .error error => .failing error.message

def traceIn (workspace : Workspace) (config : Config) (entryPoints : List Path) : State :=
  trace (snapshot workspace) config stepLimit entryPoints

end ImportGraph

end SheetReach
