import Mathlib.Order.Bounds.Defs
import SheetReach.Proofs.ImportRun

/-! A run that comes to its end has reached exactly the least set of files that holds the entry points
and, with every file, the files its imports mean. Soundness goes along every move of the run;
completeness goes from one file taken off the stack to the next, since a file is either still on the
stack or has had all its imports followed. -/
namespace SheetReach.ImportGraph

/-- Following imports comes to its end with a graph: after some number of steps no file waits any more,
and no path has stopped the run. -/
def Builds (snapshot : Snapshot) (config : Config) (entryPoints : List Path) (graph : ImportGraph) :
    Prop :=
  ∃ steps, (trace snapshot config steps entryPoints).pending = [] ∧
    (trace snapshot config steps entryPoints).stopped = false ∧
    (trace snapshot config steps entryPoints).graph = graph

/-- A set of files that holds every readable entry point and, with a file, every readable file that is
the first one there among the candidates of one of its imports. -/
structure Closed (snapshot : Snapshot) (config : Config) (entryPoints : List Path) (files : Set Path) :
    Prop where
  entry : ∀ given ∈ entryPoints, ∀ source,
    snapshot (Path.normalize config.cwd given) = .text source →
    Path.normalize config.cwd given ∈ files
  imports : ∀ importer ∈ files, ∀ source, snapshot importer = .text source →
    ∀ specifier ∈ config.specifiers importer source, ∀ path,
      present? snapshot (config.candidates importer specifier) = some path →
      ∀ text, snapshot path = .text text → path ∈ files

theorem Asked.mem_of_closed {snapshot : Snapshot} {config : Config} {entryPoints : List Path}
    {files : Set Path} {path : Path} {source : List Char} (closed : Closed snapshot config entryPoints files)
    (asked : Asked snapshot config entryPoints (· ∈ files) path) (text : snapshot path = .text source) :
    path ∈ files := by
  cases asked with
  | entry given member => exact closed.entry given member source text
  | imported importer other specifier path known reads member found =>
    exact closed.imports importer known other reads specifier member path found source text

namespace State

/-- No closed set lacks a file that a run reaches. -/
theorem closed_stable (snapshot : Snapshot) (config : Config) (entryPoints : List Path)
    (files : Set Path) (closed : Closed snapshot config entryPoints files) :
    Stable snapshot config entryPoints (fun state => ∀ path ∈ state.reachable, path ∈ files) where
  entered := by
    intro state path _ inside asked there other reached
    obtain ⟨files, -⟩ | ⟨source, text, files, -⟩ := enter_files snapshot path state there
    · exact inside other (files ▸ reached)
    · rcases List.mem_cons.mp (files ▸ reached) with rfl | old
      · exact Asked.mem_of_closed closed (asked.mono inside) text
      · exact inside other old
  recorded := fun _ _ _ inside => inside

theorem knows_of_enter (snapshot : Snapshot) (path : Path) (state : State)
    (there : snapshot path ≠ .missing) (other : Path)
    (known : (state.enter snapshot path).2.knows other = true) :
    other = path ∨ state.knows other = true := by
  obtain ⟨-, ⟨-, same⟩ | ⟨-, same⟩ | ⟨reason, -, -, same⟩ | ⟨source, -, -, same⟩⟩ :=
    enter_cases snapshot path state there
  · rw [same] at known
    exact Or.inr known
  · rw [same] at known
    exact Or.inr known
  · rw [same, knows_iff] at known
    rw [knows_iff]
    simp only [note_reachable, note_failures, List.map_cons, List.mem_cons] at known
    tauto
  · rw [same, knows_iff] at known
    rw [knows_iff]
    simp only [note_reachable, note_failures, List.mem_cons] at known
    tauto

/-- Every path that a run enters is asked for by an entry point or an import of a reached file. -/
theorem asked_stable (snapshot : Snapshot) (config : Config) (entryPoints : List Path) :
    Stable snapshot config entryPoints (fun state =>
      ∀ path, state.knows path = true → Asked snapshot config entryPoints (· ∈ state.reachable) path) where
  entered := by
    intro state path _ inside asked there other known
    have grows : ∀ file, file ∈ state.reachable → file ∈ (state.enter snapshot path).2.reachable :=
      fun _ member => (enter_extends snapshot path state there).reachable.subset member
    rcases knows_of_enter snapshot path state there other known with rfl | old
    · exact asked.mono grows
    · exact (inside other old).mono grows
  recorded := fun _ _ _ inside => inside

/-- The files reached since an earlier state are on the stack, in the order they were reached. -/
def Pushes (earlier later : State) : Prop :=
  ∃ added, later.reachable = added ++ earlier.reachable ∧
    later.pending.map Prod.fst = added ++ earlier.pending.map Prod.fst

theorem pushes_stable (snapshot : Snapshot) (config : Config) (entryPoints : List Path) (earlier : State) :
    Stable snapshot config entryPoints (Pushes earlier) where
  entered := by
    rintro state path _ ⟨added, reachable, pending⟩ _ there
    obtain ⟨files, stack⟩ | ⟨source, -, files, stack⟩ := enter_files snapshot path state there
    · exact ⟨added, files.trans reachable, by rw [stack, pending]⟩
    · refine ⟨path :: added, ?_, ?_⟩
      · rw [files, reachable, List.cons_append]
      · rw [stack, List.map_cons, pending, List.cons_append]
  recorded := fun _ _ _ pushes => pushes

/-- Once all entry points are entered, the files on the stack are those reached. -/
theorem started_files (snapshot : Snapshot) (config : Config) (entryPoints : List Path) :
    Faithful snapshot (entryPoints.foldl (State.start snapshot config) {}) ∧
      (entryPoints.foldl (State.start snapshot config) {}).reachable =
        (entryPoints.foldl (State.start snapshot config) {}).pending.map Prod.fst := by
  obtain ⟨faithful, added, reachable, pending⟩ := (pushes_stable snapshot config entryPoints {}).start_all
    (.initial snapshot) ⟨[], rfl, rfl⟩ entryPoints (List.Subset.refl _)
  exact ⟨faithful, reachable.trans pending.symm⟩

theorem step_cons (snapshot : Snapshot) (config : Config) {state : State} {path : Path}
    {source : List Char} {rest : List (Path × List Char)} (top : state.pending = (path, source) :: rest) :
    state.step snapshot config =
      (config.specifiers path source).foldl (State.follow snapshot config path)
        { state with pending := rest } := by
  simp [State.step, top]

/-- One step takes the top of the stack away and then only puts files on it. -/
theorem Faithful.step_pushes {snapshot : Snapshot} {state : State} (faithful : Faithful snapshot state)
    (config : Config) {item : Path × List Char} {rest : List (Path × List Char)}
    (top : state.pending = item :: rest) :
    Pushes { state with pending := rest } (state.step snapshot config) := by
  obtain ⟨reached, text⟩ := faithful.waiting item (top ▸ List.mem_cons_self)
  rw [step_cons snapshot config top]
  exact ((pushes_stable snapshot config [] { state with pending := rest }).follow_all
    (faithful.take top) ⟨[], rfl, rfl⟩ reached text _ (List.Subset.refl _)).2

theorem enter_knows (snapshot : Snapshot) (path : Path) (state : State)
    (there : snapshot path ≠ .missing) (running : (state.enter snapshot path).2.stopped = false) :
    (state.enter snapshot path).2.knows path = true := by
  obtain ⟨-, ⟨known, same⟩ | ⟨-, same⟩ | ⟨reason, -, -, same⟩ | ⟨source, -, -, same⟩⟩ :=
    enter_cases snapshot path state there
  · rw [same]
    exact known
  · rw [same] at running
    cases running
  · simp [same, knows_iff]
  · simp [same, knows_iff]

/-- All imports of a file have been followed: what they mean has been entered. -/
def Followed (snapshot : Snapshot) (config : Config) (state : State) (importer : Path)
    (specifiers : List (List Char)) : Prop :=
  ∀ specifier ∈ specifiers, ∀ path,
    present? snapshot (config.candidates importer specifier) = some path → state.knows path = true

theorem Faithful.follow_knows {snapshot : Snapshot} {state : State} (faithful : Faithful snapshot state)
    (config : Config) (importer : Path) (specifier : List Char) (path : Path)
    (found : present? snapshot (config.candidates importer specifier) = some path)
    (running : (state.follow snapshot config importer specifier).stopped = false) :
    (state.follow snapshot config importer specifier).knows path = true := by
  obtain ⟨halted, same⟩ | ⟨-, none, -⟩ | ⟨other, -, search, same⟩ | ⟨-, -, none, -⟩ :=
    faithful.follow_cases config importer specifier
  · rw [same, halted] at running
    cases running
  · rw [none] at found
    cases found
  · have equal : other = path := Option.some.inj (search.symm.trans found)
    rw [same] at running ⊢
    subst other
    exact enter_knows snapshot path state (present?_spec snapshot _ path found).2 running
  · rw [none] at found
    cases found

theorem Faithful.follow_all_followed {snapshot : Snapshot} {config : Config} {importer : Path}
    {source : List Char} (text : snapshot importer = .text source) (specifiers : List (List Char))
    (members : specifiers ⊆ config.specifiers importer source) {state : State}
    (faithful : Faithful snapshot state) (reached : importer ∈ state.reachable)
    (running : (specifiers.foldl (State.follow snapshot config importer) state).stopped = false) :
    Followed snapshot config (specifiers.foldl (State.follow snapshot config importer) state) importer
      specifiers := by
  induction specifiers generalizing state with
  | nil => intro specifier member; cases member
  | cons first rest ih =>
    obtain ⟨next, nextReached, later⟩ := faithful.follow_first reached text members
    intro specifier member path found
    rcases List.mem_cons.mp member with rfl | old
    · exact later.knows (faithful.follow_knows config importer specifier path found
        (later.running running))
    · exact ih (List.cons_subset.mp members).2 next nextReached running specifier old path found

/-- Every reached file waits on the stack or has had its imports followed. -/
def Complete (snapshot : Snapshot) (config : Config) (state : State) : Prop :=
  ∀ path ∈ state.reachable, ∀ source, snapshot path = .text source →
    (path, source) ∈ state.pending ∨
      Followed snapshot config state path (config.specifiers path source)

theorem Faithful.mem_pending {snapshot : Snapshot} {state : State} (faithful : Faithful snapshot state)
    {path : Path} {source : List Char} (waits : path ∈ state.pending.map Prod.fst)
    (text : snapshot path = .text source) : (path, source) ∈ state.pending := by
  obtain ⟨⟨other, stored⟩, member, rfl⟩ := List.mem_map.mp waits
  have same := (faithful.waiting _ member).2.symm.trans text
  cases same
  exact member

theorem Complete.step {snapshot : Snapshot} {config : Config} {state : State}
    (complete : Complete snapshot config state) (faithful : Faithful snapshot state)
    (running : (state.step snapshot config).stopped = false) :
    Complete snapshot config (state.step snapshot config) := by
  cases top : state.pending with
  | nil =>
    have same : state.step snapshot config = state := by simp [State.step, top]
    rwa [same]
  | cons item rest =>
    obtain ⟨taken, stored⟩ := item
    have unfolded := step_cons snapshot config top
    obtain ⟨reached, text⟩ := faithful.waiting (taken, stored) (top ▸ List.mem_cons_self)
    have lighter := faithful.take top
    have grown := (extends_stable snapshot config [] { state with pending := rest }).follow_all lighter
      (.refl _) reached text _ (List.Subset.refl _)
    obtain ⟨added, newReachable, newPending⟩ := faithful.step_pushes config top
    rw [← unfolded] at grown
    have followed := Faithful.follow_all_followed text _ (List.Subset.refl _) lighter reached
      (unfolded ▸ running)
    rw [← unfolded] at followed
    intro path member source reads
    rw [newReachable] at member
    rcases List.mem_append.mp member with fresh | old
    · left
      exact grown.1.mem_pending (newPending ▸ List.mem_append_left _ fresh) reads
    · rcases complete path old source reads with waits | done
      · rw [top] at waits
        rcases List.mem_cons.mp waits with same | waits
        · right
          cases same
          exact followed
        · left
          refine grown.1.mem_pending (newPending ▸ List.mem_append_right _ ?_) reads
          exact List.mem_map.mpr ⟨_, waits, rfl⟩
      · right
        intro specifier listed other found
        exact grown.2.knows (done specifier listed other found)

theorem Complete.run {snapshot : Snapshot} {config : Config} {state : State}
    (complete : Complete snapshot config state) (faithful : Faithful snapshot state) (count : Nat)
    (running : (state.run snapshot config count).stopped = false) :
    Complete snapshot config (state.run snapshot config count) := by
  induction count generalizing state with
  | zero => exact complete
  | succ count ih =>
    rw [State.run] at running ⊢
    split at running
    next finished => rwa [if_pos finished]
    next unfinished =>
      rw [if_neg unfinished]
      have nextFaithful := (faithful.step config).1
      exact ih (complete.step faithful ((nextFaithful.run_extends config count).running running))
        nextFaithful running

theorem Faithful.start_knows {snapshot : Snapshot} {state : State} (faithful : Faithful snapshot state)
    (config : Config) (given : Path) (there : snapshot (Path.normalize config.cwd given) ≠ .missing)
    (running : (state.start snapshot config given).stopped = false) :
    (state.start snapshot config given).knows (Path.normalize config.cwd given) = true := by
  obtain ⟨halted, same⟩ | ⟨-, -, same⟩ | ⟨-, absent, -⟩ := faithful.start_cases config given
  · rw [same, halted] at running
    cases running
  · rw [same] at running ⊢
    exact enter_knows snapshot _ _ there running
  · exact absurd absent there

theorem Faithful.start_all_knows {snapshot : Snapshot} {config : Config} (entryPoints : List Path)
    {state : State} (faithful : Faithful snapshot state)
    (running : (entryPoints.foldl (State.start snapshot config) state).stopped = false)
    (given : Path) (member : given ∈ entryPoints)
    (there : snapshot (Path.normalize config.cwd given) ≠ .missing) :
    (entryPoints.foldl (State.start snapshot config) state).knows
      (Path.normalize config.cwd given) = true := by
  induction entryPoints generalizing state with
  | nil => cases member
  | cons first rest ih =>
    obtain ⟨next, later⟩ := faithful.start_first config first rest
    rcases List.mem_cons.mp member with rfl | old
    · exact later.knows (faithful.start_knows config given there (later.running running))
    · exact ih next running old

end State

theorem State.Stable.trace {snapshot : Snapshot} {config : Config} {entryPoints : List Path}
    {kept : State → Prop} (stable : Stable snapshot config entryPoints kept)
    (taken : ∀ state item rest, state.pending = item :: rest → kept state →
      kept { state with pending := rest }) (initial : kept {}) (steps : Nat) :
    kept (trace snapshot config steps entryPoints) := by
  have started := stable.start_all (.initial snapshot) initial entryPoints (List.Subset.refl _)
  exact (stable.run taken started.1 started.2 steps).2

theorem trace_asked (snapshot : Snapshot) (config : Config) (steps : Nat) (entryPoints : List Path)
    (path : Path) (known : (trace snapshot config steps entryPoints).knows path = true) :
    Asked snapshot config entryPoints (· ∈ (trace snapshot config steps entryPoints).reachable) path :=
  (State.asked_stable snapshot config entryPoints).trace (fun _ _ _ _ inside => inside)
    (fun _ absurd => by cases absurd) steps path known

/-- Once no file waits, everything that is there and asked for by an entry point or by an import of a
reached file has been entered. -/
theorem trace_knows (snapshot : Snapshot) (config : Config) (steps : Nat) (entryPoints : List Path)
    (finished : (trace snapshot config steps entryPoints).pending = [])
    (running : (trace snapshot config steps entryPoints).stopped = false) (path : Path)
    (asked : Asked snapshot config entryPoints
      (· ∈ (trace snapshot config steps entryPoints).reachable) path)
    (there : snapshot path ≠ .missing) :
    (trace snapshot config steps entryPoints).knows path = true := by
  obtain ⟨started, files⟩ := State.started_files snapshot config entryPoints
  have later := started.run_extends config steps
  cases asked with
  | entry given member =>
    exact later.knows (State.Faithful.start_all_knows entryPoints (.initial snapshot)
      (later.running running) given member there)
  | imported importer source specifier path reached text member found =>
    have early : State.Complete snapshot config
        (entryPoints.foldl (State.start snapshot config) {}) := by
      intro path reached source text
      left
      exact started.mem_pending (files ▸ reached) text
    rcases early.run started steps running importer reached source text with waits | followed
    · rw [show (entryPoints.foldl (State.start snapshot config) {}).run snapshot config steps =
        trace snapshot config steps entryPoints from rfl, finished] at waits
      cases waits
    · exact followed specifier member path found

/-- Nothing that entry points and imports ask for is lost once no file waits. -/
theorem trace_closed (snapshot : Snapshot) (config : Config) (steps : Nat) (entryPoints : List Path)
    (finished : (trace snapshot config steps entryPoints).pending = [])
    (running : (trace snapshot config steps entryPoints).stopped = false) :
    Closed snapshot config entryPoints
      {path | path ∈ (trace snapshot config steps entryPoints).reachable} := by
  have faithful := trace_faithful snapshot config steps entryPoints
  have knows := trace_knows snapshot config steps entryPoints finished running
  refine ⟨?_, ?_⟩
  · intro given member source text
    exact faithful.mem_reachable (knows _ (.entry given member) (by simp [text])) text
  · intro importer reached source text specifier member path found other reads
    exact faithful.mem_reachable (knows path
      (.imported importer source specifier path reached text member found) (by simp [reads])) reads

section Builds

variable {snapshot : Snapshot} {config : Config} {entryPoints : List Path} {graph : ImportGraph}
  (built : Builds snapshot config entryPoints graph)

include built

theorem Builds.closed : Closed snapshot config entryPoints {path | path ∈ graph.reachable} := by
  obtain ⟨steps, finished, running, rfl⟩ := built
  simp only [State.graph, List.mem_reverse]
  exact trace_closed snapshot config steps entryPoints finished running

theorem Builds.asked :
    ∀ path ∈ graph.reachable, Asked snapshot config entryPoints (· ∈ graph.reachable) path := by
  obtain ⟨steps, -, -, rfl⟩ := built
  simp only [State.graph, List.mem_reverse]
  intro path reached
  exact trace_asked snapshot config steps entryPoints path ((State.knows_iff _ path).mpr (Or.inl reached))

theorem Builds.reads : ∀ path ∈ graph.reachable, ∃ source, snapshot path = .text source := by
  obtain ⟨steps, -, -, rfl⟩ := built
  intro path member
  exact (trace_faithful snapshot config steps entryPoints).reached path (List.mem_reverse.mp member)

end Builds

/-- Whatever the snapshot, the reachable files are the least set that holds the readable entry points
and is closed under imports; each of them is an entry point or the first candidate that is there for some
specifier of another one, so that a partial is entered only where the plain name is missing. -/
theorem reachable_isLeast_closed (snapshot : Snapshot) (config : Config) (entryPoints : List Path)
    (graph : ImportGraph) (built : Builds snapshot config entryPoints graph) :
    IsLeast {files | Closed snapshot config entryPoints files} {path | path ∈ graph.reachable} ∧
      ∀ path ∈ graph.reachable, Asked snapshot config entryPoints (· ∈ graph.reachable) path := by
  refine ⟨⟨built.closed, ?_⟩, built.asked⟩
  intro files closed
  obtain ⟨steps, -, -, rfl⟩ := built
  simp only [State.graph, List.mem_reverse]
  exact (State.closed_stable snapshot config entryPoints files closed).trace
    (fun _ _ _ _ inside => inside) (fun _ absurd => by cases absurd) steps

/-- A file that imports a partial, which imports it back, a plain name that cannot be read beside a
readable partial, and a name that is nowhere. -/
def cycleWithShadow : Snapshot := fun path =>
  if path = "/m.scss".toList then .text "@import 'p', 'x', 'gone';".toList
  else if path = "/_p.scss".toList then .text "@import 'm';".toList
  else if path = "/x.scss".toList then .failing "refused"
  else if path = "/_x.scss".toList then .text []
  else .missing

def cycleGraph : ImportGraph where
  reachable := ["/m.scss".toList, "/_p.scss".toList]
  dangling := [⟨some "/m.scss".toList, "gone".toList, ["/gone.scss".toList, "/_gone.scss".toList]⟩]
  failures := [⟨"/x.scss".toList, "refused"⟩]

theorem cycleWithShadow_isLeast :
    Builds cycleWithShadow { cwd := ['/'], dialect := .scss } ["m.scss".toList] cycleGraph ∧
      IsLeast {files | Closed cycleWithShadow { cwd := ['/'], dialect := .scss } ["m.scss".toList] files}
        {path | path ∈ cycleGraph.reachable} := by
  have built : Builds cycleWithShadow { cwd := ['/'], dialect := .scss } ["m.scss".toList] cycleGraph :=
    ⟨2, by decide +kernel⟩
  exact ⟨built, (reachable_isLeast_closed _ _ _ _ built).1⟩

end SheetReach.ImportGraph
