import Mathlib.Data.List.Infix
import SheetReach.ImportGraph

/-! What one move of a run can do, and what every run keeps. A run moves by entering a path that is
there, by recording that none is, and by taking a file from its stack. -/
namespace SheetReach.ImportGraph

/-- The path that an import means: the first of its candidates that is there. -/
def present? (snapshot : Snapshot) (candidates : List Path) : Option Path :=
  candidates.find? fun path => snapshot path ≠ .missing

theorem present?_spec (snapshot : Snapshot) (candidates : List Path) (path : Path)
    (found : present? snapshot candidates = some path) :
    path ∈ candidates ∧ snapshot path ≠ .missing := by
  refine ⟨List.mem_of_find?_eq_some found, ?_⟩
  simpa using List.find?_some found

/-- The paths a run has to enter once some files are read: the normal entry points, and what the imports
of those files mean. -/
inductive Asked (snapshot : Snapshot) (config : Config) (entryPoints : List Path) (read : Path → Prop) :
    Path → Prop where
  | entry (given : Path) (member : given ∈ entryPoints) :
      Asked snapshot config entryPoints read (Path.normalize config.cwd given)
  | imported (importer : Path) (source specifier : List Char) (path : Path) (known : read importer)
      (text : snapshot importer = .text source) (member : specifier ∈ config.specifiers importer source)
      (found : present? snapshot (config.candidates importer specifier) = some path) :
      Asked snapshot config entryPoints read path

theorem Asked.mono {snapshot : Snapshot} {config : Config} {entryPoints : List Path}
    {read more : Path → Prop} {path : Path} (asked : Asked snapshot config entryPoints read path)
    (grows : ∀ path, read path → more path) : Asked snapshot config entryPoints more path := by
  cases asked with
  | entry given member => exact .entry given member
  | imported importer source specifier path known text member found =>
    exact .imported importer source specifier path (grows importer known) text member found

namespace State

@[simp] theorem note_reachable (state : State) (event : Event) :
    (state.note event).reachable = state.reachable := rfl

@[simp] theorem note_failures (state : State) (event : Event) :
    (state.note event).failures = state.failures := rfl

@[simp] theorem note_dangling (state : State) (event : Event) :
    (state.note event).dangling = state.dangling := rfl

@[simp] theorem note_pending (state : State) (event : Event) :
    (state.note event).pending = state.pending := rfl

@[simp] theorem note_stopped (state : State) (event : Event) :
    (state.note event).stopped = state.stopped := rfl

theorem knows_iff (state : State) (path : Path) :
    state.knows path = true ↔ path ∈ state.reachable ∨ path ∈ state.failures.map ReadFailure.path := by
  simp [knows]

/-- All that entering a path can do, when the path is there. -/
theorem enter_cases (snapshot : Snapshot) (path : Path) (state : State)
    (there : snapshot path ≠ .missing) :
    (state.enter snapshot path).1 = true ∧
      ((state.knows path = true ∧ (state.enter snapshot path).2 = state) ∨
        (snapshot path = .unusable ∧ (state.enter snapshot path).2 = { state with stopped := true }) ∨
        (∃ reason, state.knows path = false ∧ snapshot path = .failing reason ∧
          (state.enter snapshot path).2 =
            { state with failures := ⟨path, reason⟩ :: state.failures }.note (.unreadable path reason)) ∨
        ∃ source, state.knows path = false ∧ snapshot path = .text source ∧
          (state.enter snapshot path).2 =
            { state with
              reachable := path :: state.reachable
              pending := (path, source) :: state.pending }.note (.visiting path)) := by
  unfold enter
  cases known : state.knows path with
  | true => simp
  | false =>
    cases reading : snapshot path with
    | missing => exact absurd reading there
    | unusable => simp
    | failing reason => simp
    | text source => simp

theorem enter_there (snapshot : Snapshot) (path : Path) (state : State)
    (there : snapshot path ≠ .missing) : ∃ next, state.enter snapshot path = (true, next) :=
  ⟨_, Prod.ext (enter_cases snapshot path state there).1 rfl⟩

/-- Entering a path leaves the reached files and the stack alone, or puts one file on both. -/
theorem enter_files (snapshot : Snapshot) (path : Path) (state : State)
    (there : snapshot path ≠ .missing) :
    ((state.enter snapshot path).2.reachable = state.reachable ∧
        (state.enter snapshot path).2.pending = state.pending) ∨
      ∃ source, snapshot path = .text source ∧
        (state.enter snapshot path).2.reachable = path :: state.reachable ∧
        (state.enter snapshot path).2.pending = (path, source) :: state.pending := by
  obtain ⟨-, ⟨-, same⟩ | ⟨-, same⟩ | ⟨reason, -, -, same⟩ | ⟨source, -, text, same⟩⟩ :=
    enter_cases snapshot path state there
  · exact Or.inl (by rw [same]; exact ⟨rfl, rfl⟩)
  · exact Or.inl (by rw [same]; exact ⟨rfl, rfl⟩)
  · exact Or.inl (by rw [same]; exact ⟨rfl, rfl⟩)
  · exact Or.inr ⟨source, text, by rw [same]; exact ⟨rfl, rfl⟩⟩

/-- What a run owes to the snapshot it reads: files it reached have texts, failures fail for the reason
given, files that wait are reached and wait with their own text, and nothing is entered twice. -/
structure Faithful (snapshot : Snapshot) (state : State) : Prop where
  reached : ∀ path ∈ state.reachable, ∃ source, snapshot path = .text source
  failed : ∀ failure ∈ state.failures, snapshot failure.path = .failing failure.reason
  waiting : ∀ item ∈ state.pending, item.1 ∈ state.reachable ∧ snapshot item.1 = .text item.2
  reachedOnce : state.reachable.Nodup
  failedOnce : (state.failures.map ReadFailure.path).Nodup
  waitingOnce : (state.pending.map Prod.fst).Nodup

theorem Faithful.initial (snapshot : Snapshot) : Faithful snapshot {} := by
  constructor <;> simp

/-- What a run has entered has a text or fails. -/
theorem Faithful.reading {snapshot : Snapshot} {state : State} (faithful : Faithful snapshot state)
    {path : Path} (known : state.knows path = true) :
    (∃ source, snapshot path = .text source) ∨ ∃ reason, snapshot path = .failing reason := by
  rcases (state.knows_iff path).mp known with reached | failed
  · exact Or.inl (faithful.reached path reached)
  · obtain ⟨failure, member, rfl⟩ := List.mem_map.mp failed
    exact Or.inr ⟨failure.reason, faithful.failed failure member⟩

theorem Faithful.there {snapshot : Snapshot} {state : State} (faithful : Faithful snapshot state)
    {path : Path} (known : state.knows path = true) : snapshot path ≠ .missing := by
  rcases faithful.reading known with ⟨source, text⟩ | ⟨reason, fails⟩
  · simp [text]
  · simp [fails]

theorem Faithful.unknown {snapshot : Snapshot} {state : State} (faithful : Faithful snapshot state)
    {path : Path} (absent : snapshot path = .missing) : state.knows path = false := by
  cases known : state.knows path with
  | false => rfl
  | true => exact absurd absent (faithful.there known)

theorem Faithful.mem_reachable {snapshot : Snapshot} {state : State} (faithful : Faithful snapshot state)
    {path : Path} {source : List Char} (known : state.knows path = true)
    (text : snapshot path = .text source) : path ∈ state.reachable := by
  rcases (state.knows_iff path).mp known with reached | failed
  · exact reached
  · obtain ⟨failure, member, rfl⟩ := List.mem_map.mp failed
    rw [faithful.failed failure member] at text
    cases text

theorem Faithful.enter {snapshot : Snapshot} {state : State} (faithful : Faithful snapshot state)
    {path : Path} (there : snapshot path ≠ .missing) :
    Faithful snapshot (state.enter snapshot path).2 := by
  obtain ⟨-, ⟨-, same⟩ | ⟨-, same⟩ | ⟨reason, unknown, fails, same⟩ | ⟨source, unknown, text, same⟩⟩ :=
    enter_cases snapshot path state there
  · rw [same]
    exact faithful
  · rw [same]
    exact ⟨faithful.reached, faithful.failed, faithful.waiting, faithful.reachedOnce,
      faithful.failedOnce, faithful.waitingOnce⟩
  · have fresh : path ∉ state.failures.map ReadFailure.path := fun failed => by
      rw [(state.knows_iff path).mpr (Or.inr failed)] at unknown
      cases unknown
    rw [same]
    refine ⟨faithful.reached, ?_, faithful.waiting, faithful.reachedOnce, ?_, faithful.waitingOnce⟩
    · intro failure member
      rcases List.mem_cons.mp member with rfl | old
      · exact fails
      · exact faithful.failed failure old
    · exact List.nodup_cons.mpr ⟨fresh, faithful.failedOnce⟩
  · have fresh : path ∉ state.reachable := fun reached => by
      rw [(state.knows_iff path).mpr (Or.inl reached)] at unknown
      cases unknown
    rw [same]
    refine ⟨?_, faithful.failed, ?_, List.nodup_cons.mpr ⟨fresh, faithful.reachedOnce⟩,
      faithful.failedOnce, ?_⟩
    · intro other member
      rcases List.mem_cons.mp member with rfl | old
      · exact ⟨source, text⟩
      · exact faithful.reached other old
    · intro item member
      rcases List.mem_cons.mp member with rfl | old
      · exact ⟨List.mem_cons_self, text⟩
      · exact ⟨List.mem_cons_of_mem _ (faithful.waiting item old).1, (faithful.waiting item old).2⟩
    · refine List.nodup_cons.mpr ⟨fun waits => ?_, faithful.waitingOnce⟩
      obtain ⟨item, member, rfl⟩ := List.mem_map.mp waits
      exact fresh (faithful.waiting item member).1

theorem Faithful.record {snapshot : Snapshot} {state : State} (faithful : Faithful snapshot state)
    (dangling : List DanglingImport) (events : List Event) :
    Faithful snapshot { state with dangling, events } :=
  ⟨faithful.reached, faithful.failed, faithful.waiting, faithful.reachedOnce, faithful.failedOnce,
    faithful.waitingOnce⟩

theorem Faithful.take {snapshot : Snapshot} {state : State} (faithful : Faithful snapshot state)
    {item : Path × List Char} {rest : List (Path × List Char)} (top : state.pending = item :: rest) :
    Faithful snapshot { state with pending := rest } := by
  refine ⟨faithful.reached, faithful.failed, fun other member => ?_, faithful.reachedOnce,
    faithful.failedOnce, ?_⟩
  · exact faithful.waiting other (top ▸ List.mem_cons_of_mem _ member)
  · have distinct := faithful.waitingOnce
    rw [top, List.map_cons] at distinct
    exact distinct.of_cons

/-- The short-circuiting search enters exactly the first path that is there: the paths that a run knows
are all there, so that having entered a path before never hides an earlier candidate. -/
theorem Faithful.enterFirst_eq {snapshot : Snapshot} {state : State}
    (faithful : Faithful snapshot state) (paths : List Path) :
    state.enterFirst snapshot paths =
      match present? snapshot paths with
      | none => (false, state)
      | some path => state.enter snapshot path := by
  induction paths with
  | nil => rfl
  | cons path others ih =>
    by_cases absent : snapshot path = .missing
    · have passed : state.enter snapshot path = (false, state) := by
        simp [State.enter, faithful.unknown absent, absent]
      have search : present? snapshot (path :: others) = present? snapshot others := by
        simp [present?, absent]
      rw [enterFirst, passed, search]
      exact ih
    · have search : present? snapshot (path :: others) = some path := by
        simp [present?, absent]
      obtain ⟨next, entered⟩ := enter_there snapshot path state absent
      rw [enterFirst, search]
      simp only [entered]

/-- All that following an import can do. -/
theorem Faithful.follow_cases {snapshot : Snapshot} {state : State} (faithful : Faithful snapshot state)
    (config : Config) (importer : Path) (specifier : List Char) :
    (state.stopped = true ∧ state.follow snapshot config importer specifier = state) ∨
      (state.stopped = false ∧ config.candidates importer specifier = [] ∧
        state.follow snapshot config importer specifier =
          state.note (.skippedImport specifier importer)) ∨
      (∃ path, state.stopped = false ∧
        present? snapshot (config.candidates importer specifier) = some path ∧
        state.follow snapshot config importer specifier = (state.enter snapshot path).2) ∨
      (state.stopped = false ∧ config.candidates importer specifier ≠ [] ∧
        present? snapshot (config.candidates importer specifier) = none ∧
        state.follow snapshot config importer specifier =
          { state with dangling := ⟨some importer, specifier, config.candidates importer specifier⟩
              :: state.dangling }.note
            (.unresolvedImport config.warnUnresolved specifier importer
              (config.candidates importer specifier))) := by
  cases running : state.stopped with
  | true => simp [State.follow, running]
  | false =>
    right
    simp only [State.follow, running, Bool.false_eq_true, ↓reduceIte, true_and]
    cases tried : config.candidates importer specifier with
    | nil => simp
    | cons first others =>
      right
      simp only [faithful.enterFirst_eq (first :: others)]
      cases search : present? snapshot (first :: others) with
      | none => simp [running]
      | some path =>
        obtain ⟨-, there⟩ := present?_spec snapshot _ path search
        obtain ⟨next, entered⟩ := enter_there snapshot path state there
        simp [entered]

/-- All that following an entry point can do. -/
theorem Faithful.start_cases {snapshot : Snapshot} {state : State} (faithful : Faithful snapshot state)
    (config : Config) (given : Path) :
    (state.stopped = true ∧ state.start snapshot config given = state) ∨
      (state.stopped = false ∧ snapshot (Path.normalize config.cwd given) ≠ .missing ∧
        state.start snapshot config given =
          ((state.note (.traversing (Path.normalize config.cwd given))).enter snapshot
            (Path.normalize config.cwd given)).2) ∨
      (state.stopped = false ∧ snapshot (Path.normalize config.cwd given) = .missing ∧
        state.start snapshot config given =
          { state.note (.traversing (Path.normalize config.cwd given)) with
            dangling := ⟨none, given, [Path.normalize config.cwd given]⟩ :: state.dangling }.note
            (.entryPointMissing (Path.normalize config.cwd given))) := by
  cases running : state.stopped with
  | true => simp [State.start, running]
  | false =>
    right
    simp only [State.start, running, Bool.false_eq_true, ↓reduceIte, true_and]
    by_cases absent : snapshot (Path.normalize config.cwd given) = .missing
    · right
      have unknown : (state.note (.traversing (Path.normalize config.cwd given))).knows
          (Path.normalize config.cwd given) = false := faithful.unknown absent
      simp [State.enter, unknown, absent]
    · left
      obtain ⟨next, entered⟩ := enter_there snapshot _
        (state.note (.traversing (Path.normalize config.cwd given))) absent
      simp [absent, entered]

/-- What is kept by entering a path that is asked for and by recording. Every run keeps it as far as
taking files from the stack does. -/
structure Stable (snapshot : Snapshot) (config : Config) (entryPoints : List Path)
    (kept : State → Prop) : Prop where
  entered : ∀ state path, Faithful snapshot state → kept state →
    Asked snapshot config entryPoints (· ∈ state.reachable) path → snapshot path ≠ .missing →
    kept (state.enter snapshot path).2
  recorded : ∀ state dangling events, kept state → kept { state with dangling, events }

section Stable

variable {snapshot : Snapshot} {config : Config} {entryPoints : List Path} {kept : State → Prop}

theorem Stable.follow (stable : Stable snapshot config entryPoints kept) {state : State}
    (faithful : Faithful snapshot state) (holds : kept state) {importer : Path}
    {source specifier : List Char} (reached : importer ∈ state.reachable)
    (text : snapshot importer = .text source) (member : specifier ∈ config.specifiers importer source) :
    Faithful snapshot (state.follow snapshot config importer specifier) ∧
      kept (state.follow snapshot config importer specifier) ∧
      importer ∈ (state.follow snapshot config importer specifier).reachable := by
  obtain ⟨-, same⟩ | ⟨-, -, same⟩ | ⟨path, -, found, same⟩ | ⟨-, -, -, same⟩ :=
    faithful.follow_cases config importer specifier
  · rw [same]
    exact ⟨faithful, holds, reached⟩
  · rw [same]
    exact ⟨faithful.record state.dangling _, stable.recorded state state.dangling _ holds, reached⟩
  · have there := (present?_spec snapshot _ path found).2
    rw [same]
    refine ⟨faithful.enter there, stable.entered state path faithful holds
      (.imported importer source specifier path reached text member found) there, ?_⟩
    obtain ⟨files, -⟩ | ⟨text, -, files, -⟩ := enter_files snapshot path state there
    · exact files ▸ reached
    · exact files ▸ List.mem_cons_of_mem _ reached
  · rw [same]
    exact ⟨faithful.record _ _, stable.recorded state _ _ holds, reached⟩

theorem Stable.follow_all (stable : Stable snapshot config entryPoints kept) {state : State}
    (faithful : Faithful snapshot state) (holds : kept state) {importer : Path} {source : List Char}
    (reached : importer ∈ state.reachable) (text : snapshot importer = .text source)
    (specifiers : List (List Char)) (members : specifiers ⊆ config.specifiers importer source) :
    Faithful snapshot (specifiers.foldl (State.follow snapshot config importer) state) ∧
      kept (specifiers.foldl (State.follow snapshot config importer) state) := by
  induction specifiers generalizing state with
  | nil => exact ⟨faithful, holds⟩
  | cons specifier rest ih =>
    obtain ⟨member, others⟩ := List.cons_subset.mp members
    obtain ⟨nextFaithful, nextHolds, nextReached⟩ := stable.follow faithful holds reached text member
    exact ih nextFaithful nextHolds nextReached others

theorem Stable.start (stable : Stable snapshot config entryPoints kept) {state : State}
    (faithful : Faithful snapshot state) (holds : kept state) {given : Path}
    (member : given ∈ entryPoints) :
    Faithful snapshot (state.start snapshot config given) ∧ kept (state.start snapshot config given) := by
  have noted := faithful.record state.dangling
    (.traversing (Path.normalize config.cwd given) :: state.events)
  have notedHolds := stable.recorded state state.dangling
    (.traversing (Path.normalize config.cwd given) :: state.events) holds
  obtain ⟨-, same⟩ | ⟨-, there, same⟩ | ⟨-, -, same⟩ := faithful.start_cases config given
  · rw [same]
    exact ⟨faithful, holds⟩
  · rw [same]
    exact ⟨noted.enter there, stable.entered _ _ noted notedHolds (.entry given member) there⟩
  · rw [same]
    exact ⟨faithful.record _ _, stable.recorded state _ _ holds⟩

theorem Stable.start_all (stable : Stable snapshot config entryPoints kept) {state : State}
    (faithful : Faithful snapshot state) (holds : kept state) (given : List Path)
    (members : given ⊆ entryPoints) :
    Faithful snapshot (given.foldl (State.start snapshot config) state) ∧
      kept (given.foldl (State.start snapshot config) state) := by
  induction given generalizing state with
  | nil => exact ⟨faithful, holds⟩
  | cons first rest ih =>
    obtain ⟨member, others⟩ := List.cons_subset.mp members
    obtain ⟨nextFaithful, nextHolds⟩ := stable.start faithful holds member
    exact ih nextFaithful nextHolds others

theorem Stable.step (stable : Stable snapshot config entryPoints kept)
    (taken : ∀ state item rest, state.pending = item :: rest → kept state →
      kept { state with pending := rest }) {state : State}
    (faithful : Faithful snapshot state) (holds : kept state) :
    Faithful snapshot (state.step snapshot config) ∧ kept (state.step snapshot config) := by
  unfold State.step
  split
  next => exact ⟨faithful, holds⟩
  next path source rest top =>
    obtain ⟨reached, text⟩ := faithful.waiting (path, source) (top ▸ List.mem_cons_self)
    exact stable.follow_all (faithful.take top) (taken state _ rest top holds) reached text _
      (List.Subset.refl _)

theorem Stable.run (stable : Stable snapshot config entryPoints kept)
    (taken : ∀ state item rest, state.pending = item :: rest → kept state →
      kept { state with pending := rest }) {state : State}
    (faithful : Faithful snapshot state) (holds : kept state) (count : Nat) :
    Faithful snapshot (state.run snapshot config count) ∧ kept (state.run snapshot config count) := by
  induction count generalizing state with
  | zero => exact ⟨faithful, holds⟩
  | succ count ih =>
    rw [State.run]
    split
    next => exact ⟨faithful, holds⟩
    next =>
      obtain ⟨nextFaithful, nextHolds⟩ := stable.step taken faithful holds
      exact ih nextFaithful nextHolds

end Stable

/-- What a run never takes back. -/
structure Extends (state next : State) : Prop where
  reachable : state.reachable <:+ next.reachable
  failures : state.failures <:+ next.failures
  running : next.stopped = false → state.stopped = false

theorem Extends.refl (state : State) : Extends state state :=
  ⟨List.suffix_refl _, List.suffix_refl _, id⟩

theorem Extends.trans {first second third : State} (early : Extends first second)
    (late : Extends second third) : Extends first third :=
  ⟨early.reachable.trans late.reachable, early.failures.trans late.failures,
    fun running => early.running (late.running running)⟩

theorem Extends.knows {state next : State} (extends_ : Extends state next) {path : Path}
    (known : state.knows path = true) : next.knows path = true := by
  rw [knows_iff] at known ⊢
  rcases known with reached | failed
  · exact Or.inl (extends_.reachable.subset reached)
  · exact Or.inr (List.map_subset _ extends_.failures.subset failed)

theorem enter_extends (snapshot : Snapshot) (path : Path) (state : State)
    (there : snapshot path ≠ .missing) : Extends state (state.enter snapshot path).2 := by
  obtain ⟨-, ⟨-, same⟩ | ⟨-, same⟩ | ⟨reason, -, -, same⟩ | ⟨source, -, -, same⟩⟩ :=
    enter_cases snapshot path state there
  · rw [same]
    exact .refl state
  · rw [same]
    exact ⟨List.suffix_refl _, List.suffix_refl _, fun running => by cases running⟩
  · rw [same]
    exact ⟨List.suffix_refl _, List.suffix_cons _ _, id⟩
  · rw [same]
    exact ⟨List.suffix_cons _ _, List.suffix_refl _, id⟩

theorem extends_stable (snapshot : Snapshot) (config : Config) (entryPoints : List Path)
    (origin : State) : Stable snapshot config entryPoints (Extends origin) where
  entered := fun state path _ early _ there => early.trans (enter_extends snapshot path state there)
  recorded := fun _ _ _ early => ⟨early.reachable, early.failures, early.running⟩

/-! In a list of entry points or of imports, what comes after the first extends what the first leaves. -/

theorem Faithful.start_first {snapshot : Snapshot} {state : State} (faithful : Faithful snapshot state)
    (config : Config) (first : Path) (rest : List Path) :
    Faithful snapshot (state.start snapshot config first) ∧
      Extends (state.start snapshot config first)
        (rest.foldl (State.start snapshot config) (state.start snapshot config first)) := by
  have next := ((extends_stable snapshot config (first :: rest) state).start faithful (.refl state)
    List.mem_cons_self).1
  exact ⟨next, ((extends_stable snapshot config rest _).start_all next (.refl _) rest
    (List.Subset.refl _)).2⟩

theorem Faithful.follow_first {snapshot : Snapshot} {config : Config} {state : State}
    (faithful : Faithful snapshot state) {importer : Path} {source : List Char}
    (reached : importer ∈ state.reachable) (text : snapshot importer = .text source)
    {first : List Char} {rest : List (List Char)}
    (members : first :: rest ⊆ config.specifiers importer source) :
    Faithful snapshot (state.follow snapshot config importer first) ∧
      importer ∈ (state.follow snapshot config importer first).reachable ∧
      Extends (state.follow snapshot config importer first)
        (rest.foldl (State.follow snapshot config importer)
          (state.follow snapshot config importer first)) := by
  obtain ⟨member, others⟩ := List.cons_subset.mp members
  obtain ⟨next, -, nextReached⟩ := (extends_stable snapshot config [] state).follow faithful
    (.refl state) reached text member
  exact ⟨next, nextReached, ((extends_stable snapshot config [] _).follow_all next (.refl _) nextReached
    text rest others).2⟩

theorem Faithful.step {snapshot : Snapshot} {state : State} (faithful : Faithful snapshot state)
    (config : Config) :
    Faithful snapshot (state.step snapshot config) ∧ Extends state (state.step snapshot config) :=
  (extends_stable snapshot config [] state).step
    (fun _ _ _ _ early => ⟨early.reachable, early.failures, early.running⟩) faithful (.refl state)

/-- A run of more steps extends every state it passes. -/
theorem Faithful.run_extends {snapshot : Snapshot} {state : State} (faithful : Faithful snapshot state)
    (config : Config) (count : Nat) : Extends state (state.run snapshot config count) :=
  ((extends_stable snapshot config [] state).run
    (fun _ _ _ _ early => ⟨early.reachable, early.failures, early.running⟩)
    faithful (.refl state) count).2

end State

theorem trace_faithful (snapshot : Snapshot) (config : Config) (steps : Nat) (entryPoints : List Path) :
    State.Faithful snapshot (trace snapshot config steps entryPoints) := by
  have stable := State.extends_stable snapshot config entryPoints {}
  have started := stable.start_all (.initial snapshot) (.refl _) entryPoints (List.Subset.refl _)
  exact (stable.run (fun _ _ _ _ early => ⟨early.reachable, early.failures, early.running⟩)
    started.1 started.2 steps).1

end SheetReach.ImportGraph
