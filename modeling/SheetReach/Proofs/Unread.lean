import SheetReach.Proofs.Reachability

/-! A run depends on a snapshot only through the texts it reads and through what is missing or failing.
Two snapshots that differ at no other places give one and the same run, events included. -/
namespace SheetReach.ImportGraph

/-- The second snapshot differs from the first one only at texts outside the given files. -/
def Agree (snapshot other : Snapshot) (files : List Path) : Prop :=
  ∀ path, (∀ source, snapshot path = .text source → path ∈ files) → other path = snapshot path

namespace State

variable {snapshot other : Snapshot} {files : List Path}

theorem enter_congr (agree : Agree snapshot other files) (state : State) (path : Path)
    (inside : ∀ file ∈ (state.enter snapshot path).2.reachable, file ∈ files) :
    state.enter other path = state.enter snapshot path := by
  unfold State.enter at inside ⊢
  by_cases known : state.knows path = true
  · rw [if_pos known, if_pos known]
  rw [if_neg known] at inside ⊢
  rw [if_neg known, agree path]
  intro source text
  apply inside
  simp [text]

theorem enterFirst_congr (agree : Agree snapshot other files) {state : State}
    (faithful : Faithful snapshot state) (paths : List Path)
    (inside : ∀ file ∈ (state.enterFirst snapshot paths).2.reachable, file ∈ files) :
    state.enterFirst other paths = state.enterFirst snapshot paths := by
  induction paths with
  | nil => rfl
  | cons path others ih =>
    unfold enterFirst at inside ⊢
    by_cases absent : snapshot path = .missing
    · have still : other path = .missing := by
        rw [agree path (by simp [absent]), absent]
      have unknown := faithful.unknown absent
      have passes : state.enter snapshot path = (false, state) := by
        simp [State.enter, unknown, absent]
      have otherPasses : state.enter other path = (false, state) := by
        simp [State.enter, unknown, still]
      rw [passes] at inside ⊢
      rw [otherPasses]
      exact ih inside
    · obtain ⟨next, entered⟩ := enter_there snapshot path state absent
      have same := enter_congr agree state path (by rw [entered] at inside ⊢; exact inside)
      rw [same, entered]

theorem follow_congr (agree : Agree snapshot other files) (config : Config) {state : State}
    (faithful : Faithful snapshot state) (importer : Path) (specifier : List Char)
    (inside : ∀ file ∈ (state.follow snapshot config importer specifier).reachable, file ∈ files) :
    state.follow other config importer specifier = state.follow snapshot config importer specifier := by
  unfold State.follow at inside ⊢
  by_cases stopped : state.stopped = true
  · rw [if_pos stopped, if_pos stopped]
  rw [if_neg stopped] at inside ⊢
  rw [if_neg stopped]
  cases tried : config.candidates importer specifier with
  | nil => rfl
  | cons first others =>
    simp only [tried] at inside ⊢
    have entered : ∀ file ∈ (state.enterFirst snapshot (first :: others)).2.reachable, file ∈ files := by
      intro file member
      apply inside
      split
      next next found =>
        rw [found] at member
        exact member
      next next found =>
        rw [found] at member
        exact member
    rw [enterFirst_congr agree faithful (first :: others) entered]

theorem start_congr (agree : Agree snapshot other files) (config : Config) (state : State) (given : Path)
    (inside : ∀ file ∈ (state.start snapshot config given).reachable, file ∈ files) :
    state.start other config given = state.start snapshot config given := by
  unfold State.start at inside ⊢
  by_cases stopped : state.stopped = true
  · rw [if_pos stopped, if_pos stopped]
  rw [if_neg stopped] at inside ⊢
  rw [if_neg stopped]
  simp only at inside ⊢
  have entered : ∀ file ∈ ((state.note (.traversing (Path.normalize config.cwd given))).enter snapshot
      (Path.normalize config.cwd given)).2.reachable, file ∈ files := by
    intro file member
    apply inside
    split
    next next found =>
      rw [found] at member
      exact member
    next next found =>
      rw [found] at member
      exact member
  rw [enter_congr agree _ _ entered]

/-! What the run goes on to reach includes what it has reached, so that it is enough to know the files
at its end. -/

theorem follow_all_congr (agree : Agree snapshot other files) (config : Config) {state : State}
    (faithful : Faithful snapshot state) {importer : Path} {source : List Char}
    (reached : importer ∈ state.reachable) (text : snapshot importer = .text source)
    (specifiers : List (List Char)) (members : specifiers ⊆ config.specifiers importer source)
    (inside : ∀ file ∈ (specifiers.foldl (State.follow snapshot config importer) state).reachable,
      file ∈ files) :
    specifiers.foldl (State.follow other config importer) state =
      specifiers.foldl (State.follow snapshot config importer) state := by
  induction specifiers generalizing state with
  | nil => rfl
  | cons specifier rest ih =>
    obtain ⟨next, nextReached, later⟩ := faithful.follow_first reached text members
    rw [List.foldl_cons] at inside ⊢
    rw [List.foldl_cons, follow_congr agree config faithful importer specifier
      (fun file old => inside file (later.reachable.subset old))]
    exact ih next nextReached (List.cons_subset.mp members).2 inside

theorem start_all_congr (agree : Agree snapshot other files) (config : Config) {state : State}
    (faithful : Faithful snapshot state) (entryPoints : List Path)
    (inside : ∀ file ∈ (entryPoints.foldl (State.start snapshot config) state).reachable, file ∈ files) :
    entryPoints.foldl (State.start other config) state =
      entryPoints.foldl (State.start snapshot config) state := by
  induction entryPoints generalizing state with
  | nil => rfl
  | cons given rest ih =>
    obtain ⟨next, later⟩ := faithful.start_first config given rest
    rw [List.foldl_cons] at inside ⊢
    rw [List.foldl_cons, start_congr agree config state given
      (fun file old => inside file (later.reachable.subset old))]
    exact ih next inside

theorem step_congr (agree : Agree snapshot other files) (config : Config) {state : State}
    (faithful : Faithful snapshot state)
    (inside : ∀ file ∈ (state.step snapshot config).reachable, file ∈ files) :
    state.step other config = state.step snapshot config := by
  unfold State.step at inside ⊢
  cases waiting : state.pending with
  | nil => rfl
  | cons item rest =>
    obtain ⟨path, source⟩ := item
    simp only [waiting] at inside ⊢
    obtain ⟨reached, text⟩ := faithful.waiting (path, source) (waiting ▸ List.mem_cons_self)
    exact follow_all_congr agree config (faithful.take waiting) reached text _ (List.Subset.refl _) inside

theorem run_congr (agree : Agree snapshot other files) (config : Config) {state : State}
    (faithful : Faithful snapshot state) (count : Nat)
    (inside : ∀ file ∈ (state.run snapshot config count).reachable, file ∈ files) :
    state.run other config count = state.run snapshot config count := by
  induction count generalizing state with
  | zero => rfl
  | succ count ih =>
    unfold State.run at inside ⊢
    by_cases settled : state.settled = true
    · rw [if_pos settled, if_pos settled]
    rw [if_neg settled] at inside ⊢
    rw [if_neg settled]
    have nextFaithful := (faithful.step config).1
    have later := nextFaithful.run_extends config count
    rw [step_congr agree config faithful (fun file old => inside file (later.reachable.subset old))]
    exact ih nextFaithful inside

end State

theorem trace_congr {snapshot other : Snapshot} {files : List Path} (agree : Agree snapshot other files)
    (config : Config) (steps : Nat) (entryPoints : List Path)
    (inside : ∀ file ∈ (trace snapshot config steps entryPoints).reachable, file ∈ files) :
    trace other config steps entryPoints = trace snapshot config steps entryPoints := by
  have started := (State.started_files snapshot config entryPoints).1
  have later := started.run_extends config steps
  unfold trace at inside ⊢
  rw [State.start_all_congr agree config (.initial snapshot) entryPoints
    (fun file old => inside file (later.reachable.subset old))]
  exact State.run_congr agree config started steps inside

/-- Whatever happens to files that were not read, the graph stays the same. -/
theorem Builds.congr {snapshot other : Snapshot} {config : Config} {entryPoints : List Path}
    {graph : ImportGraph} (built : Builds snapshot config entryPoints graph)
    (agree : Agree snapshot other graph.reachable) : Builds other config entryPoints graph := by
  obtain ⟨steps, finished, running, rfl⟩ := built
  have same := trace_congr agree config steps entryPoints (fun file member => List.mem_reverse.mpr member)
  exact ⟨steps, by rw [same]; exact finished, by rw [same]; exact running, by rw [same]⟩

end SheetReach.ImportGraph
